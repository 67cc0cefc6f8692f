import TerminalKernel.Kernel.Launch

namespace TerminalKernel

def nextTerminal (live : Vector Nat terminalCount) (t : TerminalId) : Option TerminalId :=
  [t.next, t.next.next].find? fun u => 0 < live.get u

namespace Kernel

variable {M D F : Type}

def turnOf (k : Kernel M D F) : TerminalId :=
  match k.current.bind k.processes.get? with
  | some p => p.terminal
  | none => k.displayed

def nextProcess (k : Kernel M D F) : Option ProcessId :=
  let t := k.turnOf
  let next :=
    if k.current = none ∧ 0 < k.liveCounts.get t then some t else nextTerminal k.liveCounts t
  next.bind fun u => (k.terminals.get u).top

variable [Machine M]

def switchTo (target : ProcessId) (interrupted : SavedContext) (k : Kernel M D F) :
    Except KernelError (Transfer × Kernel M D F) := do
  let p ← k.processes.get target
  let some space := p.space | .error .unknownProcess
  let (stack, transfer) ←
    match p.state with
    | .preempted context => pure (context.stack, Transfer.resume target context none)
    | .ready entry =>
      pure (⟨Selector.kernelData, p.kernelStackTop⟩, Transfer.enterUser target entry)
    | _ => .error .unsupported
  let k ← (k.activate space).mapError .ofSpace
  let left := k.current
  let k := (k.parkCurrent (some interrupted)).perform (.setKernelStack stack)
  let k := (k.modifyProcess target fun p => { p with state := .running }).setCurrent (some target)
  return (transfer, k.record (.taskSwitched left target))

/-- Let the next process run. If it cannot, the current one goes on. -/
def takeTurn (interrupted : SavedContext) (k : Kernel M D F) : Transfer × Kernel M D F :=
  match k.nextProcess with
  | none => (.proceed, k)
  | some target =>
    match k.switchTo target interrupted with
    | .ok r => r
    | .error _ => (.proceed, k.logError)

def timerTickLocked (interrupted : SavedContext) (k : Kernel M D F) : Transfer × Kernel M D F :=
  let (transfer, k) := { k with ticks := k.ticks + 1 }.takeTurn interrupted
  (transfer, k.perform (.endOfInterrupt timerIrq))

def timerTick (interrupted : SavedContext) (k : Kernel M D F) : Transfer × Kernel M D F :=
  k.critical (timerTickLocked interrupted)

end Kernel

end TerminalKernel
