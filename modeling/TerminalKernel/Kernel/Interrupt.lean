import TerminalKernel.Kernel.Boot
import TerminalKernel.Kernel.Operation
import TerminalKernel.Machine.Processor

namespace TerminalKernel

inductive Outcome where
  | returned (value : Option Int)
  | entered (entry : UserEntry)
  | resumed (context : SavedContext) (value : Int)
  | halted
  deriving DecidableEq

namespace Kernel

variable {D F : Type} [Devices D] [FileSystem F]

def syscallBuffer (number argument start length : UInt32) (caller : SavedContext)
    (k : Kernel Processor D F) : Transfer × Kernel Processor D F :=
  let bytes := k.machine.memory.load start length.toNat
  let (reply, k) := k.syscallRaw number argument bytes caller
  let memory := (reply.buffer.map fun bs => k.machine.memory.store start bs).getD k.machine.memory
  (reply.transfer, { k with machine := { k.machine with memory } })

end Kernel

/-- The way from the entry stubs to the kernel. It is closed until the kernel registers. -/
structure Gate (K : Type) where
  kernel : K
  registered : Bool := false

namespace Gate

variable {K α : Type}

def register (g : Gate K) : Gate K := { g with registered := true }

def unregister (g : Gate K) : Gate K := { g with registered := false }

def enter (body : K → α × K) (g : Gate K) : Option α × Gate K :=
  if g.registered then
    let r := body g.kernel
    (some r.1, { g with kernel := r.2 })
  else (none, g)

end Gate

abbrev BareKernel (D F : Type) := Gate (Kernel Processor D F)

namespace Gate

variable {D F : Type}

def complete (transfer : Transfer) (g : BareKernel D F) : Outcome × BareKernel D F :=
  match transfer with
  | .answer value => (.returned (some value), g)
  | .proceed => (.returned (some 0), g)
  | .enterUser _ entry => (.entered entry, g)
  | .resume _ context status => (.resumed context (status.getD 0), g)
  | .idle => (.halted, { g with kernel := g.kernel.perform .enableInterrupts })

def fail (g : BareKernel D F) : Outcome × BareKernel D F :=
  (.halted, { g with kernel := g.kernel.logError })

def stubContext (esp ebp : UInt32) : Option SavedContext :=
  SavedContext.ofStubFrame? esp ebp Selector.kernelData

/-- Go through the gate with the context of a stub and carry out the transfer. A malformed frame
leaves nothing to return to. -/
def enterWith (esp ebp : UInt32)
    (body : SavedContext → Kernel Processor D F → Transfer × Kernel Processor D F)
    (g : BareKernel D F) : Outcome × BareKernel D F :=
  match stubContext esp ebp with
  | some context =>
    match g.enter (body context) with
    | (some transfer, g) => g.complete transfer
    | (none, g) => (.returned none, g)
  | none => if g.registered then g.fail else (.returned none, g)

def withoutValue (r : Outcome × BareKernel D F) : Outcome × BareKernel D F :=
  match r with
  | (.returned _, g) => (.returned none, g)
  | r => r

def admits (layout : Layout) (start length : UInt32) : Bool :=
  let stop := start.toNat + length.toNat
  stop < wordCount && layout.inProgramWindow start && stop ≤ layout.programWindowEnd.toNat

variable [Devices D] [FileSystem F]

def start (placement : PhysAddr) (g : BareKernel D F) : Outcome × BareKernel D F :=
  match { g.kernel with spaces := { g.kernel.spaces with placement } }.boot with
  | (.error _, kernel) => { g with kernel }.fail
  | (.ok first, kernel) =>
    match (Gate.register { g with kernel }).complete first with
    | (.returned _, g) => g.fail
    | r => r

def timerEntry (esp ebp : UInt32) (g : BareKernel D F) : Outcome × BareKernel D F :=
  withoutValue (g.enterWith esp ebp fun context k => k.timerTick context)

def syscallEntry (number argument start length esp ebp : UInt32) (g : BareKernel D F) :
    Outcome × BareKernel D F :=
  if !g.registered ∨ length ≠ 0 ∧ !admits g.kernel.layout start length then
    (.returned (some KernelError.sentinel), g)
  else g.enterWith esp ebp fun context k => k.syscallBuffer number argument start length context

def exceptionEntry (vector : UInt32) (g : BareKernel D F) : Outcome × BareKernel D F :=
  match g.enter (fun k => k.exception vector.toUInt8) with
  | (some transfer, g) => withoutValue (g.complete transfer)
  | (none, g) => g.fail

def terminalEntry (entered esp ebp : UInt32) (g : BareKernel D F) : Outcome × BareKernel D F :=
  match TerminalId.ofNat? entered.toNat with
  | none => (.returned none, g)
  | some t => withoutValue (g.enterWith esp ebp fun context k => k.switchTerminal t (some context))

end Gate

end TerminalKernel
