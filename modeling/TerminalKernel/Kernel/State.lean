import TerminalKernel.AddressSpace.Arena
import TerminalKernel.Machine.Basic
import TerminalKernel.ProcessTable.Basic

namespace TerminalKernel

inductive Transfer where
  | answer (value : Int)
  | proceed
  | enterUser (pid : ProcessId) (entry : UserEntry)
  | resume (pid : ProcessId) (context : SavedContext) (status : Option Int)
  | idle
  deriving DecidableEq

inductive Event where
  | processLaunched (pid : ProcessId) (terminal : TerminalId) (parent : Option ProcessId)
  | launchFailed (terminal : TerminalId) (error : KernelError)
  | processHalted (pid : ProcessId) (status : Int)
  | shellRelaunched (terminal : TerminalId)
  | parentResumed (pid : ProcessId) (status : Int)
  | taskSwitched (left : Option ProcessId) (entered : ProcessId)
  | terminalSwitched (left entered : TerminalId)
  | teardownFailed (error : KernelError)
  | exceptionRaised (pid : ProcessId) (vector : UInt8)
  deriving DecidableEq

abbrev maxEvents : Nat := 256

inductive LogLevel where
  | info
  | warn
  | error
  deriving DecidableEq

structure Log where
  errors : UInt64 := 0
  onScreen : Bool := true
  deriving DecidableEq

namespace Log

def write (level : LogLevel) (l : Log) : Log :=
  if level = .error then { l with errors := l.errors + 1 } else l

end Log

structure TerminalSlot where
  top : Option ProcessId := none
  live : Nat := 0
  deriving DecidableEq

structure Kernel (M D F : Type) where
  machine : M
  devices : D
  fs : F
  layout : Layout
  timer : TimerConfig
  spaces : SpaceArena
  /-- The directory that was loaded last, with the map behind it at that moment. -/
  loaded : Option (PhysAddr × PageMap)
  processes : ProcessTable
  terminals : Vector TerminalSlot terminalCount
  displayed : TerminalId
  ticks : UInt64
  events : Array Event
  log : Log

namespace Kernel

variable {M D F : Type}

def fresh (machine : M) (devices : D) (fs : F) (layout : Layout) (timer : TimerConfig) :
    Kernel M D F where
  machine := machine
  devices := devices
  fs := fs
  layout := layout
  timer := timer
  spaces := { placement := layout.pagingArena }
  loaded := none
  processes := .empty layout
  terminals := Vector.replicate _ {}
  displayed := .first
  ticks := 0
  events := #[]
  log := {}

def current (k : Kernel M D F) : Option ProcessId := k.processes.current

def liveCounts (k : Kernel M D F) : Vector Nat terminalCount := k.terminals.map TerminalSlot.live

def record (e : Event) (k : Kernel M D F) : Kernel M D F :=
  if k.events.size < maxEvents then { k with events := k.events.push e } else k

def logError (k : Kernel M D F) : Kernel M D F := { k with log := k.log.write .error }

def modifyProcess (pid : ProcessId) (f : ProcessRecord → ProcessRecord) (k : Kernel M D F) :
    Kernel M D F :=
  { k with processes := k.processes.modify pid f }

def modifyTerminal (t : TerminalId) (f : TerminalSlot → TerminalSlot) (k : Kernel M D F) :
    Kernel M D F :=
  { k with terminals := k.terminals.set t (f (k.terminals.get t)) t.isLt }

def setCurrent (pid : Option ProcessId) (k : Kernel M D F) : Kernel M D F :=
  { k with processes := { k.processes with current := pid } }

def videoTarget (t : TerminalId) (k : Kernel M D F) : PhysAddr :=
  if t = k.displayed then k.layout.video else k.layout.videoBuffer t

def discardSpace (space : SpaceId) (k : Kernel M D F) : Kernel M D F :=
  match k.spaces.teardown space with
  | .ok spaces => { k with spaces }
  | .error e => k.logError.record (.teardownFailed (.ofSpace e))

def releaseProcess (pid : ProcessId) (k : Kernel M D F) : Kernel M D F :=
  match k.processes.destroy pid with
  | .ok processes => { k with processes }
  | .error _ => k.logError

variable [Machine M]

def perform (call : MachineCall) (k : Kernel M D F) : Kernel M D F :=
  { k with machine := Machine.perform call k.machine }

/-- Run with interrupts off; they come back on if they were on. -/
def critical {α : Type} (body : Kernel M D F → α × Kernel M D F) (k : Kernel M D F) :
    α × Kernel M D F :=
  let enabled := Machine.interruptsEnabled k.machine
  let r := body (k.perform .disableInterrupts)
  (r.1, if enabled then r.2.perform .enableInterrupts else r.2)

def activate (space : SpaceId) (k : Kernel M D F) : Except SpaceError (Kernel M D F) := do
  let m ← k.spaces.lookup space
  let (root, spaces) ← k.spaces.activate space
  return { k with spaces, loaded := some (root, m) }.perform (.loadPageDirectory root)

end Kernel

end TerminalKernel
