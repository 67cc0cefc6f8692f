import TerminalKernel.Machine.Basic

namespace TerminalKernel

structure UserMemory where
  byte : Nat → UInt8 := fun _ => 0

namespace UserMemory

def load (m : UserMemory) (address : UInt32) (n : Nat) : Bytes :=
  (List.range n).map fun i => m.byte (address.toNat + i)

def store (m : UserMemory) (address : UInt32) (bs : Bytes) : UserMemory :=
  let first := address.toNat
  let stored := bs.toArray
  { byte := fun a => if first ≤ a then (stored[a - first]?).getD (m.byte a) else m.byte a }

end UserMemory

inductive ProcessorEvent where
  | ioWrite (address : UInt16) (value : UInt8)
  | ioRead (address : UInt16) (value : UInt8)
  | interruptsOff
  | interruptsOn
  | loadCr3 (root : PhysAddr)
  deriving DecidableEq

structure Processor where
  interrupts : Bool := true
  cr3 : Option PhysAddr := none
  taskStack : KernelStack := ⟨Selector.kernelData, 0⟩
  ioSpace : List (UInt16 × UInt8) := []
  busy : Nat := 0
  memory : UserMemory := {}
  events : Array ProcessorEvent := #[]

namespace Processor

def picMasterCommand : UInt16 := 0x20
def picMasterData : UInt16 := 0x21
def picSlaveCommand : UInt16 := 0xA0
def picSlaveData : UInt16 := 0xA1
/-- Specific end of interrupt; the line is in the low bits. -/
def picEnd : UInt8 := 0x60
def picCascade : UInt8 := 2
def pitCommand : UInt16 := 0x43
def pitData : UInt16 := 0x40
def serialStatus : UInt16 := 0x3FD
def serialReady : UInt8 := 0x20

def setIo (p : Processor) (address : UInt16) (value : UInt8) : Processor :=
  { p with ioSpace := (address, value) :: p.ioSpace }

def ioWrite (p : Processor) (address : UInt16) (value : UInt8) : Processor :=
  { p.setIo address value with events := p.events.push (.ioWrite address value) }

/-- What an I/O address reads back: the serial status its readiness, any other what was written
last. -/
def ioValue (p : Processor) (address : UInt16) : UInt8 :=
  if address = serialStatus then if p.busy = 0 then serialReady else 0
  else (p.ioSpace.lookup address).getD 0xFF

def ioRead (p : Processor) (address : UInt16) : UInt8 × Processor :=
  let value := p.ioValue address
  (value,
    { p with
      busy := if address = serialStatus then p.busy - 1 else p.busy
      events := p.events.push (.ioRead address value) })

def endOfInterrupt (p : Processor) (irq : UInt8) : Processor :=
  if 8 ≤ irq then
    (p.ioWrite picSlaveCommand (picEnd ||| (irq - 8))).ioWrite picMasterCommand
      (picEnd ||| picCascade)
  else p.ioWrite picMasterCommand (picEnd ||| irq)

def setIrqMask (p : Processor) (irq : UInt8) (masked : Bool) : Processor :=
  let (address, line) := if 8 ≤ irq then (picSlaveData, irq - 8) else (picMasterData, irq)
  let (mask, p) := p.ioRead address
  p.ioWrite address (if masked then mask ||| 1 <<< line else mask &&& ~~~(1 <<< line))

def programTimer (p : Processor) (t : TimerProgram) : Processor :=
  ((p.ioWrite pitCommand t.command).ioWrite pitData t.divisor.toUInt8).ioWrite pitData
    (t.divisor >>> 8).toUInt8

def perform (call : MachineCall) (p : Processor) : Processor :=
  match call with
  | .disableInterrupts => { p with interrupts := false, events := p.events.push .interruptsOff }
  | .enableInterrupts => { p with interrupts := true, events := p.events.push .interruptsOn }
  | .loadPageDirectory root => { p with cr3 := some root, events := p.events.push (.loadCr3 root) }
  | .setKernelStack stack => { p with taskStack := stack }
  | .endOfInterrupt irq => p.endOfInterrupt irq
  | .setIrqMask irq masked => p.setIrqMask irq masked
  | .programTimer program => p.programTimer program
  | .copyToUser target _ bytes => { p with memory := p.memory.store target.val bytes }

instance : Machine Processor where
  interruptsEnabled p := p.interrupts
  kernelStack p := p.taskStack
  perform := perform

end Processor

end TerminalKernel
