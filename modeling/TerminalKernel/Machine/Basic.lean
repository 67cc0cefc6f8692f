import TerminalKernel.Machine.Context
import TerminalKernel.Timer

namespace TerminalKernel

inductive MachineCall where
  | disableInterrupts
  | enableInterrupts
  | loadPageDirectory (root : PhysAddr)
  | setKernelStack (stack : KernelStack)
  | endOfInterrupt (irq : UInt8)
  | setIrqMask (irq : UInt8) (masked : Bool)
  | programTimer (program : TimerProgram)
  /-- Store a part of a program in the active address space, where `target` leads to `phys`. -/
  | copyToUser (target : VirtAddr) (phys : PhysAddr) (bytes : Bytes)
  deriving DecidableEq

def timerIrq : UInt8 := 0

class Machine (M : Type) where
  interruptsEnabled : M → Bool
  kernelStack : M → KernelStack
  perform : MachineCall → M → M

structure Traced (M : Type) where
  machine : M
  calls : Array MachineCall := #[]

namespace Traced

variable {M : Type} [Machine M]

instance : Machine (Traced M) where
  interruptsEnabled t := Machine.interruptsEnabled t.machine
  kernelStack t := Machine.kernelStack t.machine
  perform call t := ⟨Machine.perform call t.machine, t.calls.push call⟩

end Traced

end TerminalKernel
