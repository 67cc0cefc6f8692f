import TerminalKernel.Machine.Basic

namespace TerminalKernel

abbrev irqCount : Nat := 16

abbrev maxCopyRecords : Nat := 64

structure CopyRecord where
  target : VirtAddr
  phys : PhysAddr
  length : Nat
  checksum : UInt32
  deriving DecidableEq

structure MachineRecorder where
  interrupts : Bool := true
  cr3 : Option PhysAddr := none
  cr3Loads : Nat := 0
  stack : KernelStack := ⟨Selector.kernelData, 0⟩
  eoi : Vector UInt32 irqCount := Vector.replicate _ 0
  masked : Vector Bool irqCount := Vector.replicate _ true
  timer : Option TimerProgram := none
  copies : Array CopyRecord := #[]
  bytesCopied : Nat := 0
  deriving DecidableEq

namespace MachineRecorder

def eoiCount (m : MachineRecorder) (irq : Nat) : UInt32 := m.eoi[irq]?.getD 0

/-- A line that does not exist is masked. -/
def isMasked (m : MachineRecorder) (irq : Nat) : Bool := m.masked[irq]?.getD true

def copiedChecksum (m : MachineRecorder) : UInt32 :=
  m.copies.foldl (fun sum c => sum + c.checksum) 0

def clearCopies (m : MachineRecorder) : MachineRecorder :=
  { m with copies := #[], bytesCopied := 0 }

def perform (call : MachineCall) (m : MachineRecorder) : MachineRecorder :=
  match call with
  | .disableInterrupts => { m with interrupts := false }
  | .enableInterrupts => { m with interrupts := true }
  | .loadPageDirectory root => { m with cr3 := some root, cr3Loads := m.cr3Loads + 1 }
  | .setKernelStack stack => { m with stack }
  | .endOfInterrupt irq =>
    { m with eoi := m.eoi.setIfInBounds irq.toNat (m.eoiCount irq.toNat + 1) }
  | .setIrqMask irq masked => { m with masked := m.masked.setIfInBounds irq.toNat masked }
  | .programTimer program => { m with timer := some program }
  | .copyToUser target phys bytes =>
    { m with
      bytesCopied := m.bytesCopied + bytes.length
      copies :=
        if m.copies.size < maxCopyRecords then
          m.copies.push ⟨target, phys, bytes.length, Bytes.checksum bytes⟩
        else m.copies }

instance : Machine MachineRecorder where
  interruptsEnabled m := m.interrupts
  kernelStack m := m.stack
  perform := perform

end MachineRecorder

end TerminalKernel
