import TerminalKernel.Bytes

namespace TerminalKernel

abbrev Selector := UInt16

namespace Selector

def ofIndex (index level : UInt16) : Selector := index * 8 ||| level

def kernelCode : Selector := ofIndex 2 0
def kernelData : Selector := ofIndex 3 0
def userCode : Selector := ofIndex 4 3
def userData : Selector := ofIndex 5 3
def taskState : Selector := ofIndex 6 0

end Selector

structure KernelStack where
  ss0 : Selector
  esp0 : UInt32
  deriving DecidableEq

namespace KernelStack

/-- The task state segment of 104 bytes before its first use: this stack, no input and output
permissions, zero elsewhere. -/
def taskSegment (s : KernelStack) : Bytes :=
  ([0, s.esp0.toNat, s.ss0.toNat] ++ List.replicate 22 0 ++ [104 * 65536]).flatMap (Bytes.ofNat 4)

end KernelStack

structure UserEntry where
  eip : UInt32
  esp : UInt32
  cs : Selector
  ss : Selector
  ds : Selector
  eflags : UInt32
  deriving DecidableEq

namespace UserEntry

def flags : UInt32 := 0x202

def start (eip esp : UInt32) : UserEntry :=
  ⟨eip, esp, Selector.userCode, Selector.userData, Selector.userData, flags⟩

end UserEntry

structure SavedContext where
  esp : UInt32
  ebp : UInt32
  stack : KernelStack
  deriving DecidableEq

namespace SavedContext

/-- The context of an entry stub's frame. Both registers are aligned, the frame lies at or above the
stack pointer, and its return address does not wrap. -/
def ofStubFrame? (esp ebp : UInt32) (ss0 : Selector) : Option SavedContext :=
  if esp % 4 ≠ 0 ∨ ebp % 4 ≠ 0 ∨ ebp < esp ∨ wordCount ≤ ebp.toNat + 8 then none
  else some ⟨esp, ebp, ⟨ss0, 0⟩⟩

end SavedContext

end TerminalKernel
