import TerminalKernel.Address
import TerminalKernel.Text

namespace TerminalKernel

abbrev processCapacity : Nat := 6

abbrev terminalCount : Nat := 3

inductive ConfigError where
  | misaligned (what : String)
  | outOfRange (what : String)
  deriving DecidableEq

namespace ConfigError

def message : ConfigError → String
  | misaligned what => "misaligned: " ++ what
  | outOfRange what => "out of range: " ++ what

instance : ToString ConfigError where
  toString
    | misaligned what => "Misaligned(" ++ Quoted.text what ++ ")"
    | outOfRange what => "OutOfRange(" ++ Quoted.text what ++ ")"

end ConfigError

structure Layout where
  kernelRegion : PhysAddr := ⟨0x400000⟩
  programWindow : VirtAddr := ⟨0x8000000⟩
  /-- What backs the window of slot 0; the other slots follow. -/
  programPhysBase : PhysAddr := ⟨0x800000⟩
  loadAddress : VirtAddr := ⟨0x8048000⟩
  video : PhysAddr := ⟨0xB8000⟩
  /-- The hidden text buffer of terminal 0; the other terminals follow. -/
  videoBuffers : PhysAddr := ⟨0xB9000⟩
  kernelStackSize : UInt32 := 0x2000
  /-- The end of the kernel stacks; slot 0 has the highest one. -/
  kernelStackRegionEnd : UInt32 := 0x800000
  /-- The kernel stack while no process runs. -/
  globalKernelStack : UInt32 := 0x7FFFFC
  pagingArena : PhysAddr := ⟨0x600000⟩
  deriving DecidableEq

namespace Layout

def programWindowEnd (l : Layout) : UInt32 := l.programWindow.val + largePageSize

def inProgramWindow (l : Layout) (a : UInt32) : Bool :=
  l.programWindow.val ≤ a && a < l.programWindowEnd

def userStackTop (l : Layout) : UInt32 := l.programWindowEnd - 4

def programPhys (l : Layout) (slot : Nat) : PhysAddr :=
  l.programPhysBase.offset (largePageSize * UInt32.ofNat slot)

def videoBuffer (l : Layout) (terminal : Nat) : PhysAddr :=
  l.videoBuffers.offset (pageSize * UInt32.ofNat terminal)

def recordAddress (l : Layout) (slot : Nat) : UInt32 :=
  l.kernelStackRegionEnd - l.kernelStackSize * (UInt32.ofNat slot + 1)

def kernelStackTop (l : Layout) (slot : Nat) : UInt32 :=
  l.kernelStackRegionEnd - l.kernelStackSize * UInt32.ofNat slot - 4

def isPowerOfTwo (w : UInt32) : Bool := (List.range 32).any fun k => w.toNat == 1 <<< k

/-- The first fault of a layout, in the order of its fields. Sums are taken without wrapping. -/
def validate (l : Layout) : Except ConfigError Unit :=
  if l.kernelRegion.val % largePageSize ≠ 0 ∨ l.kernelRegion.val = 0 then
    .error (.misaligned "kernel_region")
  else if l.programWindow.val % largePageSize ≠ 0 ∨ !l.programWindow.isLargeRegion then
    .error (.misaligned "program_window")
  else if wordCount ≤ l.programWindow.val.toNat + largePageSize.toNat then
    .error (.outOfRange "program_window")
  else if l.programPhysBase.val % largePageSize ≠ 0 then
    .error (.misaligned "program_phys_base")
  else if wordCount < l.programPhysBase.val.toNat + largePageSize.toNat * processCapacity then
    .error (.outOfRange "program_phys_base")
  else if !l.inProgramWindow l.loadAddress.val then
    .error (.outOfRange "load_address")
  else if !l.video.isAligned ∨ !l.videoBuffers.isAligned then
    .error (.misaligned "video")
  else if largePageSize.toNat < l.videoBuffers.val.toNat + pageSize.toNat * terminalCount ∨
      largePageSize ≤ l.video.val then
    .error (.outOfRange "video")
  else if !isPowerOfTwo l.kernelStackSize ∨ l.kernelStackSize < pageSize then
    .error (.misaligned "kernel_stack_size")
  else if l.kernelStackRegionEnd.toNat < l.kernelStackSize.toNat * processCapacity ∨
      l.kernelStackRegionEnd % l.kernelStackSize ≠ 0 then
    .error (.outOfRange "kernel_stack_region_end")
  else
    .ok ()

end Layout

end TerminalKernel
