import TerminalKernel.Text

namespace TerminalKernel

def pageSize : UInt32 := 0x1000

def largePageSize : UInt32 := 0x400000

abbrev entryCount : Nat := 1024

structure PhysAddr where
  val : UInt32
  deriving DecidableEq, Inhabited

structure VirtAddr where
  val : UInt32
  deriving DecidableEq, Inhabited

namespace PhysAddr

def alignDown (a : PhysAddr) : PhysAddr := ⟨a.val - a.val % pageSize⟩

def alignDownLarge (a : PhysAddr) : PhysAddr := ⟨a.val - a.val % largePageSize⟩

def offset (a : PhysAddr) (n : UInt32) : PhysAddr := ⟨a.val + n⟩

def isAligned (a : PhysAddr) : Bool := a.val % pageSize == 0

instance : ToString PhysAddr where
  toString a := "PhysAddr(0x" ++ Hexadecimal.digits a.val.toNat ++ ")"

end PhysAddr

namespace VirtAddr

def alignDown (a : VirtAddr) : VirtAddr := ⟨a.val - a.val % pageSize⟩

def offset (a : VirtAddr) (n : UInt32) : VirtAddr := ⟨a.val + n⟩

def dirIndex (a : VirtAddr) : Fin entryCount :=
  ⟨a.val.toNat / 0x400000, by have := a.val.toNat_lt; show _ < 1024; omega⟩

def tableIndex (a : VirtAddr) : Fin entryCount :=
  ⟨a.val.toNat / 0x1000 % 1024, Nat.mod_lt _ (by decide)⟩

/-- Pages below 4 MiB have 4 KiB, those from there on 4 MiB. -/
def isLargeRegion (a : VirtAddr) : Bool := largePageSize ≤ a.val

def pageOffset (a : VirtAddr) : UInt32 := a.val % pageSize

def largePageOffset (a : VirtAddr) : UInt32 := a.val % largePageSize

instance : ToString VirtAddr where
  toString a := "VirtAddr(0x" ++ Hexadecimal.digits a.val.toNat ++ ")"

end VirtAddr

end TerminalKernel
