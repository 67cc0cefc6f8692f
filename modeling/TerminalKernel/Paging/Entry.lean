import TerminalKernel.Address

namespace TerminalKernel

structure PageFlags where
  bits : UInt32
  deriving DecidableEq, Inhabited

namespace PageFlags

def present : PageFlags := ⟨0x001⟩
def writable : PageFlags := ⟨0x002⟩
def user : PageFlags := ⟨0x004⟩
def writeThrough : PageFlags := ⟨0x008⟩
def cacheDisable : PageFlags := ⟨0x010⟩
def accessed : PageFlags := ⟨0x020⟩
def dirty : PageFlags := ⟨0x040⟩
/-- The directory entry is a large page itself and links no table. -/
def large : PageFlags := ⟨0x080⟩
/-- The cached entry outlives a load of the directory register. -/
def global : PageFlags := ⟨0x100⟩

def ofBits (bits : UInt32) : PageFlags := ⟨bits &&& 0x1FF⟩

instance : OrOp PageFlags := ⟨fun a b => ⟨a.bits ||| b.bits⟩⟩
instance : AndOp PageFlags := ⟨fun a b => ⟨a.bits &&& b.bits⟩⟩

def contains (a b : PageFlags) : Bool := a.bits &&& b.bits == b.bits

/-- What a caller of `map` and `remap` may choose; the present and the large bit are set here. -/
def callerMask : PageFlags := writable ||| user ||| writeThrough ||| cacheDisable ||| global

def names : List (PageFlags × String) :=
  [(present, "PRESENT"), (writable, "WRITABLE"), (user, "USER"),
    (writeThrough, "WRITE_THROUGH"), (cacheDisable, "CACHE_DISABLE"), (accessed, "ACCESSED"),
    (dirty, "DIRTY"), (large, "LARGE"), (global, "GLOBAL")]

instance : ToString PageFlags where
  toString a :=
    let set := (names.filter fun p => a.contains p.1).map Prod.snd
    "PageFlags(" ++ (if set.isEmpty then "0x0" else " | ".intercalate set) ++ ")"

end PageFlags

structure Entry where
  bits : UInt32
  deriving DecidableEq, Inhabited

namespace Entry

def empty : Entry := ⟨0⟩

def small (base : PhysAddr) (flags : PageFlags) : Entry :=
  ⟨base.alignDown.val ||| (flags ||| .present).bits⟩

def large (base : PhysAddr) (flags : PageFlags) : Entry :=
  ⟨base.alignDownLarge.val ||| (flags ||| .present ||| .large).bits⟩

def flags (e : Entry) : PageFlags := .ofBits e.bits

def isPresent (e : Entry) : Bool := e.flags.contains .present

def isLarge (e : Entry) : Bool := e.flags.contains .large

def base (e : Entry) : PhysAddr :=
  if e.isLarge then PhysAddr.alignDownLarge ⟨e.bits⟩ else PhysAddr.alignDown ⟨e.bits⟩

instance : ToString Entry where
  toString e := "Entry(0x" ++ Hexadecimal.padded 8 e.bits.toNat ++ ")"

end Entry

abbrev PageTable := Vector Entry entryCount

namespace PageTable

def empty : PageTable := Vector.replicate entryCount .empty

def presentCount (t : PageTable) : Nat := t.countP Entry.isPresent

end PageTable

end TerminalKernel
