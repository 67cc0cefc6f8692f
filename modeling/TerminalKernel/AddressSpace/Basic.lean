import TerminalKernel.Paging.Entry

namespace TerminalKernel

inductive SpaceId where
  | kernel
  | process (slot : Nat)
  deriving DecidableEq

inductive SpaceError where
  | mappingConflict
  | mappingAbsent
  | notOwned
  | alreadyOwned
  | kernelSpace
  | activeSpace
  | badSlot
  deriving DecidableEq

namespace SpaceError

def message : SpaceError → String
  | mappingConflict => "mapping conflict"
  | mappingAbsent => "mapping absent"
  | notOwned => "address space not owned"
  | alreadyOwned => "address space already owned"
  | kernelSpace => "kernel address space"
  | activeSpace => "address space is active"
  | badSlot => "bad address space slot"

instance : ToString SpaceError where
  toString
    | mappingConflict => "MappingConflict"
    | mappingAbsent => "MappingAbsent"
    | notOwned => "NotOwned"
    | alreadyOwned => "AlreadyOwned"
    | kernelSpace => "KernelSpace"
    | activeSpace => "ActiveSpace"
    | badSlot => "BadSlot"

end SpaceError

/-- A page directory and the table for addresses below 4 MiB. -/
structure PageMap where
  directory : PageTable
  table : PageTable
  deriving DecidableEq

namespace PageMap

def empty : PageMap := ⟨.empty, .empty⟩

/-- The map with its low table linked; an entry that is there stays. -/
def link (m : PageMap) (toTable : Entry) : PageMap :=
  if m.directory[0].isPresent then m
  else { m with directory := m.directory.set 0 toTable }

def map (m : PageMap) (toTable : Entry) (virt : VirtAddr) (phys : PhysAddr) (flags : PageFlags) :
    Except SpaceError PageMap :=
  let flags := flags &&& PageFlags.callerMask
  if virt.isLargeRegion then
    if m.directory[virt.dirIndex].isPresent then .error .mappingConflict
    else .ok { m with directory := m.directory.set virt.dirIndex (.large phys flags) }
  else if m.table[virt.tableIndex].isPresent then .error .mappingConflict
  else
    .ok { m.link toTable with table := m.table.set virt.tableIndex (.small phys flags) }

def remap (m : PageMap) (virt : VirtAddr) (phys : PhysAddr) (flags : PageFlags) :
    Except SpaceError PageMap :=
  let flags := flags &&& PageFlags.callerMask
  if virt.isLargeRegion then
    if m.directory[virt.dirIndex].isPresent then
      .ok { m with directory := m.directory.set virt.dirIndex (.large phys flags) }
    else .error .mappingAbsent
  else if m.directory[0].isPresent && m.table[virt.tableIndex].isPresent then
    .ok { m with table := m.table.set virt.tableIndex (.small phys flags) }
  else .error .mappingAbsent

def meets (size start stop i : Nat) : Bool := i * size < stop && start < (i + 1) * size

def identify (m : PageMap) (toTable : Entry) (start stop : PhysAddr) : PageMap :=
  let flags := PageFlags.writable ||| PageFlags.global
  let lo := start.val.toNat
  let hi := stop.val.toNat
  if hi ≤ lo then m
  else
    let m := if lo < largePageSize.toNat then m.link toTable else m
    { directory := m.directory.mapFinIdx fun i e _ =>
        if 0 < i && meets largePageSize.toNat lo hi i then
          .large ⟨UInt32.ofNat i * largePageSize⟩ flags
        else e
      table := m.table.mapFinIdx fun i e _ =>
        if meets pageSize.toNat lo hi i then .small ⟨UInt32.ofNat i * pageSize⟩ flags else e }

/-- The entry that maps an address, with the offset of the address in its page. -/
def walk (m : PageMap) (virt : VirtAddr) : Option (Entry × UInt32) :=
  let d := m.directory[virt.dirIndex]
  if !d.isPresent then none
  else if d.isLarge then some (d, virt.largePageOffset)
  else
    let t := m.table[virt.tableIndex]
    if t.isPresent then some (t, virt.pageOffset) else none

def leaf (m : PageMap) (virt : VirtAddr) : Option Entry := (m.walk virt).map Prod.fst

def translate (m : PageMap) (virt : VirtAddr) : Option PhysAddr :=
  (m.walk virt).map fun p => p.1.base.offset p.2

def mappingCount (m : PageMap) : Nat :=
  m.directory.countP (fun e => e.isPresent && e.isLarge) +
    if m.directory[0].isPresent && !m.directory[0].isLarge then m.table.presentCount else 0

def presentCount (m : PageMap) : Nat := m.directory.presentCount + m.table.presentCount

end PageMap

end TerminalKernel
