import TerminalKernel.AddressSpace.Basic
import TerminalKernel.Layout

namespace TerminalKernel

structure SpaceArena where
  kernel : PageMap := .empty
  process : Vector PageMap processCapacity := Vector.replicate _ .empty
  owned : Vector Bool processCapacity := Vector.replicate _ false
  active : SpaceId := .kernel
  placement : PhysAddr
  deriving DecidableEq

namespace SpaceArena

/-- Where a page of the arena lies. The directory and the table of the kernel come first, then the
directories of all slots, then their tables. -/
def pageAddress (a : SpaceArena) (page : Nat) : PhysAddr :=
  a.placement.offset (pageSize * UInt32.ofNat page)

def directoryPage : SpaceId → Nat
  | .kernel => 0
  | .process slot => 2 + slot

def tablePage : SpaceId → Nat
  | .kernel => 1
  | .process slot => 2 + processCapacity + slot

def directoryAddress (a : SpaceArena) (space : SpaceId) : PhysAddr :=
  a.pageAddress (directoryPage space)

def tableAddress (a : SpaceArena) (space : SpaceId) : PhysAddr := a.pageAddress (tablePage space)

def spaceAt (a : SpaceArena) (root : PhysAddr) : Option SpaceId :=
  (SpaceId.kernel :: (List.range processCapacity).map SpaceId.process).find?
    fun space => a.directoryAddress space = root

def isOwned (a : SpaceArena) : SpaceId → Bool
  | .kernel => true
  | .process slot => a.owned[slot]?.getD false

def lookup (a : SpaceArena) : SpaceId → Except SpaceError PageMap
  | .kernel => .ok a.kernel
  | .process slot =>
    if h : slot < processCapacity then
      if a.owned[slot] then .ok a.process[slot] else .error .notOwned
    else .error .badSlot

def store (a : SpaceArena) (space : SpaceId) (m : PageMap) : SpaceArena :=
  match space with
  | .kernel => { a with kernel := m }
  | .process slot => { a with process := a.process.setIfInBounds slot m }

/-- The entry that links a space's low table. Pages keep user code out where it must stay out, so
the link of a process lets it through. -/
def tableLink (a : SpaceArena) (space : SpaceId) : Entry :=
  match space with
  | .kernel => .small (a.tableAddress space) .writable
  | .process _ => .small (a.tableAddress space) (.writable ||| .user)

def rootOf (a : SpaceArena) (space : SpaceId) : Except SpaceError PhysAddr :=
  (a.lookup space).map fun _ => a.directoryAddress space

def identify (a : SpaceArena) (start stop : PhysAddr) : SpaceArena :=
  { a with kernel := a.kernel.identify (a.tableLink .kernel) start stop }

def claim (a : SpaceArena) (slot : Nat) : Except SpaceError SpaceArena :=
  if h : slot < processCapacity then
    if a.owned[slot] then .error .alreadyOwned
    else .ok { a with owned := a.owned.set slot true }
  else .error .badSlot

def map (a : SpaceArena) (space : SpaceId) (virt : VirtAddr) (phys : PhysAddr)
    (flags : PageFlags) : Except SpaceError SpaceArena := do
  let m ← a.lookup space
  return a.store space (← m.map (a.tableLink space) virt phys flags)

def remap (a : SpaceArena) (space : SpaceId) (virt : VirtAddr) (phys : PhysAddr)
    (flags : PageFlags) : Except SpaceError SpaceArena := do
  let m ← a.lookup space
  return a.store space (← m.remap virt phys flags)

/-- Make a space the active one. The caller loads the root that comes back. -/
def activate (a : SpaceArena) (space : SpaceId) : Except SpaceError (PhysAddr × SpaceArena) := do
  let root ← a.rootOf space
  return (root, { a with active := space })

def teardown (a : SpaceArena) (space : SpaceId) : Except SpaceError SpaceArena :=
  match space with
  | .kernel => .error .kernelSpace
  | .process slot => do
    let _ ← a.lookup space
    if a.active = space then .error .activeSpace
    else
      .ok { a.store space .empty with owned := a.owned.setIfInBounds slot false }

def translate (a : SpaceArena) (space : SpaceId) (virt : VirtAddr) : Option PhysAddr :=
  match a.lookup space with
  | .ok m => m.translate virt
  | .error _ => none

def leaf (a : SpaceArena) (space : SpaceId) (virt : VirtAddr) : Option Entry :=
  match a.lookup space with
  | .ok m => m.leaf virt
  | .error _ => none

def mappingCount (a : SpaceArena) (space : SpaceId) : Nat :=
  match a.lookup space with
  | .ok m => m.mappingCount
  | .error _ => 0

def presentCount (a : SpaceArena) : SpaceId → Nat
  | .kernel => a.kernel.presentCount
  | .process slot => (a.process[slot]?.map PageMap.presentCount).getD 0

end SpaceArena

end TerminalKernel
