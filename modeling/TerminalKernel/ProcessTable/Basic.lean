import TerminalKernel.ProcessTable.Record

namespace TerminalKernel

structure ProcessTable where
  layout : Layout
  slots : Vector (Option ProcessRecord) processCapacity := Vector.replicate _ none
  current : Option ProcessId := none
  deriving DecidableEq

namespace ProcessTable

def empty (layout : Layout) : ProcessTable := { layout }

def live (t : ProcessTable) : List ProcessRecord := t.slots.toList.filterMap id

def get? (t : ProcessTable) (pid : ProcessId) : Option ProcessRecord := t.slots.get pid

def get (t : ProcessTable) (pid : ProcessId) : Except KernelError ProcessRecord :=
  match t.get? pid with
  | some p => .ok p
  | none => .error .unknownProcess

def modify (t : ProcessTable) (pid : ProcessId) (f : ProcessRecord → ProcessRecord) :
    ProcessTable :=
  { t with slots := t.slots.set pid ((t.get? pid).map f) pid.isLt }

def liveCount (t : ProcessTable) : Nat := t.slots.countP Option.isSome

def freeCount (t : ProcessTable) : Nat := t.slots.countP Option.isNone

def allocate (t : ProcessTable) : Except KernelError (ProcessId × ProcessTable) :=
  match (List.finRange processCapacity).find? fun pid => (t.get? pid).isNone with
  | some pid =>
    .ok (pid, { t with slots := t.slots.set pid (some (.fresh t.layout pid)) pid.isLt })
  | none => .error .registryExhausted

def indexOf (t : ProcessTable) (pid : ProcessId) : Except KernelError ProcessId :=
  let carries := fun i => (t.get? i).any fun p => p.pid = pid
  match (List.finRange processCapacity).find? carries with
  | some i => .ok i
  | none => .error .unknownProcess

def destroy (t : ProcessTable) (pid : ProcessId) : Except KernelError ProcessTable := do
  let i ← t.indexOf pid
  let current := if t.current = some pid then none else t.current
  return { t with slots := t.slots.set i none i.isLt, current }

def findFreeDescriptor (t : ProcessTable) (pid : ProcessId) : Except KernelError Nat := do
  let p ← t.get pid
  match p.files.findFree with
  | some fd => return fd
  | none => .error .descriptorExhausted

/-- The process on whose kernel stack an address lies. Stacks are aligned to their size, so the
low bits of the address do not matter. -/
def ownerOfStack (t : ProcessTable) (esp : UInt32) : Option ProcessId :=
  let size := t.layout.kernelStackSize
  let stop := t.layout.kernelStackRegionEnd
  if stop ≤ esp then none
  else
    let base := esp &&& ~~~(size - 1)
    let above := ((stop - base) / size).toNat
    if above = 0 then none
    else (t.slots[above - 1]?.join).map ProcessRecord.pid

end ProcessTable

end TerminalKernel
