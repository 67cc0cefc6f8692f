import TerminalKernel.Proofs.Loading
import TerminalKernel.Proofs.StackMoves

namespace TerminalKernel

def SpaceId.ofCurrent : Option ProcessId → SpaceId
  | some pid => .process pid
  | none => .kernel

def FileTable.Closable (t : FileTable) : Prop :=
  ∀ fd f, firstUserDescriptor ≤ fd → t.get? fd = some f → f.close = .ok ()

namespace Kernel

variable {M D F : Type}

/-- The map that belongs to a slot: that of its process, or none. -/
def homeMap (k : Kernel M D F) (pid : ProcessId) : PageMap :=
  match k.processes.get? pid with
  | some p => k.layout.processMap (k.spaces.tableLink (.process pid)) pid (k.videoTarget p.terminal)
  | none => .empty

/-- The record of a process whose launch is finished. -/
structure Launched [FileSystem F] (k : Kernel M D F) (pid : ProcessId) (p : ProcessRecord) :
    Prop where
  space : p.space = some (.process pid)
  stackTop : p.kernelStackTop = k.layout.kernelStackTop pid
  entry : ∃ inode eip, k.findExecutable p.name.bytes = .ok (inode, eip) ∧
    p.entry = some (.start eip k.layout.userStackTop)
  ready : ∀ e, p.state = .ready e → p.entry = some e
  files : p.files.Closable

/-- A kernel between two operations, with the processes of each terminal from the top of its stack
down. -/
structure Consistent [FileSystem F] (k : Kernel M D F) (σ : TerminalId → List ProcessId) :
    Prop where
  layout : k.processes.layout = k.layout
  stacked : Stacked k.processes.get? k.current σ
  terminals : ∀ t, k.terminals.get t = ⟨(σ t).head?, (σ t).length⟩
  launched : ∀ pid p, k.processes.get? pid = some p → k.Launched pid p
  given : ∀ pid, k.spaces.isGiven pid = (k.processes.get? pid).isSome
  maps : ∀ pid, k.spaces.slotMap pid = k.homeMap pid
  active : k.spaces.active = .ofCurrent k.current
  loaded : ∃ m, k.spaces.lookup k.spaces.active = .ok m ∧
    k.loaded = some (k.spaces.directoryAddress k.spaces.active, m)

/-- Two kernels differ at most in the machine, the devices, the clock and the logs. -/
structure SameCore (k' k : Kernel M D F) : Prop where
  fs : k'.fs = k.fs
  layout : k'.layout = k.layout
  spaces : k'.spaces = k.spaces
  loaded : k'.loaded = k.loaded
  processes : k'.processes = k.processes
  terminals : k'.terminals = k.terminals
  displayed : k'.displayed = k.displayed

theorem SameCore.refl (k : Kernel M D F) : k.SameCore k := ⟨rfl, rfl, rfl, rfl, rfl, rfl, rfl⟩

theorem SameCore.trans {k k' k'' : Kernel M D F} (h : k''.SameCore k') (h' : k'.SameCore k) :
    k''.SameCore k :=
  ⟨h.fs.trans h'.fs, h.layout.trans h'.layout, h.spaces.trans h'.spaces, h.loaded.trans h'.loaded,
    h.processes.trans h'.processes, h.terminals.trans h'.terminals, h.displayed.trans h'.displayed⟩

theorem record_eq (e : Event) (k : Kernel M D F) :
    k.record e =
      { k with events := if k.events.size < maxEvents then k.events.push e else k.events } := by
  unfold record
  split <;> rfl

theorem sameCore_record (e : Event) (k : Kernel M D F) : (k.record e).SameCore k := by
  rw [record_eq]
  exact ⟨rfl, rfl, rfl, rfl, rfl, rfl, rfl⟩

theorem sameCore_logError (k : Kernel M D F) : k.logError.SameCore k :=
  ⟨rfl, rfl, rfl, rfl, rfl, rfl, rfl⟩

variable [FileSystem F] {k k' : Kernel M D F} {σ : TerminalId → List ProcessId}

theorem Consistent.of_sameCore (h : k.Consistent σ) (hk : k'.SameCore k) : k'.Consistent σ := by
  obtain ⟨hfs, hl, hs, hlo, hp, ht, hd⟩ := hk
  cases k
  cases k'
  subst hfs hl hs hlo hp ht hd
  exact ⟨h.layout, h.stacked, h.terminals,
    fun pid p hp => let q := h.launched pid p hp; ⟨q.space, q.stackTop, q.entry, q.ready, q.files⟩,
    h.given, h.maps, h.active, h.loaded⟩

namespace Consistent

variable {pid : ProcessId} {p : ProcessRecord} {t : TerminalId}

theorem named (h : k.Consistent σ) : k.processes.Named := fun _ _ hp => h.stacked.pid_eq hp

theorem isGiven (h : k.Consistent σ) (hp : k.processes.get? pid = some p) :
    k.spaces.isGiven pid = true := by
  rw [h.given, hp]
  rfl

theorem isGiven_free (h : k.Consistent σ) (hp : k.processes.get? pid = none) :
    k.spaces.isGiven pid = false := by
  rw [h.given, hp]
  rfl

theorem slotMap (h : k.Consistent σ) (hp : k.processes.get? pid = some p) :
    k.spaces.slotMap pid = k.layout.processMap (k.spaces.tableLink (.process pid)) pid
      (k.videoTarget p.terminal) := by
  rw [h.maps, homeMap, hp]

theorem slotMap_free (h : k.Consistent σ) (hp : k.processes.get? pid = none) :
    k.spaces.slotMap pid = .empty := by
  rw [h.maps, homeMap, hp]

theorem lookup (h : k.Consistent σ) (hp : k.processes.get? pid = some p) :
    k.spaces.lookup (.process pid) = .ok (k.spaces.slotMap pid) :=
  SpaceArena.lookup_process (h.isGiven hp)

theorem current_live (h : k.Consistent σ) (hc : k.current = some pid) :
    ∃ p, k.processes.get? pid = some p := by
  have hs := h.stacked
  rw [hc] at hs
  exact hs.current_live

theorem current_running (h : k.Consistent σ) (hc : k.current = some pid)
    (hp : k.processes.get? pid = some p) : p.state = .running := by
  have hs := h.stacked
  rw [hc] at hs
  exact hs.current_running hp

theorem head_current (h : k.Consistent σ) (hc : k.current = some pid)
    (hp : k.processes.get? pid = some p) : (σ p.terminal).head? = some pid := by
  have hs := h.stacked
  rw [hc] at hs
  exact hs.head_current hp

theorem destroy (h : k.Consistent σ) (hp : k.processes.get? pid = some p) :
    k.processes.destroy pid = .ok (k.processes.erase pid) := h.named.destroy hp

end Consistent

variable [Machine M]

def enter (space : SpaceId) (m : PageMap) (k : Kernel M D F) : Kernel M D F :=
  { k with
    spaces := { k.spaces with active := space }
    loaded := some (k.spaces.directoryAddress space, m)
    machine := Machine.perform (.loadPageDirectory (k.spaces.directoryAddress space)) k.machine }

omit [FileSystem F] in
theorem activate_eq {space : SpaceId} {m : PageMap} (h : k.spaces.lookup space = .ok m) :
    k.activate space = .ok (k.enter space m) := by
  simp only [Kernel.activate, SpaceArena.activate, SpaceArena.rootOf, h]
  rfl

omit [FileSystem F] in
theorem restoreSpace_eq {space : SpaceId} {m : PageMap} (h : k.spaces.lookup space = .ok m) :
    k.restoreSpace space = k.enter space m := by
  rw [restoreSpace, activate_eq h]

omit [FileSystem F] in
theorem sameCore_perform (c : MachineCall) (k : Kernel M D F) : (k.perform c).SameCore k :=
  ⟨rfl, rfl, rfl, rfl, rfl, rfl, rfl⟩

omit [FileSystem F] in
theorem sameCore_performAll (cs : List MachineCall) (k : Kernel M D F) :
    (k.performAll cs).SameCore k :=
  ⟨rfl, rfl, rfl, rfl, rfl, rfl, rfl⟩

def masked (k : Kernel M D F) : Kernel M D F := k.perform .disableInterrupts

def unmasked (enabled : Bool) (k : Kernel M D F) : Kernel M D F :=
  if enabled then k.perform .enableInterrupts else k

omit [FileSystem F] in
theorem critical_eq {α : Type} (body : Kernel M D F → α × Kernel M D F) (k : Kernel M D F) :
    k.critical body =
      ((body k.masked).1, (body k.masked).2.unmasked (Machine.interruptsEnabled k.machine)) := rfl

omit [FileSystem F] in
theorem sameCore_masked (k : Kernel M D F) : k.masked.SameCore k := sameCore_perform ..

omit [FileSystem F] in
theorem sameCore_unmasked (enabled : Bool) (k : Kernel M D F) :
    (k.unmasked enabled).SameCore k := by
  unfold unmasked
  split
  · exact sameCore_perform ..
  · exact SameCore.refl k

end Kernel

end TerminalKernel
