import TerminalKernel.Proofs.Launching

namespace TerminalKernel

/-- A record with another run state, which is ready only for its own entry. -/
def ProcessRecord.Restated (q p : ProcessRecord) : Prop :=
  ∃ s, (∀ e, s = .ready e → p.entry = some e) ∧ q = { p with state := s }

theorem ProcessRecord.Restated.refl {p : ProcessRecord}
    (h : ∀ e, p.state = .ready e → p.entry = some e) : p.Restated p := ⟨p.state, h, rfl⟩

theorem ProcessRecord.Restated.of_ne {p : ProcessRecord} {s : RunState} (h : ∀ e, s ≠ .ready e) :
    { p with state := s }.Restated p := ⟨s, fun e he => absurd he (h e), rfl⟩

theorem ProcessRecord.Restated.samePlace {q p : ProcessRecord} (h : q.Restated p) :
    q.SamePlace p := by
  obtain ⟨s, _, rfl⟩ := h
  exact ⟨rfl, rfl, rfl⟩

theorem map_terminal_of_rel {a b : Option ProcessRecord}
    (h : Option.Rel ProcessRecord.Restated a b) :
    a.map ProcessRecord.terminal = b.map ProcessRecord.terminal := by
  cases h with
  | none => rfl
  | some h => exact congrArg some h.samePlace.2.2

theorem isSome_of_map_terminal {a b : Option ProcessRecord}
    (h : a.map ProcessRecord.terminal = b.map ProcessRecord.terminal) : a.isSome = b.isSome := by
  rw [← Option.isSome_map (f := ProcessRecord.terminal), h, Option.isSome_map]

theorem FileTable.get?_standard {fd : Nat} (h : firstUserDescriptor ≤ fd) :
    standard.get? fd = none := by
  have h2 : 2 ≤ fd := h
  by_cases h8 : fd < 8
  · interval_cases fd <;> rfl
  · rw [get?, Vector.getElem?_eq_none (Nat.le_of_not_lt h8)]
    rfl

namespace Kernel

variable {M D F : Type} [FileSystem F] {k k' : Kernel M D F} {σ : TerminalId → List ProcessId}
  {pid : ProcessId} {t : TerminalId}

theorem Launched.restated {p q : ProcessRecord} (h : k.Launched pid p) (hq : q.Restated p) :
    k.Launched pid q := by
  obtain ⟨s, hs, rfl⟩ := hq
  exact ⟨h.space, h.stackTop, h.entry, hs, h.files⟩

theorem Launched.of_eq {p : ProcessRecord} (h : k.Launched pid p) (hf : k'.fs = k.fs)
    (hl : k'.layout = k.layout) : k'.Launched pid p := by
  cases k
  cases k'
  subst hf hl
  exact ⟨h.space, h.stackTop, h.entry, h.ready, h.files⟩

theorem Consistent.restated_self (h : k.Consistent σ) (x : ProcessId) :
    Option.Rel ProcessRecord.Restated (k.processes.get? x) (k.processes.get? x) := by
  cases hx : k.processes.get? x with
  | none => exact Option.Rel.none
  | some p => exact Option.Rel.some (.refl (h.launched x p hx).ready)

theorem Consistent.launched_of_rel (h : k.Consistent σ) {x : ProcessId} {q : ProcessRecord}
    {r : Option ProcessRecord} (hr : r = some q)
    (hrel : Option.Rel ProcessRecord.Restated r (k.processes.get? x)) : k.Launched x q := by
  subst r
  cases hp : k.processes.get? x with
  | none =>
    rw [hp] at hrel
    cases hrel
  | some p =>
    rw [hp] at hrel
    cases hrel with
    | some hq => exact (h.launched x p hp).restated hq

theorem Consistent.restated_update (h : k.Consistent σ) {y : ProcessId} {p r : ProcessRecord}
    (hp : k.processes.get? y = some p) (hr : r.Restated p) (x : ProcessId) :
    Option.Rel ProcessRecord.Restated (Function.update k.processes.get? y (some r) x)
      (k.processes.get? x) := by
  by_cases hx : x = y
  · rw [hx, Function.update_self, hp]
    exact Option.Rel.some hr
  · rw [Function.update_of_ne hx]
    exact h.restated_self x

omit [FileSystem F] in
/-- The map of a slot depends on the terminal of its process only. -/
theorem homeMap_congr {x : ProcessId} (hl : k'.layout = k.layout)
    (hp : k'.spaces.placement = k.spaces.placement) (hd : k'.displayed = k.displayed)
    (hr : (k'.processes.get? x).map ProcessRecord.terminal =
      (k.processes.get? x).map ProcessRecord.terminal) : k'.homeMap x = k.homeMap x := by
  have ht : k'.spaces.tableLink (.process x) = k.spaces.tableLink (.process x) :=
    SpaceArena.tableLink_congr hp _
  have hv (t : TerminalId) : k'.videoTarget t = k.videoTarget t := by
    simp only [videoTarget, hl, hd]
  unfold homeMap
  cases hx' : k'.processes.get? x with
  | none =>
    rw [hx'] at hr
    cases hx : k.processes.get? x with
    | none => rfl
    | some p =>
      rw [hx] at hr
      cases hr
  | some q =>
    rw [hx'] at hr
    cases hx : k.processes.get? x with
    | none =>
      rw [hx] at hr
      cases hr
    | some p =>
      rw [hx, Option.map_some, Option.map_some, Option.some.injEq] at hr
      simp only [hl, ht, hv, hr]

theorem Consistent.rerun (h : k.Consistent σ) {processes : ProcessTable} (space : SpaceId)
    {loaded : Option (PhysAddr × PageMap)} {machine : M} (hl : processes.layout = k.layout)
    (hst : Stacked processes.get? processes.current σ)
    (hlaunched : ∀ x p, processes.get? x = some p → k.Launched x p)
    (hterm : ∀ x, (processes.get? x).map ProcessRecord.terminal =
      (k.processes.get? x).map ProcessRecord.terminal)
    (hspace : space = .ofCurrent processes.current)
    (hload : ∃ m, k.spaces.lookup space = .ok m ∧
      loaded = some (k.spaces.directoryAddress space, m)) :
    { k with processes, spaces := { k.spaces with active := space }, loaded, machine }.Consistent
      σ := by
  let k' : Kernel M D F :=
    { k with processes, spaces := { k.spaces with active := space }, loaded, machine }
  refine ⟨hl, hst, h.terminals, ?_, ?_, ?_, hspace, hload⟩
  · intro x p hp
    exact (hlaunched x p hp).of_eq rfl rfl
  · intro x
    exact (h.given x).trans (isSome_of_map_terminal (hterm x)).symm
  · intro x
    have hmap : k'.homeMap x = k.homeMap x := homeMap_congr rfl rfl rfl (hterm x)
    exact (h.maps x).trans hmap.symm

theorem Consistent.get_terminals (h : k.Consistent σ) {l : List ProcessId} {slot : TerminalSlot}
    (hslot : slot = ⟨l.head?, l.length⟩) (u : TerminalId) :
    (k.terminals.set t slot t.isLt).get u =
      ⟨(Function.update σ t l u).head?, (Function.update σ t l u).length⟩ := by
  have hget : (k.terminals.set t slot t.isLt).get u =
      if u = t then slot else k.terminals.get u := by
    simp only [Vector.get_eq_getElem, Vector.getElem_set, Fin.val_inj, eq_comm]
  rw [hget]
  by_cases hu : u = t
  · rw [if_pos hu, hu, Function.update_self, hslot]
  · rw [if_neg hu, Function.update_of_ne hu, h.terminals]

variable [Machine M]

def newRecord (pid : ProcessId) (t : TerminalId) (prog : Program) (parent : Option ProcessId)
    (k : Kernel M D F) : ProcessRecord :=
  { ProcessRecord.fresh k.layout pid with
    name := prog.command.name
    arguments := prog.command.arguments
    terminal := t
    space := some (.process pid)
    entry := some prog.entry
    parent
    state := .running }

omit [Machine M] in
theorem launched_newRecord {line : Bytes} {prog : Program} (hprog : k.program line = .ok prog)
    (parent : Option ProcessId) : k.Launched pid (k.newRecord pid t prog parent) := by
  obtain ⟨eip, _, he, _, hentry⟩ := program_eq_ok hprog
  refine ⟨rfl, rfl, ⟨prog.inode, eip, he, by rw [← hentry]; rfl⟩, ?_, ?_⟩
  · intro e hs
    cases hs
  · intro fd f hfd hfile
    rw [show (k.newRecord pid t prog parent).files = .standard from rfl,
      FileTable.get?_standard hfd] at hfile
    cases hfile

/-- The kernel in which a new process runs, given the table in which it and the others are. -/
def started (pid : ProcessId) (t : TerminalId) (prog : Program) (processes : ProcessTable)
    (k : Kernel M D F) : Kernel M D F :=
  { k.prepared pid t prog with
    processes
    terminals := k.terminals.set t ⟨some pid, (k.terminals.get t).live + 1⟩ t.isLt
    machine := Machine.perform
      (.setKernelStack ⟨Selector.kernelData, k.layout.kernelStackTop pid⟩)
      (k.prepared pid t prog).machine }

theorem Consistent.started (h : k.Consistent σ) {line : Bytes} {prog : Program}
    (hprog : k.program line = .ok prog) {processes : ProcessTable}
    (parent : Option ProcessId) (hl : processes.layout = k.layout)
    (hc : processes.current = some pid)
    (hst : Stacked processes.get? (some pid) (Function.update σ t (pid :: σ t)))
    (hnew : processes.get? pid = some (k.newRecord pid t prog parent))
    (hother : ∀ x, x ≠ pid →
      Option.Rel ProcessRecord.Restated (processes.get? x) (k.processes.get? x)) :
    (k.started pid t prog processes).Consistent (Function.update σ t (pid :: σ t)) := by
  have hproc : (k.started pid t prog processes).processes = processes := rfl
  refine ⟨hl, ?_, ?_, ?_, ?_, ?_, ?_, ?_⟩
  · have hcur : (k.started pid t prog processes).current = some pid := hc
    rw [hcur]
    exact hst
  · refine h.get_terminals ?_
    rw [h.terminals]
    rfl
  · intro x p hx
    by_cases hxp : x = pid
    · subst x
      have hx' : processes.get? pid = some p := hx
      rw [hnew] at hx'
      cases hx'
      exact (launched_newRecord hprog parent).of_eq rfl rfl
    · exact (h.launched_of_rel hx (hother x hxp)).of_eq rfl rfl
  · intro x
    refine (k.spaces.isGiven_give pid x (k.newMap pid t)).trans ?_
    by_cases hx : x = pid
    · rw [if_pos hx, hx, hproc, hnew]
      rfl
    · rw [if_neg hx, h.given]
      exact (isSome_of_map_terminal (map_terminal_of_rel (hother x hx))).symm
  · intro x
    refine (k.spaces.slotMap_give pid x (k.newMap pid t)).trans ?_
    by_cases hx : x = pid
    · rw [if_pos hx, hx, homeMap, hproc, hnew]
      rfl
    · have hmap : (k.started pid t prog processes).homeMap x = k.homeMap x :=
        homeMap_congr rfl rfl rfl (map_terminal_of_rel (hother x hx))
      rw [if_neg hx, h.maps, hmap]
  · have hcur : (k.started pid t prog processes).current = some pid := hc
    rw [hcur]
    rfl
  · refine ⟨k.newMap pid t, ?_, rfl⟩
    exact lookup_newSpace (k.newMap pid t)

def newTable (pid : ProcessId) (t : TerminalId) (prog : Program) (k : Kernel M D F) :
    ProcessTable := (k.prepared pid t prog).processes

theorem get?_newTable (hl : k.processes.layout = k.layout) (pid : ProcessId) (t : TerminalId)
    (prog : Program) (x : ProcessId) :
    (k.newTable pid t prog).get? x =
      if x = pid then some { k.newRecord pid t prog none with state := .launching }
      else k.processes.get? x := by
  by_cases hx : x = pid
  · subst x
    simp [newTable, prepared, newRecord, named, hl, ProcessRecord.fresh]
  · simp [newTable, prepared, hx]

def leftContext (pid : ProcessId) (t : TerminalId) (prog : Program) (context : SavedContext)
    (k : Kernel M D F) : SavedContext :=
  { context with stack := Machine.kernelStack (k.prepared pid t prog).machine }

def childTable (cur pid : ProcessId) (t : TerminalId) (prog : Program) (context : SavedContext)
    (k : Kernel M D F) : ProcessTable :=
  (((k.newTable pid t prog).modify cur fun p =>
      { p with state := .awaitingChild pid (k.leftContext pid t prog context) }).modify pid fun p =>
      { p with parent := some cur, state := .running }).withCurrent (some pid)

theorem start_child (cur : ProcessId) (prog : Program) (context : SavedContext) :
    (k.prepared pid t prog).start pid t prog.entry (.process cur context) =
      (.enterUser pid prog.entry,
        (k.started pid t prog (k.childTable cur pid t prog context)).record
          (.processLaunched pid t (some cur))) := rfl

theorem get?_childTable (hl : k.processes.layout = k.layout) {cur : ProcessId} {p : ProcessRecord}
    (hcur : k.processes.get? cur = some p) (hne : cur ≠ pid) (prog : Program)
    (context : SavedContext) :
    (k.childTable cur pid t prog context).get? =
      Function.update (Function.update k.processes.get? cur
        (some { p with state := .awaitingChild pid (k.leftContext pid t prog context) })) pid
        (some (k.newRecord pid t prog (some cur))) := by
  refine Records.eq_update_update ?_ ?_ ?_
  · simp [childTable, get?_newTable hl, Ne.symm hne, newRecord]
  · simp [childTable, get?_newTable hl, hne, hcur]
  · intro x hx hxc
    simp [childTable, get?_newTable hl, hx, hxc]

theorem Consistent.start_child (h : k.Consistent σ) {cur : ProcessId} {p : ProcessRecord}
    (hc : k.current = some cur) (hcur : k.processes.get? cur = some p)
    (hp : k.processes.get? pid = none) {line : Bytes} {prog : Program}
    (hprog : k.program line = .ok prog) (context : SavedContext) :
    (k.started pid p.terminal prog (k.childTable cur pid p.terminal prog context)).Consistent
      (Function.update σ p.terminal (pid :: σ p.terminal)) := by
  have hne : cur ≠ pid := Records.ne_of_eq_none hcur hp
  have hget := get?_childTable (t := p.terminal) h.layout hcur hne prog context
  have hst := h.stacked
  rw [hc] at hst
  refine h.started hprog (some cur) h.layout rfl ?_ ?_ ?_
  · rw [hget]
    exact hst.push hcur hp ⟨rfl, rfl, rfl⟩ rfl rfl rfl rfl rfl
  · rw [hget, Function.update_self]
  · intro x hx
    rw [hget, Function.update_of_ne hx]
    exact h.restated_update hcur (.of_ne (by simp)) x

def rootTable (pid : ProcessId) (others : ProcessTable) : ProcessTable :=
  (others.modify pid fun p => { p with parent := none, state := .running }).withCurrent (some pid)

theorem get?_rootTable (hl : k.processes.layout = k.layout) (pid : ProcessId) (t : TerminalId)
    (prog : Program) :
    (rootTable pid (k.newTable pid t prog)).get? =
      Function.update k.processes.get? pid (some (k.newRecord pid t prog none)) := by
  refine Records.eq_update ?_ ?_
  · simp [rootTable, get?_newTable hl, newRecord]
  · intro x hx
    simp [rootTable, get?_newTable hl, hx]

def relaunched (pid : ProcessId) (t : TerminalId) (prog : Program) (k : Kernel M D F) :
    Kernel M D F := k.started pid t prog (rootTable pid (k.newTable pid t prog))

theorem start_root (hc : k.current = none) (prog : Program) :
    (k.prepared pid t prog).start pid t prog.entry (.kernel t none) =
      (.enterUser pid prog.entry,
        (k.relaunched pid t prog).record (.processLaunched pid t none)) := by
  have hc' : (k.prepared pid t prog).current = none := hc
  simp only [start, giveWay, parkCurrent, hc']
  rfl

theorem Consistent.start_root (h : k.Consistent σ) (hc : k.current = none) (ht : σ t = [])
    (hp : k.processes.get? pid = none) {line : Bytes} {prog : Program}
    (hprog : k.program line = .ok prog) :
    (k.relaunched pid t prog).Consistent (Function.update σ t (pid :: σ t)) := by
  have hget := get?_rootTable h.layout pid t prog
  have hst := h.stacked
  rw [hc] at hst
  refine h.started hprog none h.layout rfl ?_ ?_ ?_
  · rw [hget, ht]
    exact hst.start ht hp rfl rfl rfl rfl
  · rw [hget, Function.update_self]
  · intro x hx
    rw [hget, Function.update_of_ne hx]
    exact h.restated_self x

def besideTable (cur pid : ProcessId) (t : TerminalId) (prog : Program) (e : UserEntry)
    (k : Kernel M D F) : ProcessTable :=
  rootTable pid
    (((k.newTable pid t prog).modify cur fun p => { p with state := .ready e }).withCurrent none)

theorem get?_besideTable (hl : k.processes.layout = k.layout) {cur : ProcessId} {p : ProcessRecord}
    {e : UserEntry} (hcur : k.processes.get? cur = some p) (hne : cur ≠ pid) (prog : Program) :
    (k.besideTable cur pid t prog e).get? =
      Function.update (Function.update k.processes.get? cur (some { p with state := .ready e })) pid
        (some (k.newRecord pid t prog none)) := by
  refine Records.eq_update_update ?_ ?_ ?_
  · simp [besideTable, rootTable, get?_newTable hl, Ne.symm hne, newRecord]
  · simp [besideTable, rootTable, get?_newTable hl, hne, hcur]
  · intro x hx hxc
    simp [besideTable, rootTable, get?_newTable hl, hx, hxc]

theorem start_beside (hl : k.processes.layout = k.layout) {cur : ProcessId} {p : ProcessRecord}
    {e : UserEntry} (hc : k.current = some cur) (hcur : k.processes.get? cur = some p)
    (hs : p.state = .running) (he : p.entry = some e) (hne : cur ≠ pid) (prog : Program) :
    (k.prepared pid t prog).start pid t prog.entry (.kernel t none) =
      (.enterUser pid prog.entry,
        (k.started pid t prog (k.besideTable cur pid t prog e)).record
          (.processLaunched pid t none)) := by
  have hc' : (k.prepared pid t prog).current = some cur := hc
  have hcur' : (k.prepared pid t prog).processes.get? cur = some p := by
    have hnew := get?_newTable hl pid t prog cur
    rw [if_neg hne, hcur] at hnew
    exact hnew
  simp only [start, giveWay, parkCurrent, hc', hcur', hs, he]
  rfl

/-- A process starts on an empty terminal while one runs that was never in user mode. -/
theorem Consistent.start_beside (h : k.Consistent σ) {cur : ProcessId} {p : ProcessRecord}
    {e : UserEntry} (hc : k.current = some cur) (hcur : k.processes.get? cur = some p)
    (he : p.entry = some e) (ht : σ t = []) (hp : k.processes.get? pid = none) {line : Bytes}
    {prog : Program} (hprog : k.program line = .ok prog) :
    (k.started pid t prog (k.besideTable cur pid t prog e)).Consistent
      (Function.update σ t (pid :: σ t)) := by
  have hne : cur ≠ pid := Records.ne_of_eq_none hcur hp
  have hget := get?_besideTable (t := t) (e := e) h.layout hcur hne prog
  have hst := h.stacked
  rw [hc] at hst
  have hparked : Stacked (Function.update k.processes.get? cur (some { p with state := .ready e }))
      none σ :=
    hst.retop (hst.head_current hcur) hcur ⟨rfl, rfl, rfl⟩ (by simp) (by simp)
      (by simp [RunState.IsStopped])
  refine h.started hprog none h.layout rfl ?_ ?_ ?_
  · rw [hget, ht]
    exact hparked.start ht (by rwa [Function.update_of_ne (Ne.symm hne)]) rfl rfl rfl rfl
  · rw [hget, Function.update_self]
  · intro x hx
    rw [hget, Function.update_of_ne hx]
    exact h.restated_update hcur ⟨_, fun e' he' => by rw [he, RunState.ready.inj he'], rfl⟩ x

end Kernel

end TerminalKernel
