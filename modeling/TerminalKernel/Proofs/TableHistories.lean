import TerminalKernel.Proofs.Slots

namespace TerminalKernel

/-- A change of a record that keeps its name and its place in memory. -/
structure RecordEdit where
  apply : ProcessRecord → ProcessRecord
  pid : ∀ p, (apply p).pid = p.pid
  address : ∀ p, (apply p).address = p.address
  kernelStackTop : ∀ p, (apply p).kernelStackTop = p.kernelStackTop

inductive TableCall where
  | allocate
  | destroy (pid : ProcessId)
  | setCurrent (current : Option ProcessId)
  | edit (pid : ProcessId) (change : RecordEdit)

namespace ProcessTable

def call (t : ProcessTable) : TableCall → Except KernelError ProcessTable
  | .allocate => t.allocate.map Prod.snd
  | .destroy pid => t.destroy pid
  | .setCurrent current => .ok (t.withCurrent current)
  | .edit pid change => (t.get pid).map fun _ => t.modify pid change.apply

def after (t : ProcessTable) (c : TableCall) : ProcessTable :=
  match t.call c with
  | .ok u => u
  | .error _ => t

def run (t : ProcessTable) (calls : List TableCall) : ProcessTable := calls.foldl after t

def Allows (t : ProcessTable) : TableCall → Prop
  | .setCurrent (some pid) => ∃ p, t.get? pid = some p
  | .setCurrent none | .allocate | .destroy _ | .edit .. => True

def AllowsAll (t : ProcessTable) : List TableCall → Prop
  | [] => True
  | c :: calls => t.Allows c ∧ (t.after c).AllowsAll calls

/-- Why a call fails: no slot is free, or the process that it names is not alive. -/
def Refuses (t : ProcessTable) : TableCall → KernelError → Prop
  | .allocate, e => e = .registryExhausted ∧ ∀ x, t.get? x ≠ none
  | .destroy pid, e | .edit pid _, e => e = .unknownProcess ∧ t.get? pid = none
  | .setCurrent _, _ => False

def destroyAll (t : ProcessTable) (order : List ProcessId) : Except KernelError ProcessTable :=
  order.foldlM destroy t

/-- Every record has the name and the place of its slot, and the current process is alive. -/
structure Lawful (t : ProcessTable) (layout : Layout) : Prop where
  layout_eq : t.layout = layout
  placed : ∀ x p, t.get? x = some p →
    p.pid = x ∧ p.address = layout.recordAddress x ∧ p.kernelStackTop = layout.kernelStackTop x
  current : ∀ x, t.current = some x → ∃ p, t.get? x = some p

/-- What holds of the table after every history. -/
structure WellKept (t : ProcessTable) (layout : Layout) : Prop extends t.Lawful layout where
  indexOf : ∀ x, t.indexOf x = (t.get x).map fun _ => x
  allocates : ∀ x, IsLeast {y | t.get? y = none} x → ∃ u, t.allocate = .ok (x, u) ∧
    u.get? = Function.update t.get? x (some (.fresh layout x)) ∧ u.current = t.current ∧
      u.layout = layout
  exhausted : ∀ e, t.allocate = .error e ↔ e = .registryExhausted ∧ ∀ x, t.get? x ≠ none
  refuses : ∀ c e, t.call c = .error e ↔ t.Refuses c e
  unchanged : ∀ c e, t.call c = .error e → t.after c = t
  /-- In whichever order the living processes are destroyed, no trace of them is left. -/
  emptied : ∀ order : List ProcessId, order.Perm (t.live.map ProcessRecord.pid) →
    t.destroyAll order = .ok (.empty layout)

variable {t u : ProcessTable} {layout : Layout} {c : TableCall} {pid x : ProcessId}
  {p : ProcessRecord}

theorem get_eq_ok_iff : t.get pid = .ok p ↔ t.get? pid = some p := by
  rw [get]
  cases t.get? pid <;> simp

theorem get_eq_error_iff {e : KernelError} :
    t.get pid = .error e ↔ e = .unknownProcess ∧ t.get? pid = none := by
  rw [get]
  cases t.get? pid <;> simp [eq_comm]

theorem allocate_eq_error_iff {e : KernelError} :
    t.allocate = .error e ↔ e = .registryExhausted ∧ ∀ x, t.get? x ≠ none := by
  rw [← firstFree_eq_none_iff, allocate_eq]
  cases t.firstFree? <;> simp [eq_comm]

theorem allocate_eq_ok_iff :
    t.allocate = .ok (x, u) ↔ t.firstFree? = some x ∧ u = t.insert x := by
  rw [allocate_eq]
  cases t.firstFree? with
  | none => simp
  | some y =>
    simp only [Except.ok.injEq, Prod.mk.injEq, Option.some.injEq, eq_comm (a := u)]
    refine and_congr_right ?_
    rintro rfl
    exact Iff.rfl

theorem firstFree_eq_some_iff : t.firstFree? = some x ↔ IsLeast {y | t.get? y = none} x := by
  refine ⟨isLeast_firstFree, fun h => ?_⟩
  obtain ⟨y, hy⟩ := firstFree_isSome h.1
  rw [hy, (isLeast_firstFree hy).unique h]

theorem exists_of_map_ok {ε α β : Type} {r : Except ε α} {f : α → β} {y : β}
    (h : r.map f = .ok y) : ∃ x, r = .ok x ∧ f x = y := by
  cases r with
  | error e => cases h
  | ok x => exact ⟨x, rfl, Except.ok.inj h⟩

theorem map_eq_error_iff {ε α β : Type} {r : Except ε α} {f : α → β} {e : ε} :
    r.map f = .error e ↔ r = .error e := by
  cases r <;> simp [Except.map]

namespace Lawful

theorem named (h : t.Lawful layout) : t.Named := fun x p hp => (h.placed x p hp).1

theorem empty (layout : Layout) : (ProcessTable.empty layout).Lawful layout := by
  refine ⟨rfl, ?_, ?_⟩
  · intro x p hp
    rw [get?_empty] at hp
    cases hp
  · intro x hx
    cases hx

theorem insert (h : t.Lawful layout) (hx : t.get? x = none) : (t.insert x).Lawful layout := by
  refine ⟨h.layout_eq, ?_, ?_⟩
  · intro y p hp
    rw [get?_insert] at hp
    split at hp
    case isTrue hy =>
      rw [hy, ← Option.some.inj hp, h.layout_eq]
      exact ⟨rfl, rfl, rfl⟩
    case isFalse => exact h.placed y p hp
  · intro y hy
    obtain ⟨p, hp⟩ := h.current y hy
    have hne : y ≠ x := by
      rintro rfl
      rw [hx] at hp
      cases hp
    exact ⟨p, by rw [get?_insert, if_neg hne, hp]⟩

theorem erase (h : t.Lawful layout) (x : ProcessId) : (t.erase x).Lawful layout := by
  refine ⟨h.layout_eq, ?_, ?_⟩
  · intro y p hp
    rw [get?_erase] at hp
    split at hp
    case isTrue => cases hp
    case isFalse => exact h.placed y p hp
  · intro y hy
    rw [current_erase] at hy
    split at hy
    case isTrue => cases hy
    case isFalse hne =>
      obtain ⟨p, hp⟩ := h.current y hy
      have hyx : y ≠ x := fun he => hne (by rw [hy, he])
      exact ⟨p, by rw [get?_erase, if_neg hyx, hp]⟩

theorem withCurrent (h : t.Lawful layout) {current : Option ProcessId}
    (hc : t.Allows (.setCurrent current)) : (t.withCurrent current).Lawful layout := by
  refine ⟨h.layout_eq, h.placed, ?_⟩
  rintro y rfl
  exact hc

theorem edit (h : t.Lawful layout) (x : ProcessId) (change : RecordEdit) :
    (t.modify x change.apply).Lawful layout := by
  have hget (y : ProcessId) (p : ProcessRecord) (hp : t.get? y = some p) :
      ∃ q, (t.modify x change.apply).get? y = some q := by
    rw [get?_modify]
    by_cases hy : y = x
    · rw [if_pos hy, ← hy, hp]
      exact ⟨_, rfl⟩
    · rw [if_neg hy]
      exact ⟨p, hp⟩
  refine ⟨h.layout_eq, ?_, ?_⟩
  · intro y q hq
    rw [get?_modify] at hq
    split at hq
    case isFalse => exact h.placed y q hq
    case isTrue hy =>
      obtain ⟨p, hp, rfl⟩ := Option.map_eq_some_iff.mp hq
      rw [change.pid, change.address, change.kernelStackTop, hy]
      exact h.placed x p hp
  · intro y hy
    obtain ⟨p, hp⟩ := h.current y hy
    exact hget y p hp

theorem indexOf_eq (h : t.Lawful layout) (x : ProcessId) :
    t.indexOf x = (t.get x).map fun _ => x := by
  cases hx : t.get? x with
  | some p => rw [h.named.indexOf hx, get_eq_ok_iff.mpr hx, Except.map]
  | none =>
    -- a record with the name would be in the slot of the name
    have hnone : (List.finRange processCapacity).find?
        (fun i => (t.get? i).any fun p => p.pid = x) = none := by
      rw [List.find?_eq_none]
      intro y _ hy
      obtain ⟨p, hp, hpid⟩ := (Option.any_eq_true ..).mp hy
      rw [h.named y p hp, decide_eq_true_eq] at hpid
      rw [hpid, hx] at hp
      cases hp
    rw [get_eq_error_iff.mpr ⟨rfl, hx⟩, ProcessTable.indexOf]
    simp only [hnone]
    rfl

theorem destroy_eq (h : t.Lawful layout) (x : ProcessId) :
    t.destroy x = (t.get x).map fun _ => t.erase x := by
  cases hx : t.get? x with
  | some p => rw [h.named.destroy hx, get_eq_ok_iff.mpr hx, Except.map]
  | none =>
    have hget : t.get x = .error .unknownProcess := get_eq_error_iff.mpr ⟨rfl, hx⟩
    rw [destroy, h.indexOf_eq, hget]
    rfl

theorem call (h : t.Lawful layout) (ha : t.Allows c) (hc : t.call c = .ok u) :
    u.Lawful layout := by
  cases c with
  | allocate =>
    obtain ⟨⟨x, v⟩, hx, rfl⟩ := exists_of_map_ok hc
    obtain ⟨hfree, rfl⟩ := allocate_eq_ok_iff.mp hx
    exact h.insert (get?_firstFree hfree)
  | destroy x =>
    rw [ProcessTable.call, h.destroy_eq] at hc
    obtain ⟨p, -, rfl⟩ := exists_of_map_ok hc
    exact h.erase x
  | setCurrent current =>
    cases hc
    exact h.withCurrent ha
  | edit x change =>
    obtain ⟨p, -, rfl⟩ := exists_of_map_ok hc
    exact h.edit x change

theorem after (h : t.Lawful layout) (ha : t.Allows c) : (t.after c).Lawful layout := by
  rw [ProcessTable.after]
  cases hc : t.call c with
  | ok u => exact h.call ha hc
  | error e => exact h

theorem run {calls : List TableCall} (h : t.Lawful layout) (ha : t.AllowsAll calls) :
    (t.run calls).Lawful layout := by
  induction calls generalizing t with
  | nil => exact h
  | cons c calls ih => exact ih (h.after ha.1) ha.2

theorem refuses_iff (h : t.Lawful layout) {e : KernelError} :
    t.call c = .error e ↔ t.Refuses c e := by
  cases c with
  | allocate => rw [ProcessTable.call, map_eq_error_iff, allocate_eq_error_iff, Refuses]
  | destroy x => rw [ProcessTable.call, h.destroy_eq, map_eq_error_iff, get_eq_error_iff, Refuses]
  | setCurrent current => exact iff_of_false (fun hc => by cases hc) id
  | edit x change => rw [ProcessTable.call, map_eq_error_iff, get_eq_error_iff, Refuses]

theorem destroyAll (h : t.Lawful layout) {order : List ProcessId} (hn : order.Nodup)
    (hl : ∀ x ∈ order, ∃ p, t.get? x = some p) :
    ∃ u, t.destroyAll order = .ok u ∧ u.Lawful layout ∧
      ∀ x, u.get? x = if x ∈ order then none else t.get? x := by
  induction order generalizing t with
  | nil => exact ⟨t, rfl, h, fun x => by simp⟩
  | cons y order ih =>
    obtain ⟨hy, hn⟩ := List.nodup_cons.mp hn
    obtain ⟨p, hp⟩ := hl y List.mem_cons_self
    have hlive : ∀ x ∈ order, ∃ q, (t.erase y).get? x = some q := by
      intro x hx
      have hne : x ≠ y := fun he => hy (he ▸ hx)
      rw [get?_erase, if_neg hne]
      exact hl x (List.mem_cons_of_mem y hx)
    obtain ⟨u, hu, hlaw, hget⟩ := ih (h.erase y) hn hlive
    refine ⟨u, ?_, hlaw, ?_⟩
    · rw [ProcessTable.destroyAll, List.foldlM_cons, h.named.destroy hp]
      exact hu
    · intro x
      rw [hget x, get?_erase]
      by_cases hx : x = y
      · simp [hx]
      · simp [hx]

theorem eq_empty (h : t.Lawful layout) (hn : ∀ x, t.get? x = none) : t = .empty layout := by
  have hcurrent : t.current = none := by
    rw [Option.eq_none_iff_forall_ne_some]
    intro x hx
    obtain ⟨p, hp⟩ := h.current x hx
    rw [hn x] at hp
    cases hp
  exact ext_get? h.layout_eq hcurrent fun x => by rw [hn x, get?_empty]

theorem emptied (h : t.Lawful layout) {order : List ProcessId}
    (ho : order.Perm (t.live.map ProcessRecord.pid)) :
    t.destroyAll order = .ok (.empty layout) := by
  have hmem (x : ProcessId) : x ∈ order ↔ ∃ p, t.get? x = some p := by
    rw [ho.mem_iff, List.mem_map]
    constructor
    · rintro ⟨p, hp, rfl⟩
      exact ⟨p, h.named.mem_live.mp hp⟩
    · rintro ⟨p, hp⟩
      exact ⟨p, ProcessTable.mem_live.mpr ⟨x, hp⟩, h.named x p hp⟩
  obtain ⟨u, hu, hlaw, hget⟩ :=
    h.destroyAll (ho.nodup_iff.mpr h.named.nodup_live) fun x => (hmem x).mp
  rw [hu, hlaw.eq_empty]
  intro x
  rw [hget x]
  split
  case isTrue => rfl
  case isFalse hx =>
    rw [hmem x] at hx
    exact Option.eq_none_iff_forall_ne_some.mpr fun p hp => hx ⟨p, hp⟩

theorem wellKept (h : t.Lawful layout) : t.WellKept layout where
  toLawful := h
  indexOf := h.indexOf_eq
  allocates x hx := by
    refine ⟨t.insert x, allocate_eq_ok_iff.mpr ⟨firstFree_eq_some_iff.mpr hx, rfl⟩, ?_, rfl,
      h.layout_eq⟩
    funext y
    rw [get?_insert, h.layout_eq, Function.update_apply]
  exhausted e := allocate_eq_error_iff
  refuses c e := h.refuses_iff
  unchanged c e hc := by rw [ProcessTable.after, hc]
  emptied order := h.emptied

end Lawful

/-- Whatever was allocated, destroyed and changed before, and in whatever order. -/
theorem wellKept_run (layout : Layout) (calls : List TableCall)
    (h : (empty layout).AllowsAll calls) : ((empty layout).run calls).WellKept layout :=
  ((Lawful.empty layout).run h).wellKept

end ProcessTable

def Sample.tableCalls : List TableCall :=
  [.allocate, .allocate, .setCurrent (some 0),
    .edit 0 ⟨fun p => { p with state := .running }, fun _ => rfl, fun _ => rfl, fun _ => rfl⟩,
    .destroy 0, .allocate]

theorem ProcessTable.wellKept_run_tableCalls :
    let t := (empty {}).run Sample.tableCalls
    t.WellKept {} ∧ t.get? 0 = some (.fresh {} 0) ∧ t.destroyAll [1, 0] = .ok (.empty {}) := by
  have h := wellKept_run {} Sample.tableCalls
    ⟨trivial, trivial, ⟨_, rfl⟩, trivial, trivial, trivial, trivial⟩
  have hlive : ((empty {}).run Sample.tableCalls).live.map ProcessRecord.pid = [0, 1] := rfl
  refine ⟨h, rfl, h.emptied _ ?_⟩
  rw [hlive]
  exact List.Perm.swap ..

end TerminalKernel
