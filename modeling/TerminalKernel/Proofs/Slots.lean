import Mathlib
import TerminalKernel.ProcessTable.Basic

namespace TerminalKernel.ProcessTable

variable (t : ProcessTable) (pid x : ProcessId)

@[simp] theorem get?_empty (layout : Layout) : (empty layout).get? x = none := by
  simp [empty, get?, Vector.get_eq_getElem]

@[simp] theorem get?_modify (f : ProcessRecord → ProcessRecord) :
    (t.modify pid f).get? x = if x = pid then (t.get? pid).map f else t.get? x := by
  simp only [modify, get?, Vector.get_eq_getElem, Vector.getElem_set, Fin.val_inj, eq_comm]

def withCurrent (c : Option ProcessId) : ProcessTable := { t with current := c }

@[simp] theorem get?_withCurrent (c : Option ProcessId) :
    (t.withCurrent c).get? x = t.get? x := rfl

def insert : ProcessTable := { t with slots := t.slots.set pid (some (.fresh t.layout pid)) pid.isLt }

@[simp] theorem get?_insert :
    (t.insert pid).get? x = if x = pid then some (.fresh t.layout pid) else t.get? x := by
  simp only [insert, get?, Vector.get_eq_getElem, Vector.getElem_set, Fin.val_inj, eq_comm]

def erase : ProcessTable :=
  { t with
    slots := t.slots.set pid none pid.isLt
    current := if t.current = some pid then none else t.current }

@[simp] theorem get?_erase :
    (t.erase pid).get? x = if x = pid then none else t.get? x := by
  simp only [erase, get?, Vector.get_eq_getElem, Vector.getElem_set, Fin.val_inj, eq_comm]

@[simp] theorem current_erase :
    (t.erase pid).current = if t.current = some pid then none else t.current := rfl

variable {t pid x}

theorem ext_get? {u : ProcessTable} (hl : t.layout = u.layout) (hc : t.current = u.current)
    (h : ∀ x, t.get? x = u.get? x) : t = u := by
  cases t with
  | mk layout slots current =>
    cases u with
    | mk layout' slots' current' =>
      have hs : slots = slots' := by
        apply Vector.ext
        intro i hi
        have := h ⟨i, hi⟩
        simpa only [get?, Vector.get_eq_getElem] using this
      simp_all

theorem modify_modify (f g : ProcessRecord → ProcessRecord) :
    (t.modify pid f).modify pid g = t.modify pid (g ∘ f) := by
  refine ext_get? rfl rfl ?_
  intro x
  by_cases hx : x = pid
  · simp [hx]
  · simp [hx]

theorem modify_of_get? {p : ProcessRecord} (hp : t.get? pid = some p)
    {f : ProcessRecord → ProcessRecord} (hf : f p = p) : t.modify pid f = t := by
  refine ext_get? rfl rfl ?_
  intro x
  by_cases hx : x = pid
  · simp [hx, hp, hf]
  · simp [hx]

theorem erase_modify (f : ProcessRecord → ProcessRecord) :
    (t.modify pid f).erase pid = t.erase pid := by
  refine ext_get? rfl rfl ?_
  intro x
  by_cases hx : x = pid
  · simp [hx]
  · simp [hx]

theorem mem_live {p : ProcessRecord} : p ∈ t.live ↔ ∃ x, t.get? x = some p := by
  simp only [live, get?, Vector.get_eq_getElem, List.mem_filterMap, id_eq, exists_eq_right,
    Vector.mem_toList_iff, Vector.mem_iff_getElem]
  exact ⟨fun ⟨i, hi, h⟩ => ⟨⟨i, hi⟩, h⟩, fun ⟨x, h⟩ => ⟨x, x.isLt, h⟩⟩

theorem live_eq : t.live = (List.finRange processCapacity).filterMap t.get? := by
  have h : t.slots.toList = (List.finRange processCapacity).map t.get? := by
    apply List.ext_getElem
    · simp
    · intro i _ _
      simp [get?, Vector.get_eq_getElem]
  rw [live, h, List.filterMap_map, Function.id_comp]

def firstFree? (t : ProcessTable) : Option ProcessId :=
  (List.finRange processCapacity).find? fun pid => (t.get? pid).isNone

theorem get?_firstFree (h : t.firstFree? = some pid) : t.get? pid = none := by
  have := List.find?_some h
  simpa only [Option.isNone_iff_eq_none] using this

theorem firstFree_isSome (h : t.get? pid = none) : ∃ x, t.firstFree? = some x := by
  apply Option.isSome_iff_exists.mp
  rw [firstFree?, List.find?_isSome]
  exact ⟨pid, List.mem_finRange pid, by simp [h]⟩

theorem firstFree_eq_none_iff : t.firstFree? = none ↔ ∀ x, t.get? x ≠ none := by
  constructor
  · intro h x hx
    obtain ⟨y, hy⟩ := firstFree_isSome hx
    rw [h] at hy
    cases hy
  · intro h
    cases hf : t.firstFree? with
    | none => rfl
    | some x => exact absurd (get?_firstFree hf) (h x)

theorem firstFree_le {x : ProcessId} (h : t.firstFree? = some pid) (hx : t.get? x = none) :
    pid ≤ x := by
  rw [firstFree?, List.find?_eq_some_iff_getElem] at h
  obtain ⟨-, i, hi, rfl, hbefore⟩ := h
  rw [List.getElem_finRange]
  by_contra hlt
  have hlive := hbefore x (Nat.not_le.mp hlt)
  simp [hx] at hlive

theorem isLeast_firstFree (h : t.firstFree? = some pid) :
    IsLeast {x | t.get? x = none} pid := ⟨get?_firstFree h, fun _ hx => firstFree_le h hx⟩

theorem allocate_eq :
    t.allocate = match t.firstFree? with
      | some pid => .ok (pid, t.insert pid)
      | none => .error .registryExhausted := rfl

def Named (t : ProcessTable) : Prop := ∀ pid p, t.get? pid = some p → p.pid = pid

theorem Named.nodup_live (hn : t.Named) : (t.live.map ProcessRecord.pid).Nodup := by
  have hmap : t.live.map ProcessRecord.pid =
      (List.finRange processCapacity).filter fun x => (t.get? x).isSome := by
    rw [live_eq]
    induction List.finRange processCapacity with
    | nil => rfl
    | cons x xs ih =>
      rw [List.filterMap_cons, List.filter_cons]
      cases hx : t.get? x with
      | none => simpa using ih
      | some p =>
        rw [Option.isSome_some, if_pos rfl, List.map_cons, ih, hn x p hx]
  rw [hmap]
  exact (List.nodup_finRange _).filter _

theorem Named.mem_live (hn : t.Named) {p : ProcessRecord} :
    p ∈ t.live ↔ t.get? p.pid = some p := by
  rw [ProcessTable.mem_live]
  constructor
  · rintro ⟨x, hx⟩
    rwa [hn x p hx]
  · exact fun hp => ⟨p.pid, hp⟩

/-- The living processes of a kind are as many as the slots in which they are. -/
theorem Named.countP_live (hn : t.Named) {q : ProcessRecord → Bool} {l : List ProcessId}
    (hl : l.Nodup) (h : ∀ x, x ∈ l ↔ ∃ p, t.get? x = some p ∧ q p = true) :
    t.live.countP q = l.length := by
  have hd : ((t.live.filter q).map ProcessRecord.pid).Nodup :=
    hn.nodup_live.sublist (List.filter_sublist.map _)
  have hperm : ((t.live.filter q).map ProcessRecord.pid).Perm l := by
    rw [List.perm_ext_iff_of_nodup hd hl]
    intro x
    rw [h x, List.mem_map]
    constructor
    · rintro ⟨p, hp, rfl⟩
      obtain ⟨hlive, hq⟩ := List.mem_filter.mp hp
      exact ⟨p, hn.mem_live.mp hlive, hq⟩
    · rintro ⟨p, hp, hq⟩
      exact ⟨p, List.mem_filter.mpr ⟨ProcessTable.mem_live.mpr ⟨x, hp⟩, hq⟩, hn x p hp⟩
  rw [List.countP_eq_length_filter, ← List.length_map (f := ProcessRecord.pid), hperm.length_eq]

theorem Named.indexOf (hn : t.Named) {p : ProcessRecord} (hp : t.get? pid = some p) :
    t.indexOf pid = .ok pid := by
  have carries (i : ProcessId) : ((t.get? i).any fun q => q.pid = pid) = true ↔ i = pid := by
    cases hi : t.get? i with
    | none =>
      have hne : i ≠ pid := by
        intro h
        rw [h, hp] at hi
        cases hi
      simp [hne]
    | some q => simp [hn i q hi]
  let found : ProcessId → Bool := fun i => (t.get? i).any fun q => q.pid = pid
  have hf : (List.finRange processCapacity).find? found = some pid := by
    have hsome : ((List.finRange processCapacity).find? found).isSome := by
      rw [List.find?_isSome]
      exact ⟨pid, List.mem_finRange pid, (carries pid).mpr rfl⟩
    obtain ⟨i, hi⟩ := Option.isSome_iff_exists.mp hsome
    have hc : found i = true := List.find?_some hi
    rw [hi, (carries i).mp hc]
  simp only [ProcessTable.indexOf, hf, found]

theorem Named.destroy (hn : t.Named) {p : ProcessRecord} (hp : t.get? pid = some p) :
    t.destroy pid = .ok (t.erase pid) := by
  rw [ProcessTable.destroy, hn.indexOf hp]
  rfl

/-- A new process that is destroyed leaves no trace. -/
theorem Named.destroy_new (hn : t.Named) (hx : t.get? pid = none) (hc : t.current ≠ some pid)
    {u : ProcessTable} (hl : u.layout = t.layout) (huc : u.current = t.current)
    (hu : ∀ y, y ≠ pid → u.get? y = t.get? y) {p : ProcessRecord} (hp : u.get? pid = some p)
    (hpp : p.pid = pid) : u.destroy pid = .ok t := by
  have hn' : u.Named := by
    intro y q hq
    by_cases hy : y = pid
    · subst y
      rw [hp] at hq
      cases hq
      exact hpp
    · rw [hu y hy] at hq
      exact hn y q hq
  rw [hn'.destroy hp]
  refine congrArg Except.ok (ext_get? hl ?_ ?_)
  · rw [current_erase, huc, if_neg hc]
  · intro y
    rw [get?_erase]
    split
    case isTrue hy => rw [hy, hx]
    case isFalse hy => exact hu y hy

end TerminalKernel.ProcessTable
