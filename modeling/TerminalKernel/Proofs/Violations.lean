import TerminalKernel.Proofs.Booting

namespace TerminalKernel

variable {g : Records} {c : Option ProcessId} {t : TerminalId} {l : List ProcessId}
  {σ : TerminalId → List ProcessId} {x y : ProcessId} {p : ProcessRecord}

theorem IsLine.waits_parent (h : IsLine g t l) (hx : x ∈ l) (hp : g x = some p)
    (hy : p.parent = some y) : ∃ q context, g y = some q ∧ q.state = .awaitingChild x context := by
  induction l with
  | nil => simp at hx
  | cons a l ih =>
    cases l with
    | nil =>
      rw [List.mem_singleton] at hx
      have hr := h.root x (by rw [hx]; rfl) p hp
      rw [hr] at hy
      cases hy
    | cons b l =>
      rw [List.mem_cons] at hx
      cases hx with
      | inl hx =>
        obtain ⟨⟨p', hp', hb⟩, hw⟩ := (List.isChain_cons_cons.mp h.linked).1
        rw [← hx, hp] at hp'
        cases hp'
        rw [hy, Option.some.injEq] at hb
        rw [hb, hx]
        exact hw
      | inr hx => exact ih h.tail hx

theorem IsStack.state_ne_launching (h : IsStack g c t l) (hx : x ∈ l) (hp : g x = some p) :
    p.state ≠ .launching := by
  intro hs
  cases l with
  | nil => simp at hx
  | cons a l =>
    rw [List.mem_cons] at hx
    cases hx with
    | inl hx =>
      subst hx
      have ht := h.top x rfl p hp
      rw [hs] at ht
      split at ht
      · cases ht
      · cases ht
    | inr hx =>
      obtain ⟨q, child, context, _, hq, hqs, -⟩ := h.waiting (by simpa using hx)
      rw [hp] at hq
      cases hq
      rw [hs] at hqs
      cases hqs

namespace Kernel

variable {M D F : Type} [FileSystem F] {k k' : Kernel M D F}

theorem Consistent.countP_terminal (h : k.Consistent σ) (t : TerminalId) :
    k.processes.live.countP (fun p => p.terminal = t) = (σ t).length := by
  refine h.named.countP_live (h.stacked.stack t).nodup fun x => ?_
  rw [h.stacked.mem_iff]
  simp

theorem Consistent.countP_running (h : k.Consistent σ) (hc : k.current = some x) :
    k.processes.live.countP (fun p => p.state = .running) = 1 := by
  refine h.named.countP_live (List.nodup_singleton x) fun y => ?_
  rw [List.mem_singleton]
  constructor
  · rintro rfl
    obtain ⟨p, hp⟩ := h.current_live hc
    exact ⟨p, hp, by simpa using h.current_running hc hp⟩
  · rintro ⟨p, hp, hs⟩
    have hcur : k.current = some y := h.stacked.eq_current hp (by simpa using hs)
    rw [hc, Option.some.injEq] at hcur
    exact hcur.symm

theorem Consistent.ownsSpace (h : k.Consistent σ) (hp : k.processes.get? x = some p) :
    k.ownsSpace p = true := by
  rw [Kernel.ownsSpace, (h.launched x p hp).space, h.named x p hp]
  simp [SpaceArena.isOwned_process, h.isGiven hp]

theorem Consistent.processViolation_eq (h : k.Consistent σ) (hp : p ∈ k.processes.live) :
    k.processViolation p = none := by
  have hx := h.named.mem_live.mp hp
  have hmem := h.stacked.complete p.pid p hx
  have howns := h.ownsSpace hx
  have hstate := (h.stacked.stack p.terminal).state_ne_launching hmem hx
  have hparent : k.parentViolation p = none := by
    unfold parentViolation
    cases hy : p.parent with
    | none => rfl
    | some y =>
      obtain ⟨q, context, hq, hs⟩ := (h.stacked.stack p.terminal).waits_parent hmem hx hy
      simp only [hq, hs, if_pos]
  rw [processViolation, howns, if_neg (by simp), if_neg hstate, hparent]

theorem Consistent.slotViolation_eq (h : k.Consistent σ) {slot : Nat}
    (hs : slot < processCapacity) : k.slotViolation slot = none := by
  let x : ProcessId := ⟨slot, hs⟩
  have howned : k.spaces.isOwned (.process slot) = k.spaces.isGiven x :=
    k.spaces.isOwned_process x
  have hlive : k.processes.live.any (fun p => p.pid.val == slot) = (k.processes.get? x).isSome := by
    rw [Bool.eq_iff_iff, List.any_eq_true, Option.isSome_iff_exists]
    constructor
    · rintro ⟨p, hp, hpx⟩
      have hx : p.pid = x := Fin.ext (by simpa using hpx)
      rw [← hx]
      exact ⟨p, h.named.mem_live.mp hp⟩
    · rintro ⟨p, hp⟩
      refine ⟨p, ProcessTable.mem_live.mpr ⟨x, hp⟩, ?_⟩
      rw [h.named x p hp]
      simp [x]
  rw [slotViolation, howned, hlive, h.given, if_pos rfl]

theorem Consistent.terminalViolation_eq (h : k.Consistent σ) (t : TerminalId) :
    k.terminalViolation t = none := by
  have hcount := h.countP_terminal t
  have hterm := h.terminals t
  unfold terminalViolation
  simp only [hterm, hcount, ne_eq, not_true_eq_false, if_false]
  cases hl : σ t with
  | nil => rfl
  | cons x l =>
    have hx : x ∈ (σ t).head? := by simp [hl]
    obtain ⟨p, hp, ht⟩ := h.stacked.mem_iff.mp (List.mem_of_mem_head? hx)
    have htop := (h.stacked.stack t).top x hx p hp
    simp only [List.head?_cons, hp, ht, not_true_eq_false, if_false]
    split
    · rename_i hs
      rw [hs] at htop
      split at htop <;> cases htop
    · rfl

theorem Consistent.currentViolation_eq (h : k.Consistent σ) (hc : k.current = some x) :
    k.currentViolation = none := by
  obtain ⟨p, hp⟩ := h.current_live hc
  have hs := h.current_running hc hp
  simp only [currentViolation, hc, hp, hs, h.countP_running hc]
  simp

/-- A kernel that is consistent passes the check. -/
theorem Consistent.findViolation_eq (h : k.Consistent σ) (hc : k.current = some x) :
    k.findViolation = none := by
  have hprocess : k.processes.live.findSome? k.processViolation = none :=
    List.findSome?_eq_none_iff.mpr fun p hp => h.processViolation_eq hp
  have hslot : (List.range processCapacity).findSome? k.slotViolation = none :=
    List.findSome?_eq_none_iff.mpr fun slot hslot => h.slotViolation_eq (List.mem_range.mp hslot)
  have hterminal : TerminalId.all.findSome? k.terminalViolation = none :=
    List.findSome?_eq_none_iff.mpr fun t _ => h.terminalViolation_eq t
  rw [findViolation, hprocess, hslot, hterminal, h.currentViolation_eq hc]
  rfl

end Kernel

end TerminalKernel
