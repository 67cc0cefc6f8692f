import TerminalKernel.Proofs.Slots

namespace TerminalKernel

def RunState.IsStopped : RunState → Prop
  | .ready _ | .preempted _ => True
  | _ => False

abbrev Records := ProcessId → Option ProcessRecord

namespace Records

variable {f g : Records} {x y : ProcessId} {r s : Option ProcessRecord}

theorem update_eq_some_iff {p : ProcessRecord} :
    Function.update g y r x = some p ↔ x = y ∧ r = some p ∨ x ≠ y ∧ g x = some p := by
  by_cases hx : x = y
  · subst x
    simp
  · simp [hx]

theorem ne_of_eq_none {p : ProcessRecord} (hx : g x = some p) (hy : g y = none) : x ≠ y := by
  rintro rfl
  rw [hx] at hy
  cases hy

theorem eq_update (hx : f x = r) (h : ∀ z, z ≠ x → f z = g z) : f = Function.update g x r :=
  Function.eq_update_iff.mpr ⟨hx, h⟩

/-- The table after two records changed, the first of which may be the second. -/
theorem eq_update_update (hy : f y = s) (hx : x ≠ y → f x = r)
    (h : ∀ z, z ≠ y → z ≠ x → f z = g z) :
    f = Function.update (Function.update g x r) y s := by
  refine eq_update hy fun z hzy => ?_
  by_cases hzx : z = x
  · subst z
    rw [Function.update_self, hx hzy]
  · rw [Function.update_of_ne hzx, h z hzy hzx]

theorem map_terminal_update {p q : ProcessRecord} (hp : g x = some p)
    (hq : q.terminal = p.terminal) (y : ProcessId) :
    (Function.update g x (some q) y).map ProcessRecord.terminal =
      (g y).map ProcessRecord.terminal := by
  by_cases hy : y = x
  · rw [hy, Function.update_self, hp, Option.map_some, Option.map_some, hq]
  · rw [Function.update_of_ne hy]

end Records

def ProcessRecord.SamePlace (r p : ProcessRecord) : Prop :=
  r.pid = p.pid ∧ r.parent = p.parent ∧ r.terminal = p.terminal

def Waits (g : Records) (above below : ProcessId) : Prop :=
  (∃ p, g above = some p ∧ p.parent = some below) ∧
    ∃ q c, g below = some q ∧ q.state = .awaitingChild above c

/-- Living processes of a terminal, each waiting for the one before it. -/
structure IsLine (g : Records) (t : TerminalId) (l : List ProcessId) : Prop where
  live : ∀ x ∈ l, ∃ p, g x = some p ∧ p.pid = x ∧ p.terminal = t
  nodup : l.Nodup
  linked : l.IsChain (Waits g)
  root : ∀ x ∈ l.getLast?, ∀ p, g x = some p → p.parent = none

/-- A line whose first process, the one on top, was stopped or runs. -/
structure IsStack (g : Records) (current : Option ProcessId) (t : TerminalId)
    (l : List ProcessId) : Prop extends IsLine g t l where
  top : ∀ x ∈ l.head?, ∀ p, g x = some p →
    if current = some x then p.state = .running else p.state.IsStopped

/-- The stacks of all terminals hold all processes, and the current one is on top of its stack. -/
structure Stacked (g : Records) (current : Option ProcessId)
    (σ : TerminalId → List ProcessId) : Prop where
  stack : ∀ t, IsStack g current t (σ t)
  complete : ∀ x p, g x = some p → x ∈ σ p.terminal
  current : ∀ x ∈ current, ∃ t, x ∈ (σ t).head?

variable {g g' : Records} {c c' : Option ProcessId} {t : TerminalId} {l : List ProcessId}
  {σ : TerminalId → List ProcessId}

namespace IsLine

variable {x y : ProcessId} {p r : ProcessRecord}

theorem frame (h : IsLine g t l) (hg : ∀ x ∈ l, g' x = g x) : IsLine g' t l := by
  refine ⟨?_, h.nodup, ?_, ?_⟩
  · intro x hx
    rw [hg x hx]
    exact h.live x hx
  · refine h.linked.imp_of_mem_imp ?_
    intro a b ha hb hab
    rw [Waits, hg a ha, hg b hb]
    exact hab
  · intro x hx
    rw [hg x (List.mem_of_getLast? hx)]
    exact h.root x hx

theorem nil : IsLine g t [] := ⟨by simp, List.nodup_nil, List.IsChain.nil, by simp⟩

theorem singleton (hp : g x = some p) (hx : p.pid = x) (ht : p.terminal = t)
    (hr : p.parent = none) : IsLine g t [x] := by
  refine ⟨?_, List.nodup_singleton x, List.IsChain.singleton x, ?_⟩
  · intro y hy
    rw [List.mem_singleton.mp hy]
    exact ⟨p, hp, hx, ht⟩
  · intro y hy q hq
    simp only [List.getLast?_singleton, Option.mem_some_iff] at hy
    subst hy
    rw [hp] at hq
    cases hq
    exact hr

theorem tail (h : IsLine g t (x :: y :: l)) : IsLine g t (y :: l) := by
  refine ⟨?_, h.nodup.of_cons, (List.isChain_cons_cons.mp h.linked).2, ?_⟩
  · intro z hz
    exact h.live z (List.mem_cons_of_mem x hz)
  · intro z hz
    exact h.root z (by rwa [List.getLast?_cons_cons])

theorem updateFirst (h : IsLine g t (x :: l)) (hp : g x = some p) (hr : r.SamePlace p) :
    IsLine (Function.update g x (some r)) t (x :: l) := by
  obtain ⟨hn, hr, ht⟩ := hr
  have hx : x ∉ l := (List.nodup_cons.mp h.nodup).1
  refine ⟨?_, h.nodup, ?_, ?_⟩
  · intro y hy
    obtain ⟨q, hq, hqn, hqt⟩ := h.live y hy
    by_cases hyx : y = x
    · rw [hyx, hp] at hq
      cases hq
      exact ⟨r, by rw [hyx, Function.update_self], by rw [hn, hqn], by rw [ht, hqt]⟩
    · exact ⟨q, by rwa [Function.update_of_ne hyx], hqn, hqt⟩
  · refine h.linked.imp_of_mem_tail_imp ?_
    intro a b ha hb hab
    have hbx : b ≠ x := fun he => hx (he ▸ hb)
    obtain ⟨⟨q, hq, hqp⟩, hw⟩ := hab
    refine ⟨?_, by rwa [Function.update_of_ne hbx]⟩
    by_cases hax : a = x
    · subst a
      rw [hp] at hq
      cases hq
      exact ⟨r, Function.update_self .., by rw [hr, hqp]⟩
    · exact ⟨q, by rwa [Function.update_of_ne hax], hqp⟩
  · intro y hy q hq
    by_cases hyx : y = x
    · subst y
      rw [Function.update_self] at hq
      cases hq
      rw [hr]
      exact h.root x hy p hp
    · rw [Function.update_of_ne hyx] at hq
      exact h.root y hy q hq

theorem cons (h : IsLine g t (x :: l)) {c : SavedContext} (hp : g x = some p)
    (hw : p.state = .awaitingChild y c) (hy : g y = none) (hn : r.pid = y)
    (hr : r.parent = some x) (ht : r.terminal = t) :
    IsLine (Function.update g y (some r)) t (y :: x :: l) := by
  have hout : y ∉ x :: l := by
    intro hm
    obtain ⟨q, hq, _⟩ := h.live y hm
    rw [hy] at hq
    cases hq
  have hrest : IsLine (Function.update g y (some r)) t (x :: l) :=
    h.frame fun z hz => Function.update_of_ne (fun he => hout (by rwa [← he])) _ _
  have hxy : x ≠ y := fun he => hout (by simp [he])
  refine ⟨?_, List.nodup_cons.mpr ⟨hout, h.nodup⟩, ?_, ?_⟩
  · intro z hz
    rw [List.mem_cons] at hz
    cases hz with
    | inl hz => exact ⟨r, by rw [hz, Function.update_self], by rw [hz, hn], ht⟩
    | inr hz => exact hrest.live z hz
  · rw [List.isChain_cons_cons]
    refine ⟨⟨⟨r, Function.update_self .., hr⟩, p, c, ?_, hw⟩, hrest.linked⟩
    rwa [Function.update_of_ne hxy]
  · intro z hz
    rw [List.getLast?_cons_cons] at hz
    exact hrest.root z hz

end IsLine

namespace IsStack

theorem frame (h : IsStack g c t l) (hg : ∀ x ∈ l, g' x = g x)
    (hc : ∀ x ∈ l.head?, c' = some x ↔ c = some x) : IsStack g' c' t l := by
  refine ⟨h.toIsLine.frame hg, ?_⟩
  intro x hx p hp
  rw [hg x (List.mem_of_mem_head? hx)] at hp
  simpa only [hc x hx] using h.top x hx p hp

theorem nil : IsStack g c t [] := ⟨IsLine.nil, by simp⟩

theorem of_line {x : ProcessId} {p : ProcessRecord} (h : IsLine g t (x :: l)) (hp : g x = some p)
    (hs : if c = some x then p.state = .running else p.state.IsStopped) :
    IsStack g c t (x :: l) := by
  refine ⟨h, ?_⟩
  intro y hy q hq
  simp only [List.head?_cons, Option.mem_some_iff] at hy
  subst hy
  rw [hp] at hq
  cases hq
  exact hs

theorem waiting (h : IsStack g c t l) {x : ProcessId} (hx : x ∈ l.tail) :
    ∃ p child context r, g x = some p ∧ p.state = .awaitingChild child context ∧
      g child = some r ∧ r.parent = some x := by
  have hl := h.linked
  clear h
  induction l with
  | nil => simp at hx
  | cons a l ih =>
    cases l with
    | nil => simp at hx
    | cons b l =>
      rw [List.isChain_cons_cons] at hl
      rw [List.tail_cons, List.mem_cons] at hx
      cases hx with
      | inl hx =>
        obtain ⟨⟨r, hr, hrb⟩, q, context, hq, hs⟩ := hl.1
        exact ⟨q, a, context, r, by rw [hx, hq], hs, hr, by rw [hx, hrb]⟩
      | inr hx => exact ih hx hl.2

theorem not_running (h : IsStack g c t l) {x : ProcessId} {p : ProcessRecord} (hx : x ∈ l)
    (hp : g x = some p) (hc : c ≠ some x) : p.state ≠ .running := by
  cases l with
  | nil => simp at hx
  | cons a l =>
    rw [List.mem_cons] at hx
    cases hx with
    | inl hx =>
      subst hx
      have ht := h.top x (by simp) p hp
      rw [if_neg hc] at ht
      intro hs
      simp [hs, RunState.IsStopped] at ht
    | inr hx =>
      obtain ⟨q, child, context, _, hq, hs, -⟩ := h.waiting (by simpa using hx)
      rw [hp] at hq
      cases hq
      simp [hs]

end IsStack

namespace Stacked

theorem mem_iff (h : Stacked g c σ) {x : ProcessId} :
    x ∈ σ t ↔ ∃ p, g x = some p ∧ p.terminal = t := by
  constructor
  · intro hx
    obtain ⟨p, hp, _, ht⟩ := (h.stack t).live x hx
    exact ⟨p, hp, ht⟩
  · rintro ⟨p, hp, rfl⟩
    exact h.complete x p hp

theorem pid_eq (h : Stacked g c σ) {x : ProcessId} {p : ProcessRecord} (hp : g x = some p) :
    p.pid = x := by
  obtain ⟨q, hq, hn, _⟩ := (h.stack p.terminal).live x (h.complete x p hp)
  rw [hp] at hq
  cases hq
  exact hn

theorem not_mem_of_ne (h : Stacked g c σ) {t u : TerminalId} (htu : t ≠ u) {x : ProcessId}
    (hx : x ∈ σ t) : x ∉ σ u := by
  intro hu
  obtain ⟨p, hp, rfl⟩ := h.mem_iff.mp hx
  obtain ⟨q, hq, rfl⟩ := h.mem_iff.mp hu
  rw [hp] at hq
  cases hq
  exact htu rfl

theorem head_current (h : Stacked g (some x) σ) {p : ProcessRecord} (hp : g x = some p) :
    (σ p.terminal).head? = some x := by
  obtain ⟨t, ht⟩ := h.current x rfl
  obtain ⟨q, hq, rfl⟩ := h.mem_iff.mp (List.mem_of_mem_head? ht)
  rw [hp] at hq
  cases hq
  exact ht

theorem current_live (h : Stacked g (some x) σ) : ∃ p, g x = some p := by
  obtain ⟨t, ht⟩ := h.current x rfl
  obtain ⟨p, hp, _⟩ := h.mem_iff.mp (List.mem_of_mem_head? ht)
  exact ⟨p, hp⟩

theorem current_running (h : Stacked g (some x) σ) {p : ProcessRecord} (hp : g x = some p) :
    p.state = .running := by
  have ht := (h.stack p.terminal).top x (h.head_current hp) p hp
  simpa using ht

theorem eq_current (h : Stacked g c σ) {x : ProcessId} {p : ProcessRecord} (hp : g x = some p)
    (hr : p.state = .running) : c = some x := by
  by_contra hc
  exact (h.stack p.terminal).not_running (h.complete x p hp) hp hc hr

theorem awaited (h : Stacked g c σ) {x y : ProcessId} {p : ProcessRecord} {context : SavedContext}
    (hp : g x = some p) (hs : p.state = .awaitingChild y context) :
    ∃ q, g y = some q ∧ q.parent = some x := by
  have hx := h.complete x p hp
  have hstack := h.stack p.terminal
  cases hl : σ p.terminal with
  | nil => simp [hl] at hx
  | cons a l =>
    rw [hl] at hx hstack
    rw [List.mem_cons] at hx
    cases hx with
    | inl hx =>
      subst hx
      have ht := hstack.top x rfl p hp
      rw [hs] at ht
      split at ht <;> cases ht
    | inr hx =>
      obtain ⟨p', child, context', q, hp', hs', hq, hqx⟩ := hstack.waiting (by simpa using hx)
      rw [hp] at hp'
      cases hp'
      rw [hs] at hs'
      cases hs'
      exact ⟨q, hq, hqx⟩

theorem ne_below (h : Stacked g c σ) {x y : ProcessId} (hl : σ t = x :: y :: l) : y ≠ x := by
  have hn := (h.stack t).nodup
  rw [hl, List.nodup_cons] at hn
  intro he
  exact hn.1 (by simp [he])

theorem alone_of_root (h : Stacked g (some x) σ) {p : ProcessRecord} (hp : g x = some p)
    (hr : p.parent = none) : σ p.terminal = [x] := by
  have hx := h.head_current hp
  have hs := (h.stack p.terminal).linked
  cases hl : σ p.terminal with
  | nil => simp [hl] at hx
  | cons a l =>
    rw [hl, List.head?_cons, Option.some.injEq] at hx
    subst hx
    cases l with
    | nil => rfl
    | cons b l =>
      rw [hl, List.isChain_cons_cons] at hs
      obtain ⟨⟨q, hq, hqp⟩, _⟩ := hs.1
      rw [hp] at hq
      cases hq
      rw [hr] at hqp
      cases hqp

theorem above_parent (h : Stacked g (some x) σ) {p : ProcessRecord} (hp : g x = some p)
    {y : ProcessId} (hr : p.parent = some y) :
    ∃ l q c, σ p.terminal = x :: y :: l ∧ g y = some q ∧ q.state = .awaitingChild x c := by
  have hx := h.head_current hp
  have hs := h.stack p.terminal
  cases hl : σ p.terminal with
  | nil => simp [hl] at hx
  | cons a l =>
    rw [hl, List.head?_cons, Option.some.injEq] at hx
    subst hx
    cases l with
    | nil =>
      have hroot := hs.root a (by simp [hl]) p hp
      rw [hr] at hroot
      cases hroot
    | cons b l =>
      have hlinked := hs.linked
      rw [hl, List.isChain_cons_cons] at hlinked
      obtain ⟨⟨p', hp', hpb⟩, q, c, hq, hqs⟩ := hlinked.1
      rw [hp] at hp'
      cases hp'
      rw [hr, Option.some.injEq] at hpb
      subst hpb
      exact ⟨l, q, c, rfl, hq, hqs⟩

/-- The stack of one terminal is replaced. Who leaves it dies, who enters it was not alive, and no
process of another terminal was or becomes the current one. -/
theorem replace (h : Stacked g c σ) (hl : IsStack g' c' t l)
    (hframe : ∀ x, x ∉ σ t → x ∉ l → g' x = g x)
    (hgone : ∀ x ∈ σ t, x ∉ l → g' x = none)
    (hnew : ∀ x ∈ l, x ∉ σ t → g x = none)
    (hc : ∀ x ∈ c, x ∈ (σ t).head?) (hc' : ∀ x ∈ c', x ∈ l.head?) :
    Stacked g' c' (Function.update σ t l) := by
  refine ⟨?_, ?_, ?_⟩
  · intro u
    by_cases hu : u = t
    · subst u
      rwa [Function.update_self]
    · rw [Function.update_of_ne hu]
      have hout : ∀ x ∈ σ u, x ∉ σ t ∧ x ∉ l := by
        intro x hx
        have hxt := h.not_mem_of_ne hu hx
        refine ⟨hxt, fun hxl => ?_⟩
        obtain ⟨p, hp, _⟩ := h.mem_iff.mp hx
        rw [hnew x hxl hxt] at hp
        cases hp
      refine (h.stack u).frame (fun x hx => hframe x (hout x hx).1 (hout x hx).2) ?_
      intro x hx
      have ⟨hxt, hxl⟩ := hout x (List.mem_of_mem_head? hx)
      constructor
      · intro he
        exact absurd (List.mem_of_mem_head? (hc' x he)) hxl
      · intro he
        exact absurd (List.mem_of_mem_head? (hc x he)) hxt
  · intro x p hp
    by_cases hxl : x ∈ l
    · obtain ⟨q, hq, _, ht⟩ := hl.live x hxl
      rw [hp] at hq
      cases hq
      rwa [ht, Function.update_self]
    · by_cases hxt : x ∈ σ t
      · rw [hgone x hxt hxl] at hp
        cases hp
      · rw [hframe x hxt hxl] at hp
        have hx := h.complete x p hp
        have hne : p.terminal ≠ t := by
          intro he
          exact hxt (he ▸ hx)
        rwa [Function.update_of_ne hne]
  · intro x hx
    refine ⟨t, ?_⟩
    rw [Function.update_self]
    exact hc' x hx

end Stacked

end TerminalKernel
