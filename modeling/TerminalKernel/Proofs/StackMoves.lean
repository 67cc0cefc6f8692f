import TerminalKernel.Proofs.Stacks

namespace TerminalKernel.Stacked

variable {g : Records} {c c' : Option ProcessId} {t : TerminalId} {l : List ProcessId}
  {σ : TerminalId → List ProcessId} {x y : ProcessId} {p q r : ProcessRecord}

theorem eq_cons (hx : x ∈ (σ t).head?) : σ t = x :: (σ t).tail := by
  cases hl : σ t with
  | nil => simp [hl] at hx
  | cons a l =>
    rw [hl, List.head?_cons, Option.mem_some_iff] at hx
    rw [hx, List.tail_cons]

theorem retop (h : Stacked g c σ) (hx : x ∈ (σ t).head?) (hp : g x = some p) (hr : r.SamePlace p)
    (hc : ∀ y ∈ c, y = x) (hc' : ∀ y ∈ c', y = x)
    (hs : if c' = some x then r.state = .running else r.state.IsStopped) :
    Stacked (Function.update g x (some r)) c' σ := by
  have hl := (h.stack t).toIsLine
  rw [eq_cons hx] at hl
  have hst := IsStack.of_line (c := c') (hl.updateFirst hp hr) (Function.update_self ..) hs
  rw [← eq_cons hx] at hst
  have hu := h.replace hst ?_ ?_ ?_ ?_ ?_
  · rwa [Function.update_eq_self] at hu
  · intro y hy _
    exact Function.update_of_ne (fun he => hy (by rw [he, eq_cons hx]; simp)) _ _
  · intro y hy hny
    exact absurd hy hny
  · intro y hy hny
    exact absurd hy hny
  · intro y hy
    rwa [hc y hy]
  · intro y hy
    rwa [hc' y hy]

theorem start (h : Stacked g none σ) (ht : σ t = []) (hx : g x = none) (hn : r.pid = x)
    (hr : r.parent = none) (hrt : r.terminal = t) (hs : r.state = .running) :
    Stacked (Function.update g x (some r)) (some x) (Function.update σ t [x]) := by
  have hl : IsLine (Function.update g x (some r)) t [x] :=
    IsLine.singleton (Function.update_self ..) hn hrt hr
  refine h.replace (IsStack.of_line hl (Function.update_self ..) (by simpa using hs)) ?_ ?_ ?_ ?_ ?_
  · intro y _ hy
    exact Function.update_of_ne (fun he => hy (by simp [he])) _ _
  · intro y hy
    simp [ht] at hy
  · intro y hy _
    rwa [List.mem_singleton.mp hy]
  · intro y hy
    cases hy
  · intro y hy
    simpa using hy

/-- The current process waits for a new child. -/
theorem push (h : Stacked g (some x) σ) (hp : g x = some p) (hy : g y = none) (hq : q.SamePlace p)
    {c : SavedContext} (hw : q.state = .awaitingChild y c) (hn : r.pid = y)
    (hr : r.parent = some x) (hrt : r.terminal = p.terminal) (hs : r.state = .running) :
    Stacked (Function.update (Function.update g x (some q)) y (some r)) (some y)
      (Function.update σ p.terminal (y :: σ p.terminal)) := by
  have hx := h.head_current hp
  have hxy : y ≠ x := Ne.symm (Records.ne_of_eq_none hp hy)
  have hl := (h.stack p.terminal).toIsLine
  rw [eq_cons hx] at hl
  have hl' := (hl.updateFirst hp hq).cons (Function.update_self ..) hw
    (by rwa [Function.update_of_ne hxy]) hn hr hrt
  rw [← eq_cons hx] at hl'
  have hst := IsStack.of_line (c := some y) hl' (Function.update_self ..) (by simpa using hs)
  refine h.replace hst ?_ ?_ ?_ ?_ ?_
  · intro z hz hzl
    rw [List.mem_cons, not_or] at hzl
    rw [Function.update_of_ne hzl.1]
    exact Function.update_of_ne (fun he => hz (by rw [he, eq_cons hx]; simp)) _ _
  · intro z hz hzl
    exact absurd (List.mem_cons_of_mem y hz) hzl
  · intro z hz hzl
    cases List.mem_cons.mp hz with
    | inl he => rwa [he]
    | inr hz => exact absurd hz hzl
  · intro z hz
    cases hz
    exact hx
  · intro z hz
    simpa using hz

theorem pop (h : Stacked g (some x) σ) (hl : σ t = x :: y :: l) (hq : g y = some q)
    (hr : r.SamePlace q) (hs : r.state = .running) :
    Stacked (Function.update (Function.update g x none) y (some r)) (some y)
      (Function.update σ t (y :: l)) := by
  have hline := (h.stack t).toIsLine
  rw [hl] at hline
  have hx : x ∉ y :: l := (List.nodup_cons.mp hline.nodup).1
  have hxy : y ≠ x := fun he => hx (by simp [he])
  have htail : IsLine (Function.update g x none) t (y :: l) :=
    hline.tail.frame fun z hz => Function.update_of_ne (fun he => hx (by rwa [← he])) _ _
  have hline' := htail.updateFirst (by rwa [Function.update_of_ne hxy]) hr
  refine h.replace (IsStack.of_line hline' (Function.update_self ..) (by simpa using hs))
    ?_ ?_ ?_ ?_ ?_
  · intro z hz hzl
    rw [hl] at hz
    simp only [List.mem_cons, not_or] at hz
    rw [Function.update_of_ne hz.2.1, Function.update_of_ne hz.1]
  · intro z hz hzl
    rw [hl] at hz
    cases List.mem_cons.mp hz with
    | inl he => rw [he, Function.update_of_ne (Ne.symm hxy), Function.update_self]
    | inr hz => exact absurd hz hzl
  · intro z hz hzl
    exact absurd (by rw [hl]; exact List.mem_cons_of_mem x hz) hzl
  · intro z hz
    cases hz
    simp [hl]
  · intro z hz
    simpa using hz

theorem retire (h : Stacked g (some x) σ) (hl : σ t = [x]) :
    Stacked (Function.update g x none) none (Function.update σ t []) := by
  refine h.replace IsStack.nil ?_ ?_ ?_ ?_ ?_
  · intro y hy _
    rw [hl, List.mem_singleton] at hy
    exact Function.update_of_ne hy _ _
  · intro y hy _
    rw [hl, List.mem_singleton] at hy
    rw [hy, Function.update_self]
  · intro y hy
    simp at hy
  · intro y hy
    cases hy
    simp [hl]
  · intro y hy
    cases hy

end TerminalKernel.Stacked
