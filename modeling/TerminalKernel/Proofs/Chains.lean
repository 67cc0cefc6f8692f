import TerminalKernel.Proofs.Bootable

namespace TerminalKernel.Kernel

variable {M D F : Type} [FileSystem F] {k : Kernel M D F} {σ : TerminalId → List ProcessId}
  {t : TerminalId} {x : ProcessId} {p : ProcessRecord}

/-- The processes alive on a terminal, oldest first: a root without a parent, then each the child for
which the one before it waits, and the last one on top. -/
structure IsChain (k : Kernel M D F) (t : TerminalId) (l : List ProcessId) : Prop where
  nodup : l.Nodup
  mem_iff : ∀ x, x ∈ l ↔ ∃ p, k.processes.get? x = some p ∧ p.terminal = t
  root : ∃ x p, l.head? = some x ∧ k.processes.get? x = some p ∧ p.parent = none
  linked : l.IsChain fun x y => ∃ p q context, k.processes.get? x = some p ∧
    p.state = .awaitingChild y context ∧ k.processes.get? y = some q ∧ q.parent = some x
  top : (k.terminals.get t).top = l.getLast?

theorem Consistent.isChain (h : k.Consistent σ) (hn : σ t ≠ []) : k.IsChain t (σ t).reverse := by
  have hs := h.stacked.stack t
  refine ⟨List.nodup_reverse.mpr hs.nodup, ?_, ?_, ?_, ?_⟩
  · intro x
    rw [List.mem_reverse]
    exact h.stacked.mem_iff
  · obtain ⟨p, hp, _⟩ := hs.live _ (List.getLast_mem hn)
    refine ⟨(σ t).getLast hn, p, ?_, hp, ?_⟩
    · rw [List.head?_reverse, List.getLast?_eq_getLast_of_ne_nil hn]
    · exact hs.root _ (List.getLast_mem_getLast? hn) p hp
  · rw [List.isChain_reverse]
    refine hs.linked.imp ?_
    rintro y x ⟨⟨q, hq, hqx⟩, p, context, hp, hpy⟩
    exact ⟨p, q, context, hp, hpy, hq, hqx⟩
  · rw [h.terminals, List.getLast?_reverse]

theorem Consistent.eq_top_of_running (h : k.Consistent σ) (hp : k.processes.get? x = some p)
    (hs : p.state = .running) :
    k.current = some x ∧ (k.terminals.get p.terminal).top = some x := by
  have hc : k.current = some x := h.stacked.eq_current hp hs
  refine ⟨hc, ?_⟩
  rw [h.terminals]
  exact h.head_current hc hp

variable [Machine M] [Devices D]

/-- After every operation the check finds nothing, the processes of each terminal form a chain, and
only the current process, on top of its terminal, runs. -/
theorem chains_run {machine : M} {devices : D} {fs : F} {layout : Layout} {timer : TimerConfig}
    {first : Transfer} (hb : (fresh machine devices fs layout timer).boot = (.ok first, k))
    (ops : List Operation) :
    (k.run ops).2.findViolation = none ∧
      (∀ t, ∃ l, (k.run ops).2.IsChain t l) ∧
      ∀ x p, (k.run ops).2.processes.get? x = some p → p.state = .running →
        (k.run ops).2.current = some x ∧
          ((k.run ops).2.terminals.get p.terminal).top = some x := by
  obtain ⟨_, h₀⟩ := sound_boot (unbooted_fresh machine devices fs layout timer) hb
  obtain ⟨σ, h⟩ := h₀.run ops
  obtain ⟨cur, hc⟩ := h.runs
  refine ⟨h.findViolation_eq hc, ?_, ?_⟩
  · intro t
    exact ⟨_, h.isChain (h.inhabited t)⟩
  · intro x p hp hs
    exact h.eq_top_of_running hp hs

theorem chains_run_shellFiles : ∃ first k, (Sample.kernel Sample.shellFiles).boot = (.ok first, k) ∧
    ∀ ops, (k.run ops).2.findViolation = none ∧
      (∀ t, ∃ l, (k.run ops).2.IsChain t l) ∧
      ∀ x p, (k.run ops).2.processes.get? x = some p → p.state = .running →
        (k.run ops).2.current = some x ∧
          ((k.run ops).2.terminals.get p.terminal).top = some x := by
  obtain ⟨first, k, hb⟩ := Sample.boot_shellFiles
  exact ⟨first, k, hb, chains_run hb⟩

end TerminalKernel.Kernel
