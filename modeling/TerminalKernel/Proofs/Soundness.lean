import TerminalKernel.Proofs.Effects

namespace TerminalKernel.Kernel

variable {M D F : Type} [Machine M] [Devices D] [FileSystem F] {k k' : Kernel M D F}
  {σ σ' : TerminalId → List ProcessId}

omit [Devices D] in
theorem Sound.leave (h : k.Sound σ) (hc : k'.Consistent σ') (hf : k'.fs = k.fs)
    (hl : k'.layout = k.layout) (hn : ∀ t, σ' t ≠ []) (hr : ∃ pid, k'.current = some pid) :
    (k.leave k').Sound σ' := by
  refine Sound.of_sameCore (k := k') ⟨hc, ?_, hn, hr, ?_⟩ (sameCore_leave ..)
  · rw [hl]
    exact h.fits
  · rw [program_congr hf hl]
    exact h.shell

theorem inhabited_update (hn : ∀ t, σ t ≠ []) (t : TerminalId) (pid : ProcessId)
    (l : List ProcessId) (u : TerminalId) : Function.update σ t (pid :: l) u ≠ [] := by
  by_cases hu : u = t
  · rw [hu, Function.update_self]
    simp
  · rw [Function.update_of_ne hu]
    exact hn u

/-- Every effect leaves a sound kernel. -/
theorem Effect.sound {request : Request} {transfer : Transfer} (h : k.Sound σ)
    (he : k.Effect σ request transfer k' σ') : k'.Sound σ' := by
  have hm : k.masked.Sound σ := h.of_sameCore k.sameCore_masked
  cases he with
  | refused hcalls =>
    exact (hm.of_sameCore (sameCore_performAll ..)).of_sameCore (sameCore_leave ..)
  | @launched line caller cur pid p prog hc hp hfree hprog =>
    have hnone : k.masked.processes.get? pid = none := ProcessTable.get?_firstFree hfree
    have hprog' : k.masked.program line = .ok prog := hprog
    have hcons := hm.start_child hc hp hnone hprog' caller
    exact h.leave hcons rfl rfl (inhabited_update h.inhabited _ _ _) ⟨pid, rfl⟩
  | returned hc hp hq hs hl =>
    exact h.leave (hm.returned hc hq hl _) rfl rfl (inhabited_update h.inhabited _ _ _) ⟨_, rfl⟩
  | @relaunched cause pid new p prog hc hp hl hfree hprog =>
    have hret := hm.retired hc hl
    have hnone := ProcessTable.get?_firstFree hfree
    have hprog' : (k.masked.retired pid p.terminal).program shell = .ok prog := hprog
    have hcons := hret.start_root rfl (Function.update_self ..) hnone hprog'
    rw [Function.update_self, Function.update_idem] at hcons
    exact h.leave hcons rfl rfl (inhabited_update h.inhabited _ _ _) ⟨new, rfl⟩
  | @turned interrupted cur target p q stack transfer hc hp hq ht htop hne hr =>
    have hcons := hm.turned interrupted stack hc hp hq htop hne
    exact h.leave (hcons.of_sameCore (sameCore_perform ..)) rfl rfl h.inhabited ⟨_, rfl⟩
  | kept hd => exact hm.of_sameCore (sameCore_leave ..)
  | @shown entered cur calls hc hne hcalls =>
    have hcons := (hm.shown entered hc).of_sameCore (sameCore_performAll calls _)
    exact h.leave hcons rfl rfl h.inhabited ⟨_, hc⟩
  | served hc hsm hk =>
    have hcons := h.serves hc hk
    obtain ⟨files, d, _, rfl⟩ := hk
    exact ⟨hcons, h.fits, h.inhabited, ⟨_, hc⟩, h.shell⟩

omit [FileSystem F] [Devices D] in
theorem leave_fixed (k k' : Kernel M D F) :
    (k.leave k').fs = k'.fs ∧ (k.leave k').layout = k'.layout :=
  ⟨(sameCore_leave k k').fs, (sameCore_leave k k').layout⟩

theorem Effect.fixed {request : Request} {transfer : Transfer}
    (he : k.Effect σ request transfer k' σ') : k'.fs = k.fs ∧ k'.layout = k.layout := by
  cases he with
  | refused | launched | returned | relaunched | turned | kept | shown => exact leave_fixed ..
  | served hc hm hk =>
    obtain ⟨files, d, -, rfl⟩ := hk
    exact ⟨rfl, rfl⟩

theorem Sound.operate (h : k.Sound σ) (op : Operation) :
    ∃ σ', (k.operate op).2.Sound σ' := by
  obtain ⟨k', σ', he, ha⟩ := operate_effect h op
  exact ⟨σ', (he.sound h).of_sameCore ha.toSameCore⟩

theorem run_cons (op : Operation) (ops : List Operation) :
    (k.run (op :: ops)).2 = ((k.operate op).2.run ops).2 := rfl

theorem Sound.run (h : k.Sound σ) (ops : List Operation) :
    ∃ σ', (k.run ops).2.Sound σ' := by
  induction ops generalizing k σ with
  | nil => exact ⟨σ, h⟩
  | cons op ops ih =>
    obtain ⟨σ', h'⟩ := h.operate op
    rw [run_cons]
    exact ih h'

theorem Sound.run_fixed (h : k.Sound σ) (ops : List Operation) :
    (k.run ops).2.fs = k.fs ∧ (k.run ops).2.layout = k.layout := by
  induction ops generalizing k σ with
  | nil => exact ⟨rfl, rfl⟩
  | cons op ops ih =>
    obtain ⟨k', σ', he, ha⟩ := operate_effect h op
    obtain ⟨hf, hl⟩ := ih ((he.sound h).of_sameCore ha.toSameCore)
    rw [run_cons]
    exact ⟨hf.trans (ha.fs.trans he.fixed.1), hl.trans (ha.layout.trans he.fixed.2)⟩

end TerminalKernel.Kernel
