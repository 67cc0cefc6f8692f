import TerminalKernel.Proofs.Bootable

namespace TerminalKernel

def Request.Moves : Request → Prop
  | .execute .. | .finish _ => True
  | .turn _ | .display _ | .service => False

theorem Records.terminal_eq {g : Records} {x : ProcessId} {p : ProcessRecord} {t : TerminalId}
    (hp : g x = some p) (ht : p.terminal = t) : ∀ q ∈ g x, q.terminal = t := by
  intro q hq
  rw [Option.mem_def, hp] at hq
  cases hq
  exact ht

theorem Records.update_elsewhere {g : Records} {y : ProcessId} {r : Option ProcessRecord}
    {t : TerminalId} (hg : ∀ q ∈ g y, q.terminal = t) (hr : ∀ q ∈ r, q.terminal = t)
    (x : ProcessId) {q : ProcessRecord} (hq : q.terminal ≠ t) :
    Function.update g y r x = some q ↔ g x = some q := by
  by_cases hx : x = y
  · subst x
    rw [Function.update_self]
    exact ⟨fun h => absurd (hr q h) hq, fun h => absurd (hg q h) hq⟩
  · rw [Function.update_of_ne hx]

namespace Kernel

variable {M D F : Type} {k k' k'' : Kernel M D F} {cur : ProcessId} {p : ProcessRecord}
  {request : Request}

/-- What an operation of the current process leaves alone. -/
structure Spares (k k' : Kernel M D F) (cur : ProcessId) (p : ProcessRecord) (request : Request) :
    Prop where
  elsewhere : ∀ x q, q.terminal ≠ p.terminal →
    (k'.processes.get? x = some q ↔ k.processes.get? x = some q)
  /-- Only a parent whose child ends is changed, and only in its state. -/
  beside : ∀ x q, x ≠ cur → k.processes.get? x = some q → k'.processes.get? x = some q ∨
    (∃ cause, request = .finish cause) ∧ p.parent = some x ∧
      ∃ state, k'.processes.get? x = some { q with state }
  spaces : ∀ x q, x ≠ cur → k.processes.get? x = some q →
    k'.spaces.lookup (.process x) = k.spaces.lookup (.process x)
  slots : ∀ t, t ≠ p.terminal → k'.terminals.get t = k.terminals.get t

theorem Spares.of_sameCore (h : k.Spares k' cur p request) (hs : k''.SameCore k') :
    k.Spares k'' cur p request := by
  obtain ⟨helse, hbeside, hspaces, hslots⟩ := h
  refine ⟨?_, ?_, ?_, ?_⟩
  · rwa [hs.processes]
  · rwa [hs.processes]
  · rwa [hs.spaces]
  · rwa [hs.terminals]

theorem Spares.of_masked [Machine M] (h : k.masked.Spares k' cur p request) :
    k.Spares k' cur p request := ⟨h.elsewhere, h.beside, h.spaces, h.slots⟩

theorem spares_refl (k : Kernel M D F) (cur : ProcessId) (p : ProcessRecord) (request : Request) :
    k.Spares k cur p request :=
  ⟨fun _ _ _ => Iff.rfl, fun _ _ _ hx => Or.inl hx, fun _ _ _ _ => rfl, fun _ _ => rfl⟩

theorem get_set_of_ne {slots : Vector TerminalSlot terminalCount} {t u : TerminalId} (hu : u ≠ t)
    (slot : TerminalSlot) : (slots.set t slot t.isLt).get u = slots.get u := by
  have hne : t.val ≠ u.val := fun he => hu (Fin.ext he.symm)
  simp only [Vector.get_eq_getElem, Vector.getElem_set, if_neg hne]

theorem process_ne {x y : ProcessId} (h : x ≠ y) : SpaceId.process x ≠ .process y :=
  fun he => h (Fin.ext (SpaceId.process.inj he))

variable [FileSystem F] [Machine M] {σ σ' : TerminalId → List ProcessId} {transfer : Transfer}

omit [Machine M] in
theorem Consistent.parent_eq (h : k.Consistent σ) (hp : k.processes.get? cur = some p)
    {parent : ProcessId} {l : List ProcessId} (hl : σ p.terminal = cur :: parent :: l) :
    p.parent = some parent := by
  have hlinked := (h.stacked.stack p.terminal).linked
  rw [hl, List.isChain_cons_cons] at hlinked
  obtain ⟨⟨⟨q, hq, hparent⟩, -⟩, -⟩ := hlinked
  rw [hp] at hq
  cases hq
  exact hparent

theorem Consistent.spares_started_child (h : k.Consistent σ)
    (hp : k.processes.get? cur = some p) {child : ProcessId}
    (hfree : k.processes.get? child = none) (prog : Program) (caller : SavedContext)
    (request : Request) :
    k.Spares (k.started child p.terminal prog (k.childTable cur child p.terminal prog caller)) cur p
      request := by
  have hne : cur ≠ child := Records.ne_of_eq_none hp hfree
  have hget : (k.started child p.terminal prog
      (k.childTable cur child p.terminal prog caller)).processes.get? = _ :=
    get?_childTable h.layout hp hne prog caller
  have hlive {x : ProcessId} {q : ProcessRecord} (hx : k.processes.get? x = some q) : x ≠ child :=
    Records.ne_of_eq_none hx hfree
  refine ⟨?_, ?_, ?_, fun t ht => get_set_of_ne ht _⟩
  · -- Both the caller, which now waits, and its child are on this terminal.
    intro x q hq
    have hchild : Function.update k.processes.get? cur (some { p with
        state := .awaitingChild child (k.leftContext child p.terminal prog caller) }) child =
          none := by rw [Function.update_of_ne hne.symm, hfree]
    rw [hget, Records.update_elsewhere (by simp [hchild]) (by simp [newRecord]) x hq,
      Records.update_elsewhere (Records.terminal_eq hp rfl) (by simp) x hq]
  · intro x q hx hq
    rw [hget, Function.update_of_ne (hlive hq), Function.update_of_ne hx]
    exact Or.inl hq
  · intro x q hx hq
    exact SpaceArena.lookup_give (process_ne (hlive hq))

theorem Consistent.spares_returned (h : k.Consistent σ) (hp : k.processes.get? cur = some p)
    {parent : ProcessId} {q : ProcessRecord} (hq : k.processes.get? parent = some q)
    {l : List ProcessId} (hl : σ p.terminal = cur :: parent :: l) (stack : KernelStack)
    (cause : HaltCause) :
    k.Spares (k.returned cur parent p.terminal stack) cur p (.finish cause) := by
  have hne : parent ≠ cur := h.stacked.ne_below hl
  have hget : (k.returned cur parent p.terminal stack).processes.get? = _ :=
    get?_returned hq hne p.terminal stack
  have hqt : q.terminal = p.terminal := by
    obtain ⟨q', hq', -, ht⟩ := (h.stacked.stack p.terminal).live parent (by simp [hl])
    rw [hq] at hq'
    cases hq'
    exact ht
  refine ⟨?_, ?_, ?_, fun t ht => get_set_of_ne ht _⟩
  · intro x r hr
    have hbelow : Function.update k.processes.get? cur none parent = some q := by
      rw [Function.update_of_ne hne, hq]
    rw [hget, Records.update_elsewhere (Records.terminal_eq hbelow hqt) (by simp [hqt]) x hr,
      Records.update_elsewhere (Records.terminal_eq hp rfl) (by simp) x hr]
  · intro x r hx hr
    rw [hget]
    by_cases hxp : x = parent
    · subst x
      rw [hq] at hr
      cases hr
      rw [Function.update_self]
      exact Or.inr ⟨⟨cause, rfl⟩, h.parent_eq hp hl, _, rfl⟩
    · rw [Function.update_of_ne hxp, Function.update_of_ne hx]
      exact Or.inl hr
  · intro x r hx hr
    exact SpaceArena.lookup_free (process_ne hx)

theorem Consistent.spares_relaunched (h : k.Consistent σ) (hp : k.processes.get? cur = some p)
    {new : ProcessId}
    (hfree : (k.retired cur p.terminal).processes.get? new = none) (prog : Program)
    (request : Request) :
    k.Spares ((k.retired cur p.terminal).relaunched new p.terminal prog) cur p request := by
  have hretired : (k.retired cur p.terminal).processes.get? = _ := get?_retired p.terminal
  have hget : ((k.retired cur p.terminal).relaunched new p.terminal prog).processes.get? = _ :=
    get?_rootTable (k := k.retired cur p.terminal) h.layout new p.terminal prog
  rw [hretired] at hget hfree
  -- The new process may get the slot of the one that ended, but not that of a bystander.
  have hlive {x : ProcessId} {q : ProcessRecord} (hx : x ≠ cur)
      (hq : k.processes.get? x = some q) : x ≠ new := by
    rintro rfl
    rw [Function.update_of_ne hx, hq] at hfree
    cases hfree
  refine ⟨?_, ?_, ?_, ?_⟩
  · intro x q hq
    rw [hget, Records.update_elsewhere (by simp [hfree]) (by simp [newRecord]) x hq,
      Records.update_elsewhere (Records.terminal_eq hp rfl) (by simp) x hq]
  · intro x q hx hq
    rw [hget, Function.update_of_ne (hlive hx hq), Function.update_of_ne hx]
    exact Or.inl hq
  · intro x q hx hq
    have hnew : ((k.retired cur p.terminal).relaunched new p.terminal prog).spaces.lookup
        (.process x) = (k.retired cur p.terminal).spaces.lookup (.process x) :=
      SpaceArena.lookup_give (process_ne (hlive hx hq))
    have hfreed : (k.retired cur p.terminal).spaces.lookup (.process x) =
        k.spaces.lookup (.process x) := SpaceArena.lookup_free (process_ne hx)
    exact hnew.trans hfreed
  · intro t ht
    exact (get_set_of_ne ht _).trans (get_set_of_ne ht _)

variable [Devices D]

theorem Effect.spares (h : k.Sound σ) (hmoves : request.Moves)
    (he : k.Effect σ request transfer k' σ') (hc : k.current = some cur)
    (hp : k.processes.get? cur = some p) : k.Spares k' cur p request := by
  have hm : k.masked.Consistent σ := h.toConsistent.of_sameCore k.sameCore_masked
  cases he with
  | refused hcalls =>
    exact (k.spares_refl cur p _).of_sameCore
      ((sameCore_leave ..).trans ((sameCore_performAll ..).trans k.sameCore_masked))
  | launched hc' hp' hfree hprog =>
    rw [hc] at hc'
    cases hc'
    rw [hp] at hp'
    cases hp'
    have hs := hm.spares_started_child hp (ProcessTable.get?_firstFree hfree)
    exact (hs _ _ _).of_masked.of_sameCore (sameCore_leave ..)
  | returned hc' hp' hq hstate hl =>
    rw [hc] at hc'
    cases hc'
    rw [hp] at hp'
    cases hp'
    exact (hm.spares_returned hp hq hl _ _).of_masked.of_sameCore (sameCore_leave ..)
  | relaunched hc' hp' hl hfree hprog =>
    rw [hc] at hc'
    cases hc'
    rw [hp] at hp'
    cases hp'
    have hs := hm.spares_relaunched hp (ProcessTable.get?_firstFree hfree)
    exact (hs _ _).of_masked.of_sameCore (sameCore_leave ..)
  | turned | kept | shown | served => cases hmoves

/-- After every run, what a process launches and how it ends leaves the bystanders alone. -/
theorem spares_run {machine : M} {devices : D} {fs : F} {layout : Layout} {timer : TimerConfig}
    {first : Transfer} (hb : (fresh machine devices fs layout timer).boot = (.ok first, k))
    (ops : List Operation) {op : Operation} (hop : op.request.Moves) :
    ∃ cur p, (k.run ops).2.current = some cur ∧ (k.run ops).2.processes.get? cur = some p ∧
      (k.run ops).2.Spares ((k.run ops).2.operate op).2 cur p op.request := by
  obtain ⟨σ, h⟩ := sound_boot (unbooted_fresh ..) hb
  obtain ⟨σ', h'⟩ := h.run ops
  obtain ⟨cur, hc⟩ := h'.runs
  obtain ⟨p, hp⟩ := h'.current_live hc
  obtain ⟨k', σ'', he, ha⟩ := operate_effect h' op
  exact ⟨cur, p, hc, hp, (he.spares h' hop hc hp).of_sameCore ha.toSameCore⟩

theorem spares_run_shellFiles :
    ∃ first k, (Sample.kernel Sample.shellFiles).boot = (.ok first, k) ∧
      ∀ ops line caller cause vector,
        ∀ op ∈ [Operation.execute line caller, .halt cause, .exception vector],
          ∃ cur p, (k.run ops).2.current = some cur ∧
            (k.run ops).2.processes.get? cur = some p ∧
              (k.run ops).2.Spares ((k.run ops).2.operate op).2 cur p op.request := by
  obtain ⟨first, k, hb⟩ := Sample.boot_shellFiles
  refine ⟨first, k, hb, ?_⟩
  intro ops line caller cause vector op hop
  refine spares_run hb ops ?_
  rw [List.mem_cons, List.mem_cons, List.mem_singleton] at hop
  obtain rfl | rfl | rfl := hop <;> trivial

end Kernel

end TerminalKernel
