import TerminalKernel.Proofs.Refusals

namespace TerminalKernel

namespace Kernel

variable {M D F : Type} {k k' : Kernel M D F} {cur child : ProcessId} {p : ProcessRecord}
  {t : TerminalId}

theorem SameCore.withFiles (h : k'.SameCore k) (pid : ProcessId) (files : FileTable) :
    (k'.withFiles pid files).SameCore (k.withFiles pid files) :=
  ⟨h.fs, h.layout, h.spaces, h.loaded,
    congrArg (fun processes : ProcessTable => processes.modify pid _) h.processes, h.terminals,
    h.displayed⟩

variable [Machine M]

theorem SameCore.returned (h : k'.SameCore k) (pid parent : ProcessId) (t : TerminalId)
    (stack : KernelStack) :
    (k'.returned pid parent t stack).SameCore (k.returned pid parent t stack) := by
  obtain ⟨hfs, hl, hs, hlo, hp, ht, hd⟩ := h
  cases k
  cases k'
  subst hfs hl hs hlo hp ht hd
  exact ⟨rfl, rfl, rfl, rfl, rfl, rfl, rfl⟩

variable [FileSystem F] {σ : TerminalId → List ProcessId} {prog : Program} {caller : SavedContext}
  {files : FileTable}

/-- The kernel in which a child of a process works, with files of its own. -/
def working (cur child : ProcessId) (t : TerminalId) (prog : Program) (caller : SavedContext)
    (files : FileTable) (k : Kernel M D F) : Kernel M D F :=
  (k.started child t prog (k.childTable cur child t prog caller)).withFiles child files

theorem get?_working (hl : k.processes.layout = k.layout) (hp : k.processes.get? cur = some p)
    (hne : cur ≠ child) :
    (k.working cur child t prog caller files).processes.get? =
      Function.update (Function.update k.processes.get? cur
        (some { p with state := .awaitingChild child (k.leftContext child t prog caller) })) child
        (some { k.newRecord child t prog (some cur) with files }) := by
  have hs : (k.started child t prog (k.childTable cur child t prog caller)).processes.get? = _ :=
    get?_childTable hl hp hne prog caller
  refine (get?_withFiles ((congrFun hs child).trans (Function.update_self ..)) files).trans ?_
  rw [hs, Function.update_idem]

theorem processes_returned_working (hl : k.processes.layout = k.layout) (hc : k.current = some cur)
    (hp : k.processes.get? cur = some p) (hrun : p.state = .running)
    (hfree : k.processes.get? child = none) (stack : KernelStack) :
    ((k.working cur child t prog caller files).returned child cur t stack).processes =
      k.processes := by
  have hne : cur ≠ child := Records.ne_of_eq_none hp hfree
  have hw : (k.working cur child t prog caller files).processes.get? = _ := get?_working hl hp hne
  have hcur := (congrFun hw cur).trans (Function.update_of_ne hne ..)
  rw [Function.update_self] at hcur
  refine ProcessTable.ext_get? rfl hc.symm ?_
  intro x
  rw [get?_returned hcur hne]
  by_cases hx : x = cur
  · rw [hx, Function.update_self, hp, ← hrun]
  · rw [Function.update_of_ne hx]
    by_cases hxc : x = child
    · rw [hxc, Function.update_self, hfree]
    · rw [Function.update_of_ne hxc, hw, Function.update_of_ne hxc, Function.update_of_ne hx]

omit [Machine M] in
theorem Consistent.terminals_returned (h : k.Consistent σ) (ht : (σ t).head? = some cur)
    (slot : TerminalSlot) (hs : slot.live = (k.terminals.get t).live + 1) :
    (k.terminals.set t slot t.isLt).set t
      ⟨some cur, ((k.terminals.set t slot t.isLt).get t).live - 1⟩ t.isLt = k.terminals := by
  have hslot : (k.terminals.set t slot t.isLt).get t = slot := by simp [Vector.get_eq_getElem]
  have hback : ⟨some cur, (k.terminals.get t).live⟩ = k.terminals.get t := by
    rw [h.terminals, ht]
  rw [hslot, hs, Nat.add_sub_cancel, hback, Vector.set_set, Vector.get_eq_getElem,
    Vector.set_getElem_self]

theorem Consistent.returned_working (h : k.Consistent σ) (hc : k.current = some cur)
    (hp : k.processes.get? cur = some p) (hfree : k.processes.get? child = none)
    (stack : KernelStack) :
    ((k.working cur child p.terminal prog caller files).returned child cur p.terminal
      stack).SameCore k := by
  have hne : cur ≠ child := Records.ne_of_eq_none hp hfree
  have hactive : k.spaces.active = .process cur := by
    rw [h.active, hc]
    rfl
  refine ⟨rfl, rfl, ?_, ?_, ?_, ?_, rfl⟩
  · have hs : { (k.spaces.give child (k.newMap child p.terminal)).free child with
        active := .process cur } = k.spaces := by
      rw [SpaceArena.free_give (h.isGiven_free hfree) (h.slotMap_free hfree), ← hactive]
    exact hs
  · obtain ⟨m, hm, hl⟩ := h.loaded
    rw [hactive, h.lookup hp] at hm
    cases hm
    have hmap : (k.spaces.give child (k.newMap child p.terminal)).slotMap cur =
        k.spaces.slotMap cur := by
      rw [SpaceArena.slotMap_give, if_neg hne]
    rw [hl, hactive]
    exact congrArg (fun m => some (k.spaces.directoryAddress (.process cur), m)) hmap
  · exact processes_returned_working h.layout hc hp (h.current_running hc hp) hfree stack
  · exact h.terminals_returned (h.head_current hc hp) _ rfl

variable [Devices D]

theorem Sound.services_run (h : k.Sound σ) (hc : k.current = some cur) {ops : List Operation}
    (hops : ∀ op ∈ ops, op.request = .service) :
    (k.run ops).2.Sound σ ∧ ∃ files, (k.run ops).2.SameCore (k.withFiles cur files) := by
  induction ops generalizing k with
  | nil =>
    obtain ⟨p, hp⟩ := h.current_live hc
    refine ⟨h, p.files, ?_⟩
    rw [withFiles_self hp]
    exact .refl k
  | cons op ops ih =>
    rw [List.forall_mem_cons] at hops
    obtain ⟨k₁, σ₁, he, ha⟩ := operate_effect h op
    have h₁ := (he.sound h).of_sameCore ha.toSameCore
    rw [hops.1] at he
    generalize (k.operate op).1.transfer = transfer at he
    cases he with
    | served hc' hm hk =>
      rw [hc] at hc'
      cases hc'
      obtain ⟨files₁, d, -, rfl⟩ := hk
      have hcore : (k.operate op).2.SameCore (k.withFiles cur files₁) :=
        ha.toSameCore.trans ⟨rfl, rfl, rfl, rfl, rfl, rfl, rfl⟩
      have hcur : (k.operate op).2.current = some cur := by
        rw [current, hcore.processes]
        exact hc
      obtain ⟨hs, files, hrest⟩ := ih h₁ hcur hops.2
      rw [run_cons]
      refine ⟨hs, files, hrest.trans ?_⟩
      have hw := hcore.withFiles cur files
      rwa [withFiles_withFiles] at hw

theorem Sound.working_run (h : k.Sound σ) {enter : Operation} {line : Bytes} {entry : UserEntry}
    {services : List Operation} (henter : enter.request = .execute line caller)
    (hchild : (k.operate enter).1.transfer = .enterUser child entry)
    (hservices : ∀ op ∈ services, op.request = .service) :
    ∃ cur p prog files, k.current = some cur ∧ k.processes.get? cur = some p ∧
      k.processes.get? child = none ∧
      ((k.operate enter).2.run services).2.Sound
        (Function.update σ p.terminal (child :: σ p.terminal)) ∧
      ((k.operate enter).2.run services).2.SameCore
        (k.masked.working cur child p.terminal prog caller files) := by
  obtain ⟨k₁, σ₁, he, ha⟩ := operate_effect h enter
  have h₁ := (he.sound h).of_sameCore ha.toSameCore
  rw [henter, hchild] at he
  cases he with
  | @launched _ _ cur _ p prog hc hp hfree hprog =>
    have hcore := ha.toSameCore.trans (sameCore_leave ..)
    have hcur : (k.operate enter).2.current = some child := by
      rw [current, hcore.processes]
      rfl
    obtain ⟨h₂, files, hcore₂⟩ := h₁.services_run hcur hservices
    exact ⟨cur, p, prog, files, hc, hp, ProcessTable.get?_firstFree hfree, h₂,
      hcore₂.trans (hcore.withFiles child files)⟩

theorem Sound.finish_child (h : k.Sound σ) (hc : k.current = some child)
    (hp : k.processes.get? child = some p) {parent : ProcessId} {l : List ProcessId}
    (hl : σ p.terminal = child :: parent :: l) {op : Operation} {cause : HaltCause}
    (hop : op.request = .finish cause) :
    ∃ q context, k.processes.get? parent = some q ∧ q.state = .awaitingChild child context ∧
      (k.operate op).1.transfer = .resume parent context (some cause.status) ∧
      (k.operate op).2.SameCore (k.returned child parent p.terminal context.stack) := by
  obtain ⟨k', σ', he, ha⟩ := operate_effect h op
  rw [hop] at he
  generalize (k.operate op).1.transfer = transfer at he
  cases he with
  | @returned _ _ _ _ q context _ hc' hp' hq hs hl' =>
    rw [hc] at hc'
    cases hc'
    rw [hp] at hp'
    cases hp'
    rw [hl] at hl'
    cases hl'
    refine ⟨q, context, hq, hs, rfl, ?_⟩
    exact ha.toSameCore.trans
      ((sameCore_leave ..).trans (k.sameCore_masked.returned child parent p.terminal _))
  | relaunched hc' hp' hl' =>
    rw [hc] at hc'
    cases hc'
    rw [hp] at hp'
    cases hp'
    rw [hl] at hl'
    cases hl'

variable [LawfulMachine M]

omit [Devices D] in
theorem leftContext_masked (caller : SavedContext) :
    k.masked.leftContext child t prog caller =
      { caller with stack := Machine.kernelStack k.machine } := by
  rw [leftContext, kernelStack_prepared]
  exact congrArg (SavedContext.mk caller.esp caller.ebp) (kernelStack_of_ne (by simp) _)

/-- When a child ends, its parent runs on, with the processes, spaces and terminals that it left. -/
theorem Sound.returns (h : k.Sound σ) {enter leave : Operation} {line : Bytes} {cause : HaltCause}
    {entry : UserEntry} {services : List Operation} (henter : enter.request = .execute line caller)
    (hchild : (k.operate enter).1.transfer = .enterUser child entry)
    (hservices : ∀ op ∈ services, op.request = .service) (hleave : leave.request = .finish cause) :
    ∃ cur, k.current = some cur ∧
      (((k.operate enter).2.run services).2.operate leave).1.transfer =
        .resume cur { caller with stack := Machine.kernelStack k.machine } (some cause.status) ∧
      (((k.operate enter).2.run services).2.operate leave).2.SameCore k := by
  obtain ⟨cur, p, prog, files, hc, hp, hfree, h₂, hcore⟩ :=
    h.working_run henter hchild hservices
  generalize ((k.operate enter).2.run services).2 = k₂ at h₂ hcore ⊢
  have hm : k.masked.Sound σ := h.of_sameCore k.sameCore_masked
  have hne : cur ≠ child := Records.ne_of_eq_none hp hfree
  have hget := (congrArg ProcessTable.get? hcore.processes).trans
    (get?_working (k := k.masked) hm.layout hp hne)
  have hc₂ : k₂.current = some child := by
    rw [current, hcore.processes]
    rfl
  have hp₂ := (congrFun hget child).trans (Function.update_self ..)
  obtain ⟨l, hl⟩ : ∃ l, σ p.terminal = cur :: l :=
    List.head?_eq_some_iff.mp (h.head_current hc hp)
  have hstack : Function.update σ p.terminal (child :: σ p.terminal) p.terminal =
      child :: cur :: l := by
    rw [Function.update_self, hl]
  obtain ⟨q, context, hq, hs, htransfer, hback⟩ := h₂.finish_child hc₂ hp₂ hstack hleave
  rw [hget, Function.update_of_ne hne, Function.update_self] at hq
  cases hq
  cases hs
  refine ⟨cur, hc, ?_, ?_⟩
  · rw [htransfer, leftContext_masked]
  · exact hback.trans ((hcore.returned child cur p.terminal _).trans
      ((hm.returned_working hc hp hfree _).trans k.sameCore_masked))

variable [LawfulInterrupts M]

/-- A process that launches a child runs on, at the end of the child, in the kernel that it left. -/
theorem roundTrip_run {machine : M} {devices : D} {fs : F} {layout : Layout} {timer : TimerConfig}
    {first : Transfer} (hb : (fresh machine devices fs layout timer).boot = (.ok first, k))
    (ops : List Operation) {enter leave : Operation} {line : Bytes} {cause : HaltCause}
    {entry : UserEntry} {services : List Operation}
    (henter : enter.request = .execute line caller)
    (hchild : ((k.run ops).2.operate enter).1.transfer = .enterUser child entry)
    (hservices : ∀ op ∈ services, op.request = .service) (hleave : leave.request = .finish cause) :
    ∃ cur, (k.run ops).2.current = some cur ∧
      ((((k.run ops).2.operate enter).2.run services).2.operate leave).1.transfer =
        .resume cur { caller with stack := Machine.kernelStack (k.run ops).2.machine }
          (some cause.status) ∧
      ((((k.run ops).2.operate enter).2.run services).2.operate leave).2.SameState
        (k.run ops).2 := by
  obtain ⟨σ, h, hr⟩ := registered_run hb ops
  obtain ⟨cur, hc, htransfer, hback⟩ := h.returns henter hchild hservices hleave
  have hr₁ := hr.run h [enter]
  obtain ⟨σ₁, h₁⟩ := h.run [enter]
  have hr₂ := hr₁.run h₁ services
  obtain ⟨σ₂, h₂⟩ := h₁.run services
  have hi := (h₂.interrupts_run [leave]).trans
    ((h₁.interrupts_run services).trans (h.interrupts_run [enter]))
  exact ⟨cur, hc, htransfer, hr.sameState (hr₂.run h₂ [leave]) hback hi⟩

omit [Devices D] [LawfulMachine M] [LawfulInterrupts M] in
theorem live_boot (hu : k.Unbooted) {first : Transfer} (hb : k.boot = (.ok first, k')) :
    ∀ t, (k'.terminals.get t).live ≤ 1 := by
  refine (boot_induct (P := fun k => ∀ t, (k.terminals.get t).live ≤ 1) ?_ hu ?_ hb).1
  · intro k k₁ k₂ σ t pid prog h ht hfree hprog ho hk₂ hlive u
    have hnone := ProcessTable.get?_firstFree hfree
    have ha : k₂.Agrees k₁ := hk₂ ▸ agrees_record ..
    rw [ha.terminals, (ho.consistent h ht hnone hprog).terminals]
    by_cases hu : u = t
    · rw [hu, Function.update_self]
      exact Nat.le_refl 1
    · rw [Function.update_of_ne hu]
      have hlen := hlive u
      rwa [h.terminals] at hlen
  · intro program t
    rw [(hu.startMachine program).terminals]
    exact Nat.zero_le 1

omit [Devices D] [LawfulMachine M] [LawfulInterrupts M] in
theorem firstFree_boot (hu : k.Unbooted) {first : Transfer} (hb : k.boot = (.ok first, k')) :
    ∃ pid, k'.processes.firstFree? = some pid := by
  obtain ⟨σ, h⟩ := sound_boot hu hb
  refine h.firstFree_isSome ?_
  intro t x hx
  have hlen := live_boot hu hb t
  rw [h.terminals] at hlen
  obtain ⟨y, hy⟩ := List.length_eq_one_iff.mp (Nat.le_antisymm hlen (List.length_pos_of_mem hx))
  rw [hy, List.mem_singleton] at hx
  rw [hy, hx]

omit [Devices D] [LawfulMachine M] [LawfulInterrupts M] in
theorem lowest_boot (hu : k.Unbooted) {first : Transfer} (hb : k.boot = (.ok first, k'))
    {lowest : ProcessId} (hlowest : ∀ x, lowest ≤ x) :
    ∃ p, k'.processes.get? lowest = some p := by
  -- once any slot is taken, the lowest one is
  have hboot : ∀ x p, k'.processes.get? x = some p → ∃ q, k'.processes.get? lowest = some q := by
    refine (boot_induct (P := fun k => ∀ x p, k.processes.get? x = some p →
      ∃ q, k.processes.get? lowest = some q) ?_ hu ?_ hb).1
    · intro k k₁ k₂ σ t pid prog h ht hfree hprog ho hk₂ _ x p hx
      have ha : k₂.Agrees k₁ := hk₂ ▸ agrees_record ..
      have h₁ := ho.consistent h ht (ProcessTable.get?_firstFree hfree) hprog
      rw [ha.processes]
      cases hlow : k.processes.get? lowest with
      | none =>
        have hpid : pid = lowest :=
          le_antisymm (ProcessTable.firstFree_le hfree hlow) (hlowest pid)
        have hmem : lowest ∈ Function.update σ t [pid] t := by
          rw [Function.update_self, hpid]
          exact List.mem_singleton_self _
        obtain ⟨q, hq, -⟩ := h₁.stacked.mem_iff.mp hmem
        exact ⟨q, hq⟩
      | some q =>
        have hmem := h.stacked.complete lowest q hlow
        have hne : q.terminal ≠ t := by
          intro he
          rw [he, ht] at hmem
          cases hmem
        rw [← Function.update_of_ne hne [pid] σ] at hmem
        obtain ⟨q', hq', -⟩ := h₁.stacked.mem_iff.mp hmem
        exact ⟨q', hq'⟩
    · intro program x p hx
      cases (hu.startMachine program).stacked.complete x p hx
  obtain ⟨σ, h⟩ := sound_boot hu hb
  obtain ⟨x, hx⟩ := h.runs
  obtain ⟨p, hp⟩ := h.current_live hx
  exact hboot x p hp

end Kernel

def Sample.services (caller : SavedContext) : List Operation :=
  [.syscall (.open Kernel.shell) caller, .syscall (.read 2 Kernel.shell) caller,
    .syscall (.write 1 Kernel.shell) caller, .syscall (.getArguments Kernel.shell) caller,
    .syscall (.videoMap 0x8000000) caller, .syscall (.close 2) caller]

theorem Kernel.roundTrip_run_shellFiles :
    ∃ first k, (Sample.kernel Sample.shellFiles).boot = (.ok first, k) ∧
      ∀ caller cause, ∃ child entry cur,
        (k.operate (.execute shell caller)).1.transfer = .enterUser child entry ∧
          k.current = some cur ∧
          (((k.operate (.execute shell caller)).2.run (Sample.services caller)).2.operate
            (.halt cause)).1.transfer =
              .resume cur { caller with stack := Machine.kernelStack k.machine }
                (some cause.status) ∧
          (((k.operate (.execute shell caller)).2.run (Sample.services caller)).2.operate
            (.halt cause)).2.SameState k := by
  obtain ⟨first, k, hb⟩ := Sample.boot_shellFiles
  have hu : (Sample.kernel Sample.shellFiles).Unbooted := unbooted_fresh ..
  obtain ⟨σ, h⟩ := sound_boot hu hb
  obtain ⟨prog, hprog⟩ := h.shell
  obtain ⟨child, hfree⟩ := firstFree_boot hu hb
  refine ⟨first, k, hb, ?_⟩
  intro caller cause
  have henter : (Operation.execute shell caller).request = .execute shell caller := rfl
  have hleave : (Operation.halt cause).request = .finish cause := rfl
  have hservices : ∀ op ∈ Sample.services caller, op.request = .service := by
    simp [Sample.services, Operation.request, SystemCall.request]
  have hchild := h.execute_enters hprog hfree caller
  obtain ⟨cur, hc, hback⟩ := roundTrip_run hb [] henter hchild hservices hleave
  exact ⟨child, prog.entry, cur, hchild, hc, hback⟩

end TerminalKernel
