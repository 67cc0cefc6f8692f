import TerminalKernel.Proofs.Survivors

namespace TerminalKernel

def ProcessRecord.running (p : ProcessRecord) : ProcessRecord := { p with state := .running }

namespace Records

variable {g : Records} {x y : ProcessId} {p q : ProcessRecord}

/-- All records as if every process ran. -/
def running (g : Records) : Records := fun x => (g x).map ProcessRecord.running

theorem running_update (g : Records) (y : ProcessId) (r : Option ProcessRecord) :
    running (Function.update g y r) =
      Function.update g.running y (r.map ProcessRecord.running) := by
  funext x
  by_cases hx : x = y
  · subst x
    simp only [running, Function.update_self]
  · simp only [running, Function.update_of_ne hx]

theorem running_of_eq (h : g x = some p) : g.running x = some p.running := by
  rw [running, h, Option.map_some]

theorem running_restate (h : g y = some p) (state : RunState) :
    running (Function.update g y (some { p with state })) = g.running := by
  rw [running_update, Function.update_eq_self_iff]
  exact (running_of_eq h).symm

theorem exists_of_running {g' : Records} (hg : g'.running = g.running) (hp : g x = some p) :
    ∃ q, g' x = some q ∧ q.running = p.running := by
  have h := congrFun hg x
  rw [running_of_eq hp] at h
  exact Option.map_eq_some_iff.mp h

theorem isNone_of_running {g' : Records} (hg : g'.running = g.running) (x : ProcessId) :
    (g' x).isNone = (g x).isNone := by
  have h := congrArg Option.isNone (congrFun hg x)
  simpa only [running, Option.isNone_map] using h

end Records

theorem ProcessTable.firstFree_of_running {t u : ProcessTable}
    (h : Records.running u.get? = Records.running t.get?) : u.firstFree? = t.firstFree? := by
  rw [firstFree?, firstFree?]
  simp only [Records.isNone_of_running h]

namespace Kernel

variable {M D F : Type} {k k' k₁ k₂ k₁' k₂' : Kernel M D F}

structure SameProcesses (k₂ k₁ : Kernel M D F) : Prop where
  fs : k₂.fs = k₁.fs
  layout : k₂.layout = k₁.layout
  current : k₂.current = k₁.current
  records : Records.running k₂.processes.get? = Records.running k₁.processes.get?

namespace SameProcesses

theorem refl (k : Kernel M D F) : k.SameProcesses k := ⟨rfl, rfl, rfl, rfl⟩

theorem symm (h : k₂.SameProcesses k₁) : k₁.SameProcesses k₂ :=
  ⟨h.fs.symm, h.layout.symm, h.current.symm, h.records.symm⟩

theorem trans {k₃ : Kernel M D F} (h : k₃.SameProcesses k₂) (h' : k₂.SameProcesses k₁) :
    k₃.SameProcesses k₁ :=
  ⟨h.fs.trans h'.fs, h.layout.trans h'.layout, h.current.trans h'.current,
    h.records.trans h'.records⟩

theorem of_sameCore (h : k'.SameCore k) : k'.SameProcesses k := by
  refine ⟨h.fs, h.layout, ?_, ?_⟩
  · rw [Kernel.current, h.processes]
    rfl
  · rw [h.processes]

end SameProcesses

variable [Machine M] [FileSystem F] {σ σ₁ σ₂ : TerminalId → List ProcessId} {request : Request}
  {transfer₁ transfer₂ : Transfer}

omit [Machine M] in
/-- The current process runs, so its record is the same. -/
theorem SameProcesses.get?_current (hw : k₂.SameProcesses k₁) (h₁ : k₁.Sound σ) (h₂ : k₂.Sound σ)
    {cur : ProcessId} {p : ProcessRecord} (hc : k₁.current = some cur)
    (hp : k₁.processes.get? cur = some p) : k₂.processes.get? cur = some p := by
  have hc₂ : k₂.current = some cur := hw.current.trans hc
  obtain ⟨q, hq, hqp⟩ := Records.exists_of_running hw.records hp
  have hrun {r : ProcessRecord} (hr : r.state = .running) : r.running = r := by
    cases r
    cases hr
    rfl
  rw [hrun (h₂.current_running hc₂ hq), hrun (h₁.current_running hc hp)] at hqp
  rw [hq, hqp]

omit [Machine M] in
theorem SameProcesses.eq_current (hw : k₂.SameProcesses k₁) (h₁ : k₁.Sound σ) (h₂ : k₂.Sound σ)
    {cur cur' : ProcessId} {p p' : ProcessRecord} (hc : k₁.current = some cur)
    (hp : k₁.processes.get? cur = some p) (hc' : k₂.current = some cur')
    (hp' : k₂.processes.get? cur' = some p') : cur' = cur ∧ p' = p := by
  obtain rfl : cur' = cur := Option.some.inj (hc'.symm.trans (hw.current.trans hc))
  exact ⟨rfl, Option.some.inj (hp'.symm.trans (hw.get?_current h₁ h₂ hc hp))⟩

omit [Machine M] [FileSystem F] in
theorem newRecord_congr (hl : k₂.layout = k₁.layout) (pid : ProcessId) (t : TerminalId)
    (prog : Program) (parent : Option ProcessId) :
    k₂.newRecord pid t prog parent = k₁.newRecord pid t prog parent := by
  rw [newRecord, newRecord, hl]

section

variable {pid parent new cur target : ProcessId} {p q : ProcessRecord} {t : TerminalId}
  {prog : Program}

theorem running_afterLaunch (h : k.Consistent σ) (hp : k.processes.get? cur = some p)
    (hfree : k.processes.get? pid = none) (caller : SavedContext) :
    Records.running (k.leave (k.masked.started pid t prog
        (k.masked.childTable cur pid t prog caller))).processes.get? =
      Function.update (Records.running k.processes.get?) pid
        (some (k.newRecord pid t prog (some cur))) := by
  rw [get?_afterLaunch h hp hfree, Records.running_update, Records.running_restate hp]
  rfl

theorem running_afterReturn (h : k.Consistent σ) (hq : k.processes.get? parent = some q)
    {l : List ProcessId} (hl : σ t = pid :: parent :: l) (stack : KernelStack) :
    Records.running (k.leave (k.masked.returned pid parent t stack)).processes.get? =
      Function.update (Records.running k.processes.get?) pid none := by
  rw [get?_afterReturn h hq hl, Records.running_restate, Records.running_update]
  · rfl
  · rw [Function.update_of_ne (h.stacked.ne_below hl), hq]

theorem running_afterRelaunch (h : k.Consistent σ) :
    Records.running (k.leave ((k.masked.retired pid t).relaunched new t prog)).processes.get? =
      Function.update (Function.update (Records.running k.processes.get?) pid none) new
        (some (k.newRecord new t prog none)) := by
  rw [get?_afterRelaunch h, Records.running_update, Records.running_update]
  rfl

omit [FileSystem F] in
theorem running_afterTurn (interrupted : SavedContext) (stack : KernelStack)
    (hp : k.processes.get? cur = some p) (hq : k.processes.get? target = some q)
    (hne : target ≠ cur) :
    Records.running (k.leave ((k.masked.turned cur target interrupted stack).perform
        (.endOfInterrupt timerIrq))).processes.get? = Records.running k.processes.get? := by
  rw [get?_afterTurn hp hq hne, Records.running_restate, Records.running_restate hp]
  rw [Function.update_of_ne hne, hq]

end

omit [FileSystem F] in
theorem SameProcesses.leave (h : k₂'.SameProcesses k₁') (k₁ k₂ : Kernel M D F) :
    (k₂.leave k₂').SameProcesses (k₁.leave k₁') :=
  (of_sameCore (sameCore_leave ..)).trans (h.trans (of_sameCore (sameCore_leave ..)).symm)

theorem SameProcesses.execute_transfer (hw : k₂.SameProcesses k₁) (h₁ : k₁.Sound σ)
    (h₂ : k₂.Sound σ) (line : Bytes) (caller : SavedContext) :
    (k₂.execute line caller).1 = (k₁.execute line caller).1 := by
  obtain ⟨cur, hc⟩ := h₁.runs
  obtain ⟨p, hp⟩ := h₁.current_live hc
  rw [h₂.execute_eq (hw.current.trans hc) (hw.get?_current h₁ h₂ hc hp), h₁.execute_eq hc hp,
    ProcessTable.firstFree_of_running hw.records, program_congr hw.fs hw.layout]
  split
  · rfl
  · split
    · rfl
    · split <;> rfl

variable [Devices D]

theorem Effect.stacks_service (he : k.Effect σ .service transfer₁ k' σ₁) : σ₁ = σ := by
  cases he
  rfl

theorem Effect.sameProcesses_display {entered : TerminalId}
    (he : k.Effect σ (.display entered) transfer₁ k' σ₁) : σ₁ = σ ∧ k'.SameProcesses k := by
  have hm : k.masked.SameProcesses k := .of_sameCore k.sameCore_masked
  cases he with
  | kept => exact ⟨rfl, (SameProcesses.of_sameCore (sameCore_leave ..)).trans hm⟩
  | @shown _ cur calls =>
    have hshown : (k.masked.shown entered).SameProcesses k.masked := ⟨rfl, rfl, rfl, rfl⟩
    refine ⟨rfl, (SameProcesses.of_sameCore (sameCore_leave ..)).trans ?_⟩
    exact (SameProcesses.of_sameCore (sameCore_performAll calls _)).trans (hshown.trans hm)

theorem Effect.sameProcesses_of_target (hw : k₂.SameProcesses k₁)
    (he₁ : k₁.Effect σ request transfer₁ k₁' σ₁) (he₂ : k₂.Effect σ request transfer₂ k₂' σ₂)
    {x : ProcessId} (hx₁ : transfer₁.target? = some x) (hx₂ : transfer₂.target? = some x)
    (hrecords : Records.running k₂'.processes.get? = Records.running k₁'.processes.get?) :
    k₂'.SameProcesses k₁' :=
  ⟨he₂.fixed.1.trans (hw.fs.trans he₁.fixed.1.symm),
    he₂.fixed.2.trans (hw.layout.trans he₁.fixed.2.symm),
    (he₂.current_eq hx₂).trans (he₁.current_eq hx₁).symm, hrecords⟩

theorem Effect.sameProcesses_execute {line : Bytes} {caller : SavedContext} (h₁ : k₁.Sound σ)
    (h₂ : k₂.Sound σ) (hw : k₂.SameProcesses k₁)
    (he₁ : k₁.Effect σ (.execute line caller) transfer₁ k₁' σ₁)
    (he₂ : k₂.Effect σ (.execute line caller) transfer₂ k₂' σ₂)
    (htransfer : transfer₂ = transfer₁) :
    σ₂ = σ₁ ∧ k₂'.SameProcesses k₁' := by
  have hnext {x : ProcessId} := he₁.sameProcesses_of_target hw he₂ (x := x)
  cases he₁ with
  | refused =>
    cases he₂ with
    | refused =>
      refine ⟨rfl, SameProcesses.leave ?_ ..⟩
      refine (SameProcesses.of_sameCore (sameCore_performAll ..)).trans ?_
      refine .trans ?_ (SameProcesses.of_sameCore (sameCore_performAll ..)).symm
      exact ⟨hw.fs, hw.layout, hw.current, hw.records⟩
    | launched => cases htransfer
  | @launched _ _ cur pid p prog hc hp hfree hprog =>
    cases he₂ with
    | refused => cases htransfer
    | @launched _ _ cur' pid' p' prog' hc' hp' hfree' hprog' =>
      obtain ⟨rfl, rfl⟩ := hw.eq_current h₁ h₂ hc hp hc' hp'
      rw [program_congr hw.fs hw.layout, hprog, Except.ok.injEq] at hprog'
      subst prog'
      have hnone : k₁.processes.get? pid = none := ProcessTable.get?_firstFree hfree
      have hnone' : k₂.processes.get? pid' = none := ProcessTable.get?_firstFree hfree'
      rw [ProcessTable.firstFree_of_running hw.records, hfree, Option.some.injEq] at hfree'
      subst pid'
      refine ⟨rfl, hnext rfl rfl ?_⟩
      rw [running_afterLaunch h₂.toConsistent hp' hnone',
        running_afterLaunch h₁.toConsistent hp hnone, hw.records, newRecord_congr hw.layout]

/-- The end of a process has two effects. Which of them it is, the stacks tell. -/
theorem Effect.sameProcesses_finish {cause : HaltCause} (h₁ : k₁.Sound σ) (h₂ : k₂.Sound σ)
    (hw : k₂.SameProcesses k₁) (he₁ : k₁.Effect σ (.finish cause) transfer₁ k₁' σ₁)
    (he₂ : k₂.Effect σ (.finish cause) transfer₂ k₂' σ₂) :
    σ₂ = σ₁ ∧ k₂'.SameProcesses k₁' := by
  have hnext {x : ProcessId} := he₁.sameProcesses_of_target hw he₂ (x := x)
  cases he₁ with
  | @returned _ pid parent p q context l hc hp hq hs hl =>
    cases he₂ with
    | @returned _ pid' parent' p' q' context' l' hc' hp' hq' hs' hl' =>
      obtain ⟨rfl, rfl⟩ := hw.eq_current h₁ h₂ hc hp hc' hp'
      rw [hl, List.cons.injEq, List.cons.injEq] at hl'
      obtain ⟨-, rfl, rfl⟩ := hl'
      refine ⟨rfl, hnext rfl rfl ?_⟩
      rw [running_afterReturn h₂.toConsistent hq' hl, running_afterReturn h₁.toConsistent hq hl,
        hw.records]
    | @relaunched _ pid' new p' prog hc' hp' hl' hfree hprog =>
      obtain ⟨rfl, rfl⟩ := hw.eq_current h₁ h₂ hc hp hc' hp'
      rw [hl] at hl'
      cases hl'
  | @relaunched _ pid new p prog hc hp hl hfree hprog =>
    cases he₂ with
    | @returned _ pid' parent' p' q context l hc' hp' hq hs hl' =>
      obtain ⟨rfl, rfl⟩ := hw.eq_current h₁ h₂ hc hp hc' hp'
      rw [hl] at hl'
      cases hl'
    | @relaunched _ pid' new' p' prog' hc' hp' hl' hfree' hprog' =>
      obtain ⟨rfl, rfl⟩ := hw.eq_current h₁ h₂ hc hp hc' hp'
      have hretired : Records.running (k₂.masked.retired pid' p'.terminal).processes.get? =
          Records.running (k₁.masked.retired pid' p'.terminal).processes.get? := by
        rw [get?_retired, get?_retired, Records.running_update, Records.running_update]
        exact congrArg (Function.update · pid' _) hw.records
      rw [ProcessTable.firstFree_of_running hretired, hfree, Option.some.injEq] at hfree'
      rw [program_congr hw.fs hw.layout, hprog, Except.ok.injEq] at hprog'
      subst new' prog'
      refine ⟨rfl, hnext rfl rfl ?_⟩
      rw [running_afterRelaunch h₂.toConsistent, running_afterRelaunch h₁.toConsistent,
        hw.records, newRecord_congr hw.layout]

theorem Effect.sameProcesses_turn {interrupted : SavedContext} (h₁ : k₁.Sound σ)
    (h₂ : k₂.Sound σ) (hw : k₂.SameProcesses k₁)
    (he₁ : k₁.Effect σ (.turn interrupted) transfer₁ k₁' σ₁)
    (he₂ : k₂.Effect σ (.turn interrupted) transfer₂ k₂' σ₂) :
    σ₂ = σ₁ ∧ k₂'.SameProcesses k₁' := by
  have hnext {x : ProcessId} := he₁.sameProcesses_of_target hw he₂ (x := x)
  cases he₁ with
  | @turned _ cur target p q stack _ hc hp hq ht htop hne hres =>
    cases he₂ with
    | @turned _ cur' target' p' q' stack' _ hc' hp' hq' ht' htop' hne' hres' =>
      obtain ⟨rfl, rfl⟩ := hw.eq_current h₁ h₂ hc hp hc' hp'
      rw [ht', ← ht, htop, Option.some.injEq] at htop'
      subst target'
      refine ⟨rfl, hnext (ProcessRecord.target?_of_resumption hres)
        (ProcessRecord.target?_of_resumption hres') ?_⟩
      rw [running_afterTurn interrupted stack' hp' hq' hne,
        running_afterTurn interrupted stack hp hq hne, hw.records]

/-- The same request has the same effect on the same processes. Whether a program is launched is
told by the transfer. -/
theorem Effect.sameProcesses (h₁ : k₁.Sound σ) (h₂ : k₂.Sound σ) (hw : k₂.SameProcesses k₁)
    (he₁ : k₁.Effect σ request transfer₁ k₁' σ₁) (he₂ : k₂.Effect σ request transfer₂ k₂' σ₂)
    (hr : request ≠ .service) (hdisplay : ∀ entered, request ≠ .display entered)
    (htransfer : ∀ line caller, request = .execute line caller → transfer₂ = transfer₁) :
    σ₂ = σ₁ ∧ k₂'.SameProcesses k₁' := by
  cases request with
  | execute line caller =>
    exact he₁.sameProcesses_execute h₁ h₂ hw he₂ (htransfer line caller rfl)
  | finish cause => exact he₁.sameProcesses_finish h₁ h₂ hw he₂
  | turn interrupted => exact he₁.sameProcesses_turn h₁ h₂ hw he₂
  | display entered => exact absurd rfl (hdisplay entered)
  | service => exact absurd rfl hr

end Kernel

end TerminalKernel
