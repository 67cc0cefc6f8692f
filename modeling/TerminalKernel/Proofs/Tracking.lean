import TerminalKernel.Proofs.Histories

namespace TerminalKernel

variable {M D F : Type} [Machine M] [Devices D] [FileSystem F] {s : Step M D F}
  {past : History M D F} {first : Transfer} {k' : Kernel M D F}
  {σ σ' : TerminalId → List ProcessId} {request : Request} {transfer : Transfer}
  {x cur pid : ProcessId} {p : ProcessRecord}

open History

/-- What a step does, up to devices, clock and logs. -/
structure Step.Did (s : Step M D F) (request : Request) (transfer : Transfer)
    (k' : Kernel M D F) : Prop where
  request : s.op.request = request
  transfer : s.transfer = transfer
  processes : s.after.processes = k'.processes

def Tracked (first : Transfer) (past : History M D F) (k : Kernel M D F) : Prop :=
  ∀ x p, k.processes.get? x = some p → Tracks first x past p

namespace Step

omit [Machine M] [Devices D] [FileSystem F] in
theorem Ends.eq_current (h : s.Ends x) (hc : s.before.current = some cur) : x = cur := by
  have hx := h.1
  rw [hc, Option.some.injEq] at hx
  exact hx.symm

theorem not_launches (hp : s.before.processes.get? x = some p) (he : ¬s.Ends x) :
    ¬s.Launches x := by
  rintro ⟨-, hn | hn⟩
  · rw [hp] at hn
    cases hn
  · exact he hn

namespace Did

theorem not_ends (h : s.Did request transfer k') (hr : request.isFinish = false) :
    ¬s.Ends x := by
  rintro ⟨-, he⟩
  rw [h.request, hr] at he
  cases he

theorem launches (h : s.Did request transfer k') (hp : k'.processes.get? x = some p)
    (hn : s.before.processes.get? x = none ∨ s.Ends x) : s.Launches x := by
  refine ⟨?_, ?_⟩
  · rw [h.processes, hp]
    rfl
  · rwa [Option.isNone_iff_eq_none]

theorem suspends (h : s.Did request transfer k') (hc : s.before.current = some cur)
    (hcur : k'.current ≠ some cur) (he : ¬s.Ends cur) : s.Suspends cur := by
  refine ⟨hc, ?_, he⟩
  rw [Kernel.current, h.processes]
  exact hcur

theorem free_or_ends {cause : HaltCause} {t : TerminalId}
    (h : s.Did (.finish cause) transfer k') (hc : s.before.current = some pid)
    (hx : (s.before.masked.retired pid t).processes.firstFree? = some x) :
    s.before.processes.get? x = none ∨ s.Ends x := by
  have hn := ProcessTable.get?_firstFree hx
  rw [Kernel.get?_retired] at hn
  by_cases he : x = pid
  · subst x
    exact Or.inr ⟨hc, by rw [h.request]; rfl⟩
  · rw [Function.update_of_ne he] at hn
    exact Or.inl hn

end Did

end Step

namespace History.Tracks

/-- A step does nothing to a process that it does not stop, enter, resume or end, or whose child it
does not end. -/
theorem other (h : Tracks first x past p) (hb : s.before.Sound σ)
    (hp : s.before.processes.get? x = some p)
    (he : ∀ y q, s.Ends y → s.before.processes.get? y = some q → y ≠ x ∧ q.parent ≠ some x)
    (hs : ¬s.Suspends x) (ht : s.transfer.target? ≠ some x) : Tracks first x (s :: past) p := by
  refine h.cons (Step.not_launches hp fun hx => (he x p hx hp).1 rfl) hs ht ?_
  intro child context hstate
  obtain ⟨q, hq, hqx⟩ := hb.stacked.awaited hp hstate
  exact Step.not_launches hq fun hx => (he child q hx hq).2 hqx

theorem launched {prog : Program} {program : Bytes} (ht : s.transfer.target? = some x)
    (hline : line x (s :: past) = program) (hprog : s.before.program program = .ok prog)
    (hname : p.name = prog.command.name) (hrun : p.state = .running) :
    Tracks first x (s :: past) p := by
  obtain ⟨_, hparse, -⟩ := Kernel.program_eq_ok hprog
  refine ⟨⟨prog.command, ?_, hname⟩, ?_⟩
  · rw [hline]
    exact hparse
  · rw [hrun]
    exact Or.inl ht

theorem resumed (h : Tracks first x past p) (hl : ¬s.Launches x)
    (ht : s.transfer.target? = some x) :
    Tracks first x (s :: past) { p with state := .running } := by
  refine ⟨?_, Or.inl ht⟩
  rw [line_cons hl]
  exact h.program

theorem stopped (h : Tracks first x past p) (hrun : p.state = .running) (hl : ¬s.Launches x)
    {state : RunState} (hs : Named first x (s :: past) → Tells first x (s :: past) state) :
    Tracks first x (s :: past) { p with state } := by
  have hn := h.state
  rw [hrun] at hn
  refine ⟨?_, hs (Or.inr ⟨hl, hn⟩)⟩
  rw [line_cons hl]
  exact h.program

end History.Tracks

namespace Tracked

variable {target parent : ProcessId} {q r : ProcessRecord}

theorem kept (h : Tracked first past s.before) (hb : s.before.Sound σ)
    (hd : s.Did request transfer k') (hr : request.isFinish = false)
    (ht : transfer.target? = none) (hc : k'.current = s.before.current)
    (hk : ∀ x p, k'.processes.get? x = some p →
      ∃ q, s.before.processes.get? x = some q ∧ p.name = q.name ∧ p.state = q.state) :
    Tracked first (s :: past) k' := by
  intro x p hp
  obtain ⟨q, hq, hname, hstate⟩ := hk x p hp
  have hqt : Tracks first x (s :: past) q := by
    refine (h x q hq).other hb hq (fun y _ hy => absurd hy (hd.not_ends hr)) ?_ ?_
    · rintro ⟨hcur, hafter, -⟩
      refine hafter ?_
      rw [Kernel.current, hd.processes]
      exact hc.trans hcur
    · rw [hd.transfer, ht]
      simp
  refine ⟨?_, ?_⟩
  · rw [hname]
    exact hqt.program
  · rw [hstate]
    exact hqt.state

/-- A step that leaves the current process and enters or resumes another one does nothing to the
others, not even to the one below if the current process ends. -/
theorem moved (h : Tracked first past s.before) (hb : s.before.Sound σ)
    (hd : s.Did request transfer k') (hc : s.before.current = some cur)
    (hp : s.before.processes.get? cur = some p) (ht : transfer.target? = some target)
    (hends : ∀ y, s.Ends cur → p.parent = some y → y = target) {left : Option ProcessRecord}
    (hk : k'.processes.get? =
      Function.update (Function.update s.before.processes.get? cur left) target (some r))
    (hleft : ∀ q, left = some q → Tracks first cur (s :: past) q)
    (hentered : Tracks first target (s :: past) r) : Tracked first (s :: past) k' := by
  intro x q hq
  rw [hk] at hq
  obtain ⟨rfl, he⟩ | ⟨hx, hq⟩ := Records.update_eq_some_iff.mp hq
  · cases he
    exact hentered
  obtain ⟨rfl, he⟩ | ⟨hxc, hq⟩ := Records.update_eq_some_iff.mp hq
  · exact hleft q he
  refine (h x q hq).other hb hq ?_ ?_ ?_
  · intro y p' hy hp'
    obtain rfl := hy.eq_current hc
    rw [hp] at hp'
    cases hp'
    exact ⟨Ne.symm hxc, fun hparent => hx (hends x hy hparent)⟩
  · rintro ⟨hcur, -⟩
    rw [hc, Option.some.injEq] at hcur
    exact hxc hcur.symm
  · rw [hd.transfer, ht]
    exact fun he => hx (Option.some.inj he).symm

theorem launched (h : Tracked first past s.before) (hb : s.before.Sound σ) {program : Bytes}
    {caller c : SavedContext} {prog : Program}
    (hd : s.Did (.execute program caller) (.enterUser pid prog.entry) k')
    (hc : s.before.current = some cur) (hp : s.before.processes.get? cur = some p)
    (hne : cur ≠ pid) (hnew : s.Launches pid) (hprog : s.before.program program = .ok prog)
    (hcontext : c.Continues caller) (hname : r.name = prog.command.name)
    (hrun : r.state = .running) (hcur : k'.current = some pid)
    (hk : k'.processes.get? = Function.update (Function.update s.before.processes.get? cur
      (some { p with state := .awaitingChild pid c })) pid (some r)) :
    Tracked first (s :: past) k' := by
  have hends : ¬s.Ends cur := hd.not_ends rfl
  have hl : ¬s.Launches cur := Step.not_launches hp hends
  have hsuspends : s.Suspends cur := by
    refine hd.suspends hc ?_ hends
    rw [hcur, Ne, Option.some.injEq]
    exact Ne.symm hne
  have htarget : s.transfer.target? = some pid := by
    rw [hd.transfer]
    rfl
  refine h.moved hb hd hc hp rfl (fun _ he => absurd he hends) hk ?_ ?_
  · intro q hq
    cases hq
    refine (h cur p hp).stopped (hb.current_running hc hp) hl fun hn => ?_
    exact ⟨hn, s, past, program, caller, suspension_cons_of_suspends hl hsuspends, hd.request,
      hcontext, launch_cons_of_launches hnew⟩
  · refine Tracks.launched htarget ?_ hprog hname hrun
    rw [line_cons_of_launches hnew, hd.request]

theorem returned (h : Tracked first past s.before) (hb : s.before.Sound σ) {cause : HaltCause}
    {context : SavedContext} {status : Option Int}
    (hd : s.Did (.finish cause) (.resume parent context status) k')
    (hc : s.before.current = some pid) (hq : s.before.processes.get? parent = some q)
    (hs : q.state = .awaitingChild pid context) (hne : parent ≠ pid)
    (hk : k'.processes.get? = Function.update (Function.update s.before.processes.get? pid none)
      parent (some { q with state := .running })) :
    Tracked first (s :: past) k' := by
  obtain ⟨p, hp, hparent⟩ := hb.stacked.awaited hq hs
  have hl : ¬s.Launches parent := Step.not_launches hq fun he => hne (he.eq_current hc)
  have htarget : s.transfer.target? = some parent := by
    rw [hd.transfer]
    rfl
  refine h.moved hb hd hc hp rfl ?_ hk (by simp) ((h parent q hq).resumed hl htarget)
  intro y _ hy
  rw [hparent, Option.some.injEq] at hy
  exact hy.symm

theorem relaunched (h : Tracked first past s.before) (hb : s.before.Sound σ) {cause : HaltCause}
    {prog : Program} (hd : s.Did (.finish cause) (.enterUser target prog.entry) k')
    (hc : s.before.current = some pid) (hp : s.before.processes.get? pid = some p)
    (hroot : p.parent = none) (hnew : s.Launches target)
    (hprog : s.before.program Kernel.shell = .ok prog) (hname : r.name = prog.command.name)
    (hrun : r.state = .running)
    (hk : k'.processes.get? = Function.update (Function.update s.before.processes.get? pid none)
      target (some r)) :
    Tracked first (s :: past) k' := by
  have htarget : s.transfer.target? = some target := by
    rw [hd.transfer]
    rfl
  refine h.moved hb hd hc hp rfl (by simp [hroot]) hk (by simp) ?_
  refine Tracks.launched htarget ?_ hprog hname hrun
  rw [line_cons_of_launches hnew, hd.request]

theorem turned (h : Tracked first past s.before) (hb : s.before.Sound σ)
    {interrupted c : SavedContext} (hd : s.Did (.turn interrupted) transfer k')
    (ht : transfer.target? = some target) (hc : s.before.current = some cur)
    (hp : s.before.processes.get? cur = some p) (hq : s.before.processes.get? target = some q)
    (hne : target ≠ cur) (hcontext : c.Continues interrupted) (hcur : k'.current = some target)
    (hk : k'.processes.get? = Function.update (Function.update s.before.processes.get? cur
      (some { p with state := .preempted c })) target (some { q with state := .running })) :
    Tracked first (s :: past) k' := by
  have hends {y : ProcessId} : ¬s.Ends y := hd.not_ends rfl
  have hl : ¬s.Launches cur := Step.not_launches hp hends
  have hsuspends : s.Suspends cur := by
    refine hd.suspends hc ?_ hends
    rw [hcur, Ne, Option.some.injEq]
    exact hne
  have htarget : s.transfer.target? = some target := by rw [hd.transfer, ht]
  refine h.moved hb hd hc hp ht (fun _ he => absurd he hends) hk ?_ ?_
  · intro r hr
    cases hr
    refine (h cur p hp).stopped (hb.current_running hc hp) hl fun hn => ?_
    exact ⟨hn, s, past, interrupted, suspension_cons_of_suspends hl hsuspends, hd.request, hcontext⟩
  · exact (h target q hq).resumed (Step.not_launches hq hends) htarget

end Tracked

namespace Kernel

variable {k : Kernel M D F}

omit [Devices D] [FileSystem F] in
theorem processes_leave (k k' : Kernel M D F) : (k.leave k').processes = k'.processes :=
  (sameCore_leave k k').processes

section

variable {parent target : ProcessId} {q : ProcessRecord} {t : TerminalId}

omit [Devices D] in
theorem get?_afterLaunch (h : k.Consistent σ) (hp : k.processes.get? cur = some p)
    (hfree : k.processes.get? pid = none) (prog : Program) (caller : SavedContext) :
    (k.leave (k.masked.started pid t prog
        (k.masked.childTable cur pid t prog caller))).processes.get? =
      Function.update (Function.update k.processes.get? cur
        (some { p with state := .awaitingChild pid (k.masked.leftContext pid t prog caller) })) pid
        (some (k.newRecord pid t prog (some cur))) := by
  rw [processes_leave]
  exact get?_childTable (k := k.masked) h.layout hp (Records.ne_of_eq_none hp hfree) prog caller

omit [Devices D] in
theorem get?_afterReturn (h : k.Consistent σ) (hq : k.processes.get? parent = some q)
    {l : List ProcessId} (hl : σ t = pid :: parent :: l) (stack : KernelStack) :
    (k.leave (k.masked.returned pid parent t stack)).processes.get? =
      Function.update (Function.update k.processes.get? pid none) parent
        (some { q with state := .running }) := by
  rw [processes_leave]
  exact get?_returned (k := k.masked) hq (h.stacked.ne_below hl) t stack

omit [Devices D] in
theorem get?_afterRelaunch (h : k.Consistent σ) (new : ProcessId) (prog : Program) :
    (k.leave ((k.masked.retired pid t).relaunched new t prog)).processes.get? =
      Function.update (Function.update k.processes.get? pid none) new
        (some (k.newRecord new t prog none)) := by
  rw [processes_leave]
  refine (get?_rootTable (k := k.masked.retired pid t) h.layout new t prog).trans ?_
  rw [get?_retired]
  rfl

omit [Devices D] [FileSystem F] in
theorem get?_afterTurn (hp : k.processes.get? cur = some p) (hq : k.processes.get? target = some q)
    (hne : target ≠ cur) (interrupted : SavedContext) (stack : KernelStack) :
    (k.leave ((k.masked.turned cur target interrupted stack).perform
        (.endOfInterrupt timerIrq))).processes.get? =
      Function.update (Function.update k.processes.get? cur
        (some { p with state := .preempted (k.masked.interruptedContext target interrupted) }))
        target (some { q with state := .running }) := by
  rw [processes_leave]
  exact get?_turned (k := k.masked) interrupted stack hp hq hne

end

theorem Effect.launches (hb : s.before.Sound σ) (he : s.before.Effect σ request transfer k' σ')
    (hd : s.Did request transfer k') {x : ProcessId} (hx : transfer.target? = some x)
    (hfree : s.before.processes.get? x = none ∨ s.Ends x) : s.Launches x := by
  obtain ⟨p, hp⟩ := (he.sound hb).current_live (he.current_eq hx)
  exact hd.launches hp hfree

theorem Effect.tracked (hb : s.before.Sound σ) (h : Tracked first past s.before)
    (he : s.before.Effect σ request transfer k' σ') (hd : s.Did request transfer k') :
    Tracked first (s :: past) k' := by
  have hlaunches {x : ProcessId} := he.launches hb hd (x := x)
  have hself {x : ProcessId} {p : ProcessRecord} (hp : s.before.processes.get? x = some p) :
      ∃ q, s.before.processes.get? x = some q ∧ p.name = q.name ∧ p.state = q.state :=
    ⟨p, hp, rfl, rfl⟩
  cases he with
  | refused | kept | shown =>
    refine h.kept hb hd rfl rfl (current_leave ..) ?_
    rw [processes_leave]
    exact fun x p hp => hself hp
  | @launched line caller cur pid p prog hc hp hfree hprog =>
    have hfree' := ProcessTable.get?_firstFree hfree
    have hne : cur ≠ pid := Records.ne_of_eq_none hp hfree'
    refine h.launched (c := s.before.masked.leftContext pid p.terminal prog caller)
      (r := s.before.masked.newRecord pid p.terminal prog (some cur)) hb hd hc hp hne
      (hlaunches rfl (Or.inl hfree')) hprog ⟨rfl, rfl⟩ rfl rfl (current_leave ..) ?_
    exact get?_afterLaunch hb.toConsistent hp hfree' prog caller
  | @returned cause pid parent p q context l hc hp hq hs hσ =>
    refine h.returned hb hd hc hq hs (hb.stacked.ne_below hσ) ?_
    exact get?_afterReturn hb.toConsistent hq hσ context.stack
  | @relaunched cause pid new p prog hc hp hσ hfree hprog =>
    have hroot : p.parent = none := (hb.stacked.stack p.terminal).root pid (by simp [hσ]) p hp
    have hnew : s.Launches new := hlaunches rfl (hd.free_or_ends hc hfree)
    refine h.relaunched (r := s.before.newRecord new p.terminal prog none) hb hd hc hp hroot hnew
      hprog rfl rfl ?_
    exact get?_afterRelaunch hb.toConsistent new prog
  | @turned interrupted cur target p q stack transfer hc hp hq ht htop hne hr =>
    refine h.turned (c := s.before.masked.interruptedContext target interrupted) hb hd
      (ProcessRecord.target?_of_resumption hr) hc hp hq hne ⟨rfl, rfl⟩ (current_leave ..) ?_
    exact get?_afterTurn hp hq hne interrupted stack
  | @served cur value m k' hc hsm hk =>
    obtain ⟨p, hp⟩ := hb.current_live hc
    obtain ⟨files, d, -, rfl⟩ := hk
    refine h.kept hb hd rfl rfl rfl ?_
    intro x q hq
    have hq' : (s.before.withFiles cur files).processes.get? x = some q := hq
    rw [get?_withFiles hp] at hq'
    obtain ⟨rfl, he⟩ | ⟨-, hq'⟩ := Records.update_eq_some_iff.mp hq'
    · cases he
      exact ⟨p, hp, rfl, rfl⟩
    · exact hself hq'

theorem Sound.did (h : k.Sound σ) (op : Operation) :
    ∃ transfer k' σ', k.Effect σ op.request transfer k' σ' ∧
      Step.Did ⟨k, op⟩ op.request transfer k' ∧ (k.operate op).2.Agrees k' := by
  obtain ⟨k', σ', he, ha⟩ := operate_effect h op
  exact ⟨_, k', σ', he, ⟨rfl, rfl, ha.processes⟩, ha⟩

/-- The steps of a run before earlier ones, newest first. -/
def history : List Operation → Kernel M D F → History M D F → History M D F
  | [], _, past => past
  | op :: ops, k, past => history ops (k.operate op).2 (⟨k, op⟩ :: past)

theorem Sound.tracked_run (hb : k.Sound σ) (h : Tracked first past k) (ops : List Operation) :
    Tracked first (history ops k past) (k.run ops).2 := by
  induction ops generalizing k σ past with
  | nil => exact h
  | cons op ops ih =>
    obtain ⟨transfer, k', σ', he, hd, ha⟩ := hb.did op
    have ht := he.tracked (s := ⟨k, op⟩) hb h hd
    refine ih ((he.sound hb).of_sameCore ha.toSameCore) ?_
    rw [Tracked, ha.processes]
    exact ht

omit [Devices D] in
theorem records_boot {P : ProcessRecord → Prop}
    (new : ∀ {k : Kernel M D F} {pid : ProcessId} {t : TerminalId} {prog : Program},
      k.program shell = .ok prog → P (k.newRecord pid t prog none))
    (ready : ∀ {p : ProcessRecord} (e : UserEntry), P p → P { p with state := .ready e })
    (hu : k.Unbooted) (hb : k.boot = (.ok first, k')) :
    ∀ x p, k'.processes.get? x = some p → P p := by
  refine (boot_induct (P := fun k => ∀ x p, k.processes.get? x = some p → P p) ?_ hu ?_ hb).1
  · intro k k₁ k₂ σ t pid prog h _ hfree hprog ho hk₂ hall x p hp
    have hnone := ProcessTable.get?_firstFree hfree
    have ha : k₂.Agrees k₁ := hk₂ ▸ agrees_record ..
    rw [ha.processes] at hp
    have hnew : P (k.masked.newRecord pid t prog none) := new (k := k.masked) hprog
    cases ho with
    | first hc =>
      rw [processes_leave] at hp
      have hp' : (rootTable pid (k.masked.newTable pid t prog)).get? x = some p := hp
      rw [get?_rootTable (k := k.masked) h.layout] at hp'
      obtain ⟨-, he⟩ | ⟨-, hp'⟩ := Records.update_eq_some_iff.mp hp'
      · cases he
        exact hnew
      · exact hall x p hp'
    | @beside cur q e hc hq he =>
      have hne : cur ≠ pid := Records.ne_of_eq_none hq hnone
      rw [processes_leave] at hp
      have hp' : (k.masked.besideTable cur pid t prog e).get? x = some p := hp
      rw [get?_besideTable (k := k.masked) h.layout hq hne] at hp'
      obtain ⟨-, he⟩ | ⟨-, hp'⟩ := Records.update_eq_some_iff.mp hp'
      · cases he
        exact hnew
      obtain ⟨-, he⟩ | ⟨-, hp'⟩ := Records.update_eq_some_iff.mp hp'
      · cases he
        exact ready e (hall cur q hq)
      · exact hall x p hp'
  · intro program
    obtain ⟨m, hm⟩ := k.startMachine_eq program
    intro x p hp
    rw [hm] at hp
    have hx' : k.processes.get? x = some p := hp
    rw [hu.processes, ProcessTable.get?_empty] at hx'
    cases hx'

/-- A shell that the boot launched: it runs, or it was never in user mode. -/
def IsFreshShell (p : ProcessRecord) : Prop :=
  (p.state = .running ∨ ∃ e, p.state = .ready e) ∧
    ∃ command, Command.parse shell = .ok command ∧ p.name = command.name

omit [Devices D] in
theorem isFreshShell_boot (hu : k.Unbooted) (hb : k.boot = (.ok first, k')) :
    ∀ x p, k'.processes.get? x = some p → IsFreshShell p := by
  refine records_boot ?_ ?_ hu hb
  · intro k pid t prog hprog
    obtain ⟨_, hparse, -⟩ := program_eq_ok hprog
    exact ⟨Or.inl rfl, prog.command, hparse, rfl⟩
  · intro p e hp
    exact ⟨Or.inr ⟨e, rfl⟩, hp.2⟩

theorem tracked_boot (hu : k.Unbooted) (hb : k.boot = (.ok first, k')) : Tracked first [] k' := by
  obtain ⟨σ, pid, prog, h, hc, -, rfl⟩ := boot_enters hu hb
  intro x p hp
  obtain ⟨hstate, hprogram⟩ := isFreshShell_boot hu hb x p hp
  refine ⟨hprogram, ?_⟩
  obtain hrun | ⟨e, hready⟩ := hstate
  · have hx := h.stacked.eq_current hp hrun
    rw [hc] at hx
    rw [hrun]
    exact hx
  · rw [hready]
    intro hn
    have hx : pid = x := Option.some.inj hn
    rw [hx] at hc
    have hrun := h.current_running hc hp
    rw [hready] at hrun
    cases hrun

end Kernel

end TerminalKernel
