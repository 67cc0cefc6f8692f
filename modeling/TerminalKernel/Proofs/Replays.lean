import TerminalKernel.Proofs.Bootable
import TerminalKernel.Proofs.Registers

namespace TerminalKernel

/-- What a reader of the log knows: who lives, on which terminal and as whose child, who is the
current one, and which terminal is on screen. -/
@[ext]
structure Scene where
  living : ProcessId → Option (TerminalId × Option ProcessId)
  current : Option ProcessId
  displayed : TerminalId

namespace Scene

def empty : Scene := ⟨fun _ => none, none, .first⟩

def apply (s : Scene) : Event → Scene
  | .processLaunched pid t parent =>
    { s with living := Function.update s.living pid (some (t, parent)), current := some pid }
  | .processHalted pid _ => { s with living := Function.update s.living pid none }
  | .parentResumed pid _ => { s with current := some pid }
  | .taskSwitched _ entered => { s with current := some entered }
  | .terminalSwitched _ entered => { s with displayed := entered }
  | .launchFailed .. | .shellRelaunched _ | .teardownFailed _ | .exceptionRaised .. => s

/-- What an event takes for granted. -/
def Admits (s : Scene) : Event → Prop
  | .processLaunched pid _ _ => s.living pid = none
  | .processHalted pid _ | .exceptionRaised pid _ => s.current = some pid
  | .taskSwitched left _ => left = s.current
  | .terminalSwitched left _ => left = s.displayed
  | .launchFailed .. | .shellRelaunched _ | .parentResumed .. | .teardownFailed _ => True

def replay (s : Scene) (es : List Event) : Scene := es.foldl apply s

def Faithful (s : Scene) : List Event → Prop
  | [] => True
  | e :: es => s.Admits e ∧ (s.apply e).Faithful es

theorem replay_append (s : Scene) (es fs : List Event) :
    s.replay (es ++ fs) = (s.replay es).replay fs := List.foldl_append

theorem faithful_append {s : Scene} {es fs : List Event} :
    s.Faithful (es ++ fs) ↔ s.Faithful es ∧ (s.replay es).Faithful fs := by
  induction es generalizing s with
  | nil => exact ⟨fun h => ⟨trivial, h⟩, fun h => h.2⟩
  | cons e es ih =>
    rw [List.cons_append, Faithful, Faithful, ih, and_assoc]
    rfl

end Scene

namespace Event

/-- The log after an event, which is lost when there is no room. -/
def kept (log : Array Event) (e : Event) : Array Event :=
  if log.size < maxEvents then log.push e else log

theorem toList_kept (es : List Event) {log : Array Event} (h : log.size ≤ maxEvents) :
    (es.foldl kept log).toList = (log.toList ++ es).take maxEvents := by
  induction es generalizing log with
  | nil => rw [List.append_nil, List.take_of_length_le (by simpa using h), List.foldl_nil]
  | cons e es ih =>
    rw [List.foldl_cons]
    by_cases hlt : log.size < maxEvents
    · rw [kept, if_pos hlt, ih (by simpa using hlt), Array.toList_push, List.append_assoc,
        List.singleton_append]
    · have hsize : log.toList.length = maxEvents := Nat.le_antisymm h (Nat.le_of_not_lt hlt)
      rw [kept, if_neg hlt, ih h, List.take_left' hsize, List.take_left' hsize]

end Event

def ProcessRecord.place (p : ProcessRecord) : TerminalId × Option ProcessId :=
  (p.terminal, p.parent)

namespace Records

variable {g : Records} {x : ProcessId} {p q : ProcessRecord}

def places (g : Records) (x : ProcessId) : Option (TerminalId × Option ProcessId) :=
  (g x).map ProcessRecord.place

theorem places_update (g : Records) (x : ProcessId) (r : Option ProcessRecord) :
    places (Function.update g x r) = Function.update (places g) x (r.map ProcessRecord.place) :=
  Function.comp_update (Option.map ProcessRecord.place) g x r

theorem places_update_of_samePlace (hp : g x = some p) (hq : q.SamePlace p) :
    places (Function.update g x (some q)) = places g := by
  have hplace : q.place = p.place := by rw [ProcessRecord.place, hq.2.1, hq.2.2]; rfl
  rw [places_update, Function.update_eq_self_iff, places, hp, Option.map_some, Option.map_some,
    hplace]

end Records

namespace Kernel

variable {M D F : Type} {k k' : Kernel M D F}

def scene (k : Kernel M D F) : Scene := ⟨Records.places k.processes.get?, k.current, k.displayed⟩

theorem SameCore.scene (h : k'.SameCore k) : k'.scene = k.scene := by
  rw [Kernel.scene, Kernel.scene, current, current, h.processes, h.displayed]

def relogged (log : Array Event) (k : Kernel M D F) : Kernel M D F := { k with events := log }

theorem sameCore_relogged (log : Array Event) (k : Kernel M D F) : (k.relogged log).SameCore k :=
  ⟨rfl, rfl, rfl, rfl, rfl, rfl, rfl⟩

theorem events_record (e : Event) (k : Kernel M D F) :
    (k.record e).events = Event.kept k.events e := by
  rw [record_eq]
  rfl

/-- Whatever the log holds, an operation of the kernel adds these events, and they tell what it
does. -/
structure Reports {α : Type} (k : Kernel M D F) (op : Kernel M D F → α × Kernel M D F)
    (es : List Event) : Prop where
  logs : ∀ log, (op (k.relogged log)).2.events = es.foldl Event.kept log
  tells : ∀ log, (op (k.relogged log)).2.scene = k.scene.replay es
  faithful : k.scene.Faithful es

section

variable [Machine M]

theorem events_leave (k k' : Kernel M D F) : (k.leave k').events = k'.events := by
  unfold leave unmasked
  split <;> rfl

theorem scene_leave (k k' : Kernel M D F) : (k.leave k').scene = k'.scene :=
  (sameCore_leave k k').scene

omit [Machine M] in
theorem scene_record (e : Event) (k : Kernel M D F) : (k.record e).scene = k.scene :=
  (sameCore_record e k).scene

variable [FileSystem F] {cur pid : ProcessId} {p : ProcessRecord} {t : TerminalId}

theorem scene_started_child (hl : k.processes.layout = k.layout)
    (hp : k.processes.get? cur = some p) (hfree : k.processes.get? pid = none) (prog : Program)
    (caller : SavedContext) :
    (k.started pid t prog (k.childTable cur pid t prog caller)).scene =
      k.scene.apply (.processLaunched pid t (some cur)) := by
  have hget := get?_childTable (t := t) hl hp (Records.ne_of_eq_none hp hfree) prog caller
  refine Scene.ext ?_ rfl rfl
  change Records.places (k.childTable cur pid t prog caller).get? = _
  rw [hget, Records.places_update, Records.places_update_of_samePlace hp]
  · rfl
  · exact ⟨rfl, rfl, rfl⟩

theorem scene_relaunched (hl : k.processes.layout = k.layout) (pid : ProcessId) (t : TerminalId)
    (prog : Program) :
    (k.relaunched pid t prog).scene = k.scene.apply (.processLaunched pid t none) := by
  refine Scene.ext ?_ rfl rfl
  change Records.places (rootTable pid (k.newTable pid t prog)).get? = _
  rw [get?_rootTable hl, Records.places_update]
  rfl

theorem scene_started_beside (hl : k.processes.layout = k.layout)
    (hp : k.processes.get? cur = some p) (hfree : k.processes.get? pid = none) (prog : Program)
    (e : UserEntry) :
    (k.started pid t prog (k.besideTable cur pid t prog e)).scene =
      k.scene.apply (.processLaunched pid t none) := by
  have hget := get?_besideTable (t := t) (e := e) hl hp (Records.ne_of_eq_none hp hfree) prog
  refine Scene.ext ?_ rfl rfl
  change Records.places (k.besideTable cur pid t prog e).get? = _
  rw [hget, Records.places_update, Records.places_update_of_samePlace hp]
  · rfl
  · exact ⟨rfl, rfl, rfl⟩

omit [FileSystem F] [Machine M] in
theorem scene_withFiles (hp : k.processes.get? pid = some p) (files : FileTable) :
    (k.withFiles pid files).scene = k.scene := by
  refine Scene.ext ?_ rfl rfl
  change Records.places (k.withFiles pid files).processes.get? = _
  rw [get?_withFiles hp, Records.places_update_of_samePlace hp]
  · rfl
  · exact ⟨rfl, rfl, rfl⟩

omit [FileSystem F] [Machine M] in
theorem scene_ending (hp : k.processes.get? pid = some p) (status : Int) :
    (k.ending pid p status).scene = k.scene := by
  rw [ending, scene_record, scene_withFiles hp]

omit [FileSystem F] in
theorem scene_returned {parent : ProcessId} {q : ProcessRecord}
    (hq : k.processes.get? parent = some q) (hne : parent ≠ pid) (stack : KernelStack)
    (status : Int) :
    (k.returned pid parent t stack).scene =
      (k.scene.apply (.processHalted pid status)).apply (.parentResumed parent status) := by
  have hq' : Function.update k.processes.get? pid none parent = some q := by
    rw [Function.update_of_ne hne, hq]
  refine Scene.ext ?_ rfl rfl
  change Records.places (k.returned pid parent t stack).processes.get? = _
  rw [get?_returned hq hne, Records.places_update_of_samePlace hq', Records.places_update]
  · rfl
  · exact ⟨rfl, rfl, rfl⟩

theorem scene_replaced {k₁ : Kernel M D F} (h₁ : k₁.scene = k.scene)
    (hl : k₁.processes.layout = k₁.layout) (pid new : ProcessId) (t : TerminalId) (status : Int)
    (prog : Program) :
    (((k₁.retired pid t).record (.shellRelaunched t)).relaunched new t prog).scene =
      k.scene.replay [.processHalted pid status, .shellRelaunched t,
        .processLaunched new t none] := by
  have hliving : (k₁.retired pid t).scene.living = Function.update k₁.scene.living pid none := by
    change Records.places (k₁.retired pid t).processes.get? = _
    rw [get?_retired, Records.places_update]
    rfl
  have hcore := sameCore_record (.shellRelaunched t) (k₁.retired pid t)
  have hl' : ((k₁.retired pid t).record (.shellRelaunched t)).processes.layout =
      ((k₁.retired pid t).record (.shellRelaunched t)).layout := by
    rw [hcore.processes, hcore.layout]
    exact hl
  have hdisplayed : k₁.displayed = k.displayed := congrArg Scene.displayed h₁
  rw [scene_relaunched hl', scene_record]
  refine Scene.ext ?_ rfl hdisplayed
  rw [Scene.apply, hliving, h₁]
  rfl

omit [FileSystem F] in
theorem scene_turned {target : ProcessId} {q : ProcessRecord} (hp : k.processes.get? cur = some p)
    (hq : k.processes.get? target = some q) (hne : target ≠ cur) (interrupted : SavedContext)
    (stack : KernelStack) (left : Option ProcessId) :
    (k.turned cur target interrupted stack).scene = k.scene.apply (.taskSwitched left target) := by
  refine Scene.ext ?_ rfl rfl
  change Records.places (k.turned cur target interrupted stack).processes.get? = _
  rw [get?_turned interrupted stack hp hq hne,
    Records.places_update_of_samePlace (by rw [Function.update_of_ne hne, hq]),
    Records.places_update_of_samePlace hp]
  · rfl
  · exact ⟨rfl, rfl, rfl⟩
  · exact ⟨rfl, rfl, rfl⟩

end

variable [Machine M] [FileSystem F] {σ : TerminalId → List ProcessId}

omit [Machine M] in
theorem Sound.relogged (h : k.Sound σ) (log : Array Event) : (k.relogged log).Sound σ :=
  h.of_sameCore (sameCore_relogged ..)

omit [FileSystem F] in
theorem Reports.of_refused {α : Type} {op : Kernel M D F → α × Kernel M D F} (t : TerminalId)
    (e : KernelError)
    (h : ∀ log, ∃ calls, (op (k.relogged log)).2 = (k.relogged log).refused t e calls) :
    k.Reports op [.launchFailed t e] := by
  refine ⟨?_, ?_, trivial, trivial⟩
  · intro log
    obtain ⟨calls, hk⟩ := h log
    rw [hk, refused, events_record]
    exact congrArg (Event.kept · _) (events_leave ..)
  · intro log
    obtain ⟨calls, hk⟩ := h log
    rw [hk, (agrees_refused t e calls).toSameCore.scene, scene_leave]
    rfl

theorem Sound.reports_execute (h : k.Sound σ) (line : Bytes) (caller : SavedContext) :
    ∃ es, es.length ≤ 1 ∧ k.Reports (execute line caller) es := by
  obtain ⟨cur, hc⟩ := h.runs
  obtain ⟨p, hp⟩ := h.current_live hc
  have heq (log : Array Event) := (h.relogged log).execute_eq hc hp line caller
  by_cases hnil : Bytes.beforeNul line = []
  · simp only [if_pos hnil] at heq
    exact ⟨[.launchFailed p.terminal .invalidCommand], Nat.le_refl 1,
      .of_refused _ _ fun log => ⟨[], by rw [heq]⟩⟩
  · simp only [if_neg hnil] at heq
    cases hfree : k.processes.firstFree? with
    | none =>
      have hfree' (log : Array Event) : (k.relogged log).processes.firstFree? = none := hfree
      simp only [hfree'] at heq
      exact ⟨[.launchFailed p.terminal .registryExhausted], Nat.le_refl 1,
        .of_refused _ _ fun log => ⟨[], by rw [heq]⟩⟩
    | some pid =>
      have hfree' (log : Array Event) : (k.relogged log).processes.firstFree? = some pid := hfree
      simp only [hfree'] at heq
      cases hprog : k.program line with
      | error e =>
        have hprog' (log : Array Event) : (k.relogged log).program line = .error e := hprog
        simp only [hprog'] at heq
        exact ⟨[.launchFailed p.terminal e], Nat.le_refl 1,
          .of_refused _ _ fun log => ⟨_, by rw [heq]⟩⟩
      | ok prog =>
        have hprog' (log : Array Event) : (k.relogged log).program line = .ok prog := hprog
        simp only [hprog'] at heq
        have hnone := ProcessTable.get?_firstFree hfree
        refine ⟨[.processLaunched pid p.terminal (some cur)], Nat.le_refl 1, ?_, ?_, ?_, trivial⟩
        · intro log
          rw [heq, events_leave, events_record]
          rfl
        · intro log
          rw [heq, scene_leave, scene_record,
            scene_started_child (k := (k.relogged log).masked) h.layout hp hnone]
          rfl
        · exact congrArg (Option.map _) hnone

section

variable {pid parent : ProcessId} {p : ProcessRecord}

theorem Sound.reports_relaunch (h : k.Sound σ) (hc : k.current = some pid)
    (hp : k.processes.get? pid = some p) (hparent : p.parent = none) (cause : HaltCause) :
    ∃ es, es.length ≤ 3 ∧ k.Reports (halt cause) es := by
  obtain ⟨new, prog, -, -, hfree, -⟩ := h.halt_relaunched hc hp hparent cause
  have heq (log : Array Event) := (h.relogged log).halt_relaunched hc hp hparent cause
  have hnew {log : Array Event} {x : ProcessId}
      (hx : ((k.relogged log).masked.retired pid p.terminal).processes.firstFree? = some x) :
      x = new := Option.some.inj (hx.symm.trans hfree)
  refine ⟨[.processHalted pid cause.status, .shellRelaunched p.terminal,
    .processLaunched new p.terminal none], Nat.le_refl 3, ?_, ?_, hc, trivial, ?_, trivial⟩
  · intro log
    obtain ⟨x, prog, -, -, hx, hhalt⟩ := heq log
    obtain rfl := hnew hx
    rw [hhalt, events_leave, events_record]
    change Event.kept (record _ (retired _ _ _)).events _ = _
    rw [events_record]
    change Event.kept (Event.kept (ending _ _ _ _).events _) _ = _
    rw [ending, events_record]
    rfl
  · intro log
    obtain ⟨x, prog, -, -, hx, hhalt⟩ := heq log
    obtain rfl := hnew hx
    have hm : (k.relogged log).masked.Consistent σ :=
      (h.relogged log).toConsistent.of_sameCore (k.relogged log).sameCore_masked
    rw [hhalt, scene_leave, scene_record]
    exact scene_replaced (scene_ending (k := (k.relogged log).masked) hp cause.status)
      (hm.ending hc hp cause.status).layout ..
  · have hnone := congrArg (Option.map ProcessRecord.place) (ProcessTable.get?_firstFree hfree)
    change Records.places (k.masked.retired pid p.terminal).processes.get? new = none at hnone
    rw [get?_retired, Records.places_update] at hnone
    exact hnone

theorem Sound.reports_return (h : k.Sound σ) (hc : k.current = some pid)
    (hp : k.processes.get? pid = some p) (hparent : p.parent = some parent) (cause : HaltCause) :
    ∃ es, es.length ≤ 2 ∧ k.Reports (halt cause) es := by
  obtain ⟨q, context, l, hq, -, hl, -⟩ := h.halt_returned hc hp hparent cause
  have heq (log : Array Event) := (h.relogged log).halt_returned hc hp hparent cause
  have hne : parent ≠ pid := h.stacked.ne_below hl
  refine ⟨[.processHalted pid cause.status, .parentResumed parent cause.status], Nat.le_refl 2,
    ?_, ?_, hc, trivial, trivial⟩
  · intro log
    obtain ⟨-, context, -, -, -, -, hhalt⟩ := heq log
    rw [hhalt, events_leave, events_record]
    change Event.kept (ending _ _ _ _).events _ = _
    rw [ending, events_record]
    rfl
  · intro log
    obtain ⟨-, context, -, -, -, -, hhalt⟩ := heq log
    have hq' : ((k.relogged log).masked.ending pid p cause.status).processes.get? parent =
        some q := by
      rw [get?_ending (k := (k.relogged log).masked) hp, Function.update_of_ne hne]
      exact hq
    rw [hhalt, scene_leave, scene_record, scene_returned hq' hne _ cause.status,
      scene_ending (k := (k.relogged log).masked) hp cause.status]
    rfl

end

theorem Sound.reports_halt (h : k.Sound σ) (cause : HaltCause) :
    ∃ es, es.length ≤ 3 ∧ k.Reports (halt cause) es := by
  obtain ⟨pid, hc⟩ := h.runs
  obtain ⟨p, hp⟩ := h.current_live hc
  obtain hparent | ⟨parent, hparent⟩ := p.parent.eq_none_or_eq_some
  · exact h.reports_relaunch hc hp hparent cause
  · obtain ⟨es, hlen, hes⟩ := h.reports_return hc hp hparent cause
    exact ⟨es, Nat.le_succ_of_le hlen, hes⟩

theorem Sound.reports_timerTick (h : k.Sound σ) (interrupted : SavedContext) :
    ∃ es, es.length ≤ 1 ∧ k.Reports (timerTick interrupted) es := by
  obtain ⟨cur, hc⟩ := h.runs
  obtain ⟨p, hp⟩ := h.current_live hc
  obtain ⟨target, q, -, -, hq, ht, htop, hne, -⟩ := h.timerTick_eq hc hp interrupted
  have heq (log : Array Event) : ∃ stack transfer,
      (k.relogged log).timerTick interrupted = (transfer,
        (k.relogged log).leave ((((k.relogged log).masked.ticked.turned cur target interrupted
          stack).record (.taskSwitched (some cur) target)).perform (.endOfInterrupt timerIrq))) := by
    obtain ⟨x, q', stack, transfer, -, ht', htop', -, -, htick⟩ :=
      (h.relogged log).timerTick_eq hc hp interrupted
    rw [ht', ← ht, htop] at htop'
    obtain rfl := Option.some.inj htop'
    exact ⟨stack, transfer, htick⟩
  refine ⟨[.taskSwitched (some cur) target], Nat.le_refl 1, ?_, ?_, hc.symm, trivial⟩
  · intro log
    obtain ⟨stack, transfer, htick⟩ := heq log
    rw [htick, events_leave]
    exact events_record ..
  · intro log
    obtain ⟨stack, transfer, htick⟩ := heq log
    rw [htick, scene_leave, (sameCore_perform ..).scene, scene_record,
      scene_turned (k := (k.relogged log).masked.ticked) hp hq hne _ _ (some cur)]
    rfl

variable [Devices D]

theorem Sound.reports_switchTerminal (h : k.Sound σ) (entered : TerminalId)
    (interrupted : Option SavedContext) :
    ∃ es, es.length ≤ 1 ∧ k.Reports (switchTerminal entered interrupted) es := by
  obtain ⟨cur, hc⟩ := h.runs
  by_cases he : k.displayed = entered
  · have heq (log : Array Event) := switchTerminal_kept (k := k.relogged log) he interrupted
    refine ⟨[], Nat.zero_le 1, ?_, ?_, trivial⟩
    · intro log
      rw [heq, events_leave]
      rfl
    · intro log
      rw [heq, scene_leave]
      rfl
  · have heq (log : Array Event) := (h.relogged log).switchTerminal_eq hc he interrupted
    refine ⟨[.terminalSwitched k.displayed entered], Nat.le_refl 1, ?_, ?_, rfl, trivial⟩
    · intro log
      obtain ⟨calls, -, hs⟩ := heq log
      rw [hs, events_leave, events_record]
      rfl
    · intro log
      obtain ⟨calls, -, hs⟩ := heq log
      rw [hs, scene_leave, scene_record, (sameCore_performAll ..).scene]
      rfl

omit [Devices D] in
theorem Sound.reports_exception (h : k.Sound σ) (vector : UInt8) :
    ∃ es, es.length ≤ 4 ∧ k.Reports (exception vector) es := by
  obtain ⟨pid, hc⟩ := h.runs
  have hsame : k.logError.SameCore k := (agrees_logError k).toSameCore
  obtain ⟨es, hes, hr⟩ := (h.of_sameCore hsame).reports_halt (.exception vector)
  have heq (log : Array Event) : (k.relogged log).exception vector =
      (k.logError.relogged (Event.kept log (.exceptionRaised pid vector))).halt
        (.exception vector) := by
    rw [exception_eq (k := k.relogged log) hc, record_eq]
    rfl
  refine ⟨.exceptionRaised pid vector :: es, Nat.succ_le_succ hes, ?_, ?_, hc, ?_⟩
  · intro log
    rw [heq, hr.logs]
    rfl
  · intro log
    rw [heq, hr.tells, hsame.scene]
    rfl
  · rw [← hsame.scene]
    exact hr.faithful

theorem Sound.reports_service (h : k.Sound σ) {call : SystemCall} (hcall : call.IsService)
    (caller : SavedContext) : k.Reports (syscall call caller) [] := by
  obtain ⟨pid, hc⟩ := h.runs
  obtain ⟨p, hp⟩ := h.current_live hc
  have heq (log : Array Event) : ∃ files d m,
      ((k.relogged log).syscall call caller).2 = (k.relogged log).served pid files d m := by
    obtain ⟨-, m, -, -, files, d, -, hs⟩ := syscall_serves (k := k.relogged log) hc hp
      (h.launched pid p hp).files hcall caller
    exact ⟨files, d, m, hs⟩
  refine ⟨?_, ?_, trivial⟩
  · intro log
    obtain ⟨files, d, m, hs⟩ := heq log
    rw [hs]
    rfl
  · intro log
    obtain ⟨files, d, m, hs⟩ := heq log
    rw [hs]
    exact scene_withFiles (k := k.relogged log) hp files

theorem Sound.reports_syscall (h : k.Sound σ) (call : SystemCall) (caller : SavedContext) :
    ∃ es, es.length ≤ 4 ∧ k.Reports (syscall call caller) es := by
  have hservice (hcall : call.IsService) :
      ∃ es, es.length ≤ 4 ∧ k.Reports (syscall call caller) es :=
    ⟨[], Nat.zero_le 4, h.reports_service hcall caller⟩
  cases call with
  | halt code =>
    obtain ⟨es, hes, hr⟩ := h.reports_halt (.exit code)
    exact ⟨es, by omega, hr.logs, hr.tells, hr.faithful⟩
  | execute line =>
    obtain ⟨es, hes, hr⟩ := h.reports_execute line caller
    exact ⟨es, by omega, hr.logs, hr.tells, hr.faithful⟩
  | read | write | «open» | close | getArguments | videoMap | setHandler | signalReturn =>
    exact hservice trivial

theorem Sound.reports_operate (h : k.Sound σ) (op : Operation) :
    ∃ es, es.length ≤ 4 ∧ k.Reports (Kernel.operate op) es := by
  cases op with
  | execute line caller =>
    obtain ⟨es, hes, hr⟩ := h.reports_execute line caller
    exact ⟨es, by omega, hr.logs, hr.tells, hr.faithful⟩
  | halt cause =>
    obtain ⟨es, hes, hr⟩ := h.reports_halt cause
    exact ⟨es, by omega, hr.logs, hr.tells, hr.faithful⟩
  | exception vector =>
    obtain ⟨es, hes, hr⟩ := h.reports_exception vector
    exact ⟨es, hes, hr.logs, hr.tells, hr.faithful⟩
  | timerTick interrupted =>
    obtain ⟨es, hes, hr⟩ := h.reports_timerTick interrupted
    exact ⟨es, by omega, hr.logs, hr.tells, hr.faithful⟩
  | switchTerminal entered interrupted =>
    obtain ⟨es, hes, hr⟩ := h.reports_switchTerminal entered interrupted
    exact ⟨es, by omega, hr.logs, hr.tells, hr.faithful⟩
  | syscall call caller => exact h.reports_syscall call caller
  | syscallRaw number argument bytes caller =>
    cases hd : SystemCall.decode? number argument bytes with
    | none =>
      have heq (log : Array Event) :
          ((k.relogged log).operate (.syscallRaw number argument bytes caller)).2 =
            k.relogged log := by
        simp only [Kernel.operate, syscallRaw, hd]
      refine ⟨[], Nat.zero_le 4, ?_, ?_, trivial⟩
      · intro log
        rw [heq]
        rfl
      · intro log
        rw [heq]
        rfl
    | some call =>
      have heq (log : Array Event) :
          (k.relogged log).operate (.syscallRaw number argument bytes caller) =
            (k.relogged log).syscall call caller := by
        simp only [Kernel.operate, syscallRaw, hd]
      obtain ⟨es, hes, hr⟩ := h.reports_syscall call caller
      refine ⟨es, hes, ?_, ?_, hr.faithful⟩
      · intro log
        rw [heq, hr.logs]
      · intro log
        rw [heq, hr.tells]

/-- The events that an operation pushes: those it adds to an empty log. -/
def pushed (op : Operation) (k : Kernel M D F) : List Event :=
  ((k.relogged #[]).operate op).2.events.toList

def pushes : List Operation → Kernel M D F → List Event
  | [], _ => []
  | op :: ops, k => k.pushed op ++ pushes ops (k.operate op).2

theorem Sound.length_pushed_le (h : k.Sound σ) (op : Operation) : (k.pushed op).length ≤ 4 := by
  obtain ⟨es, hes, hr⟩ := h.reports_operate op
  rw [pushed, hr.logs, Event.toList_kept es (Nat.zero_le _)]
  exact (List.length_take_le' ..).trans hes

theorem Sound.reports_pushed (h : k.Sound σ) (op : Operation) :
    k.Reports (Kernel.operate op) (k.pushed op) := by
  obtain ⟨es, hes, hr⟩ := h.reports_operate op
  have heq : k.pushed op = es := by
    rw [pushed, hr.logs, Event.toList_kept es (Nat.zero_le _)]
    exact List.take_of_length_le (hes.trans (by decide))
  rw [heq]
  exact hr

theorem Sound.length_pushes_le (h : k.Sound σ) (ops : List Operation) :
    (k.pushes ops).length ≤ 4 * ops.length := by
  induction ops generalizing k σ with
  | nil => exact Nat.le_refl 0
  | cons op ops ih =>
    obtain ⟨σ', h'⟩ := h.operate op
    have hop := h.length_pushed_le op
    have hops := ih h'
    rw [pushes, List.length_append, List.length_cons]
    omega

theorem Sound.events_run (h : k.Sound σ) (ops : List Operation) :
    (k.run ops).2.events = (k.pushes ops).foldl Event.kept k.events := by
  induction ops generalizing k σ with
  | nil => rfl
  | cons op ops ih =>
    obtain ⟨σ', h'⟩ := h.operate op
    have hlogs : (k.operate op).2.events = (k.pushed op).foldl Event.kept k.events :=
      (h.reports_pushed op).logs k.events
    rw [run_cons, ih h', pushes, List.foldl_append, hlogs]

theorem Sound.scene_run (h : k.Sound σ) (ops : List Operation) :
    (k.run ops).2.scene = k.scene.replay (k.pushes ops) ∧ k.scene.Faithful (k.pushes ops) := by
  induction ops generalizing k σ with
  | nil => exact ⟨rfl, trivial⟩
  | cons op ops ih =>
    obtain ⟨σ', h'⟩ := h.operate op
    have hr := h.reports_pushed op
    have htells : (k.operate op).2.scene = k.scene.replay (k.pushed op) := hr.tells k.events
    obtain ⟨hscene, hfaithful⟩ := ih h'
    rw [htells] at hscene hfaithful
    rw [run_cons, pushes, Scene.replay_append, Scene.faithful_append]
    exact ⟨hscene, hr.faithful, hfaithful⟩

omit [Machine M] [Devices D] [FileSystem F] in
theorem scene_fresh (machine : M) (devices : D) (fs : F) (layout : Layout) (timer : TimerConfig) :
    (fresh machine devices fs layout timer).scene = .empty := by
  refine Scene.ext ?_ rfl rfl
  funext x
  exact congrArg (Option.map _) (ProcessTable.get?_empty ..)

omit [Devices D] in
theorem Opens.scene_eq (hl : k.processes.layout = k.layout) {pid : ProcessId} {t : TerminalId}
    {prog : Program} (hfree : k.processes.get? pid = none) (ho : k.Opens t pid prog k') :
    k'.scene = k.scene.apply (.processLaunched pid t none) := by
  cases ho with
  | first hc =>
    rw [scene_leave, scene_relaunched (k := k.masked) hl]
    rfl
  | beside hc hp he =>
    rw [scene_leave, scene_started_beside (k := k.masked) hl hp hfree]
    rfl

omit [Devices D] in
theorem Opens.events_eq {pid : ProcessId} {t : TerminalId} {prog : Program}
    (ho : k.Opens t pid prog k') : k'.events = k.events := by
  cases ho with
  | first hc | beside hc hp he => exact events_leave ..

/-- A log that retells everything, with one event for each living process. -/
structure Opening (k : Kernel M D F) : Prop where
  scene : k.scene = Scene.empty.replay k.events.toList
  faithful : Scene.empty.Faithful k.events.toList
  counts : ∃ living : Finset ProcessId, (∀ x ∈ living, k.scene.living x ≠ none) ∧
    k.events.size = living.card

omit [Machine M] [Devices D] [FileSystem F] in
theorem Opening.size_le (h : k.Opening) : k.events.size ≤ processCapacity := by
  obtain ⟨living, -, hsize⟩ := h.counts
  rw [hsize]
  exact card_finset_fin_le living

omit [Devices D] in
theorem Opening.opens (h : k.Opening) (hl : k.processes.layout = k.layout) {pid : ProcessId}
    {t : TerminalId} {prog : Program} (hfree : k.processes.get? pid = none)
    {k₁ : Kernel M D F} (ho : k.Opens t pid prog k₁) :
    (k₁.record (.processLaunched pid t none)).Opening := by
  have hroom : k.events.size < maxEvents := lt_of_le_of_lt h.size_le (by decide)
  have hnone : k.scene.living pid = none := congrArg (Option.map _) hfree
  have hevents : (k₁.record (.processLaunched pid t none)).events =
      k.events.push (.processLaunched pid t none) := by
    rw [events_record, ho.events_eq, Event.kept, if_pos hroom]
  have hscene : (k₁.record (.processLaunched pid t none)).scene =
      k.scene.apply (.processLaunched pid t none) := by
    rw [scene_record, ho.scene_eq hl hfree]
  refine ⟨?_, ?_, ?_⟩
  · rw [hscene, hevents, Array.toList_push, Scene.replay_append, ← h.scene]
    rfl
  · rw [hevents, Array.toList_push, Scene.faithful_append, ← h.scene]
    exact ⟨h.faithful, hnone, trivial⟩
  · obtain ⟨living, hliving, hsize⟩ := h.counts
    have hmem : pid ∉ living := fun hin => hliving pid hin hnone
    refine ⟨insert pid living, ?_, ?_⟩
    · intro x hx
      rw [hscene]
      change Function.update k.scene.living pid (some (t, none)) x ≠ none
      by_cases hxp : x = pid
      · simp [hxp]
      · rw [Function.update_of_ne hxp]
        exact hliving x (Finset.mem_of_mem_insert_of_ne hx hxp)
    · rw [hevents, Array.size_push, hsize, Finset.card_insert_of_notMem hmem]

omit [Devices D] in
theorem opening_boot {machine : M} {devices : D} {fs : F} {layout : Layout} {timer : TimerConfig}
    {first : Transfer} (hb : (fresh machine devices fs layout timer).boot = (.ok first, k)) :
    k.Opening := by
  refine (boot_induct (P := Opening) ?_ (unbooted_fresh ..) ?_ hb).1
  · intro k₀ k₁ k₂ σ t pid prog h _ hfree _ ho hk₂ hp
    rw [hk₂]
    exact hp.opens h.layout (ProcessTable.get?_firstFree hfree) ho
  · intro program
    obtain ⟨m, hm⟩ := (fresh machine devices fs layout timer).startMachine_eq program
    rw [hm]
    exact ⟨scene_fresh machine devices fs layout timer, trivial, ∅, by simp, rfl⟩

/-- After every operation of a run that pushed no more events than the log has room for, a reader
of the log who starts from nothing knows the kernel's processes with their terminals and parents,
the current process and the terminal on screen, and found every event to be faithful. -/
theorem replay_run {machine : M} {devices : D} {fs : F} {layout : Layout} {timer : TimerConfig}
    {first : Transfer} (hb : (fresh machine devices fs layout timer).boot = (.ok first, k))
    (ops : List Operation) (hroom : k.events.size + (k.pushes ops).length ≤ maxEvents) :
    (k.run ops).2.events.toList = k.events.toList ++ k.pushes ops ∧
      Scene.empty.replay (k.run ops).2.events.toList = (k.run ops).2.scene ∧
      Scene.empty.Faithful (k.run ops).2.events.toList := by
  obtain ⟨σ, h⟩ := sound_boot (unbooted_fresh machine devices fs layout timer) hb
  have hopening := opening_boot hb
  obtain ⟨hscene, hfaithful⟩ := h.scene_run ops
  have hlog : (k.run ops).2.events.toList = k.events.toList ++ k.pushes ops := by
    rw [h.events_run, Event.toList_kept _ (by omega)]
    exact List.take_of_length_le (by simpa using hroom)
  refine ⟨hlog, ?_, ?_⟩
  · rw [hlog, Scene.replay_append, ← hopening.scene, hscene]
  · rw [hlog, Scene.faithful_append, ← hopening.scene]
    exact ⟨hopening.faithful, hfaithful⟩

theorem replay_run_shellFiles :
    ∃ first k, (Sample.kernel Sample.shellFiles).boot = (.ok first, k) ∧
      ∀ line caller entered cause,
        let ops : List Operation := [.execute line caller, .timerTick caller,
          .switchTerminal entered none, .halt cause, .timerTick caller]
        k.events.size + (k.pushes ops).length ≤ maxEvents ∧
          (k.run ops).2.events.toList = k.events.toList ++ k.pushes ops ∧
          Scene.empty.replay (k.run ops).2.events.toList = (k.run ops).2.scene ∧
          Scene.empty.Faithful (k.run ops).2.events.toList := by
  obtain ⟨first, k, hb⟩ := Sample.boot_shellFiles
  refine ⟨first, k, hb, ?_⟩
  intro line caller entered cause ops
  obtain ⟨σ, h⟩ := sound_boot (unbooted_fresh ..) hb
  have hboot : k.events.size ≤ 6 := (opening_boot hb).size_le
  have hpushes : (k.pushes ops).length ≤ 4 * 5 := h.length_pushes_le ops
  have hroom : k.events.size + (k.pushes ops).length ≤ maxEvents :=
    (Nat.add_le_add hboot hpushes).trans (by decide)
  exact ⟨hroom, replay_run hb ops hroom⟩

end Kernel

end TerminalKernel
