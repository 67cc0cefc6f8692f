import TerminalKernel.Kernel.Operation
import TerminalKernel.Proofs.Services

namespace TerminalKernel

inductive Request where
  | execute (line : Bytes) (caller : SavedContext)
  | finish (cause : HaltCause)
  | turn (interrupted : SavedContext)
  | display (entered : TerminalId)
  | service

def SystemCall.request (call : SystemCall) (caller : SavedContext) : Request :=
  match call with
  | .halt code => .finish (.exit code)
  | .execute line => .execute line caller
  | _ => .service

def Operation.request : Operation → Request
  | .execute line caller => .execute line caller
  | .halt cause => .finish cause
  | .exception vector => .finish (.exception vector)
  | .timerTick interrupted => .turn interrupted
  | .switchTerminal entered _ => .display entered
  | .syscall call caller => call.request caller
  | .syscallRaw number argument bytes caller =>
    match SystemCall.decode? number argument bytes with
    | some call => call.request caller
    | none => .service

namespace Kernel

variable {M D F : Type}

/-- Two kernels differ at most in the devices, the clock and the logs. -/
structure Agrees (k' k : Kernel M D F) : Prop extends k'.SameCore k where
  machine : k'.machine = k.machine

theorem Agrees.refl (k : Kernel M D F) : k.Agrees k := ⟨.refl k, rfl⟩

theorem Agrees.trans {k k' k'' : Kernel M D F} (h : k''.Agrees k') (h' : k'.Agrees k) :
    k''.Agrees k := ⟨h.toSameCore.trans h'.toSameCore, h.machine.trans h'.machine⟩

theorem agrees_record (e : Event) (k : Kernel M D F) : (k.record e).Agrees k := by
  refine ⟨sameCore_record e k, ?_⟩
  rw [record_eq]

theorem agrees_logError (k : Kernel M D F) : k.logError.Agrees k := ⟨sameCore_logError k, rfl⟩

variable [FileSystem F]

/-- A kernel that runs: it is consistent, a process is the current one, no terminal is empty, and the
shell can always be launched again. -/
structure Sound (k : Kernel M D F) (σ : TerminalId → List ProcessId) : Prop extends
    k.Consistent σ where
  fits : k.layout.Fits
  inhabited : ∀ t, σ t ≠ []
  runs : ∃ pid, k.current = some pid
  shell : ∃ prog, k.program shell = .ok prog

variable [Machine M]

/-- Interrupts go back to what they were before an operation of `k`. -/
def leave (k k' : Kernel M D F) : Kernel M D F :=
  k'.unmasked (Machine.interruptsEnabled k.machine)

omit [FileSystem F] in
theorem sameCore_leave (k k' : Kernel M D F) : (k.leave k').SameCore k' := sameCore_unmasked ..

omit [FileSystem F] in
theorem leave_record (e : Event) (k k' : Kernel M D F) :
    k.leave (k'.record e) = (k.leave k').record e := by
  simp only [leave, unmasked, record_eq]
  split <;> rfl

/-- What a request does to a kernel, up to devices, clock and logs. -/
inductive Effect [Devices D] (k : Kernel M D F) (σ : TerminalId → List ProcessId) :
    Request → Transfer → Kernel M D F → (TerminalId → List ProcessId) → Prop
  | refused {line : Bytes} {caller : SavedContext} {calls : List MachineCall}
      (hcalls : calls = [] ∨ ∃ pid, k.processes.get? pid = none ∧
        calls = k.masked.failureCalls pid line) :
      Effect k σ (.execute line caller) (.answer KernelError.sentinel)
        (k.leave (k.masked.performAll calls)) σ
  | launched {line : Bytes} {caller : SavedContext} {cur pid : ProcessId} {p : ProcessRecord}
      {prog : Program} (hc : k.current = some cur) (hp : k.processes.get? cur = some p)
      (hfree : k.processes.firstFree? = some pid) (hprog : k.program line = .ok prog) :
      Effect k σ (.execute line caller) (.enterUser pid prog.entry)
        (k.leave (k.masked.started pid p.terminal prog
          (k.masked.childTable cur pid p.terminal prog caller)))
        (Function.update σ p.terminal (pid :: σ p.terminal))
  | returned {cause : HaltCause} {pid parent : ProcessId} {p q : ProcessRecord}
      {context : SavedContext} {l : List ProcessId} (hc : k.current = some pid)
      (hp : k.processes.get? pid = some p) (hq : k.processes.get? parent = some q)
      (hs : q.state = .awaitingChild pid context) (hl : σ p.terminal = pid :: parent :: l) :
      Effect k σ (.finish cause) (.resume parent context (some cause.status))
        (k.leave (k.masked.returned pid parent p.terminal context.stack))
        (Function.update σ p.terminal (parent :: l))
  | relaunched {cause : HaltCause} {pid new : ProcessId} {p : ProcessRecord} {prog : Program}
      (hc : k.current = some pid) (hp : k.processes.get? pid = some p) (hl : σ p.terminal = [pid])
      (hfree : (k.masked.retired pid p.terminal).processes.firstFree? = some new)
      (hprog : k.program shell = .ok prog) :
      Effect k σ (.finish cause) (.enterUser new prog.entry)
        (k.leave ((k.masked.retired pid p.terminal).relaunched new p.terminal prog))
        (Function.update σ p.terminal [new])
  | turned {interrupted : SavedContext} {cur target : ProcessId} {p q : ProcessRecord}
      {stack : KernelStack} {transfer : Transfer} (hc : k.current = some cur)
      (hp : k.processes.get? cur = some p) (hq : k.processes.get? target = some q)
      (ht : q.terminal = p.terminal.next) (htop : (σ q.terminal).head? = some target)
      (hne : target ≠ cur) (hr : q.resumption target = some (stack, transfer)) :
      Effect k σ (.turn interrupted) transfer
        (k.leave ((k.masked.turned cur target interrupted stack).perform
          (.endOfInterrupt timerIrq))) σ
  | kept {entered : TerminalId} (he : k.displayed = entered) :
      Effect k σ (.display entered) .proceed (k.leave k.masked) σ
  | shown {entered : TerminalId} {cur : ProcessId} {calls : List MachineCall}
      (hc : k.current = some cur) (hne : k.displayed ≠ entered)
      (hcalls : calls = [] ∨
        calls = [.loadPageDirectory (k.spaces.directoryAddress (.process cur))]) :
      Effect k σ (.display entered) .proceed (k.leave ((k.masked.shown entered).performAll calls)) σ
  | served {cur : ProcessId} {value : Int} {m : M} {k' : Kernel M D F}
      (hc : k.current = some cur) (hm : k.Serviced m) (hk : k.Serves cur m k') :
      Effect k σ .service (.answer value) k' σ

variable {k k' : Kernel M D F} {σ : TerminalId → List ProcessId}

omit [Machine M] in
theorem Sound.of_sameCore (h : k.Sound σ) (hk : k'.SameCore k) : k'.Sound σ := by
  refine ⟨h.toConsistent.of_sameCore hk, ?_, h.inhabited, ?_, ?_⟩
  · rw [hk.layout]
    exact h.fits
  · rw [current, hk.processes]
    exact h.runs
  · rw [program_congr hk.fs hk.layout]
    exact h.shell

omit [FileSystem F] in
theorem Agrees.leave (h : k'.Agrees k) {k₀ k₁ : Kernel M D F} (h₀ : k₁.machine = k₀.machine) :
    (k₁.leave k').Agrees (k₀.leave k) := by
  obtain ⟨⟨hfs, hl, hs, hlo, hp, ht, hd⟩, hm⟩ := h
  unfold Kernel.leave unmasked
  rw [h₀]
  split
  · exact ⟨⟨hfs, hl, hs, hlo, hp, ht, hd⟩, congrArg (Machine.perform .enableInterrupts) hm⟩
  · exact ⟨⟨hfs, hl, hs, hlo, hp, ht, hd⟩, hm⟩

omit [FileSystem F] in
theorem Agrees.perform (h : k'.Agrees k) (call : MachineCall) :
    (k'.perform call).Agrees (k.perform call) := by
  obtain ⟨⟨hfs, hl, hs, hlo, hp, ht, hd⟩, hm⟩ := h
  exact ⟨⟨hfs, hl, hs, hlo, hp, ht, hd⟩, congrArg (Machine.perform call) hm⟩

theorem Agrees.relaunched (h : k'.Agrees k) (new : ProcessId) (t : TerminalId) (prog : Program) :
    (k'.relaunched new t prog).Agrees (k.relaunched new t prog) := by
  obtain ⟨⟨hfs, hl, hs, hlo, hp, ht, hd⟩, hm⟩ := h
  cases k
  cases k'
  subst hfs hl hs hlo hp ht hd hm
  exact ⟨⟨rfl, rfl, rfl, rfl, rfl, rfl, rfl⟩, rfl⟩

section

variable {pid : ProcessId} {p : ProcessRecord} {status : Int} {t : TerminalId}

omit [FileSystem F] in
theorem agrees_returned_ending (parent : ProcessId) (stack : KernelStack) :
    ((k.ending pid p status).returned pid parent t stack).Agrees
      (k.returned pid parent t stack) := by
  rw [ending, record_eq]
  refine ⟨⟨rfl, rfl, rfl, rfl, ?_, rfl, rfl⟩, rfl⟩
  simp only [returned, withFiles, modifyProcess, ProcessTable.erase_modify]

omit [FileSystem F] in
theorem agrees_retired_ending :
    ((k.ending pid p status).retired pid t).Agrees (k.retired pid t) := by
  rw [ending, record_eq]
  refine ⟨⟨rfl, rfl, rfl, rfl, ?_, rfl, rfl⟩, rfl⟩
  exact congrArg (ProcessTable.withCurrent · none) (ProcessTable.erase_modify _)

end

variable [Devices D]

def refused (t : TerminalId) (e : KernelError) (calls : List MachineCall) (k : Kernel M D F) :
    Kernel M D F :=
  (k.leave (k.masked.performAll calls)).logError.record (.launchFailed t e)

omit [FileSystem F] [Devices D] in
theorem agrees_refused (t : TerminalId) (e : KernelError) (calls : List MachineCall) :
    (k.refused t e calls).Agrees (k.leave (k.masked.performAll calls)) :=
  (agrees_record ..).trans (agrees_logError _)

omit [Devices D] in
theorem execute_of_refused {cur : ProcessId} {p : ProcessRecord} (hc : k.current = some cur)
    (hp : k.processes.get? cur = some p) {line : Bytes} {caller : SavedContext} {e : KernelError}
    {calls : List MachineCall}
    (hl : k.launch line (.process cur caller) =
      (.error e, k.leave (k.masked.performAll calls))) :
    k.execute line caller = (.answer KernelError.sentinel, k.refused p.terminal e calls) := by
  have hp' : (k.leave (k.masked.performAll calls)).logError.processes.get? cur = some p := by
    have hs := (sameCore_logError _).trans
      ((k.sameCore_leave (k.masked.performAll calls)).trans (sameCore_performAll ..))
    rw [hs.processes]
    exact hp
  simp only [execute, hc, hl, hp']
  rfl

omit [Devices D] in
theorem Sound.execute_eq (h : k.Sound σ) {cur : ProcessId} {p : ProcessRecord}
    (hc : k.current = some cur) (hp : k.processes.get? cur = some p) (line : Bytes)
    (caller : SavedContext) :
    k.execute line caller =
      if Bytes.beforeNul line = [] then
        (.answer KernelError.sentinel, k.refused p.terminal .invalidCommand [])
      else
        match k.processes.firstFree? with
        | none => (.answer KernelError.sentinel, k.refused p.terminal .registryExhausted [])
        | some pid =>
          match k.program line with
          | .error e =>
            (.answer KernelError.sentinel,
              k.refused p.terminal e (k.masked.failureCalls pid line))
          | .ok prog =>
            (.enterUser pid prog.entry,
              k.leave ((k.masked.started pid p.terminal prog
                (k.masked.childTable cur pid p.terminal prog caller)).record
                  (.processLaunched pid p.terminal (some cur)))) := by
  have hm : k.masked.Consistent σ := h.toConsistent.of_sameCore k.sameCore_masked
  have hget : k.masked.processes.get? cur = some p := hp
  have ho : k.masked.originTerminal (.process cur caller) = .ok p.terminal := by
    rw [originTerminal, ProcessTable.get, hget]
    rfl
  have hlaunch : k.launch line (.process cur caller) =
      ((k.masked.launchLocked line (.process cur caller)).1,
        k.leave (k.masked.launchLocked line (.process cur caller)).2) := rfl
  rw [launchLocked_eq hm h.fits line _ ho] at hlaunch
  by_cases hnil : Bytes.beforeNul line = []
  · rw [if_pos hnil] at hlaunch ⊢
    exact execute_of_refused hc hp hlaunch
  · rw [if_neg hnil] at hlaunch ⊢
    cases hfree : k.processes.firstFree? with
    | none =>
      have hfree' : k.masked.processes.firstFree? = none := hfree
      simp only [hfree'] at hlaunch
      exact execute_of_refused hc hp hlaunch
    | some pid =>
      have hfree' : k.masked.processes.firstFree? = some pid := hfree
      simp only [hfree'] at hlaunch
      cases hprog : k.program line with
      | error e =>
        have hprog' : k.masked.program line = .error e := hprog
        simp only [hprog'] at hlaunch
        exact execute_of_refused hc hp hlaunch
      | ok prog =>
        have hprog' : k.masked.program line = .ok prog := hprog
        simp only [hprog', start_child] at hlaunch
        simp only [execute, hc, hlaunch]

omit [Devices D] in
theorem Sound.execute_enters (h : k.Sound σ) {line : Bytes} {prog : Program}
    (hprog : k.program line = .ok prog) {child : ProcessId}
    (hfree : k.processes.firstFree? = some child) (caller : SavedContext) :
    (k.execute line caller).1 = .enterUser child prog.entry := by
  obtain ⟨cur, hc⟩ := h.runs
  obtain ⟨p, hp⟩ := h.current_live hc
  rw [h.execute_eq hc hp, if_neg (beforeNul_ne_nil hprog), hfree]
  simp only [hprog]

theorem effect_execute (h : k.Sound σ) (line : Bytes) (caller : SavedContext) :
    ∃ k' σ', k.Effect σ (.execute line caller) (k.execute line caller).1 k' σ' ∧
      (k.execute line caller).2.Agrees k' := by
  obtain ⟨cur, hc⟩ := h.runs
  obtain ⟨p, hp⟩ := h.current_live hc
  rw [h.execute_eq hc hp]
  split
  · exact ⟨_, σ, .refused (Or.inl rfl), agrees_refused ..⟩
  · split
    case h_1 => exact ⟨_, σ, .refused (Or.inl rfl), agrees_refused ..⟩
    case h_2 pid hfree =>
      split
      case h_1 =>
        have hnone := ProcessTable.get?_firstFree hfree
        exact ⟨_, σ, .refused (Or.inr ⟨pid, hnone, rfl⟩), agrees_refused ..⟩
      case h_2 prog hprog =>
        exact ⟨_, _, .launched hc hp hfree hprog, (agrees_record ..).leave rfl⟩

omit [FileSystem F] [Machine M] [Devices D] in
theorem get?_ending {pid : ProcessId} {p : ProcessRecord} (hp : k.processes.get? pid = some p)
    (status : Int) :
    (k.ending pid p status).processes.get? = Function.update k.processes.get? pid
      (some { p with files := p.files.without p.files.openDescriptors }) := by
  rw [ending, (sameCore_record ..).processes]
  exact get?_withFiles hp _

omit [Machine M] [Devices D] in
theorem Sound.ending_facts (h : k.Sound σ) {pid : ProcessId} {p : ProcessRecord}
    (hc : k.current = some pid) (hp : k.processes.get? pid = some p) (status : Int) :
    (k.ending pid p status).layout.Fits ∧ (k.ending pid p status).current = some pid ∧
      (k.ending pid p status).processes.get? pid =
        some { p with files := p.files.without p.files.openDescriptors } := by
  have hcore : (k.ending pid p status).SameCore (k.withFiles pid _) := sameCore_record ..
  refine ⟨?_, ?_, ?_⟩
  · rw [hcore.layout]
    exact h.fits
  · rw [current, hcore.processes]
    exact hc
  · rw [get?_ending hp, Function.update_self]

omit [Devices D] in
theorem Sound.halt_returned (h : k.Sound σ) {pid : ProcessId} {p : ProcessRecord}
    (hc : k.current = some pid) (hp : k.processes.get? pid = some p) {parent : ProcessId}
    (hparent : p.parent = some parent) (cause : HaltCause) :
    ∃ q context l, k.processes.get? parent = some q ∧ q.state = .awaitingChild pid context ∧
      σ p.terminal = pid :: parent :: l ∧
      k.halt cause = (.resume parent context (some cause.status),
        k.leave (((k.masked.ending pid p cause.status).returned pid parent p.terminal
          context.stack).record (.parentResumed parent cause.status))) := by
  have hm : k.masked.Sound σ := h.of_sameCore k.sameCore_masked
  have he := hm.ending hc hp cause.status
  obtain ⟨hf, hec, hep⟩ := hm.ending_facts hc hp cause.status
  obtain ⟨q, context, l, hq, hs, hl, hfin⟩ := he.finish_returned hf hec hep hparent cause.status
  have hne : parent ≠ pid := h.stacked.ne_below hl
  rw [get?_ending (k := k.masked) hp, Function.update_of_ne hne] at hq
  refine ⟨q, context, l, hq, hs, hl, ?_⟩
  rw [halt, critical_eq, hm.haltLocked_eq hc hp, hfin]
  rfl

omit [Devices D] in
theorem Sound.halt_relaunched (h : k.Sound σ) {pid : ProcessId} {p : ProcessRecord}
    (hc : k.current = some pid) (hp : k.processes.get? pid = some p) (hparent : p.parent = none)
    (cause : HaltCause) :
    ∃ new prog, k.program Kernel.shell = .ok prog ∧ σ p.terminal = [pid] ∧
      (k.masked.retired pid p.terminal).processes.firstFree? = some new ∧
      k.halt cause = (.enterUser new prog.entry,
        k.leave (((((k.masked.ending pid p cause.status).retired pid p.terminal).record
          (.shellRelaunched p.terminal)).relaunched new p.terminal prog).record
            (.processLaunched new p.terminal none))) := by
  have hm : k.masked.Sound σ := h.of_sameCore k.sameCore_masked
  have he := hm.ending hc hp cause.status
  obtain ⟨hf, hec, hep⟩ := hm.ending_facts hc hp cause.status
  obtain ⟨prog, hshell⟩ := h.shell
  have hcore : (k.masked.ending pid p cause.status).SameCore (k.masked.withFiles pid _) :=
    sameCore_record ..
  have hprog : (k.masked.ending pid p cause.status).program Kernel.shell = .ok prog := by
    rw [program_congr hcore.fs hcore.layout]
    exact hshell
  obtain ⟨new, hl, hfree, hfin⟩ := he.finish_relaunched hf hec hep hparent hprog cause.status
  have hret : ((k.masked.ending pid p cause.status).retired pid p.terminal).Agrees
      (k.masked.retired pid p.terminal) := agrees_retired_ending
  rw [ProcessTable.firstFree?, hret.processes] at hfree
  refine ⟨new, prog, hshell, hl, hfree, ?_⟩
  rw [halt, critical_eq, hm.haltLocked_eq hc hp, hfin]
  rfl

theorem effect_halt (h : k.Sound σ) (cause : HaltCause) :
    ∃ k' σ', k.Effect σ (.finish cause) (k.halt cause).1 k' σ' ∧ (k.halt cause).2.Agrees k' := by
  obtain ⟨pid, hc⟩ := h.runs
  obtain ⟨p, hp⟩ := h.current_live hc
  obtain hparent | ⟨parent, hparent⟩ := p.parent.eq_none_or_eq_some
  · obtain ⟨new, prog, hprog, hl, hfree, hhalt⟩ := h.halt_relaunched hc hp hparent cause
    rw [hhalt]
    refine ⟨_, _, .relaunched hc hp hl hfree hprog, Agrees.leave ?_ rfl⟩
    exact (agrees_record ..).trans
      (((agrees_record ..).trans agrees_retired_ending).relaunched new p.terminal prog)
  · obtain ⟨q, context, l, hq, hs, hl, hhalt⟩ := h.halt_returned hc hp hparent cause
    rw [hhalt]
    refine ⟨_, _, .returned hc hp hq hs hl, Agrees.leave ?_ rfl⟩
    exact (agrees_record ..).trans (agrees_returned_ending parent context.stack)

def ticked (k : Kernel M D F) : Kernel M D F := { k with ticks := k.ticks + 1 }

omit [Devices D] in
theorem Sound.timerTick_eq (h : k.Sound σ) {cur : ProcessId} {p : ProcessRecord}
    (hc : k.current = some cur) (hp : k.processes.get? cur = some p)
    (interrupted : SavedContext) :
    ∃ target q stack transfer, k.processes.get? target = some q ∧
      q.terminal = p.terminal.next ∧ (σ q.terminal).head? = some target ∧ target ≠ cur ∧
      q.resumption target = some (stack, transfer) ∧
      k.timerTick interrupted = (transfer,
        k.leave (((k.masked.ticked.turned cur target interrupted stack).record
          (.taskSwitched (some cur) target)).perform (.endOfInterrupt timerIrq))) := by
  let kt : Kernel M D F := k.masked.ticked
  have ht : kt.Consistent σ := h.toConsistent.of_sameCore ⟨rfl, rfl, rfl, rfl, rfl, rfl, rfl⟩
  have hnext := ht.nextProcess_eq h.inhabited hc hp
  cases hσ : σ p.terminal.next with
  | nil => exact absurd hσ (h.inhabited _)
  | cons target l =>
    have hmem : target ∈ σ p.terminal.next := by simp [hσ]
    obtain ⟨q, hq, hqt⟩ := h.stacked.mem_iff.mp hmem
    have htop : (σ q.terminal).head? = some target := by rw [hqt, hσ, List.head?_cons]
    have hne : target ≠ cur := by
      intro he
      rw [he, hp] at hq
      cases hq
      exact p.terminal.next_ne hqt.symm
    rw [hσ, List.head?_cons] at hnext
    obtain ⟨stack, transfer, hr, hs⟩ := ht.switchTo_eq interrupted hc hp hq htop hne
    have hturn : kt.takeTurn interrupted =
        (transfer,
          (kt.turned cur target interrupted stack).record (.taskSwitched (some cur) target)) := by
      simp only [takeTurn, hnext, hs]
    have htick : k.timerTick interrupted = ((kt.takeTurn interrupted).1,
        k.leave ((kt.takeTurn interrupted).2.perform (.endOfInterrupt timerIrq))) := rfl
    rw [hturn] at htick
    exact ⟨target, q, stack, transfer, hq, hqt, htop, hne, hr, htick⟩

theorem effect_timerTick (h : k.Sound σ) (interrupted : SavedContext) :
    ∃ k', k.Effect σ (.turn interrupted) (k.timerTick interrupted).1 k' σ ∧
      (k.timerTick interrupted).2.Agrees k' := by
  obtain ⟨cur, hc⟩ := h.runs
  obtain ⟨p, hp⟩ := h.current_live hc
  obtain ⟨target, q, stack, transfer, hq, ht, htop, hne, hr, htick⟩ :=
    h.timerTick_eq hc hp interrupted
  rw [htick]
  refine ⟨_, .turned hc hp hq ht htop hne hr, Agrees.leave (Agrees.perform ?_ _) rfl⟩
  exact (agrees_record ..).trans ⟨⟨rfl, rfl, rfl, rfl, rfl, rfl, rfl⟩, rfl⟩

theorem switchTerminal_kept {entered : TerminalId} (he : k.displayed = entered)
    (interrupted : Option SavedContext) :
    k.switchTerminal entered interrupted = (.proceed, k.leave k.masked) := by
  have hd : k.masked.displayed = entered := he
  rw [switchTerminal, critical_eq]
  simp only [switchTerminalLocked, hd, if_pos]
  rfl

theorem Sound.switchTerminal_eq (h : k.Sound σ) {cur : ProcessId} (hc : k.current = some cur)
    {entered : TerminalId} (he : k.displayed ≠ entered) (interrupted : Option SavedContext) :
    ∃ calls, (calls = [] ∨
        calls = [MachineCall.loadPageDirectory (k.spaces.directoryAddress (.process cur))]) ∧
      k.switchTerminal entered interrupted =
        (.proceed, k.leave (((k.masked.shown entered).performAll calls).record
          (.terminalSwitched k.displayed entered))) := by
  have hm : k.masked.Consistent σ := h.toConsistent.of_sameCore k.sameCore_masked
  obtain ⟨calls, hcalls, hs⟩ := hm.switchTerminalLocked_eq h.fits h.inhabited hc he interrupted
  refine ⟨calls, hcalls, ?_⟩
  rw [switchTerminal, critical_eq, hs]
  rfl

theorem effect_switchTerminal (h : k.Sound σ) (entered : TerminalId)
    (interrupted : Option SavedContext) :
    ∃ k', k.Effect σ (.display entered) (k.switchTerminal entered interrupted).1 k' σ ∧
      (k.switchTerminal entered interrupted).2.Agrees k' := by
  obtain ⟨cur, hc⟩ := h.runs
  by_cases he : k.displayed = entered
  · rw [switchTerminal_kept he]
    exact ⟨_, .kept he, .refl _⟩
  · obtain ⟨calls, hcalls, hs⟩ := h.switchTerminal_eq hc he interrupted
    rw [hs]
    exact ⟨_, .shown hc he hcalls, (agrees_record ..).leave rfl⟩

/-- The end of a process does not depend on devices, clock and logs. -/
theorem Effect.finish_of_agrees {k₁ : Kernel M D F} {cause : HaltCause} {transfer : Transfer}
    {σ' : TerminalId → List ProcessId} (hk : k₁.Agrees k)
    (he : k₁.Effect σ (.finish cause) transfer k' σ') :
    ∃ k'', k.Effect σ (.finish cause) transfer k'' σ' ∧ k'.Agrees k'' := by
  obtain ⟨⟨hfs, hl, hs, hlo, hp, ht, hd⟩, hm⟩ := hk
  cases k
  cases k₁
  subst hfs hl hs hlo hp ht hd hm
  cases he with
  | returned hc hp hq hs hl =>
    refine ⟨_, .returned hc hp hq hs hl, Agrees.leave ?_ rfl⟩
    exact ⟨⟨rfl, rfl, rfl, rfl, rfl, rfl, rfl⟩, rfl⟩
  | relaunched hc hp hl hfree hprog =>
    refine ⟨_, .relaunched hc hp hl hfree hprog, Agrees.leave ?_ rfl⟩
    exact ⟨⟨rfl, rfl, rfl, rfl, rfl, rfl, rfl⟩, rfl⟩

omit [Devices D] in
theorem exception_eq {pid : ProcessId} (hc : k.current = some pid)
    (vector : UInt8) :
    k.exception vector =
      (k.logError.record (.exceptionRaised pid vector)).halt (.exception vector) := by
  have hc' : k.logError.current = some pid := hc
  simp only [exception, hc']

theorem effect_exception (h : k.Sound σ) (vector : UInt8) :
    ∃ k' σ', k.Effect σ (.finish (.exception vector)) (k.exception vector).1 k' σ' ∧
      (k.exception vector).2.Agrees k' := by
  obtain ⟨pid, hc⟩ := h.runs
  let k₁ := k.logError.record (.exceptionRaised pid vector)
  have hk : k₁.Agrees k := (agrees_record ..).trans (agrees_logError k)
  obtain ⟨k', σ', he, ha⟩ := effect_halt (h.of_sameCore hk.toSameCore) (.exception vector)
  obtain ⟨k'', he', ha'⟩ := he.finish_of_agrees hk
  rw [exception_eq hc]
  exact ⟨k'', σ', he', ha.trans ha'⟩

theorem effect_syscall (h : k.Sound σ) (call : SystemCall) (caller : SavedContext) :
    ∃ k' σ', k.Effect σ (call.request caller) (k.syscall call caller).1.transfer k' σ' ∧
      (k.syscall call caller).2.Agrees k' := by
  obtain ⟨pid, hc⟩ := h.runs
  obtain ⟨p, hp⟩ := h.current_live hc
  have hservice (hcall : call.IsService) (hreq : call.request caller = .service) :
      ∃ k' σ', k.Effect σ (call.request caller) (k.syscall call caller).1.transfer k' σ' ∧
        (k.syscall call caller).2.Agrees k' := by
    obtain ⟨value, m, ht, hm, hs⟩ :=
      syscall_serves hc hp (h.launched pid p hp).files hcall caller
    rw [hreq, ht]
    exact ⟨_, σ, .served hc hm hs, .refl _⟩
  cases call with
  | halt code => exact effect_halt h (.exit code)
  | execute line => exact effect_execute h line caller
  | read | write | «open» | close | getArguments | videoMap | setHandler | signalReturn =>
    exact hservice trivial rfl

theorem operate_syscallRaw (number argument : UInt32) (bytes : Bytes) (caller : SavedContext)
    (k : Kernel M D F) :
    (∃ call, (Operation.syscallRaw number argument bytes caller).request = call.request caller ∧
      k.operate (.syscallRaw number argument bytes caller) = k.syscall call caller) ∨
    (Operation.syscallRaw number argument bytes caller).request = .service ∧
      k.operate (.syscallRaw number argument bytes caller) =
        ({ transfer := .answer KernelError.sentinel }, k) := by
  cases hd : SystemCall.decode? number argument bytes with
  | none => exact Or.inr (by simp only [Operation.request, operate, syscallRaw, hd, and_self])
  | some call =>
    exact Or.inl ⟨call, by simp only [Operation.request, hd], by simp only [operate, syscallRaw, hd]⟩

/-- Every operation has one of the effects. -/
theorem operate_effect (h : k.Sound σ) (op : Operation) :
    ∃ k' σ', k.Effect σ op.request (k.operate op).1.transfer k' σ' ∧
      (k.operate op).2.Agrees k' := by
  cases op with
  | execute line caller => exact effect_execute h line caller
  | halt cause => exact effect_halt h cause
  | exception vector => exact effect_exception h vector
  | timerTick interrupted =>
    obtain ⟨k', he, ha⟩ := effect_timerTick h interrupted
    exact ⟨k', σ, he, ha⟩
  | switchTerminal entered interrupted =>
    obtain ⟨k', he, ha⟩ := effect_switchTerminal h entered interrupted
    exact ⟨k', σ, he, ha⟩
  | syscall call caller => exact effect_syscall h call caller
  | syscallRaw number argument bytes caller =>
    obtain ⟨call, hreq, hr⟩ | ⟨hreq, hr⟩ := operate_syscallRaw number argument bytes caller k
    · rw [hreq, hr]
      exact effect_syscall h call caller
    · obtain ⟨pid, hc⟩ := h.runs
      obtain ⟨p, hp⟩ := h.current_live hc
      rw [hreq, hr]
      refine ⟨k, σ, .served hc (Or.inl rfl) ?_, .refl k⟩
      exact .refl hp (h.launched pid p hp).files k.devices

end Kernel

end TerminalKernel
