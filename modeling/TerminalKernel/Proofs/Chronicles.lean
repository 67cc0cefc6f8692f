import TerminalKernel.Proofs.Bootable

namespace TerminalKernel

def Transfer.isRefusal (t : Transfer) : Bool := t = .answer KernelError.sentinel

def Request.isRefused : Request → Transfer → Bool
  | .execute _ _, t => t.isRefusal
  | _, _ => false

namespace Operation

def isTick : Operation → Bool
  | .timerTick _ => true
  | _ => false

def isException : Operation → Bool
  | .exception _ => true
  | _ => false

/-- The operation executes a program, itself or by a system call, and is answered with -1. -/
def isRefused (op : Operation) (reply : Reply) : Bool := op.request.isRefused reply.transfer

def errors (op : Operation) (reply : Reply) : Nat :=
  (op.isRefused reply).toNat + op.isException.toNat

end Operation

def Event.Expected (refused : Bool) : Event → Prop
  | .teardownFailed _ => False
  | .launchFailed _ _ => refused = true
  | _ => True

namespace Kernel

variable {M D F : Type} {k k' k'' : Kernel M D F} {ticks ticks' : UInt64} {errors errors' : Nat}
  {refused : Bool}

/-- The clock and the logs go on, without an event for a failure other than that of a launch. -/
structure Orderly (k' k : Kernel M D F) (ticks : UInt64) (errors : Nat) (refused : Bool) :
    Prop where
  ticks : k'.ticks = k.ticks + ticks
  errors : k'.log.errors = k.log.errors + UInt64.ofNat errors
  events : ∃ es : List Event, k'.events = k.events ++ es.toArray ∧ ∀ e ∈ es, e.Expected refused

theorem Orderly.of_eq (ht : k'.ticks = k.ticks) (hl : k'.log = k.log) (he : k'.events = k.events) :
    k'.Orderly k 0 0 refused :=
  ⟨by simp [ht], by rw [hl]; exact (UInt64.add_zero _).symm, [], by simp [he], by simp⟩

theorem Orderly.trans (h' : k''.Orderly k' ticks' errors' refused)
    (h : k'.Orderly k ticks errors refused) :
    k''.Orderly k (ticks + ticks') (errors + errors') refused := by
  obtain ⟨es, hes, hall⟩ := h.events
  obtain ⟨es', hes', hall'⟩ := h'.events
  refine ⟨?_, ?_, es ++ es', ?_, ?_⟩
  · rw [h'.ticks, h.ticks, UInt64.add_assoc]
  · rw [h'.errors, h.errors, UInt64.ofNat_add, UInt64.add_assoc]
  · rw [hes', hes]
    simp
  · exact List.forall_mem_append.mpr ⟨hall, hall'⟩

theorem Orderly.then (h : k'.Orderly k ticks errors refused) (ht : k''.ticks = k'.ticks)
    (hl : k''.log = k'.log) (he : k''.events = k'.events) :
    k''.Orderly k ticks errors refused :=
  ⟨ht.trans h.ticks, (congrArg Log.errors hl).trans h.errors, by rw [he]; exact h.events⟩

theorem Orderly.record (h : k'.Orderly k ticks errors refused) (e : Event)
    (he : e.Expected refused) : (k'.record e).Orderly k ticks errors refused := by
  obtain ⟨es, hes, hall⟩ := h.events
  unfold Kernel.record
  split
  · refine ⟨h.ticks, h.errors, es ++ [e], ?_, ?_⟩
    · simp [hes]
    · rw [List.forall_mem_append, List.forall_mem_singleton]
      exact ⟨hall, he⟩
  · exact h

theorem Orderly.logError (h : k'.Orderly k ticks errors refused) :
    k'.logError.Orderly k ticks (errors + 1) refused := by
  refine ⟨h.ticks, ?_, h.events⟩
  rw [UInt64.ofNat_add, ← UInt64.add_assoc, ← h.errors]
  rfl

variable [Machine M]

theorem Orderly.leave (h : k'.Orderly k ticks errors refused) (k₀ : Kernel M D F) :
    (k₀.leave k').Orderly k ticks errors refused := by
  unfold Kernel.leave unmasked
  split
  · exact h.then rfl rfl rfl
  · exact h

variable [FileSystem F] {σ : TerminalId → List ProcessId}

omit [FileSystem F] in
theorem orderly_refused (t : TerminalId) (e : KernelError) (calls : List MachineCall) :
    (k.refused t e calls).Orderly k 0 1 true := by
  have h : (k.masked.performAll calls).Orderly k 0 0 true := .of_eq rfl rfl rfl
  exact (h.leave k).logError.record (.launchFailed t e) rfl

theorem Sound.orderly_execute (h : k.Sound σ) (line : Bytes) (caller : SavedContext) :
    (k.execute line caller).1 ≠ .idle ∧
      (k.execute line caller).2.Orderly k 0 (k.execute line caller).1.isRefusal.toNat
        (k.execute line caller).1.isRefusal := by
  obtain ⟨cur, hc⟩ := h.runs
  obtain ⟨p, hp⟩ := h.current_live hc
  rw [h.execute_eq hc hp]
  split
  · exact ⟨nofun, orderly_refused ..⟩
  · split
    case h_1 => exact ⟨nofun, orderly_refused ..⟩
    case h_2 pid hfree =>
      split
      case h_1 => exact ⟨nofun, orderly_refused ..⟩
      case h_2 prog hprog =>
        have hs : (k.masked.started pid p.terminal prog
            (k.masked.childTable cur pid p.terminal prog caller)).Orderly k 0 0 false :=
          .of_eq rfl rfl rfl
        exact ⟨nofun, (hs.record (.processLaunched ..) trivial).leave k⟩

theorem Sound.orderly_halt (h : k.Sound σ) (cause : HaltCause) :
    (k.halt cause).1 ≠ .idle ∧ (k.halt cause).2.Orderly k 0 0 false := by
  obtain ⟨pid, hc⟩ := h.runs
  obtain ⟨p, hp⟩ := h.current_live hc
  have hw (files : FileTable) : (k.masked.withFiles pid files).Orderly k 0 0 false :=
    .of_eq rfl rfl rfl
  have he : (k.masked.ending pid p cause.status).Orderly k 0 0 false :=
    (hw _).record (.processHalted ..) trivial
  obtain hparent | ⟨parent, hparent⟩ := p.parent.eq_none_or_eq_some
  · obtain ⟨new, prog, -, -, -, hhalt⟩ := h.halt_relaunched hc hp hparent cause
    rw [hhalt]
    have hr : (k.masked.ending pid p cause.status).retired pid p.terminal |>.Orderly k 0 0 false :=
      he.then rfl rfl rfl
    have hs : Orderly (relaunched new p.terminal prog _) k 0 0 false :=
      (hr.record (.shellRelaunched p.terminal) trivial).then rfl rfl rfl
    exact ⟨nofun, (hs.record (.processLaunched ..) trivial).leave k⟩
  · obtain ⟨q, context, l, -, -, -, hhalt⟩ := h.halt_returned hc hp hparent cause
    rw [hhalt]
    have hr : Orderly (returned pid parent p.terminal context.stack _) k 0 0 false :=
      he.then rfl rfl rfl
    exact ⟨nofun, (hr.record (.parentResumed ..) trivial).leave k⟩

theorem Sound.orderly_exception (h : k.Sound σ) (vector : UInt8) :
    (k.exception vector).1 ≠ .idle ∧ (k.exception vector).2.Orderly k 0 1 false := by
  obtain ⟨pid, hc⟩ := h.runs
  have h₀ : k.Orderly k 0 0 false := .of_eq rfl rfl rfl
  have h₁ := h₀.logError.record (.exceptionRaised pid vector) trivial
  have hs : (k.logError.record (.exceptionRaised pid vector)).Sound σ :=
    h.of_sameCore ((sameCore_record ..).trans (sameCore_logError k))
  obtain ⟨hrun, hhalt⟩ := hs.orderly_halt (.exception vector)
  rw [exception_eq hc]
  exact ⟨hrun, hhalt.trans h₁⟩

omit [Machine M] [FileSystem F] in
theorem resumption_ne_idle {q : ProcessRecord} {pid : ProcessId} {stack : KernelStack}
    {transfer : Transfer} (h : q.resumption pid = some (stack, transfer)) : transfer ≠ .idle := by
  unfold ProcessRecord.resumption at h
  split at h
  · cases h
    exact nofun
  · cases h
    exact nofun
  · cases h

theorem Sound.orderly_timerTick (h : k.Sound σ) (interrupted : SavedContext) :
    (k.timerTick interrupted).1 ≠ .idle ∧
      (k.timerTick interrupted).2.Orderly k 1 0 false := by
  obtain ⟨cur, hc⟩ := h.runs
  obtain ⟨p, hp⟩ := h.current_live hc
  obtain ⟨target, q, stack, transfer, -, -, -, -, hr, htick⟩ := h.timerTick_eq hc hp interrupted
  rw [htick]
  have ht : k.masked.ticked.Orderly k 1 0 false :=
    ⟨rfl, (UInt64.add_zero _).symm, [], by simp [masked, ticked, perform], by simp⟩
  have hturned : (k.masked.ticked.turned cur target interrupted stack).Orderly k 1 0 false :=
    ht.then rfl rfl rfl
  have hrec := hturned.record (.taskSwitched (some cur) target) trivial
  have heoi : (((k.masked.ticked.turned cur target interrupted stack).record
      (.taskSwitched (some cur) target)).perform (.endOfInterrupt timerIrq)).Orderly k 1 0 false :=
    hrec.then rfl rfl rfl
  exact ⟨resumption_ne_idle hr, heoi.leave k⟩

variable [Devices D]

theorem Sound.orderly_switchTerminal (h : k.Sound σ) (entered : TerminalId)
    (interrupted : Option SavedContext) :
    (k.switchTerminal entered interrupted).1 ≠ .idle ∧
      (k.switchTerminal entered interrupted).2.Orderly k 0 0 false := by
  obtain ⟨cur, hc⟩ := h.runs
  by_cases he : k.displayed = entered
  · rw [switchTerminal_kept he]
    have hm : k.masked.Orderly k 0 0 false := .of_eq rfl rfl rfl
    exact ⟨nofun, hm.leave k⟩
  · obtain ⟨calls, -, hs⟩ := h.switchTerminal_eq hc he interrupted
    rw [hs]
    have hshown : ((k.masked.shown entered).performAll calls).Orderly k 0 0 false :=
      .of_eq rfl rfl rfl
    exact ⟨nofun, (hshown.record (.terminalSwitched ..) trivial).leave k⟩

theorem Sound.orderly_syscall (h : k.Sound σ) (call : SystemCall) (caller : SavedContext) :
    (k.syscall call caller).1.transfer ≠ .idle ∧
      (k.syscall call caller).2.Orderly k 0
        ((call.request caller).isRefused (k.syscall call caller).1.transfer).toNat
        ((call.request caller).isRefused (k.syscall call caller).1.transfer) := by
  obtain ⟨pid, hc⟩ := h.runs
  obtain ⟨p, hp⟩ := h.current_live hc
  have hservice (hcall : call.IsService) :
      (k.syscall call caller).1.transfer ≠ .idle ∧
        (k.syscall call caller).2.Orderly k 0 0 false := by
    obtain ⟨value, m, ht, -, files, d, -, hs⟩ :=
      syscall_serves hc hp (h.launched pid p hp).files hcall caller
    rw [ht, hs]
    exact ⟨nofun, .of_eq rfl rfl rfl⟩
  cases call with
  | halt code => exact h.orderly_halt (.exit code)
  | execute line => exact h.orderly_execute line caller
  | read | write | «open» | close | getArguments | videoMap | setHandler | signalReturn =>
    exact hservice trivial

theorem Sound.orderly_operate (h : k.Sound σ) (op : Operation) :
    (k.operate op).1.transfer ≠ .idle ∧
      (k.operate op).2.Orderly k (if op.isTick then 1 else 0) (op.errors (k.operate op).1)
        (op.isRefused (k.operate op).1) := by
  cases op with
  | execute line caller => exact h.orderly_execute line caller
  | halt cause => exact h.orderly_halt cause
  | exception vector => exact h.orderly_exception vector
  | timerTick interrupted => exact h.orderly_timerTick interrupted
  | switchTerminal entered interrupted => exact h.orderly_switchTerminal entered interrupted
  | syscall call caller => exact h.orderly_syscall call caller
  | syscallRaw number argument bytes caller =>
    rw [Operation.errors, Operation.isRefused]
    obtain ⟨call, hreq, hr⟩ | ⟨hreq, hr⟩ := operate_syscallRaw number argument bytes caller k
    · rw [hreq, hr]
      exact h.orderly_syscall call caller
    · rw [hreq, hr]
      exact ⟨nofun, .of_eq rfl rfl rfl⟩

theorem Sound.errors_run (h : k.Sound σ) (ops : List Operation) :
    (k.run ops).2.log.errors = k.log.errors + UInt64.ofNat (ops.countP Operation.isException +
      (ops.zip (k.run ops).1).countP fun x => x.1.isRefused x.2) := by
  induction ops generalizing k σ with
  | nil => exact (UInt64.add_zero _).symm
  | cons op ops ih =>
    obtain ⟨σ', h'⟩ := h.operate op
    have hzip : (op :: ops).zip (k.run (op :: ops)).1 =
        (op, (k.operate op).1) :: ops.zip ((k.operate op).2.run ops).1 := rfl
    have hcount : (op :: ops).countP Operation.isException +
        ((op :: ops).zip (k.run (op :: ops)).1).countP (fun x => x.1.isRefused x.2) =
        op.errors (k.operate op).1 + (ops.countP Operation.isException +
          (ops.zip ((k.operate op).2.run ops).1).countP fun x => x.1.isRefused x.2) := by
      rw [hzip, List.countP_cons, List.countP_cons, Operation.errors]
      cases op.isException <;> cases op.isRefused (k.operate op).1 <;> simp <;> omega
    rw [hcount, UInt64.ofNat_add, ← UInt64.add_assoc, ← (h.orderly_operate op).2.errors]
    exact ih h'

/-- An operation of a kernel in which nothing fails that cannot fail: something runs afterwards, and
only a launch that is answered with -1, and an exception, log an error or a failure. -/
structure Undisturbed (k : Kernel M D F) (op : Operation) : Prop where
  runs : (k.operate op).1.transfer ≠ .idle
  errors : (k.operate op).2.log.errors =
    k.log.errors + UInt64.ofNat (op.errors (k.operate op).1)
  events : ∃ es : List Event, (k.operate op).2.events = k.events ++ es.toArray ∧
    (∀ e, .teardownFailed e ∉ es) ∧
    ∀ t e, .launchFailed t e ∈ es → op.isRefused (k.operate op).1 = true

theorem Sound.undisturbed (h : k.Sound σ) (op : Operation) : k.Undisturbed op := by
  obtain ⟨hrun, ho⟩ := h.orderly_operate op
  obtain ⟨es, hes, hall⟩ := ho.events
  exact ⟨hrun, ho.errors, es, hes, fun e he => hall _ he, fun t e he => hall _ he⟩

/-- No branch for a failure is taken after a boot, other than that of a launch: the errors that are
counted are the launches answered with -1 and the exceptions. -/
theorem undisturbed_run {machine : M} {devices : D} {fs : F} {layout : Layout}
    {timer : TimerConfig} {first : Transfer}
    (hb : (fresh machine devices fs layout timer).boot = (.ok first, k)) (ops : List Operation) :
    (k.run ops).2.log.errors = k.log.errors + UInt64.ofNat (ops.countP Operation.isException +
        (ops.zip (k.run ops).1).countP fun x => x.1.isRefused x.2) ∧
      ∀ op, (k.run ops).2.Undisturbed op := by
  obtain ⟨σ, h⟩ := sound_boot (unbooted_fresh machine devices fs layout timer) hb
  refine ⟨h.errors_run ops, ?_⟩
  intro op
  obtain ⟨σ', h'⟩ := h.run ops
  exact h'.undisturbed op

theorem undisturbed_run_shellFiles :
    ∃ first k, (Sample.kernel Sample.shellFiles).boot = (.ok first, k) ∧
      ∀ ops, (k.run ops).2.log.errors =
          k.log.errors + UInt64.ofNat (ops.countP Operation.isException +
            (ops.zip (k.run ops).1).countP fun x => x.1.isRefused x.2) ∧
        ∀ op, (k.run ops).2.Undisturbed op := by
  obtain ⟨first, k, hb⟩ := Sample.boot_shellFiles
  exact ⟨first, k, hb, undisturbed_run hb⟩

end Kernel

end TerminalKernel
