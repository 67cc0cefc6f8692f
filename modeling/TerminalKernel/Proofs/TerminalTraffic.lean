import TerminalKernel.Proofs.TerminalCalls

namespace TerminalKernel

open DeviceRecorder (Carries)

def Operation.traffic (reply : Reply) (op : Operation) : Traffic :=
  match op.call? with
  | some call => call.traffic reply
  | none => {}

theorem Operation.traffic_eq_empty {op : Operation} (h : op.request ≠ .service) (reply : Reply) :
    op.traffic reply = {} := by
  have hcall {call : SystemCall} {caller : SavedContext} (h : call.request caller ≠ .service) :
      call.traffic reply = {} := by
    cases call with
    | halt | execute => rfl
    | read | write | «open» | close | getArguments | videoMap | setHandler | signalReturn =>
      exact absurd rfl h
  cases op with
  | execute | halt | exception | timerTick | switchTerminal => rfl
  | syscall call caller => exact hcall h
  | syscallRaw number argument bytes caller =>
    simp only [traffic, call?]
    cases hd : SystemCall.decode? number argument bytes with
    | none => rfl
    | some call =>
      rw [request, hd] at h
      exact hcall h

inductive Happening where
  | operation (op : Operation)
  | input (t : TerminalId) (bytes : Bytes)

/-- No read from standard input has room for more than a program window. -/
def Happening.Fits : Happening → Prop
  | .operation op =>
    ∀ buffer, op.call? = some (.read 0 buffer) → buffer.length ≤ largePageSize.toNat
  | .input .. => True

namespace Kernel

section

variable {M D F : Type} [Machine M] {k k' : Kernel M D F}

omit [Machine M] in
theorem devices_record (e : Event) (k : Kernel M D F) : (k.record e).devices = k.devices := by
  rw [record_eq]

theorem devices_leave (k k' : Kernel M D F) : (k.leave k').devices = k'.devices := by
  unfold leave unmasked
  split <;> rfl

variable [FileSystem F] {σ : TerminalId → List ProcessId}

theorem Sound.devices_execute (h : k.Sound σ) (line : Bytes) (caller : SavedContext) :
    (k.execute line caller).2.devices = k.devices := by
  obtain ⟨cur, hc⟩ := h.runs
  obtain ⟨p, hp⟩ := h.current_live hc
  have hrefused (e : KernelError) (calls : List MachineCall) :
      (k.refused p.terminal e calls).devices = k.devices := by
    rw [refused, devices_record]
    exact devices_leave ..
  rw [h.execute_eq hc hp]
  split
  · exact hrefused ..
  · split
    · exact hrefused ..
    · split
      · exact hrefused ..
      · rw [devices_leave, devices_record]
        rfl

theorem Sound.devices_halt (h : k.Sound σ) (cause : HaltCause) :
    (k.halt cause).2.devices = k.devices := by
  obtain ⟨pid, hc⟩ := h.runs
  obtain ⟨p, hp⟩ := h.current_live hc
  have hending : (k.masked.ending pid p cause.status).devices = k.devices := devices_record ..
  obtain hparent | ⟨parent, hparent⟩ := p.parent.eq_none_or_eq_some
  · obtain ⟨new, prog, -, -, -, hhalt⟩ := h.halt_relaunched hc hp hparent cause
    rw [hhalt, devices_leave, devices_record]
    exact (devices_record ..).trans hending
  · obtain ⟨q, context, l, -, -, -, hhalt⟩ := h.halt_returned hc hp hparent cause
    rw [hhalt, devices_leave, devices_record]
    exact hending

theorem Sound.devices_exception (h : k.Sound σ) (vector : UInt8) :
    (k.exception vector).2.devices = k.devices := by
  obtain ⟨pid, hc⟩ := h.runs
  have hs : (k.logError.record (.exceptionRaised pid vector)).Sound σ :=
    h.of_sameCore ((sameCore_record ..).trans (sameCore_logError k))
  rw [exception_eq hc, hs.devices_halt]
  exact devices_record ..

theorem Sound.devices_timerTick (h : k.Sound σ) (interrupted : SavedContext) :
    (k.timerTick interrupted).2.devices = k.devices := by
  obtain ⟨cur, hc⟩ := h.runs
  obtain ⟨p, hp⟩ := h.current_live hc
  obtain ⟨target, q, stack, transfer, -, -, -, -, -, htick⟩ := h.timerTick_eq hc hp interrupted
  rw [htick, devices_leave]
  exact devices_record ..

theorem devices_boot (hu : k.Unbooted) {first : Transfer}
    (hb : k.boot = (.ok first, k')) : k'.devices = k.devices := by
  refine (boot_induct (P := fun k₁ => k₁.devices = k.devices) ?_ hu ?_ hb).1
  · rintro k₀ k₁ _ σ t pid prog - - - - ho rfl hd
    rw [devices_record]
    cases ho with
    | first | beside =>
      rw [devices_leave]
      exact hd
  · intro program
    obtain ⟨m, hm⟩ := k.startMachine_eq program
    rw [hm]

variable [Devices D]

theorem Sound.devices_switchTerminal (h : k.Sound σ) (entered : TerminalId)
    (interrupted : Option SavedContext) :
    (k.switchTerminal entered interrupted).2.devices = k.devices ∨
      (k.switchTerminal entered interrupted).2.devices =
        Devices.showTerminal k.displayed entered k.devices := by
  obtain ⟨cur, hc⟩ := h.runs
  by_cases he : k.displayed = entered
  · rw [switchTerminal_kept he]
    exact Or.inl (devices_leave ..)
  · obtain ⟨calls, -, hs⟩ := h.switchTerminal_eq hc he interrupted
    rw [hs, devices_leave, devices_record]
    exact Or.inr rfl

theorem Sound.devices_syscall (h : k.Sound σ) {call : SystemCall} {caller : SavedContext}
    (hcall : call.request caller ≠ .service) : (k.syscall call caller).2.devices = k.devices := by
  cases call with
  | halt code => exact h.devices_halt _
  | execute line => exact h.devices_execute line caller
  | read | write | «open» | close | getArguments | videoMap | setHandler | signalReturn =>
    exact absurd rfl hcall

end

variable {M F : Type} [Machine M] [FileSystem F] {k : Kernel M DeviceRecorder F}
  {σ : TerminalId → List ProcessId} {cur : ProcessId} {p : ProcessRecord} {t : TerminalId}

/-- Nothing but a service changes more of the devices than what is on screen. -/
theorem Sound.unshown_operate (h : k.Sound σ) {op : Operation} (hop : op.request ≠ .service) :
    (k.operate op).2.devices.unshown = k.devices.unshown := by
  cases op with
  | execute line caller => exact congrArg _ (h.devices_execute line caller)
  | halt cause => exact congrArg _ (h.devices_halt cause)
  | exception vector => exact congrArg _ (h.devices_exception vector)
  | timerTick interrupted => exact congrArg _ (h.devices_timerTick interrupted)
  | switchTerminal entered interrupted =>
    obtain hd | hd := h.devices_switchTerminal entered interrupted
    · exact congrArg _ hd
    · exact (congrArg DeviceRecorder.unshown hd).trans rfl
  | syscall call caller => exact congrArg _ (h.devices_syscall hop)
  | syscallRaw number argument bytes caller =>
    obtain ⟨call, hreq, hr⟩ | ⟨-, hr⟩ := operate_syscallRaw number argument bytes caller k
    · rw [hreq] at hop
      rw [hr]
      exact congrArg _ (h.devices_syscall hop)
    · rw [hr]

def terminal? (k : Kernel M DeviceRecorder F) : Option TerminalId :=
  (k.current.bind k.processes.get?).map ProcessRecord.terminal

def traffic (t : TerminalId) (h : Happening) (k : Kernel M DeviceRecorder F) : Traffic :=
  match h with
  | .operation op => if k.terminal? = some t then op.traffic (k.operate op).1 else {}
  | .input u bytes => if u = t then { arrived := bytes } else {}

def proceed (h : Happening) (k : Kernel M DeviceRecorder F) : Kernel M DeviceRecorder F :=
  match h with
  | .operation op => (k.operate op).2
  | .input t bytes => { k with devices := k.devices.pushInput t bytes }

def proceedAll (hs : List Happening) (k : Kernel M DeviceRecorder F) : Kernel M DeviceRecorder F :=
  hs.foldl (fun k h => k.proceed h) k

def trafficAll (t : TerminalId) : List Happening → Kernel M DeviceRecorder F → Traffic
  | [], _ => {}
  | h :: hs, k => k.traffic t h ++ trafficAll t hs (k.proceed h)

omit [Machine M] [FileSystem F] in
theorem terminal?_eq (hc : k.current = some cur) (hp : k.processes.get? cur = some p) :
    k.terminal? = some p.terminal := by
  rw [terminal?, hc, Option.bind_some, hp, Option.map_some]

theorem traffic_operation (hc : k.current = some cur) (hp : k.processes.get? cur = some p)
    (op : Operation) (t : TerminalId) :
    k.traffic t (.operation op) =
      if p.terminal = t then op.traffic (k.operate op).1 else {} := by
  simp only [traffic, terminal?_eq hc hp, Option.some.injEq]

theorem traffic_of_ne_service {op : Operation} (hop : op.request ≠ .service) (t : TerminalId) :
    k.traffic t (.operation op) = {} := by
  rw [traffic, Operation.traffic_eq_empty hop, ite_self]

/-- An operation leaves every process its standard streams, and passes over the terminals the
traffic of its call. -/
theorem Sound.traffic_operate (h : k.Sound σ) (hs : k.Streamed) {op : Operation}
    (hfits : (Happening.operation op).Fits) :
    (k.operate op).2.Streamed ∧
      ∀ t, Carries t k.devices (k.traffic t (.operation op)) (k.operate op).2.devices := by
  obtain ⟨cur, hc⟩ := h.runs
  obtain ⟨p, hp⟩ := h.current_live hc
  by_cases hop : op.request = .service
  case neg =>
    obtain ⟨k', σ', he, ha⟩ := operate_effect h op
    refine ⟨?_, ?_⟩
    · rw [Streamed, ha.processes]
      exact hs.effect h he hop
    · intro t
      have hunshown := h.unshown_operate hop
      rw [traffic_of_ne_service hop]
      exact .of_eq (DeviceRecorder.input_of_unshown hunshown)
        (DeviceRecorder.output_of_unshown hunshown)
  case pos =>
    cases hcall : op.call? with
    | none =>
      rw [operate_uncalled hcall hop]
      refine ⟨hs, ?_⟩
      intro t
      rw [traffic_operation hc hp, Operation.traffic, hcall, ite_self]
      exact .of_eq rfl rfl
    | some call =>
      obtain ⟨caller, hreq, hk⟩ := operate_call hcall k
      have hmoves (t : TerminalId) := moves_syscall (t := t) hc hp (hs cur p hp)
        (isService_of_request (hreq.symm.trans hop))
        (fun buffer hread => hfits buffer (hread ▸ hcall)) caller
      rw [← hk] at hmoves
      refine ⟨?_, ?_⟩
      · obtain ⟨files, d, m, hserved, hf, -⟩ := hmoves .first
        have hget : (k.operate op).2.processes.get? =
            Function.update k.processes.get? cur (some { p with files }) := by
          rw [hserved]
          exact get?_withFiles hp files
        rw [Streamed, hget]
        refine Records.All.update hs ?_
        rintro _ ⟨⟩
        exact hf
      · intro t
        obtain ⟨files, d, m, hserved, -, hd⟩ := hmoves t
        rw [traffic_operation hc hp, Operation.traffic, hcall, hserved]
        exact hd

theorem Sound.traffic_proceed (h : k.Sound σ) (hs : k.Streamed) {x : Happening} (hfits : x.Fits) :
    ∃ σ', (k.proceed x).Sound σ' ∧ (k.proceed x).Streamed ∧
      ∀ t, Carries t k.devices (k.traffic t x) (k.proceed x).devices := by
  cases x with
  | operation op =>
    obtain ⟨σ', h'⟩ := h.operate op
    exact ⟨σ', h', h.traffic_operate hs hfits⟩
  | input u bytes =>
    refine ⟨σ, h.of_sameCore ⟨rfl, rfl, rfl, rfl, rfl, rfl, rfl⟩, hs, ?_⟩
    intro t
    exact DeviceRecorder.carries_pushInput ..

theorem Sound.traffic_proceedAll (h : k.Sound σ) (hs : k.Streamed) {xs : List Happening}
    (hfits : ∀ x ∈ xs, x.Fits) (t : TerminalId) :
    Carries t k.devices (k.trafficAll t xs) (k.proceedAll xs).devices := by
  induction xs generalizing k σ with
  | nil => exact .of_eq rfl rfl
  | cons x xs ih =>
    obtain ⟨hx, hxs⟩ := List.forall_mem_cons.mp hfits
    obtain ⟨σ', h', hs', hcarries⟩ := h.traffic_proceed hs hx
    exact (hcarries t).trans (ih h' hs' hxs)

end Kernel

end TerminalKernel
