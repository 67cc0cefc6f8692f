import TerminalKernel.Proofs.Admission
import TerminalKernel.Proofs.RoundTrips

namespace TerminalKernel

def Request.line? : Request → Option Bytes
  | .execute line _ => some line
  | .finish _ => some Kernel.shell
  | .turn _ | .display _ | .service => none

def FileImage.Names (f : FileImage) (line content : Bytes) : Prop :=
  ∃ command d, Command.parse line = .ok command ∧ f.lookup command.name.bytes = .ok d ∧
    f.Content d.inode content

/-- The calls copy nothing outside of the window of a slot, and no more often than it has bytes. -/
structure Layout.Confines (l : Layout) (slot : Nat) (calls : List MachineCall) : Prop where
  inside : ∀ c ∈ calls, l.InWindow slot c
  bounded : calls.countP MachineCall.isCopy ≤ l.room

theorem Layout.Loads.confines {l : Layout} {root : PhysAddr} {slot : Nat} {bs : Bytes}
    {calls : List MachineCall} (h : l.Loads root slot bs calls) (hv : l.Valid)
    (hr : bs.length ≤ l.room) : l.Confines slot calls :=
  ⟨h.inWindow hv hr, h.countP_le.trans hr⟩

theorem Layout.confines_of_not_isCopy {l : Layout} {calls : List MachineCall}
    (h : ∀ c ∈ calls, c.isCopy = false) (slot : Nat) : l.Confines slot calls := by
  refine ⟨fun c hc => inWindow_of_not_isCopy (h c hc), ?_⟩
  rw [countP_isCopy h]
  exact Nat.zero_le _

theorem Layout.Confines.enclosed {l : Layout} {slot : Nat} {calls before after : List MachineCall}
    (h : l.Confines slot calls) (hb : ∀ c ∈ before, c.isCopy = false)
    (ha : ∀ c ∈ after, c.isCopy = false) : l.Confines slot (before ++ (calls ++ after)) := by
  have hb' := confines_of_not_isCopy (l := l) hb slot
  have ha' := confines_of_not_isCopy (l := l) ha slot
  refine ⟨?_, ?_⟩
  · rw [List.forall_mem_append, List.forall_mem_append]
    exact ⟨hb'.inside, h.inside, ha'.inside⟩
  · rw [List.countP_append, List.countP_append, countP_isCopy hb, countP_isCopy ha, Nat.zero_add,
      Nat.add_zero]
    exact h.bounded

theorem Traced.calls_foldl {M : Type} [Machine M] (calls : List MachineCall) (t : Traced M) :
    (calls.foldl (fun m c => Machine.perform c m) t).calls.toList = t.calls.toList ++ calls := by
  induction calls generalizing t with
  | nil => simp
  | cons c cs ih =>
    rw [List.foldl_cons, ih]
    change (t.calls.push c).toList ++ cs = _
    rw [Array.toList_push, List.append_assoc, List.singleton_append]

theorem ProcessTable.firstFree_eq {t : ProcessTable} {n : Nat} {pid : ProcessId}
    (hlive : ∀ x, (t.get? x).isSome = true ↔ x.val < n) (hfree : t.firstFree? = some pid) :
    pid.val = n := by
  have hle : n ≤ pid.val := by
    by_contra hlt
    have hs := (hlive pid).mpr (Nat.lt_of_not_le hlt)
    rw [get?_firstFree hfree] at hs
    cases hs
  have hn : n < processCapacity := hle.trans_lt pid.isLt
  have hnone : t.get? ⟨n, hn⟩ = none := by
    rw [← Option.not_isSome_iff_eq_none, hlive]
    exact Nat.lt_irrefl n
  exact Nat.le_antisymm (firstFree_le hfree hnone) hle

namespace Kernel

section

variable {M D F : Type} [Machine M] {k k' k'' : Kernel M D F} {cs ds : List MachineCall}

/-- The machine made these calls from one state to the next. -/
def Performed (calls : List MachineCall) (k k' : Kernel M D F) : Prop :=
  k'.machine = calls.foldl (fun m c => Machine.perform c m) k.machine

theorem Performed.trans (h : Performed cs k k') (h' : Performed ds k' k'') :
    Performed (cs ++ ds) k k'' := by
  rw [Performed, List.foldl_append, ← h, ← h']

theorem performed_masked (k : Kernel M D F) : Performed [.disableInterrupts] k k.masked := rfl

theorem performed_performAll (calls : List MachineCall) (k : Kernel M D F) :
    Performed calls k (k.performAll calls) := rfl

theorem Performed.of_eq (h : Performed cs k k') (hm : k''.machine = k'.machine) :
    Performed cs k k'' := hm.trans h

theorem performed_leave (k k' : Kernel M D F) :
    ∃ calls, (∀ c ∈ calls, c.isCopy = false) ∧ Performed calls k' (k.leave k') := by
  unfold leave unmasked
  cases Machine.interruptsEnabled k.machine with
  | true => exact ⟨[.enableInterrupts], by simp [MachineCall.isCopy], rfl⟩
  | false => exact ⟨[], by simp, rfl⟩

theorem Performed.enclosed (h : Performed cs k.masked k') :
    ∃ after, (∀ c ∈ after, c.isCopy = false) ∧
      Performed ([.disableInterrupts] ++ (cs ++ after)) k (k.leave k') := by
  obtain ⟨after, ha, hp⟩ := performed_leave k k'
  exact ⟨after, ha, k.performed_masked.trans (h.trans hp)⟩

theorem not_isCopy_disable :
    ∀ c ∈ [MachineCall.disableInterrupts], c.isCopy = false := by simp [MachineCall.isCopy]

theorem Performed.calls {k k' : Kernel (Traced M) D F} (h : Performed cs k k') :
    k'.machine.calls.toList = k.machine.calls.toList ++ cs := by
  rw [h]
  exact Traced.calls_foldl cs k.machine

variable [FileSystem F]

omit [Machine M] in
theorem operate_execute [Machine M] [Devices D] {op : Operation} {line : Bytes}
    {caller : SavedContext} (hop : op.request = .execute line caller) (k : Kernel M D F) :
    k.operate op =
      ({ transfer := (k.execute line caller).1 }, (k.execute line caller).2) := by
  have hcall {call : SystemCall} {context : SavedContext}
      (hc : call.request context = .execute line caller) :
      k.syscall call context =
        ({ transfer := (k.execute line caller).1 }, (k.execute line caller).2) := by
    cases call with
    | execute line' =>
      cases hc
      rfl
    | halt | read | write | «open» | close | getArguments | videoMap | setHandler
      | signalReturn => cases hc
  cases op with
  | execute line' caller' =>
    cases hop
    rfl
  | syscall call context => exact hcall hop
  | syscallRaw number argument bytes context =>
    obtain ⟨call, hreq, hr⟩ | ⟨hreq, -⟩ := operate_syscallRaw number argument bytes context k
    · rw [hreq] at hop
      rw [hr]
      exact hcall hop
    · rw [hreq] at hop
      cases hop
  | halt | exception | timerTick | switchTerminal => cases hop

omit [FileSystem F] [Machine M] in
theorem machine_releaseProcess (pid : ProcessId) (k : Kernel M D F) :
    (k.releaseProcess pid).machine = k.machine := by
  unfold releaseProcess
  split <;> rfl

omit [FileSystem F] [Machine M] in
theorem machine_discardSpace (space : SpaceId) (k : Kernel M D F) :
    (k.discardSpace space).machine = k.machine := by
  unfold discardSpace
  split
  · rfl
  · rw [record_eq]
    rfl

omit [FileSystem F] [Machine M] in
theorem machine_buildSpace (slot : Nat) (t : TerminalId) (k : Kernel M D F) :
    (k.buildSpace slot t).2.machine = k.machine := by
  unfold buildSpace
  split
  · rfl
  · split
    · rfl
    · exact machine_discardSpace ..

theorem prepare_of_not_fits (hv : k.layout.Valid) (hf : ¬k.layout.Fits) {pid : ProcessId}
    (hg : k.spaces.isGiven pid = false) (hm : k.spaces.slotMap pid = .empty) (t : TerminalId)
    (line : Bytes) :
    ∃ e, (k.prepare pid t line).1 = .error e ∧ (k.prepare pid t line).2.machine = k.machine := by
  unfold prepare
  split
  · exact ⟨_, rfl, rfl⟩
  · dsimp only
    split
    · exact ⟨_, rfl, rfl⟩
    · split
      · rename_i e k₁ hb
        refine ⟨e, rfl, ?_⟩
        exact (congrArg (fun r => r.2.machine) hb).symm.trans (machine_buildSpace ..)
      · rename_i space k₁ hb
        exact absurd (fits_of_buildSpace (k := k.modifyProcess pid _) hv hg hm hb) hf

theorem machine_of_not_fits {σ : TerminalId → List ProcessId} {t : TerminalId}
    (h : k.Consistent σ) (hv : k.layout.Valid) (hf : ¬k.layout.Fits) (line : Bytes)
    (interrupted : Option SavedContext) :
    (k.launchLocked line (.kernel t interrupted)).2.machine = k.machine := by
  simp only [launchLocked, originTerminal]
  split
  · rfl
  · rw [ProcessTable.allocate_eq]
    cases hfree : k.processes.firstFree? with
    | none => rfl
    | some pid =>
      have hnone := ProcessTable.get?_firstFree hfree
      obtain ⟨e, he, hm⟩ := prepare_of_not_fits (k := { k with processes := k.processes.insert pid })
        hv hf (h.isGiven_free hnone) (h.slotMap_free hnone) t line
      dsimp only
      split
      · rename_i e' k₁ hprep
        rw [hprep] at hm
        rw [machine_releaseProcess, hm]
      · rename_i entry k₁ hprep
        rw [hprep] at he
        cases he

end

section

variable {M D : Type} {k k' : Kernel M D FileImage} {σ : TerminalId → List ProcessId}
  {t : TerminalId} {line : Bytes} {prog : Program} {pid : ProcessId}

theorem names_of_program (hprog : k.program line = .ok prog) {content : Bytes}
    (hcontent : k.fs.Content prog.inode content) : k.fs.Names line content := by
  obtain ⟨eip, hc, he, -, -⟩ := program_eq_ok hprog
  cases hl : k.fs.lookup prog.command.name.bytes with
  | error e =>
    rw [findExecutable_of_absent hl] at he
    cases he
  | ok d =>
    by_cases hd : ∃ eip, k.IsProgram d eip
    · obtain ⟨eip', hd⟩ := hd
      rw [findExecutable_of_isProgram hl hd] at he
      refine ⟨prog.command, d, hc, hl, ?_⟩
      rw [(Prod.mk.inj (Except.ok.inj he)).1]
      exact hcontent
    · rw [findExecutable_of_not_isProgram hl (not_exists.mp hd)] at he
      cases he

variable [Machine M]

theorem performed_started (hv : k.layout.Valid) (hprog : k.program line = .ok prog)
    (pid : ProcessId) (t : TerminalId) (processes : ProcessTable) :
    ∃ calls content, Performed calls k (k.started pid t prog processes) ∧
      k.fs.Names line content ∧
        k.layout.Loads (k.spaces.directoryAddress (.process pid)) pid content calls := by
  obtain ⟨-, -, -, hi, -⟩ := program_eq_ok hprog
  obtain ⟨content, hst, -, hcontent⟩ := stores_image (k := k) hv pid.isLt prog.inode
  refine ⟨[] ++ .loadPageDirectory (k.spaces.directoryAddress (.process pid)) ::
    (k.layout.copies pid (k.image prog.inode).1 ++
      [.setKernelStack ⟨Selector.kernelData, k.layout.kernelStackTop pid⟩]), content, ?_,
    names_of_program hprog (hcontent hi), [], _, _, rfl, hst, by simp, by simp [MachineCall.isCopy]⟩
  rw [Performed, List.nil_append, List.foldl_cons, List.foldl_append]
  rfl

omit [Machine M] in
theorem confines_failureCalls (hv : k.layout.Valid) (pid : ProcessId) (line : Bytes) :
    k.layout.Confines pid (k.failureCalls pid line) := by
  unfold failureCalls
  split
  · exact Layout.confines_of_not_isCopy (by simp) pid
  · split
    · exact Layout.confines_of_not_isCopy (by simp) pid
    · rename_i inode _ _
      obtain ⟨bs, hst, hr, -⟩ := stores_image (k := k) hv pid.isLt inode
      have hl : k.layout.Loads (k.spaces.directoryAddress (.process pid)) pid bs _ :=
        ⟨[], _, [.loadPageDirectory (k.spaces.directoryAddress k.spaces.active)], rfl, hst,
          by simp, by simp [MachineCall.isCopy]⟩
      exact hl.confines hv hr

/-- What the machine is told when a command line is to be run. A process that is entered has its
whole file loaded; without one, copies stay in the window of the lowest free slot. -/
structure Streams (k : Kernel M D FileImage) (line : Bytes) (transfer : Transfer)
    (calls : List MachineCall) : Prop where
  entered : ∀ pid entry, transfer = .enterUser pid entry →
    ∃ content, k.fs.Names line content ∧
      k.layout.Loads (k.spaces.directoryAddress (.process pid)) pid content calls
  failed : (∀ pid entry, transfer ≠ .enterUser pid entry) →
    (∀ c ∈ calls, c.isCopy = false) ∨
      ∃ pid, IsLeast {x | k.processes.get? x = none} pid ∧ k.layout.Confines pid calls

omit [Machine M] in
theorem Streams.of_enterUser {entry : UserEntry} {content : Bytes} {calls : List MachineCall}
    (hn : k.fs.Names line content)
    (hl : k.layout.Loads (k.spaces.directoryAddress (.process pid)) pid content calls) :
    k.Streams line (.enterUser pid entry) calls := by
  refine ⟨?_, fun hne => absurd rfl (hne pid entry)⟩
  intro pid' entry' he
  cases he
  exact ⟨content, hn, hl⟩

omit [Machine M] in
theorem Streams.of_not_isCopy {transfer : Transfer} {calls : List MachineCall}
    (hne : ∀ pid entry, transfer ≠ .enterUser pid entry) (h : ∀ c ∈ calls, c.isCopy = false) :
    k.Streams line transfer calls :=
  ⟨fun pid entry he => absurd he (hne pid entry), fun _ => Or.inl h⟩

theorem Sound.execute_streams (h : k.Sound σ) (line : Bytes) (caller : SavedContext) :
    ∃ calls, Performed calls k (k.execute line caller).2 ∧
      k.Streams line (k.execute line caller).1 calls := by
  obtain ⟨cur, hc⟩ := h.runs
  obtain ⟨p, hp⟩ := h.current_live hc
  -- What the loader has copied before a launch is refused stays copied.
  have hrefused (e : KernelError) (calls : List MachineCall) :
      ∃ after, (∀ c ∈ after, c.isCopy = false) ∧
        Performed ([.disableInterrupts] ++ (calls ++ after)) k (k.refused p.terminal e calls) := by
    obtain ⟨after, ha, hperf⟩ := (performed_performAll calls k.masked).enclosed
    exact ⟨after, ha, hperf.of_eq (agrees_refused ..).machine⟩
  rw [h.execute_eq hc hp]
  by_cases hline : Bytes.beforeNul line = []
  · rw [if_pos hline]
    obtain ⟨after, ha, hperf⟩ := hrefused .invalidCommand []
    refine ⟨_, hperf, .of_not_isCopy nofun ?_⟩
    exact List.forall_mem_append.mpr ⟨not_isCopy_disable, ha⟩
  · rw [if_neg hline]
    cases hfree : k.processes.firstFree? with
    | none =>
      obtain ⟨after, ha, hperf⟩ := hrefused .registryExhausted []
      refine ⟨_, hperf, .of_not_isCopy nofun ?_⟩
      exact List.forall_mem_append.mpr ⟨not_isCopy_disable, ha⟩
    | some pid =>
      cases hprog : k.program line with
      | error e =>
        obtain ⟨after, ha, hperf⟩ := hrefused e (k.masked.failureCalls pid line)
        refine ⟨_, hperf, nofun, ?_⟩
        intro _
        refine Or.inr ⟨pid, ProcessTable.isLeast_firstFree hfree, ?_⟩
        exact (confines_failureCalls (k := k.masked) h.fits.toValid pid line).enclosed
          not_isCopy_disable ha
      | ok prog =>
        obtain ⟨calls, content, hperf, hn, hl⟩ := performed_started (k := k.masked)
          h.fits.toValid hprog pid p.terminal (k.masked.childTable cur pid p.terminal prog caller)
        obtain ⟨after, ha, hperf'⟩ := (hperf.of_eq (agrees_record (.processLaunched pid p.terminal
          (some cur)) _).machine).enclosed
        exact ⟨_, hperf', .of_enterUser hn (hl.enclosed not_isCopy_disable ha)⟩

theorem performed_returned (k : Kernel M D FileImage) (pid parent : ProcessId) (t : TerminalId)
    (stack : KernelStack) :
    ∃ calls, (∀ c ∈ calls, c.isCopy = false) ∧
      Performed calls k (k.leave (k.masked.returned pid parent t stack)) := by
  let calls : List MachineCall := [.setKernelStack stack,
    .loadPageDirectory (k.spaces.directoryAddress (.process parent))]
  have hperf : Performed calls k.masked (k.masked.returned pid parent t stack) := rfl
  obtain ⟨after, hafter, hperf⟩ := hperf.enclosed
  refine ⟨_, ?_, hperf⟩
  rw [List.forall_mem_append, List.forall_mem_append]
  exact ⟨not_isCopy_disable, by simp [calls, MachineCall.isCopy], hafter⟩

theorem performed_relaunched (hv : k.layout.Valid) (hprog : k.program line = .ok prog)
    (pid new : ProcessId) (t : TerminalId) :
    ∃ calls content,
      Performed calls k (k.leave ((k.masked.retired pid t).relaunched new t prog)) ∧
        k.fs.Names line content ∧
          k.layout.Loads (k.spaces.directoryAddress (.process new)) new content calls := by
  let before : List MachineCall :=
    [.setKernelStack ⟨Selector.kernelData, k.layout.globalKernelStack⟩,
      .loadPageDirectory (k.spaces.directoryAddress .kernel)]
  have hbefore : Performed before k.masked (k.masked.retired pid t) := rfl
  obtain ⟨calls, content, hcalls, hn, hloads⟩ := performed_started (k := k.masked.retired pid t)
    hv hprog new t (rootTable new ((k.masked.retired pid t).newTable new t prog))
  obtain ⟨after, hafter, hperf⟩ := (hbefore.trans hcalls).enclosed
  have hb : ∀ c ∈ before, c.isCopy = false := by simp [before, MachineCall.isCopy]
  rw [List.append_assoc, ← List.append_assoc] at hperf
  refine ⟨_, content, hperf, hn, hloads.enclosed ?_ hafter⟩
  exact List.forall_mem_append.mpr ⟨not_isCopy_disable, hb⟩

variable [Devices D]

theorem Sound.operate_streams (h : k.Sound σ) {op : Operation} (hop : op.request.line? = some line) :
    ∃ calls, Performed calls k (k.operate op).2 ∧
      k.Streams line (k.operate op).1.transfer calls := by
  cases hreq : op.request with
  | execute line' caller =>
    rw [hreq] at hop
    cases hop
    rw [operate_execute hreq]
    exact h.execute_streams line caller
  | finish cause =>
    obtain ⟨k₁, σ', he, ha⟩ := operate_effect h op
    rw [hreq] at hop he
    cases hop
    generalize (k.operate op).1.transfer = transfer at he ⊢
    cases he with
    | @returned _ pid parent p q context l hc hp hq hs hl =>
      obtain ⟨calls, hno, hperf⟩ := k.performed_returned pid parent p.terminal context.stack
      exact ⟨calls, hperf.of_eq ha.machine, .of_not_isCopy nofun hno⟩
    | @relaunched _ pid new p prog hc hp hl hfree hprog =>
      obtain ⟨calls, content, hperf, hn, hloads⟩ :=
        performed_relaunched h.fits.toValid hprog pid new p.terminal
      exact ⟨calls, hperf.of_eq ha.machine, .of_enterUser hn hloads⟩
  | turn | display | service =>
    rw [hreq] at hop
    cases hop

end

section

variable {M D : Type} [Machine M] {k k' : Kernel M D FileImage} {σ : TerminalId → List ProcessId}
  {t : TerminalId} {prog : Program} {pid : ProcessId}

theorem Opens.eq_started (ho : k.Opens t pid prog k') :
    ∃ processes, k' = k.leave (k.masked.started pid t prog processes) := by
  cases ho with
  | first => exact ⟨_, rfl⟩
  | beside => exact ⟨_, rfl⟩

theorem Opens.performed (hv : k.layout.Valid) (hprog : k.program shell = .ok prog)
    (ho : k.Opens t pid prog k') :
    ∃ calls content, Performed calls k k' ∧ k.fs.Names shell content ∧
      k.layout.Loads (k.spaces.directoryAddress (.process pid)) pid content calls := by
  obtain ⟨processes, rfl⟩ := ho.eq_started
  obtain ⟨calls, content, hperf, hn, hl⟩ := performed_started (k := k.masked) hv hprog pid t
    processes
  obtain ⟨after, ha, hperf⟩ := hperf.enclosed
  exact ⟨_, content, hperf, hn, hl.enclosed not_isCopy_disable ha⟩

theorem Opens.isGiven (ho : k.Opens t pid prog k') (x : ProcessId) :
    k'.spaces.isGiven x = if x = pid then true else k.spaces.isGiven x := by
  obtain ⟨processes, rfl⟩ := ho.eq_started
  rw [(sameCore_leave ..).spaces]
  exact k.spaces.isGiven_give pid x (k.masked.newMap pid t)

theorem Opens.directoryAddress (ho : k.Opens t pid prog k') (space : SpaceId) :
    k'.spaces.directoryAddress space = k.spaces.directoryAddress space := by
  obtain ⟨processes, rfl⟩ := ho.eq_started
  rw [(sameCore_leave ..).spaces]
  rfl

theorem Opens.live (ho : k.Opens t pid prog k') (h : k.Consistent σ)
    {σ' : TerminalId → List ProcessId} (h' : k'.Consistent σ') {n : Nat} (hpid : pid.val = n)
    (hn : ∀ x, (k.processes.get? x).isSome = true ↔ x.val < n) (x : ProcessId) :
    (k'.processes.get? x).isSome = true ↔ x.val < n + 1 := by
  rw [← h'.given, ho.isGiven, h.given]
  by_cases hx : x = pid
  · rw [if_pos hx, hx]
    simp [hpid]
  · have hne : x.val ≠ n := fun he => hx (Fin.ext (he.trans hpid.symm))
    rw [if_neg hx, hn]
    omega

/-- The launch of a shell that fails during the boot, with shells in the first `n` slots. -/
theorem confines_launch (h : k.Consistent σ) (hv : k.layout.Valid) {n : Nat}
    (hn : ∀ x, (k.processes.get? x).isSome = true ↔ x.val < n) {e : KernelError}
    (hl : k.launch shell (.kernel t none) = (.error e, k')) :
    ∃ calls, Performed calls k k' ∧ k.layout.Confines n calls := by
  rw [launch, critical_eq, Prod.mk.injEq] at hl
  obtain ⟨he, hk'⟩ := hl
  obtain ⟨calls, hperf, hc⟩ : ∃ calls,
      Performed calls k.masked (k.masked.launchLocked shell (.kernel t none)).2 ∧
        k.layout.Confines n calls := by
    have hm : k.masked.Consistent σ := h.of_sameCore k.sameCore_masked
    by_cases hf : k.layout.Fits
    · rw [launchLocked_eq hm hf shell (.kernel t none) rfl] at he ⊢
      split
      · exact ⟨[], rfl, Layout.confines_of_not_isCopy (by simp) n⟩
      · rename_i hnil
        rw [if_neg hnil] at he
        cases hfree : k.masked.processes.firstFree? with
        | none => exact ⟨[], rfl, Layout.confines_of_not_isCopy (by simp) n⟩
        | some pid =>
          simp only [hfree] at he ⊢
          cases hprog : k.masked.program shell with
          | error e =>
            rw [← ProcessTable.firstFree_eq hn hfree]
            exact ⟨_, performed_performAll .., confines_failureCalls (k := k.masked) hv pid shell⟩
          | ok prog =>
            simp only [hprog] at he
            cases he
    · refine ⟨[], ?_, Layout.confines_of_not_isCopy (by simp) n⟩
      exact machine_of_not_fits hm hv hf shell none
  obtain ⟨after, ha, hperf⟩ := hperf.enclosed
  rw [← hk']
  exact ⟨_, hperf, hc.enclosed not_isCopy_disable ha⟩

/-- The parts of what a boot tells the machine, a shell for each slot from `n` on. All are loaded,
but for the last one of a boot that fails. -/
def Boots (k : Kernel M D FileImage) (result : Except KernelError Transfer) (n : Nat)
    (parts : List (List MachineCall)) : Prop :=
  ∀ i calls, parts[i]? = some calls →
    (∃ content, k.fs.Names shell content ∧
      k.layout.Loads (k.spaces.directoryAddress (.process (n + i))) (n + i) content calls) ∨
    (∃ e, result = .error e) ∧ i + 1 = parts.length ∧ k.layout.Confines (n + i) calls

omit [Machine M] in
theorem Boots.cons {result : Except KernelError Transfer} {n : Nat} {content : Bytes}
    {calls : List MachineCall} {parts : List (List MachineCall)}
    (hn : k.fs.Names shell content)
    (hl : k.layout.Loads (k.spaces.directoryAddress (.process n)) n content calls)
    (hfs : k'.fs = k.fs) (hlayout : k'.layout = k.layout)
    (hroot : ∀ space, k'.spaces.directoryAddress space = k.spaces.directoryAddress space)
    (hb : k'.Boots result (n + 1) parts) : k.Boots result n (calls :: parts) := by
  intro i calls' hi
  cases i with
  | zero =>
    cases hi
    exact Or.inl ⟨content, hn, hl⟩
  | succ i =>
    have hi' : n + 1 + i = n + (i + 1) := by omega
    have hp := hb i calls' hi
    rw [hfs, hlayout, hroot, hi'] at hp
    rw [List.length_cons, Nat.add_right_cancel_iff]
    exact hp

theorem launchShells_performed {ts : List TerminalId} (hnd : ts.Nodup) (h : k.Consistent σ)
    (hv : k.layout.Valid) (ht : ∀ t ∈ ts, σ t = []) {n : Nat}
    (hn : ∀ x, (k.processes.get? x).isSome = true ↔ x.val < n) {last : Transfer}
    {result : Except KernelError Transfer} (hl : k.launchShells ts last = (result, k')) :
    ∃ parts, Performed parts.flatten k k' ∧ k.Boots result n parts ∧ parts.length ≤ ts.length ∧
      ((∃ first, result = .ok first) → parts.length = ts.length) := by
  induction ts generalizing k σ n last with
  | nil =>
    cases hl
    refine ⟨[], rfl, ?_, Nat.le_refl _, fun _ => rfl⟩
    intro i calls hi
    cases hi
  | cons t ts ih =>
    rw [List.nodup_cons] at hnd
    cases hlaunch : k.launch shell (.kernel t none) with
    | mk r k₂ =>
      cases r with
      | error e =>
        simp only [launchShells, hlaunch] at hl
        cases hl
        obtain ⟨calls, hperf, hc⟩ := confines_launch h hv hn hlaunch
        refine ⟨[calls], ?_, ?_, by simp, by simp⟩
        · rwa [List.flatten_singleton]
        · intro i calls' hi
          cases i with
          | zero =>
            cases hi
            exact Or.inr ⟨⟨e, rfl⟩, rfl, hc⟩
          | succ i => cases hi
      | ok transfer =>
        simp only [launchShells, hlaunch] at hl
        obtain ⟨pid, prog, k₁, -, hfree, hprog, ho, -, ha⟩ := launch_opens h hv hlaunch
        -- The slots in use are the first ones, so this shell gets the slot of its place in the boot.
        have hpid := ProcessTable.firstFree_eq hn hfree
        have hnone := ProcessTable.get?_firstFree hfree
        have hσt := ht t (List.mem_cons_self ..)
        obtain ⟨h₂, hlayout, hfs⟩ := ho.next h hσt hnone hprog ha
        have hn₂ : ∀ x, (k₂.processes.get? x).isSome = true ↔ x.val < n + 1 := by
          rw [ha.processes]
          exact ho.live h (ho.consistent h hσt hnone hprog) hpid hn
        obtain ⟨parts, hparts, hb, hle, heq⟩ :=
          ih hnd.2 h₂ (hlayout ▸ hv) (update_eq_nil hnd.1 ht [pid]) hn₂ hl
        obtain ⟨calls, content, hperf, hnames, hloads⟩ := ho.performed hv hprog
        have hroot (space : SpaceId) :
            k₂.spaces.directoryAddress space = k.spaces.directoryAddress space := by
          rw [ha.spaces, ho.directoryAddress]
        rw [hpid] at hloads
        refine ⟨calls :: parts, (hperf.of_eq ha.machine).trans hparts, ?_, ?_, ?_⟩
        · exact Boots.cons hnames hloads hfs hlayout hroot hb
        · exact Nat.succ_le_succ hle
        · exact fun hok => congrArg Nat.succ (heq hok)

omit [Machine M] in
theorem Boots.of_eq {result result' : Except KernelError Transfer} {n : Nat}
    {parts : List (List MachineCall)} (hb : k'.Boots result n parts) (hfs : k'.fs = k.fs)
    (hlayout : k'.layout = k.layout)
    (hroot : ∀ space, k'.spaces.directoryAddress space = k.spaces.directoryAddress space)
    (hr : (∃ e, result = .error e) → ∃ e, result' = .error e) : k.Boots result' n parts := by
  intro i calls hi
  have hp := hb i calls hi
  rw [hfs, hlayout, hroot] at hp
  exact hp.imp_right fun ⟨he, hc⟩ => ⟨hr he, hc⟩

theorem startMachine_performed (program : TimerProgram) (k : Kernel M D FileImage) :
    Performed [.loadPageDirectory (k.spaces.directoryAddress .kernel),
      .setKernelStack ⟨Selector.kernelData, k.layout.globalKernelStack⟩,
      .programTimer program, .setIrqMask timerIrq false] k (k.startMachine program) ∧
    ∀ space, (k.startMachine program).spaces.directoryAddress space =
      k.spaces.directoryAddress space := by
  obtain ⟨m, hm⟩ := k.startMachine_eq program
  rw [hm]
  exact ⟨rfl, fun _ => rfl⟩

omit [Machine M] in
theorem checkInvariants_machine (k : Kernel M D FileImage) :
    k.checkInvariants.2.machine = k.machine := by
  unfold checkInvariants
  split <;> rfl

theorem boot_performed (hu : k.Unbooted) {result : Except KernelError Transfer}
    (hb : k.boot = (result, k')) :
    ∃ setup parts, Performed (setup ++ parts.flatten) k k' ∧ (∀ c ∈ setup, c.isCopy = false) ∧
      k.Boots result 0 parts ∧ parts.length ≤ terminalCount ∧
        ((∃ first, result = .ok first) → parts.length = terminalCount) := by
  unfold boot at hb
  split at hb
  case h_1 | h_2 =>
    cases hb
    exact ⟨[], [], rfl, by simp, nofun, Nat.zero_le _, nofun⟩
  case h_3 program hv _ =>
    obtain ⟨hfs, hlayout⟩ := k.startMachine_fixed program
    obtain ⟨hsetup, hroot⟩ := k.startMachine_performed program
    have h₀ := hu.startMachine program
    have hv' : (k.startMachine program).layout.Valid := by
      rw [hlayout]
      exact Layout.valid_of_validate hv
    have hnodup : TerminalId.all.reverse.Nodup := by decide
    have hlive : ∀ x, ((k.startMachine program).processes.get? x).isSome = true ↔ x.val < 0 := by
      intro x
      cases hx : (k.startMachine program).processes.get? x with
      | none => simp
      | some p => cases h₀.stacked.complete x p hx
    cases hl : (k.startMachine program).launchShells TerminalId.all.reverse .idle with
    | mk r k₁ =>
      obtain ⟨parts, hperf, hparts, hle, heq⟩ :=
        launchShells_performed hnodup h₀ hv' (fun _ _ => rfl) hlive hl
      obtain ⟨hmachine, herror, hok⟩ : k'.machine = k₁.machine ∧
          ((∃ e, r = .error e) → ∃ e, result = .error e) ∧
            ((∃ first, result = .ok first) → ∃ first, r = .ok first) := by
        rw [hl] at hb
        cases r with
        | error e =>
          cases hb
          exact ⟨rfl, fun _ => ⟨e, rfl⟩, nofun⟩
        | ok first =>
          refine ⟨?_, nofun, fun _ => ⟨first, rfl⟩⟩
          -- The checks at the end of a boot do not reach the machine.
          have hc := k₁.checkInvariants_machine
          dsimp only at hb
          split at hb
          · rename_i v k₂ hk
            cases hb
            rwa [hk] at hc
          · rename_i k₂ hk
            cases hb
            rwa [hk] at hc
      refine ⟨_, parts, (hsetup.trans hperf).of_eq hmachine, by simp [MachineCall.isCopy],
        hparts.of_eq hfs hlayout hroot herror, hle, fun h => heq (hok h)⟩

variable [Devices D]

/-- On a machine that keeps the calls it was given: whatever a boot or an operation loads, a process
that is entered has its whole file in its own window, and a launch that fails leaves every other
memory alone. -/
theorem streams_run {machine : M} {devices : D} {files : FileImage} {layout : Layout}
    {timer : TimerConfig} {result : Except KernelError Transfer}
    {k : Kernel (Traced M) D FileImage}
    (hb : (fresh { machine } devices files layout timer).boot = (result, k)) :
    (∃ setup parts, k.machine.calls.toList = setup ++ parts.flatten ∧
      (∀ c ∈ setup, c.isCopy = false) ∧
        (fresh { machine : Traced M } devices files layout timer).Boots result 0 parts ∧
          ((∃ first, result = .ok first) → parts.length = terminalCount)) ∧
    ∀ first, result = .ok first → ∀ ops op line, op.request.line? = some line →
      ∃ calls, ((k.run ops).2.operate op).2.machine.calls.toList =
          (k.run ops).2.machine.calls.toList ++ calls ∧
        (k.run ops).2.Streams line ((k.run ops).2.operate op).1.transfer calls := by
  have hu := unbooted_fresh { machine : Traced M } devices files layout timer
  constructor
  · obtain ⟨setup, parts, hperf, hsetup, hparts, -, hlen⟩ := boot_performed hu hb
    exact ⟨setup, parts, hperf.calls, hsetup, hparts, hlen⟩
  · rintro first rfl ops op line hop
    obtain ⟨σ, h⟩ := sound_boot hu hb
    obtain ⟨σ', h'⟩ := h.run ops
    obtain ⟨calls, hperf, hs⟩ := h'.operate_streams hop
    exact ⟨calls, hperf.calls, hs⟩

end

end Kernel

def Sample.traced : Kernel (Traced MachineRecorder) DeviceRecorder FileImage :=
  .fresh { machine := {} } {} shellFiles {} {}

theorem Sample.boot_traced : ∃ first k, Sample.traced.boot = (.ok first, k) :=
  boot_fresh _ _ rfl ⟨Layout.valid_of_validate rfl, by decide⟩ rfl rfl

open Kernel in
theorem Kernel.streams_run_traced :
    ∃ first k, Sample.traced.boot = (.ok first, k) ∧
      (∃ setup parts, k.machine.calls.toList = setup ++ parts.flatten ∧
        parts.length = terminalCount ∧ Sample.traced.Boots (.ok first) 0 parts) ∧
      ∀ caller, ∃ child entry calls content,
        (k.operate (.execute shell caller)).1.transfer = .enterUser child entry ∧
          (k.operate (.execute shell caller)).2.machine.calls.toList =
            k.machine.calls.toList ++ calls ∧
          k.fs.Names shell content ∧
            k.layout.Loads (k.spaces.directoryAddress (.process child)) child content calls := by
  obtain ⟨first, k, hb⟩ := Sample.boot_traced
  have hu : Sample.traced.Unbooted := unbooted_fresh ..
  obtain ⟨σ, h⟩ := sound_boot hu hb
  obtain ⟨prog, hprog⟩ := h.shell
  obtain ⟨child, hfree⟩ := firstFree_boot hu hb
  obtain ⟨⟨setup, parts, hcalls, -, hparts, hlen⟩, hrun⟩ := streams_run hb
  refine ⟨first, k, hb, ⟨setup, parts, hcalls, hlen ⟨first, rfl⟩, hparts⟩, ?_⟩
  intro caller
  have hchild := h.execute_enters hprog hfree caller
  obtain ⟨calls, hnew, hs⟩ := hrun first rfl [] (.execute shell caller) shell rfl
  obtain ⟨content, hn, hl⟩ := hs.entered child prog.entry hchild
  exact ⟨child, prog.entry, calls, content, hchild, hnew, hn, hl⟩

end TerminalKernel
