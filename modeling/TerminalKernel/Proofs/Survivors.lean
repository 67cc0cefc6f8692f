import TerminalKernel.Proofs.FileCalls
import TerminalKernel.Proofs.Tracking

namespace TerminalKernel

def Operation.call? : Operation → Option SystemCall
  | .syscall call _ => some call
  | .syscallRaw number argument bytes _ => SystemCall.decode? number argument bytes
  | .execute .. | .halt _ | .exception _ | .timerTick _ | .switchTerminal .. => none

/-- The command line of the program that a request launches, if it launches one: a shell unless the
current process executes a line. -/
def Request.program : Request → Bytes
  | .execute line _ => line
  | .finish _ | .turn _ | .display _ | .service => Kernel.shell

namespace Records

variable {g : Records} {x y : ProcessId} {p q : ProcessRecord}

/-- A process is there with a record that differs at most in the run state. -/
def Keeps (g : Records) (x : ProcessId) (p : ProcessRecord) : Prop :=
  ∃ state, g x = some { p with state }

theorem Keeps.of_eq (h : g x = some p) : g.Keeps x p := ⟨p.state, h⟩

theorem Keeps.update (h : g.Keeps x p) (hne : x ≠ y) (r : Option ProcessRecord) :
    Records.Keeps (Function.update g y r) x p := by
  obtain ⟨state, hx⟩ := h
  exact ⟨state, by rwa [Function.update_of_ne hne]⟩

theorem Keeps.restate (h : g.Keeps x p) (hy : g y = some q) (state : RunState) :
    Records.Keeps (Function.update g y (some { q with state })) x p := by
  by_cases hxy : x = y
  · subst x
    obtain ⟨state', hx⟩ := h
    rw [hy, Option.some.injEq] at hx
    subst q
    exact ⟨state, Function.update_self ..⟩
  · exact h.update hxy _

theorem isSome_update (hy : g y = some q) (r : ProcessRecord) (x : ProcessId) :
    (Function.update g y (some r) x).isSome = (g x).isSome := by
  by_cases hx : x = y
  · rw [hx, Function.update_self, hy]
    rfl
  · rw [Function.update_of_ne hx]

end Records

theorem FileTable.lt_of_get? {t : FileTable} {fd : Nat} {f : OpenFile} (h : t.get? fd = some f) :
    fd < maxOpenFiles := by
  by_contra hle
  rw [get?, Vector.getElem?_eq_none (Nat.le_of_not_lt hle)] at h
  cases h

theorem FileTable.get?_findFree {t : FileTable} {fd : Nat} (h : t.findFree = some fd) :
    t.get? fd = none := by
  have hfree := List.find?_some h
  rwa [Option.isNone_iff_eq_none] at hfree

theorem descriptorIndex_eq_ok_iff {fd : Int} {i : Nat} :
    descriptorIndex fd = .ok i ↔ fd = (i : Int) ∧ i < maxOpenFiles := by
  unfold descriptorIndex
  split
  case isTrue h =>
    rw [Except.ok.injEq]
    constructor
    · rintro rfl
      omega
    · rintro ⟨rfl, -⟩
      rfl
  case isFalse h =>
    constructor
    · intro he
      cases he
    · rintro ⟨rfl, hi⟩
      exact absurd ⟨Int.natCast_nonneg i, Int.ofNat_lt.mpr hi⟩ h

variable {M D F : Type} [Machine M] [Devices D] [FileSystem F]

def Step.Calls (s : Step M D F) (x : ProcessId) (call : SystemCall) : Prop :=
  s.before.current = some x ∧ s.op.call? = some call

namespace Kernel

variable {k k' : Kernel M D F} {σ σ' : TerminalId → List ProcessId} {request : Request}
  {transfer : Transfer} {x : ProcessId} {p : ProcessRecord} {op : Operation} {call : SystemCall}

def steps : List Operation → Kernel M D F → List (Step M D F)
  | [], _ => []
  | op :: ops, k => ⟨k, op⟩ :: steps ops (k.operate op).2

theorem operate_call (h : op.call? = some call) (k : Kernel M D F) :
    ∃ caller, op.request = call.request caller ∧ k.operate op = k.syscall call caller := by
  cases op with
  | execute | halt | exception | timerTick | switchTerminal => cases h
  | syscall c caller =>
    cases h
    exact ⟨caller, rfl, rfl⟩
  | syscallRaw number argument bytes caller =>
    have hd : SystemCall.decode? number argument bytes = some call := h
    exact ⟨caller, by simp only [Operation.request, hd], by simp only [operate, syscallRaw, hd]⟩

theorem operate_uncalled (h : op.call? = none) (hop : op.request = .service) (k : Kernel M D F) :
    (k.operate op).2 = k := by
  cases op with
  | execute | halt | exception | timerTick | switchTerminal => cases hop
  | syscall => cases h
  | syscallRaw number argument bytes caller =>
    have hd : SystemCall.decode? number argument bytes = none := h
    simp only [operate, syscallRaw, hd]

theorem isService_of_request {caller : SavedContext} (h : call.request caller = .service) :
    call.IsService := by
  cases call with
  | halt | execute => cases h
  | read | write | «open» | close | getArguments | videoMap | setHandler | signalReturn => trivial

/-- An effect leaves the record of a process that neither ends nor is served, up to its state. -/
theorem Effect.survives (hb : k.Sound σ) (he : k.Effect σ request transfer k' σ')
    (hx : k.processes.get? x = some p) (hend : k.current = some x → request.isFinish = false)
    (hserve : request = .service → k.current ≠ some x) :
    Records.Keeps k'.processes.get? x p := by
  have hkeeps : Records.Keeps k.processes.get? x p := .of_eq hx
  have hended {cur : ProcessId} (hc : k.current = some cur) (hr : request.isFinish = true) :
      x ≠ cur := by
    intro hxc
    rw [hend (hxc ▸ hc)] at hr
    cases hr
  cases he with
  | refused | kept | shown =>
    rw [processes_leave]
    exact hkeeps
  | launched hc hq hfree hprog =>
    have hfree' := ProcessTable.get?_firstFree hfree
    rw [get?_afterLaunch hb.toConsistent hq hfree']
    exact (hkeeps.restate hq _).update (Records.ne_of_eq_none hx hfree') _
  | returned hc hq hr hs hσ =>
    rw [get?_afterReturn hb.toConsistent hr hσ]
    refine (hkeeps.update (hended hc rfl) none).restate ?_ _
    rw [Function.update_of_ne (hb.stacked.ne_below hσ), hr]
  | @relaunched cause pid new q prog hc hq hσ hfree hprog =>
    have hretired : Function.update k.processes.get? pid none x = some p := by
      rw [Function.update_of_ne (hended hc rfl), hx]
    have hnone := ProcessTable.get?_firstFree hfree
    rw [get?_retired] at hnone
    rw [get?_afterRelaunch hb.toConsistent]
    exact (Records.Keeps.of_eq hretired).update (Records.ne_of_eq_none hretired hnone) _
  | turned hc hq hr ht htop hne hres =>
    rw [get?_afterTurn hq hr hne]
    refine (hkeeps.restate hq _).restate ?_ _
    rw [Function.update_of_ne hne, hr]
  | @served cur value m k' hc hm hk =>
    obtain ⟨q, hq⟩ := hb.current_live hc
    obtain ⟨files, d, -, rfl⟩ := hk
    change Records.Keeps (k.withFiles cur files).processes.get? x p
    rw [get?_withFiles hq]
    exact hkeeps.update (fun hxc => hserve rfl (hxc ▸ hc)) _

theorem Sound.survives (h : k.Sound σ) (hx : k.processes.get? x = some p) (op : Operation)
    (hend : ¬Step.Ends ⟨k, op⟩ x) (hserve : op.request = .service → k.current ≠ some x) :
    Records.Keeps (k.operate op).2.processes.get? x p := by
  obtain ⟨k', σ', he, ha⟩ := operate_effect h op
  rw [ha.processes]
  refine he.survives h hx ?_ hserve
  intro hc
  rw [← Bool.not_eq_true]
  exact fun hf => hend ⟨hc, hf⟩

def HasOpen (k : Kernel M D F) (x : ProcessId) (fd : Nat) (f : OpenFile) : Prop :=
  ∃ p, k.processes.get? x = some p ∧ p.files.get? fd = some f

section

variable {fd i : Nat} {f : OpenFile} {file : Option OpenFile}

omit [Machine M] [Devices D] [FileSystem F] in
theorem HasOpen.lt (h : k.HasOpen x fd f) : fd < maxOpenFiles := by
  obtain ⟨p, -, hf⟩ := h
  exact FileTable.lt_of_get? hf

omit [Machine M] [Devices D] [FileSystem F] in
theorem HasOpen.of_eq (h : k.HasOpen x fd f) (hk : k'.processes = k.processes) :
    k'.HasOpen x fd f := by
  rwa [HasOpen, hk]

omit [Devices D] [FileSystem F] in
theorem HasOpen.leave (h : k'.HasOpen x fd f) : (k.leave k').HasOpen x fd f :=
  h.of_eq (processes_leave ..)

omit [Machine M] [Devices D] [FileSystem F] in
theorem HasOpen.putFile (h : k.HasOpen x fd f) (hi : fd ≠ i) :
    (k.putFile x i file).HasOpen x fd f := by
  obtain ⟨p, hp, hf⟩ := h
  refine ⟨{ p with files := p.files.put i file }, ?_, ?_⟩
  · rw [putFile_eq hp, get?_withFiles hp, Function.update_self]
  · rw [FileTable.get?_put, if_neg (fun h => hi h.1), hf]

omit [Machine M] [Devices D] [FileSystem F] in
theorem hasOpen_putFile (hp : k.processes.get? x = some p) (hfd : fd < maxOpenFiles) :
    (k.putFile x fd (some f)).HasOpen x fd f := by
  refine ⟨{ p with files := p.files.put fd (some f) }, ?_, ?_⟩
  · rw [putFile_eq hp, get?_withFiles hp, Function.update_self]
  · rw [FileTable.get?_put, if_pos ⟨rfl, hfd⟩]

omit [Machine M] [Devices D] [FileSystem F] in
theorem requireFile_eq (hc : k.current = some x) (hp : k.processes.get? x = some p)
    (hf : p.files.get? fd = some f) : k.requireFile fd = .ok (x, p.terminal, f) := by
  have hr : k.requireCurrent = .ok x := by rw [requireCurrent, hc]
  have hg : k.processes.get x = .ok p := by rw [ProcessTable.get, hp]
  simp only [requireFile, hr, hg, bind, Except.bind, hf]
  rfl

omit [Machine M] in
theorem readDescriptor_eq (hc : k.current = some x) (hp : k.processes.get? x = some p)
    (hf : p.files.get? fd = some f) (buffer : Bytes) :
    k.readDescriptor fd buffer =
      ((f.read k.fs p.terminal buffer k.devices).result,
        (f.read k.fs p.terminal buffer k.devices).buffer,
        { k with devices := (f.read k.fs p.terminal buffer k.devices).devices }.putFile x fd
          (some (f.read k.fs p.terminal buffer k.devices).file)) := by
  have hfd : fd < maxOpenFiles := HasOpen.lt ⟨p, hp, hf⟩
  have hi : descriptorIndex fd = .ok fd := descriptorIndex_eq_ok_iff.mpr ⟨rfl, hfd⟩
  simp only [readDescriptor, hi, requireFile_eq hc hp hf]

omit [Machine M] in
theorem HasOpen.readDescriptor (h : k.HasOpen x fd f) (hc : k.current = some x) {i : Int}
    (hi : i ≠ fd) (buffer : Bytes) : (k.readDescriptor i buffer).2.2.HasOpen x fd f := by
  obtain ⟨p, hp, hf⟩ := h
  unfold Kernel.readDescriptor
  split
  · exact ⟨p, hp, hf⟩
  · rename_i j hj
    obtain ⟨rfl, -⟩ := descriptorIndex_eq_ok_iff.mp hj
    split
    · exact ⟨p, hp, hf⟩
    · rename_i y t file hr
      obtain ⟨rfl, -⟩ := requireFile_eq_ok hc hp hr
      refine HasOpen.putFile ⟨p, hp, hf⟩ ?_
      rintro rfl
      exact hi rfl

omit [Machine M] [FileSystem F] in
theorem HasOpen.writeDescriptor (h : k.HasOpen x fd f) (i : Int) (bytes : Bytes) :
    (k.writeDescriptor i bytes).2.HasOpen x fd f := by
  unfold Kernel.writeDescriptor
  split
  · exact h
  · split
    · exact h
    · exact h

omit [Machine M] in
theorem openLocked_eq (hc : k.current = some x) (hp : k.processes.get? x = some p) (name : Bytes) :
    k.openLocked name =
      match FileSystem.lookup k.fs (Bytes.beforeNul name), p.files.findFree with
      | .error e, _ => (.error (.fs e), k)
      | .ok _, none => (.error .descriptorExhausted, k)
      | .ok d, some i =>
        match (FileKind.ofType d.fileType).open k.devices with
        | (.error e, devices) => (.error e, { k with devices })
        | (.ok (), devices) =>
          (.ok i, { k with devices }.putFile x i
            (some { kind := FileKind.ofType d.fileType, inode := d.inode })) := by
  have hr : k.requireCurrent = .ok x := by rw [requireCurrent, hc]
  have hg : k.processes.get x = .ok p := by rw [ProcessTable.get, hp]
  cases hd : FileSystem.lookup k.fs (Bytes.beforeNul name) with
  | error e => simp only [openLocked, hr, hd, bind, Except.bind, Except.mapError]
  | ok d =>
    cases hi : p.files.findFree with
    | none =>
      simp only [openLocked, hr, hd, hg, hi, ProcessTable.findFreeDescriptor, bind, Except.bind,
        Except.mapError]
    | some i =>
      simp only [openLocked, hr, hd, hg, hi, ProcessTable.findFreeDescriptor, bind, Except.bind,
        Except.mapError, pure, Except.pure]
      obtain ⟨opened, devices⟩ := (FileKind.ofType d.fileType).open k.devices
      cases opened <;> rfl

omit [Machine M] in
theorem HasOpen.openLocked (h : k.HasOpen x fd f) (hc : k.current = some x) (name : Bytes) :
    (k.openLocked name).2.HasOpen x fd f := by
  obtain ⟨p, hp, hf⟩ := h
  rw [openLocked_eq hc hp]
  split
  · exact ⟨p, hp, hf⟩
  · exact ⟨p, hp, hf⟩
  · rename_i d i hd hi
    split
    · exact ⟨p, hp, hf⟩
    · refine HasOpen.putFile ⟨p, hp, hf⟩ ?_
      rintro rfl
      rw [FileTable.get?_findFree hi] at hf
      cases hf

omit [Machine M] [Devices D] [FileSystem F] in
theorem HasOpen.closeLocked (h : k.HasOpen x fd f) (hc : k.current = some x) (hi : fd ≠ i) :
    (k.closeLocked i).2.HasOpen x fd f := by
  obtain ⟨p, hp, hf⟩ := h
  unfold Kernel.closeLocked
  split
  · exact ⟨p, hp, hf⟩
  · rename_i y t file hr
    obtain ⟨rfl, -⟩ := requireFile_eq_ok hc hp hr
    split
    · exact ⟨p, hp, hf⟩
    · exact HasOpen.putFile ⟨p, hp, hf⟩ hi

theorem HasOpen.syscall (h : k.HasOpen x fd f) (hc : k.current = some x) (hcall : call.IsService)
    (hclose : call ≠ .close fd) (hread : ∀ buffer, call ≠ .read fd buffer) (caller : SavedContext) :
    (k.syscall call caller).2.HasOpen x fd f := by
  have hm : k.masked.HasOpen x fd f := h
  cases call with
  | halt | execute => cases hcall
  | read i buffer =>
    refine h.readDescriptor hc ?_ buffer
    rintro rfl
    exact hread buffer rfl
  | write i bytes => exact h.writeDescriptor i bytes
  | «open» name => exact (hm.openLocked hc name).leave
  | close i =>
    simp only [Kernel.syscall, closeFile]
    split
    · exact h
    · rename_i j hj
      obtain ⟨rfl, -⟩ := descriptorIndex_eq_ok_iff.mp hj
      split
      · exact h
      · refine (hm.closeLocked hc ?_).leave
        rintro rfl
        exact hclose rfl
  | getArguments | videoMap | setHandler | signalReturn => exact h

end

theorem Sound.hasOpen_operate (h : k.Sound σ) {fd : Nat} {f : OpenFile} (hf : k.HasOpen x fd f)
    (op : Operation) (hend : ¬Step.Ends ⟨k, op⟩ x) (hclose : ¬Step.Calls ⟨k, op⟩ x (.close fd))
    (hread : ∀ buffer, ¬Step.Calls ⟨k, op⟩ x (.read fd buffer)) :
    (k.operate op).2.HasOpen x fd f := by
  by_cases hserved : op.request = .service ∧ k.current = some x
  · obtain ⟨hop, hc⟩ := hserved
    cases hcall : op.call? with
    | none => rwa [operate_uncalled hcall hop]
    | some call =>
      obtain ⟨caller, hreq, hk⟩ := operate_call hcall k
      rw [hk]
      refine hf.syscall hc (isService_of_request (hreq.symm.trans hop)) ?_ ?_ caller
      · rintro rfl
        exact hclose ⟨hc, hcall⟩
      · rintro buffer rfl
        exact hread buffer ⟨hc, hcall⟩
  · obtain ⟨p, hp, hfile⟩ := hf
    obtain ⟨state, hx⟩ := h.survives hp op hend fun hop hc => hserved ⟨hop, hc⟩
    exact ⟨_, hx, hfile⟩

theorem Effect.newcomer_execute {line : Bytes} {caller : SavedContext} (hb : k.Sound σ)
    (he : k.Effect σ (.execute line caller) transfer k' σ') (hx : k'.processes.get? x = some p)
    (hnone : k.processes.get? x = none) :
    ∃ t prog parent, k.program line = .ok prog ∧ p = k.newRecord x t prog parent := by
  cases he with
  | refused =>
    rw [processes_leave] at hx
    exact absurd rfl (Records.ne_of_eq_none hx hnone)
  | @launched _ _ cur _ q prog hc hq hfree hprog =>
    rw [get?_afterLaunch hb.toConsistent hq (ProcessTable.get?_firstFree hfree)] at hx
    obtain ⟨rfl, hr⟩ | ⟨-, hx⟩ := Records.update_eq_some_iff.mp hx
    · exact ⟨q.terminal, prog, some cur, hprog, (Option.some.inj hr).symm⟩
    · have hold := congrArg Option.isSome hx
      rw [Records.isSome_update hq, hnone] at hold
      cases hold

theorem Effect.newcomer_finish {cause : HaltCause} (hb : k.Sound σ)
    (he : k.Effect σ (.finish cause) transfer k' σ') (hx : k'.processes.get? x = some p)
    (hnew : k.processes.get? x = none ∨ k.current = some x) :
    ∃ t prog parent, k.program shell = .ok prog ∧ p = k.newRecord x t prog parent := by
  have hnone {cur : ProcessId} (hc : k.current = some cur) :
      Function.update k.processes.get? cur none x = none := by
    by_cases hxc : x = cur
    · rw [hxc, Function.update_self]
    · rw [Function.update_of_ne hxc]
      exact hnew.resolve_right fun hx => hxc (Option.some.inj (hx.symm.trans hc))
  cases he with
  | @returned _ pid parent q r context l hc hq hr hs hσ =>
    have hr' : Function.update k.processes.get? pid none parent = some r := by
      rw [Function.update_of_ne (hb.stacked.ne_below hσ), hr]
    have hold := congrArg Option.isSome hx
    rw [get?_afterReturn hb.toConsistent hr hσ, Records.isSome_update hr', hnone hc] at hold
    cases hold
  | @relaunched _ pid new q prog hc hq hσ hfree hprog =>
    rw [get?_afterRelaunch hb.toConsistent] at hx
    obtain ⟨rfl, he⟩ | ⟨-, hx⟩ := Records.update_eq_some_iff.mp hx
    · exact ⟨q.terminal, prog, none, hprog, (Option.some.inj he).symm⟩
    · rw [hnone hc] at hx
      cases hx

theorem Effect.isSome_get? (hb : k.Sound σ) (he : k.Effect σ request transfer k' σ')
    (hexecute : ∀ line caller, request ≠ .execute line caller) (hr : request.isFinish = false)
    (x : ProcessId) : (k'.processes.get? x).isSome = (k.processes.get? x).isSome := by
  cases he with
  | refused | launched => exact absurd rfl (hexecute _ _)
  | returned | relaunched => cases hr
  | kept | shown =>
    rw [processes_leave]
    rfl
  | turned hc hp hq ht htop hne hres =>
    rw [get?_afterTurn hp hq hne, Records.isSome_update, Records.isSome_update hp]
    rw [Function.update_of_ne hne, hq]
  | served hc hm hk =>
    obtain ⟨q, hq⟩ := hb.current_live hc
    obtain ⟨files, d, -, rfl⟩ := hk
    have hget := congrFun (get?_withFiles hq files) x
    exact (congrArg Option.isSome hget).trans (Records.isSome_update hq _ x)

/-- A process that is there after an effect, in a slot that was free or whose process ended, is new
and has the program of the request. -/
theorem Effect.newcomer (hb : k.Sound σ) (he : k.Effect σ request transfer k' σ')
    (hx : k'.processes.get? x = some p)
    (hnew : k.processes.get? x = none ∨ k.current = some x ∧ request.isFinish) :
    ∃ t prog parent, k.program request.program = .ok prog ∧ p = k.newRecord x t prog parent := by
  have hfree (hr : request.isFinish = false) : k.processes.get? x = none := by
    refine hnew.resolve_right ?_
    rintro ⟨-, hf⟩
    rw [hr] at hf
    cases hf
  cases request with
  | execute line caller => exact he.newcomer_execute hb hx (hfree rfl)
  | finish cause => exact he.newcomer_finish hb hx (hnew.imp_right And.left)
  | turn | display | service =>
    have hold := he.isSome_get? hb nofun rfl x
    rw [hx, hfree rfl] at hold
    cases hold

theorem Sound.newcomer (h : k.Sound σ) {op : Operation} (hl : Step.Launches ⟨k, op⟩ x) :
    ∃ t prog parent, k.program op.request.program = .ok prog ∧
      (k.operate op).2.processes.get? x = some (k.newRecord x t prog parent) := by
  obtain ⟨k', σ', he, ha⟩ := operate_effect h op
  obtain ⟨p, hp⟩ := Option.isSome_iff_exists.mp hl.1
  have hp' : (k.operate op).2.processes.get? x = some p := hp
  have hfree : k.processes.get? x = none ∨ Step.Ends ⟨k, op⟩ x :=
    hl.2.imp_left Option.isNone_iff_eq_none.mp
  rw [ha.processes] at hp' ⊢
  obtain ⟨t, prog, parent, hprog, rfl⟩ := he.newcomer h hp' hfree
  exact ⟨t, prog, parent, hprog, hp'⟩

theorem Sound.keeps (h : k.Sound σ) (hx : k.processes.get? x = some p) {op : Operation}
    (hend : ¬Step.Ends ⟨k, op⟩ x) :
    ∃ state files, (k.operate op).2.processes.get? x = some { p with state, files } := by
  by_cases hserved : op.request = .service ∧ k.current = some x
  · obtain ⟨hop, hc⟩ := hserved
    obtain ⟨k', σ', he, ha⟩ := operate_effect h op
    rw [ha.processes]
    rw [hop] at he
    generalize (k.operate op).1.transfer = transfer at he
    cases he with
    | served hc' hm hk =>
      rw [hc, Option.some.injEq] at hc'
      subst hc'
      obtain ⟨files, d, -, rfl⟩ := hk
      refine ⟨p.state, files, ?_⟩
      change (k.withFiles x files).processes.get? x = _
      rw [get?_withFiles hx, Function.update_self]
  · obtain ⟨state, hs⟩ := h.survives hx op hend fun hop hc => hserved ⟨hop, hc⟩
    exact ⟨state, p.files, hs⟩

end Kernel

end TerminalKernel
