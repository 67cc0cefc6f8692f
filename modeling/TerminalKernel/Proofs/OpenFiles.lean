import TerminalKernel.Proofs.Deliveries
import TerminalKernel.Proofs.FileTables

namespace TerminalKernel

inductive FileTable.Opening {D F : Type} [Devices D] [FileSystem F] (t : FileTable) (fs : F)
    (devices : D) (name : Bytes) : Except KernelError Nat → Prop
  | absent {e : FsError} (hd : FileSystem.lookup fs (Bytes.beforeNul name) = .error e) :
      Opening t fs devices name (.error (.fs e))
  | full {d : Dentry} (hd : FileSystem.lookup fs (Bytes.beforeNul name) = .ok d)
      (hfull : ∀ fd, firstUserDescriptor ≤ fd → fd < maxOpenFiles → fd ∈ t.openDescriptors) :
      Opening t fs devices name (.error .descriptorExhausted)
  | failed {d : Dentry} {fd : Nat} {e : KernelError}
      (hd : FileSystem.lookup fs (Bytes.beforeNul name) = .ok d)
      (hfd : IsLeast {i | firstUserDescriptor ≤ i ∧ t.get? i = none} fd) (hlt : fd < maxOpenFiles)
      (hdevice : ((FileKind.ofType d.fileType).open devices).1 = .error e) :
      Opening t fs devices name (.error e)
  | opened {d : Dentry} {fd : Nat} (hd : FileSystem.lookup fs (Bytes.beforeNul name) = .ok d)
      (hfd : IsLeast {i | firstUserDescriptor ≤ i ∧ t.get? i = none} fd) (hlt : fd < maxOpenFiles)
      (hdevice : ((FileKind.ofType d.fileType).open devices).1 = .ok ()) :
      Opening t fs devices name (.ok fd)

variable {M D F : Type} [Machine M] [Devices D] [FileSystem F]

namespace Step

variable {s : Step M D F} {x : ProcessId} {fd i : Nat} {call call' : SystemCall}

def Opens (s : Step M D F) (x : ProcessId) (fd : Nat) : Prop :=
  ∃ name, s.Calls x (.open name) ∧ s.transfer = .answer fd

def Closes (s : Step M D F) (x : ProcessId) (fd : Nat) : Prop :=
  s.Calls x (.close fd) ∧ s.transfer = .answer 0

/-- What a step does to the file table of a process that it does not end. -/
inductive Refiles (s : Step M D F) (x : ProcessId) (t : FileTable) : FileTable → Prop
  | kept (hopens : ∀ fd, ¬s.Opens x fd) (hcloses : ∀ fd, ¬s.Closes x fd) : Refiles s x t t
  | read {fd : Nat} {buffer : Bytes} {f : OpenFile} (u : TerminalId) (d : D)
      (hcall : s.Calls x (.read fd buffer)) (hf : t.get? fd = some f) :
      Refiles s x t (t.put fd (some (f.read s.before.fs u buffer d).file))
  | opened {fd : Nat} (type : FileType) (inode : Nat) (hopens : s.Opens x fd)
      (hfree : t.findFree = some fd) :
      Refiles s x t (t.put fd (some { kind := .ofType type, inode }))
  | closed {fd : Nat} (hcloses : s.Closes x fd) (hfd : firstUserDescriptor ≤ fd) :
      Refiles s x t (t.put fd none)

omit [Machine M] [Devices D] [FileSystem F] in
theorem Calls.unique (h : s.Calls x call) (h' : s.Calls x call') : call = call' :=
  Option.some.inj (h.2.symm.trans h'.2)

theorem Calls.request (h : s.Calls x call) :
    ∃ caller, s.op.request = call.request caller := by
  obtain ⟨caller, hreq, -⟩ := Kernel.operate_call h.2 s.before
  exact ⟨caller, hreq⟩

theorem Opens.served (h : s.Opens x fd) :
    s.before.current = some x ∧ s.op.request = .service := by
  obtain ⟨name, hcall, -⟩ := h
  exact ⟨hcall.1, hcall.request.choose_spec⟩

theorem Closes.served (h : s.Closes x fd) :
    s.before.current = some x ∧ s.op.request = .service :=
  ⟨h.1.1, h.1.request.choose_spec⟩

theorem Opens.unique (h : s.Opens x fd) (h' : s.Opens x i) : i = fd := by
  obtain ⟨name, -, ht⟩ := h
  obtain ⟨name', -, ht'⟩ := h'
  exact Int.ofNat.inj (Transfer.answer.inj (ht'.symm.trans ht))

theorem Closes.unique (h : s.Closes x fd) (h' : s.Closes x i) : i = fd := by
  have hcall := SystemCall.close.inj (h'.1.unique h.1)
  exact Int.ofNat.inj hcall

theorem Opens.not_closes (h : s.Opens x fd) : ¬s.Closes x i := by
  rintro ⟨hclose, -⟩
  obtain ⟨name, hopen, -⟩ := h
  cases hopen.unique hclose

theorem Refiles.of_not_served {t : FileTable}
    (h : ¬(s.op.request = .service ∧ s.before.current = some x)) : s.Refiles x t t :=
  .kept (fun _ ho => h ⟨ho.served.2, ho.served.1⟩) fun _ hc => h ⟨hc.served.2, hc.served.1⟩

theorem Refiles.of_call {t : FileTable} (hcall : s.op.call? = some call)
    (hopen : ∀ name, call = .open name → ∀ fd : Nat, s.transfer ≠ .answer fd)
    (hclose : ∀ fd, call = .close fd → s.transfer ≠ .answer 0) : s.Refiles x t t := by
  refine .kept ?_ ?_
  · rintro fd ⟨name, hx, ht⟩
    exact hopen name (Option.some.inj (hcall.symm.trans hx.2)) fd ht
  · rintro fd ⟨hx, ht⟩
    exact hclose fd (Option.some.inj (hcall.symm.trans hx.2)) ht

/-- After a step those descriptors are open that it opened, and those that were open and that it
did not close. -/
theorem Refiles.mem_openDescriptors {t t' : FileTable} (h : s.Refiles x t t') :
    i ∈ t'.openDescriptors ↔ s.Opens x i ∨ ¬s.Closes x i ∧ i ∈ t.openDescriptors := by
  cases h with
  | kept hopens hcloses =>
    rw [or_iff_right (hopens i), and_iff_right (hcloses i)]
  | @read fd buffer f u d hcall hf =>
    have hopens : ¬s.Opens x i := by
      rintro ⟨name, hopen, -⟩
      cases hcall.unique hopen
    have hcloses : ¬s.Closes x i := by
      rintro ⟨hclose, -⟩
      cases hcall.unique hclose
    rw [FileTable.mem_openDescriptors_put_same hf, or_iff_right hopens, and_iff_right hcloses]
  | @opened fd type inode hopens hfree =>
    have hiff : s.Opens x i ↔ i = fd := ⟨hopens.unique, fun hi => hi ▸ hopens⟩
    rw [FileTable.mem_openDescriptors_put_some (FileTable.findFree_ge hfree)
      (FileTable.findFree_lt hfree), hiff, and_iff_right hopens.not_closes]
  | @closed fd hcloses hfd =>
    have hiff : s.Closes x i ↔ i = fd := ⟨hcloses.unique, fun hi => hi ▸ hcloses⟩
    have hopens : ¬s.Opens x i := fun ho => ho.not_closes hcloses
    rw [FileTable.mem_openDescriptors_put_none, hiff, or_iff_right hopens]

theorem Refiles.orderly {s : Step M D FileImage} {files : FileImage} {t t' : FileTable}
    (h : s.Refiles x t t') (hfs : s.before.fs = files) (ht : t.Orderly files) :
    t'.Orderly files := by
  subst hfs
  cases h with
  | kept => exact ht
  | read u d hcall hf => exact ht.read hf u _ d
  | opened type inode hopens hfree =>
    refine ht.put (FileTable.findFree_ge hfree) ?_
    intro f hf
    rw [Option.mem_some_iff] at hf
    rw [← hf]
    exact OpenFile.inside_new type inode _
  | closed hcloses hfd => exact ht.put hfd nofun

end Step

/-- By a history, a process opened a descriptor after its launch, and did not close it since. -/
def History.Holds (x : ProcessId) (fd : Nat) : History M D F → Prop
  | [] => False
  | s :: past => s.Opens x fd ∨ ¬s.Launches x ∧ ¬s.Closes x fd ∧ Holds x fd past

namespace Kernel

variable {s : Step M D F} {k k' : Kernel M D F} {σ : TerminalId → List ProcessId} {x : ProcessId}
  {p : ProcessRecord} {call : SystemCall} {fd : Nat} {e : KernelError}

omit [Machine M] [Devices D] [FileSystem F] in
theorem get?_putFile (hp : k.processes.get? x = some p) (fd : Nat) (file : Option OpenFile) :
    (k.putFile x fd file).processes.get? x = some { p with files := p.files.put fd file } := by
  rw [putFile_eq hp, get?_withFiles hp, Function.update_self]

theorem answerNat_error (fd : Nat) : answerNat (.error e) ≠ .answer fd := by
  intro h
  have hvalue : (-1 : Int) = fd := Transfer.answer.inj h
  omega

theorem answerNat_ok (h : fd < maxOpenFiles) : answerNat (.ok fd) = .answer fd := by
  rw [answerNat, KernelError.syscallValue_natCast (h.trans (by decide))]

omit [Machine M] [FileSystem F] in
theorem processes_writeDescriptor (i : Int) (bytes : Bytes) :
    (k.writeDescriptor i bytes).2.processes = k.processes := by
  unfold writeDescriptor
  split
  · rfl
  · split <;> rfl

omit [Machine M] in
theorem get?_readDescriptor (hc : k.current = some x) (hp : k.processes.get? x = some p) (i : Int)
    (buffer : Bytes) :
    (k.readDescriptor i buffer).2.2.processes.get? x = some p ∨
    ∃ (fd : Nat) (f : OpenFile) (u : TerminalId), i = fd ∧ p.files.get? fd = some f ∧
      (k.readDescriptor i buffer).2.2.processes.get? x =
        some { p with
          files := p.files.put fd (some (f.read k.fs u buffer k.devices).file) } := by
  unfold readDescriptor
  split
  · exact Or.inl hp
  · rename_i fd hi
    obtain ⟨rfl, -⟩ := descriptorIndex_eq_ok_iff.mp hi
    split
    · exact Or.inl hp
    · rename_i y u f hr
      obtain ⟨rfl, hf⟩ := requireFile_eq_ok hc hp hr
      exact Or.inr ⟨fd, f, u, rfl, hf, get?_putFile hp ..⟩

omit [Machine M] [Devices D] [FileSystem F] in
theorem closeLocked_cases (hc : k.current = some x) (hp : k.processes.get? x = some p) (fd : Nat) :
    (∃ e, k.closeLocked fd = (.error e, k)) ∨ k.closeLocked fd = (.ok (), k.putFile x fd none) := by
  unfold closeLocked
  split
  · exact Or.inl ⟨_, rfl⟩
  · rename_i y u f hr
    obtain ⟨rfl, -⟩ := requireFile_eq_ok hc hp hr
    split
    · exact Or.inl ⟨_, rfl⟩
    · exact Or.inr rfl

omit [Devices D] [FileSystem F] in
theorem closeFile_cases (hc : k.current = some x) (hp : k.processes.get? x = some p) (i : Int) :
    (∃ e, (k.closeFile i).1 = .error e ∧ (k.closeFile i).2.processes = k.processes) ∨
    ∃ fd : Nat, i = fd ∧ firstUserDescriptor ≤ fd ∧ (k.closeFile i).1 = .ok () ∧
      (k.closeFile i).2.processes.get? x = some { p with files := p.files.put fd none } := by
  unfold closeFile
  split
  · exact Or.inl ⟨_, rfl, rfl⟩
  · rename_i fd hi
    obtain ⟨rfl, -⟩ := descriptorIndex_eq_ok_iff.mp hi
    split
    · exact Or.inl ⟨_, rfl, rfl⟩
    · rename_i hfd
      rw [critical_eq]
      obtain ⟨e, he⟩ | hok := closeLocked_cases (k := k.masked) hc hp fd
      · rw [he]
        exact Or.inl ⟨e, rfl, processes_leave ..⟩
      · rw [hok]
        refine Or.inr ⟨fd, rfl, Nat.not_lt.mp hfd, rfl, ?_⟩
        change (k.leave (k.masked.putFile x fd none)).processes.get? x = _
        rw [processes_leave]
        exact get?_putFile (k := k.masked) hp fd none

omit [Machine M] in
/-- An open ends in one of these ways, and the caller has a new file exactly if it succeeds. -/
theorem openLocked_cases (hc : k.current = some x) (hp : k.processes.get? x = some p)
    (name : Bytes) :
    p.files.Opening k.fs k.devices name (k.openLocked name).1 ∧
    ((∃ e, (k.openLocked name).1 = .error e) ∧ (k.openLocked name).2.processes = k.processes ∨
      ∃ fd type inode, (k.openLocked name).1 = .ok fd ∧ p.files.findFree = some fd ∧
        (k.openLocked name).2.processes.get? x = some { p with
          files := p.files.put fd (some { kind := .ofType type, inode }) }) := by
  rw [openLocked_eq hc hp]
  cases hd : FileSystem.lookup k.fs (Bytes.beforeNul name) with
  | error e => exact ⟨.absent hd, Or.inl ⟨⟨_, rfl⟩, rfl⟩⟩
  | ok d =>
    cases hfree : p.files.findFree with
    | none =>
      refine ⟨.full hd ?_, Or.inl ⟨⟨_, rfl⟩, rfl⟩⟩
      intro fd hge hlt
      exact FileTable.mem_openDescriptors.mpr
        ⟨hge, FileTable.isSome_of_findFree_eq_none hfree hge hlt⟩
    | some fd =>
      have hfd := FileTable.isLeast_findFree hfree
      have hlt := FileTable.findFree_lt hfree
      cases hdevice : (FileKind.ofType d.fileType).open k.devices with
      | mk opened devices =>
        have hresult := congrArg Prod.fst hdevice
        simp only [hdevice]
        cases opened with
        | error e => exact ⟨.failed hd hfd hlt hresult, Or.inl ⟨⟨e, rfl⟩, rfl⟩⟩
        | ok u =>
          refine ⟨.opened hd hfd hlt hresult, Or.inr ⟨fd, d.fileType, d.inode, rfl, rfl, ?_⟩⟩
          exact get?_putFile (k := { k with devices }) hp ..

theorem openFile_cases (hc : k.current = some x) (hp : k.processes.get? x = some p)
    (name : Bytes) :
    p.files.Opening k.fs k.devices name (k.openFile name).1 ∧
    ((∃ e, (k.openFile name).1 = .error e) ∧ (k.openFile name).2.processes = k.processes ∨
      ∃ fd type inode, (k.openFile name).1 = .ok fd ∧ p.files.findFree = some fd ∧
        (k.openFile name).2.processes.get? x = some { p with
          files := p.files.put fd (some { kind := .ofType type, inode }) }) := by
  have hcases := openLocked_cases (k := k.masked) hc hp name
  have hprocesses : (k.openFile name).2.processes = (k.masked.openLocked name).2.processes :=
    processes_leave ..
  rw [hprocesses]
  exact hcases

theorem refiles_open {name : Bytes} (hc : s.before.current = some x)
    (hp : s.before.processes.get? x = some p) (hcall : s.op.call? = some (.open name)) :
    ∃ files, s.Refiles x p.files files ∧ s.after.processes.get? x = some { p with files } := by
  obtain ⟨caller, -, hk⟩ := operate_call hcall s.before
  have hafter : s.after = (s.before.openFile name).2 := congrArg Prod.snd hk
  have htransfer : s.transfer = answerNat (s.before.openFile name).1 :=
    congrArg (fun r => r.1.transfer) hk
  rw [hafter]
  obtain ⟨-, ⟨⟨e, he⟩, hx⟩ | ⟨fd, type, inode, hok, hfree, hx⟩⟩ := openFile_cases hc hp name
  · refine ⟨p.files, .of_call hcall (fun _ _ fd => ?_) nofun, by rw [hx, hp]⟩
    rw [htransfer, he]
    exact answerNat_error fd
  · rw [hok, answerNat_ok (FileTable.findFree_lt hfree)] at htransfer
    exact ⟨_, .opened type inode ⟨name, ⟨hc, hcall⟩, htransfer⟩ hfree, hx⟩

theorem refiles_close {i : Int} (hc : s.before.current = some x)
    (hp : s.before.processes.get? x = some p) (hcall : s.op.call? = some (.close i)) :
    ∃ files, s.Refiles x p.files files ∧ s.after.processes.get? x = some { p with files } := by
  obtain ⟨caller, -, hk⟩ := operate_call hcall s.before
  have hafter : s.after = (s.before.closeFile i).2 := congrArg Prod.snd hk
  have htransfer : s.transfer = answerUnit (s.before.closeFile i).1 :=
    congrArg (fun r => r.1.transfer) hk
  rw [hafter]
  obtain ⟨e, he, hx⟩ | ⟨fd, rfl, hfd, hok, hx⟩ := closeFile_cases hc hp i
  · refine ⟨p.files, .of_call hcall nofun (fun _ _ hzero => ?_), by rw [hx, hp]⟩
    rw [htransfer, he] at hzero
    cases hzero
  · rw [hok] at htransfer
    exact ⟨_, .closed ⟨⟨hc, hcall⟩, htransfer⟩ hfd, hx⟩

theorem refiles_syscall (hc : s.before.current = some x) (hp : s.before.processes.get? x = some p)
    (hcall : s.op.call? = some call) (hservice : call.IsService) :
    ∃ files, s.Refiles x p.files files ∧ s.after.processes.get? x = some { p with files } := by
  obtain ⟨caller, -, hk⟩ := operate_call hcall s.before
  have hafter : s.after = (s.before.syscall call caller).2 := congrArg Prod.snd hk
  cases call with
  | halt | execute => cases hservice
  | «open» name => exact refiles_open hc hp hcall
  | close i => exact refiles_close hc hp hcall
  | read i buffer =>
    rw [hafter]
    obtain hx | ⟨fd, f, u, rfl, hf, hx⟩ := get?_readDescriptor hc hp i buffer
    · exact ⟨p.files, .of_call hcall nofun nofun, hx⟩
    · exact ⟨_, .read u s.before.devices ⟨hc, hcall⟩ hf, hx⟩
  | write i bytes =>
    rw [hafter]
    refine ⟨p.files, .of_call hcall nofun nofun, ?_⟩
    change (s.before.writeDescriptor i bytes).2.processes.get? x = some p
    rw [processes_writeDescriptor, hp]
  | getArguments | videoMap | setHandler | signalReturn =>
    rw [hafter]
    exact ⟨p.files, .of_call hcall nofun nofun, hp⟩

theorem Sound.refiles (h : s.before.Sound σ) (hp : s.before.processes.get? x = some p)
    (hend : ¬s.Ends x) :
    ∃ state files, s.Refiles x p.files files ∧
      s.after.processes.get? x = some { p with state, files } := by
  by_cases hserved : s.op.request = .service ∧ s.before.current = some x
  · cases hcall : s.op.call? with
    | none =>
      have hafter : s.after = s.before := operate_uncalled hcall hserved.1 s.before
      refine ⟨p.state, p.files, .kept ?_ ?_, by rw [hafter, hp]⟩
      · rintro fd ⟨name, hopen, -⟩
        cases hcall.symm.trans hopen.2
      · rintro fd ⟨hclose, -⟩
        cases hcall.symm.trans hclose.2
    | some call =>
      obtain ⟨caller, hreq, -⟩ := operate_call hcall s.before
      have hservice := isService_of_request (hreq.symm.trans hserved.1)
      obtain ⟨files, hfiles, hx⟩ := refiles_syscall hserved.2 hp hcall hservice
      exact ⟨p.state, files, hfiles, hx⟩
  · obtain ⟨state, hx⟩ := h.survives hp s.op hend fun hop hc => hserved ⟨hop, hc⟩
    exact ⟨state, p.files, .of_not_served hserved, hx⟩

section

variable {k : Kernel M D FileImage} {s : Step M D FileImage} {past : History M D FileImage}
  {files : FileImage}

def Filed (files : FileImage) (past : History M D FileImage) (k : Kernel M D FileImage) : Prop :=
  ∀ x p, k.processes.get? x = some p → p.files.Orderly files ∧
    ∀ fd, fd ∈ p.files.openDescriptors ↔ History.Holds x fd past

theorem filed_standard (hp : p.files = .standard) (hx : ∀ fd, ¬History.Holds x fd past) :
    p.files.Orderly files ∧ ∀ fd, fd ∈ p.files.openDescriptors ↔ History.Holds x fd past := by
  rw [hp]
  refine ⟨FileTable.orderly_standard files, fun fd => iff_of_false ?_ (hx fd)⟩
  rw [FileTable.mem_openDescriptors]
  rintro ⟨hfd, hsome⟩
  rw [FileTable.get?_standard hfd] at hsome
  cases hsome

theorem Sound.not_launches_of_opens (h : s.before.Sound σ) (ho : s.Opens x fd) :
    ¬s.Launches x := by
  obtain ⟨hc, hservice⟩ := ho.served
  obtain ⟨p, hp⟩ := h.current_live hc
  refine Step.not_launches hp ?_
  rintro ⟨-, hfinish⟩
  rw [hservice] at hfinish
  cases hfinish

theorem Sound.filed (h : s.before.Sound σ) (hfs : s.before.fs = files)
    (hf : s.before.Filed files past) : s.after.Filed files (s :: past) := by
  intro x p hp
  by_cases hl : s.Launches x
  · obtain ⟨t, prog, parent, -, hx⟩ := h.newcomer hl
    have hnew : p = s.before.newRecord x t prog parent := Option.some.inj (hp.symm.trans hx)
    refine filed_standard (by rw [hnew]; rfl) ?_
    rintro fd (hopens | ⟨hn, -⟩)
    · exact h.not_launches_of_opens hopens hl
    · exact hn hl
  · have hold : ¬((s.before.processes.get? x).isNone ∨ s.Ends x) :=
      fun hn => hl ⟨Option.isSome_iff_exists.mpr ⟨p, hp⟩, hn⟩
    rw [not_or, Option.isNone_iff_eq_none, ← Ne, Option.ne_none_iff_exists'] at hold
    obtain ⟨⟨q, hq⟩, hend⟩ := hold
    obtain ⟨state, t, ht, hx⟩ := h.refiles hq hend
    obtain rfl : p = { q with state, files := t } := Option.some.inj (hp.symm.trans hx)
    obtain ⟨horderly, hholds⟩ := hf x q hq
    refine ⟨ht.orderly hfs horderly, fun fd => ?_⟩
    rw [History.Holds, ht.mem_openDescriptors, hholds, and_iff_right hl]

theorem Sound.stays_filed (h : k.Sound σ) (hfs : k.fs = files) (hf : k.Filed files past)
    (ops : List Operation) : (k.run ops).2.Filed files (history ops k past) := by
  induction ops generalizing k σ past with
  | nil => exact hf
  | cons op ops ih =>
    obtain ⟨σ', h'⟩ := h.operate op
    have hfs' : (k.operate op).2.fs = files := (h.run_fixed [op]).1.trans hfs
    exact ih h' hfs' (h.filed (s := ⟨k, op⟩) hfs hf)

/-- In every run over an image that was opened, the file table of every process is in order: the
standard streams are there, every other cursor is inside what it reads, and no read moves a cursor
out of the range of a word. The open descriptors of a process are those that its opens returned and
that it did not close since. An open of the current process ends as its table says. -/
theorem filed_run {image : Array UInt8} (himage : FileImage.open? image = .ok files) {machine : M}
    {devices : D} {layout : Layout} {timer : TimerConfig} {first : Transfer}
    (hb : (fresh machine devices files layout timer).boot = (.ok first, k))
    (ops : List Operation) :
    (∀ x p, (k.run ops).2.processes.get? x = some p →
      p.files.Orderly files ∧
      (∀ fd f, p.files.get? fd = some f → ∀ (t : TerminalId) (buffer : Bytes) (d : D),
        (f.read files t buffer d).file.position < wordCount) ∧
      ∀ fd, fd ∈ p.files.openDescriptors ↔ History.Holds x fd (history ops k [])) ∧
    ∀ op x p name, Step.Calls ⟨(k.run ops).2, op⟩ x (.open name) →
      (k.run ops).2.processes.get? x = some p →
        ∃ r, p.files.Opening files (k.run ops).2.devices name r ∧
          ((k.run ops).2.openFile name).1 = r ∧
            ((k.run ops).2.operate op).1.transfer = answerNat r := by
  have hu := unbooted_fresh machine devices files layout timer
  obtain ⟨σ, h⟩ := sound_boot hu hb
  have hboot : k.Filed files [] := by
    intro x p hp
    exact filed_standard (files_boot hu hb x p hp) fun _ => id
  refine ⟨fun x p hp => ?_, fun op x p name hcall hp => ?_⟩
  · obtain ⟨horderly, hholds⟩ := h.stays_filed (boot_fixed hu hb).1 hboot ops x p hp
    refine ⟨horderly, ?_, hholds⟩
    intro fd f hf t buffer d
    exact horderly.position_read_lt (FileImage.roomy_of_open himage) hf t buffer d
  · obtain ⟨caller, -, hk⟩ := operate_call hcall.2 (k.run ops).2
    refine ⟨_, ?_, rfl, congrArg (fun r => r.1.transfer) hk⟩
    have hfs : (k.run ops).2.fs = files := (h.run_fixed ops).1.trans (boot_fixed hu hb).1
    have hopening := (openFile_cases hcall.1 hp name).1
    rwa [hfs] at hopening

end

theorem filed_run_shellFiles :
    ∃ first k, (Sample.kernel Sample.shellFiles).boot = (.ok first, k) ∧ ∀ caller, ∃ x p,
      (k.operate (.syscall (.open shell) caller)).1.transfer = .answer 2 ∧
        (k.operate (.syscall (.open shell) caller)).2.processes.get? x = some p ∧
          p.files.Orderly Sample.shellFiles ∧ 2 ∈ p.files.openDescriptors := by
  obtain ⟨first, k, hb⟩ := Sample.boot_shellFiles
  have hu : (Sample.kernel Sample.shellFiles).Unbooted := unbooted_fresh ..
  obtain ⟨σ, h⟩ := sound_boot hu hb
  obtain ⟨x, hc⟩ := h.runs
  obtain ⟨p, hp⟩ := h.current_live hc
  refine ⟨first, k, hb, fun caller => ?_⟩
  let open₀ : Operation := .syscall (.open shell) caller
  have hcall : Step.Calls ⟨k, open₀⟩ x (.open shell) := ⟨hc, rfl⟩
  have hlookup : FileSystem.lookup Sample.shellFiles (Bytes.beforeNul shell) =
      .ok ⟨shell, .regular, 0⟩ := by
    have hname : Bytes.beforeNul shell = shell := by decide +kernel
    rw [hname]
    exact Sample.lookup_shell
  have htransfer : (k.operate open₀).1.transfer = .answer 2 := by
    obtain ⟨r, hr, -, ht⟩ := (filed_run Sample.open_shellFiles hb []).2 open₀ x p shell hcall hp
    have ht' : (k.operate open₀).1.transfer = answerNat r := ht
    rw [ht']
    rw [files_boot hu hb x p hp] at hr
    cases hr with
    | absent hd => cases hlookup.symm.trans hd
    | full hd hfull => exact absurd (hfull 2 (by decide) (by decide)) (by decide)
    | failed hd hfd hlt hdevice =>
      cases hlookup.symm.trans hd
      cases hdevice
    | @opened d fd hd hfd hlt hdevice =>
      have hle : fd ≤ 2 := hfd.2 ⟨Nat.le_refl 2, rfl⟩
      obtain rfl : fd = 2 := Nat.le_antisymm hle hfd.1.1
      rfl
  have hend : ¬Step.Ends ⟨k, open₀⟩ x := by
    rintro ⟨-, hfinish⟩
    cases hfinish
  obtain ⟨state, t, hx⟩ := h.keeps hp hend
  obtain ⟨horderly, -, hholds⟩ := (filed_run Sample.open_shellFiles hb [open₀]).1 x _ hx
  refine ⟨x, _, htransfer, hx, horderly, (hholds 2).mpr (Or.inl ⟨shell, hcall, htransfer⟩)⟩

end Kernel

end TerminalKernel
