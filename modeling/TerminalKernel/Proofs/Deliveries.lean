import TerminalKernel.Proofs.Survivors

namespace TerminalKernel

variable {M D : Type} [Machine M] [Devices D]

def Step.delivery (s : Step M D FileImage) (x : ProcessId) (fd : Nat) : Bytes :=
  match s.op.call?, (s.before.operate s.op).1 with
  | some (.read i _), ⟨.answer n, some buffer⟩ =>
    if s.before.current = some x ∧ i = fd then buffer.take n.toNat else []
  | _, _ => []

theorem Step.delivery_eq_nil {s : Step M D FileImage} {x : ProcessId} {fd : Nat}
    (h : ∀ buffer, ¬s.Calls x (.read fd buffer)) : s.delivery x fd = [] := by
  unfold delivery
  split
  · rename_i i buffer n filled hcall _
    split
    · rename_i hread
      obtain ⟨hc, rfl⟩ := hread
      exact absurd ⟨hc, hcall⟩ (h buffer)
    · rfl
  · rfl

theorem KernelError.syscallValue_natCast {n : Nat} (h : n < answerBound) :
    syscallValue ((Except.ok n : Except KernelError Nat).map Int.ofNat) = n := by
  have hn : n < 2147483648 := h
  change (if -2147483648 ≤ (n : Int) ∧ (n : Int) < 2147483648 then (n : Int) else sentinel) = n
  rw [if_pos (by omega)]

namespace Kernel

variable {k : Kernel M D FileImage} {σ : TerminalId → List ProcessId} {x : ProcessId}
  {fd inode pos : Nat} {bs name buffer : Bytes} {op : Operation}

def deliveries (x : ProcessId) (fd : Nat) (ops : List Operation) (k : Kernel M D FileImage) :
    Bytes :=
  (k.steps ops).flatMap fun s => s.delivery x fd

/-- The steps of a run leave a descriptor of a process open. -/
def StaysOpen (x : ProcessId) (fd : Nat) (ops : List Operation) (k : Kernel M D FileImage) :
    Prop :=
  ∀ s ∈ k.steps ops, ¬s.Ends x ∧ ¬s.Calls x (.close fd)

abbrev ReadsAt (k : Kernel M D FileImage) (x : ProcessId) (fd inode pos : Nat) : Prop :=
  k.HasOpen x fd ⟨.regular, pos, inode⟩

theorem operate_read (hc : k.current = some x) (hf : k.ReadsAt x fd inode pos)
    (hbs : k.fs.Content inode bs) (hcall : op.call? = some (.read fd buffer)) :
    (k.operate op).1 = ⟨.answer (FileImage.chunk bs pos buffer).length,
        some (Bytes.fill buffer (FileImage.chunk bs pos buffer))⟩ ∧
      (k.operate op).2.ReadsAt x fd inode (pos + (FileImage.chunk bs pos buffer).length) := by
  have hfd : fd < maxOpenFiles := hf.lt
  obtain ⟨p, hp, hfile⟩ := hf
  obtain ⟨caller, -, hk⟩ := operate_call hcall k
  have hdata := FileImage.readData_content hbs pos buffer
  have hread : (OpenFile.mk .regular pos inode).read k.fs p.terminal buffer k.devices =
      ⟨.ok (FileImage.chunk bs pos buffer).length,
        Bytes.fill buffer (FileImage.chunk bs pos buffer),
        ⟨.regular, pos + (FileImage.chunk bs pos buffer).length, inode⟩, k.devices⟩ := by
    have hdata' : FileSystem.readData k.fs inode pos buffer = _ := hdata
    simp only [OpenFile.read, OpenFile.readRegular, hdata']
  have hlt : (FileImage.chunk bs pos buffer).length < answerBound :=
    (FileImage.readData_le (congrArg Prod.fst hdata)).trans_lt (by decide)
  have hdescriptor := readDescriptor_eq hc hp hfile buffer
  rw [hread] at hdescriptor
  rw [hk]
  simp only [syscall, hdescriptor]
  refine ⟨?_, hasOpen_putFile (k := k) hp hfd⟩
  rw [answerNat, KernelError.syscallValue_natCast hlt]

theorem operate_open (hc : k.current = some x) (hp : ∃ p, k.processes.get? x = some p)
    {d : Dentry} (hd : k.fs.lookup (Bytes.beforeNul name) = .ok d)
    (hcall : op.call? = some (.open name)) (hfd : (k.operate op).1.transfer = .answer fd) :
    (k.operate op).2.HasOpen x fd ⟨.ofType d.fileType, 0, d.inode⟩ := by
  obtain ⟨p, hp⟩ := hp
  obtain ⟨caller, -, hk⟩ := operate_call hcall k
  have hopens : k.operate op = (⟨answerNat (k.masked.openLocked name).1, none⟩,
      k.leave (k.masked.openLocked name).2) := hk
  have hd' : FileSystem.lookup k.masked.fs (Bytes.beforeNul name) = .ok d := hd
  have hopen := openLocked_eq (k := k.masked) hc hp name
  rw [hd'] at hopen
  rw [hopens] at hfd ⊢
  have hrefused {e : KernelError} {k' : Kernel M D FileImage}
      (h : k.masked.openLocked name = (.error e, k')) : False := by
    rw [h] at hfd
    have hvalue : (-1 : Int) = fd := Transfer.answer.inj hfd
    omega
  cases hfree : p.files.findFree with
  | none =>
    rw [hfree] at hopen
    exact absurd hopen hrefused
  | some i =>
    rw [hfree] at hopen
    cases hdevice : (FileKind.ofType d.fileType).open k.masked.devices with
    | mk opened devices =>
      simp only [hdevice] at hopen
      cases opened with
      | error e => exact absurd hopen hrefused
      | ok u =>
        have hi : i < maxOpenFiles := FileTable.findFree_lt hfree
        have hopened : k.masked.openLocked name = (.ok i, { k.masked with devices }.putFile x i
            (some { kind := .ofType d.fileType, inode := d.inode })) := hopen
        rw [hopened] at hfd ⊢
        rw [answerNat, KernelError.syscallValue_natCast (hi.trans (by decide))] at hfd
        obtain rfl : i = fd := Int.ofNat.inj (Transfer.answer.inj hfd)
        exact (hasOpen_putFile (k := { k.masked with devices }) hp hi).leave

theorem Sound.delivers (h : k.Sound σ) (hbs : k.fs.Content inode bs) (hpos : pos ≤ bs.length)
    (hf : k.ReadsAt x fd inode pos) (ops : List Operation) (hkeep : k.StaysOpen x fd ops) :
    (k.deliveries x fd ops) <+: bs.drop pos ∧
      (k.run ops).2.ReadsAt x fd inode (pos + (k.deliveries x fd ops).length) := by
  induction ops generalizing k σ pos with
  | nil =>
    refine ⟨?_, hf⟩
    exact List.nil_prefix
  | cons op ops ih =>
    obtain ⟨hstep, hlater⟩ := List.forall_mem_cons.mp hkeep
    obtain ⟨σ', h'⟩ := h.operate op
    have hfs : (k.operate op).2.fs = k.fs := (h.run_fixed [op]).1
    have hbs' : (k.operate op).2.fs.Content inode bs := by rwa [hfs]
    have hcons : k.deliveries x fd (op :: ops) =
        Step.delivery ⟨k, op⟩ x fd ++ (k.operate op).2.deliveries x fd ops := List.flatMap_cons
    rw [hcons, run_cons]
    by_cases hread : ∃ buffer, Step.Calls ⟨k, op⟩ x (.read fd buffer)
    · obtain ⟨buffer, hc, hcall⟩ := hread
      obtain ⟨hreply, hnext⟩ := operate_read hc hf hbs hcall
      have hdelivery : Step.delivery ⟨k, op⟩ x fd = FileImage.chunk bs pos buffer := by
        simp only [Step.delivery, hcall, hreply, hc, and_self, if_true]
        exact List.take_left
      have hchunk : (FileImage.chunk bs pos buffer).length ≤ bs.length - pos := by
        rw [List.length_take, List.length_drop]
        exact Nat.min_le_right ..
      obtain ⟨rest, hrest⟩ : FileImage.chunk bs pos buffer <+: bs.drop pos := List.take_prefix ..
      have hdrop : bs.drop (pos + (FileImage.chunk bs pos buffer).length) = rest := by
        rw [← List.drop_drop, ← hrest, List.drop_left]
      obtain ⟨hgiven, hend⟩ := ih h' hbs' (by omega) hnext hlater
      rw [hdelivery, List.length_append, ← Nat.add_assoc, ← hrest]
      rw [hdrop] at hgiven
      exact ⟨(List.prefix_append_right_inj _).mpr hgiven, hend⟩
    · rw [not_exists] at hread
      have hnext := h.hasOpen_operate hf op hstep.1 hstep.2 hread
      rw [Step.delivery_eq_nil hread, List.nil_append]
      exact ih h' hbs' hpos hnext hlater

/-- The bytes that a process reads from a regular file that it opened, until it closes the file or
ends, are the file from its beginning on: every read gives as much of what is next as its buffer
takes, so it gives nothing exactly if there is no room or no more to read. -/
theorem delivers_run {machine : M} {devices : D} {files : FileImage} {layout : Layout}
    {timer : TimerConfig} {first : Transfer}
    (hb : (fresh machine devices files layout timer).boot = (.ok first, k)) (ops : List Operation)
    {opening : Operation} {reply : Reply} {opened : Kernel M D FileImage} {d : Dentry}
    (hcall : Step.Calls ⟨(k.run ops).2, opening⟩ x (.open name))
    (hopened : (k.run ops).2.operate opening = (reply, opened))
    (hfd : reply.transfer = .answer fd) (hd : files.lookup (Bytes.beforeNul name) = .ok d)
    (hr : d.fileType = .regular) (hbs : files.Content d.inode bs) (later : List Operation)
    (hkeep : opened.StaysOpen x fd later) :
    opened.deliveries x fd later <+: bs ∧
      ∀ next buffer, Step.Calls ⟨(opened.run later).2, next⟩ x (.read fd buffer) →
        ((opened.run later).2.operate next).1 =
            ⟨.answer (FileImage.chunk bs (opened.deliveries x fd later).length buffer).length,
              some (Bytes.fill buffer
                (FileImage.chunk bs (opened.deliveries x fd later).length buffer))⟩ ∧
          (buffer ≠ [] →
            (((opened.run later).2.operate next).1.transfer = .answer 0 ↔
              opened.deliveries x fd later = bs)) := by
  have hu := unbooted_fresh machine devices files layout timer
  obtain ⟨_, h₀⟩ := sound_boot hu hb
  obtain ⟨σ, h⟩ := h₀.run ops
  obtain ⟨σ', h'⟩ := h.operate opening
  have hfs : (k.run ops).2.fs = files := (h₀.run_fixed ops).1.trans (boot_fixed hu hb).1
  have hfs' : opened.fs = files := by
    rw [← hfs, ← (h.run_fixed [opening]).1, run_cons, hopened]
    rfl
  rw [hopened] at h'
  have hstart : opened.ReadsAt x fd d.inode 0 := by
    have hopen := operate_open hcall.1 (h.current_live hcall.1) (by rw [hfs]; exact hd) hcall.2
      (by rw [hopened]; exact hfd)
    rwa [hopened, hr] at hopen
  have hcontent : opened.fs.Content d.inode bs := by rwa [hfs']
  obtain ⟨hgiven, hend⟩ := h'.delivers hcontent (Nat.zero_le _) hstart later hkeep
  rw [List.drop_zero] at hgiven
  rw [Nat.zero_add] at hend
  have hcontent' : (opened.run later).2.fs.Content d.inode bs := by
    rwa [(h'.run_fixed later).1]
  refine ⟨hgiven, ?_⟩
  intro next buffer hnext
  have hread := (operate_read hnext.1 hend hcontent' hnext.2).1
  refine ⟨hread, ?_⟩
  intro hbuffer
  have hroom : 0 < buffer.length := List.length_pos_of_ne_nil hbuffer
  rw [hread, Transfer.answer.injEq, Int.natCast_eq_zero, List.length_take, List.length_drop]
  constructor
  · intro hzero
    exact hgiven.eq_of_length_le (by omega)
  · intro hall
    rw [hall]
    omega

theorem staysOpen_of_forall {ops : List Operation}
    (h : ∀ op ∈ ops, op.request.isFinish = false ∧ op.call? ≠ some (.close fd)) :
    k.StaysOpen x fd ops := by
  induction ops generalizing k with
  | nil =>
    intro s hs
    cases hs
  | cons op ops ih =>
    obtain ⟨⟨hfinish, hclose⟩, hops⟩ := List.forall_mem_cons.mp h
    refine List.forall_mem_cons.mpr ⟨⟨?_, fun hcall => hclose hcall.2⟩, ih hops⟩
    rintro ⟨-, he⟩
    rw [hfinish] at he
    cases he

omit [Devices D] in
theorem files_boot {first : Transfer} {k₀ : Kernel M D FileImage} (hu : k₀.Unbooted)
    (hb : k₀.boot = (.ok first, k)) :
    ∀ x p, k.processes.get? x = some p → p.files = .standard :=
  records_boot (P := fun p => p.files = .standard) (fun _ => rfl) (fun _ hp => hp) hu hb

theorem content_shell : Sample.shellFiles.Content 0 (Sample.program Sample.shellEntry 40) := by
  refine ⟨Sample.fileLength_shell, ?_⟩
  exact ((FileImage.readBlocks_eq_ok_iff Sample.shellFiles 0 0 40 _).mp Sample.readBlocks_shell).2

theorem delivers_run_shellFiles :
    ∃ first k, (Sample.kernel Sample.shellFiles).boot = (.ok first, k) ∧
      ∀ caller buffer buffer',
        let later : List Operation := [.syscall (.read 2 buffer) caller, .timerTick caller,
          .timerTick caller, .timerTick caller, .syscall (.read 2 buffer') caller]
        ∃ x opened, k.current = some x ∧
          k.operate (.syscall (.open shell) caller) = (⟨.answer 2, none⟩, opened) ∧
          opened.deliveries x 2 later <+: Sample.program Sample.shellEntry 40 := by
  obtain ⟨first, k, hb⟩ := Sample.boot_shellFiles
  refine ⟨first, k, hb, ?_⟩
  intro caller buffer buffer' later
  have hu : (Sample.kernel Sample.shellFiles).Unbooted := unbooted_fresh ..
  obtain ⟨σ, h⟩ := sound_boot hu hb
  obtain ⟨x, hc⟩ := h.runs
  obtain ⟨p, hp⟩ := h.current_live hc
  have hfs : k.fs = Sample.shellFiles := (boot_fixed hu hb).1
  have hlookup : Sample.shellFiles.lookup (Bytes.beforeNul shell) = .ok ⟨shell, .regular, 0⟩ := by
    have hname : Bytes.beforeNul shell = shell := by decide +kernel
    rw [hname]
    exact Sample.lookup_shell
  have hlookup' : FileSystem.lookup k.masked.fs (Bytes.beforeNul shell) =
      .ok ⟨shell, .regular, 0⟩ := by
    change FileSystem.lookup k.fs _ = _
    rw [hfs]
    exact hlookup
  have hopen : k.masked.openLocked shell =
      (.ok 2, k.masked.putFile x 2 (some { kind := .regular, inode := 0 })) := by
    rw [openLocked_eq (k := k.masked) hc hp, hlookup', files_boot hu hb x p hp]
    rfl
  have hopened : k.operate (.syscall (.open shell) caller) =
      (⟨answerNat (k.masked.openLocked shell).1, none⟩, k.leave (k.masked.openLocked shell).2) := rfl
  rw [hopen] at hopened
  refine ⟨x, _, hc, hopened, ?_⟩
  refine (delivers_run hb [] ⟨hc, rfl⟩ hopened rfl hlookup rfl content_shell later
    (staysOpen_of_forall ?_)).1
  intro op hop
  simp only [later, List.mem_cons, List.not_mem_nil, or_false] at hop
  obtain rfl | rfl | rfl | rfl | rfl := hop <;> exact ⟨rfl, by simp [Operation.call?]⟩

end Kernel

end TerminalKernel
