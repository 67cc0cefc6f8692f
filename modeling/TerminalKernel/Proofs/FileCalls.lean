import TerminalKernel.Proofs.Bootable
import TerminalKernel.Proofs.FileContents
import TerminalKernel.Proofs.Interrupts

namespace TerminalKernel

/-- The interrupt flag of a machine is as it was, and so is everything else that switching
interrupts off and on leaves alone. -/
structure Alike {M : Type} [Machine M] (m' m : M) : Prop where
  interrupts : Machine.interruptsEnabled m' = Machine.interruptsEnabled m
  rest : ∀ {α : Type} (observe : M → α),
    (∀ m, observe (Machine.perform .disableInterrupts m) = observe m) →
      (∀ m, observe (Machine.perform .enableInterrupts m) = observe m) → observe m' = observe m

theorem Alike.refl {M : Type} [Machine M] (m : M) : Alike m m := ⟨rfl, fun _ _ _ => rfl⟩

/-- On a recorder nothing is left alone but the flag itself. -/
theorem Alike.eq {m' m : MachineRecorder} (h : Alike m' m) : m' = m := by
  have hrest := h.rest (fun m => { m with interrupts := true }) (fun _ => rfl) fun _ => rfl
  have hflag : m'.interrupts = m.interrupts := h.interrupts
  cases m
  cases m'
  cases hflag
  simpa using hrest

theorem Kernel.alike_leave {M D F : Type} [Machine M] [LawfulInterrupts M] (k : Kernel M D F) :
    Alike (k.leave k.masked).machine k.machine := by
  refine ⟨k.masked_masked.interruptsEnabled_leave, ?_⟩
  intro α observe hoff hon
  unfold leave unmasked
  split
  · exact (hon _).trans (hoff _)
  · exact hoff _

theorem FileTable.put_self {t : FileTable} {fd : Nat} {file : OpenFile}
    (h : t.get? fd = some file) : t.put fd (some file) = t := by
  refine congrArg FileTable.mk (Vector.ext ?_)
  intro i hi
  rw [Vector.getElem_setIfInBounds hi]
  split
  · rename_i he
    subst he
    simpa [get?, hi] using h.symm
  · rfl

theorem FileTable.findFree_lt {t : FileTable} {fd : Nat} (h : t.findFree = some fd) :
    fd < maxOpenFiles := by
  have hmem := List.mem_of_find?_eq_some h
  rw [userDescriptors, List.mem_range'_1] at hmem
  exact hmem.2

theorem ProcessTable.findFreeDescriptor_lt {t : ProcessTable} {pid : ProcessId} {fd : Nat}
    (h : t.findFreeDescriptor pid = .ok fd) : fd < maxOpenFiles := by
  unfold findFreeDescriptor at h
  cases hg : t.get pid with
  | error e =>
    rw [hg] at h
    cases h
  | ok p =>
    simp only [hg, bind, Except.bind, pure, Except.pure] at h
    split at h
    · rename_i fd' hfree
      cases h
      exact FileTable.findFree_lt hfree
    · cases h

namespace FileImage

theorem length_dentryAt {f : FileImage} {i : Nat} {d : Dentry} (h : f.dentryAt i = .ok d) :
    d.name.length ≤ maxFileName := by
  have hfield (field : Bytes) (type : FileType) (inode : Nat) :
      (Dentry.ofField field type inode).name.length ≤ maxFileName :=
    (List.takeWhile_prefix _).length_le.trans (List.length_take_le ..)
  unfold dentryAt at h
  split at h
  · unfold dentry at h
    dsimp only at h
    split at h
    · cases h
    · simp only [bind, Except.bind, pure, Except.pure] at h
      split at h
      · cases h
      · split at h
        · cases h
        · split at h
          · cases h
          · cases h
            exact hfield ..
  · cases h

theorem readData_le {f : FileImage} {inode offset n : Nat} {buffer : Bytes}
    (h : (f.readData inode offset buffer).1 = .ok n) : n ≤ blocksPerInode * blockSize := by
  obtain ⟨length, bs, -, -, hh, hr⟩ | ⟨⟨e, he⟩, -⟩ := f.readData_cases inode offset buffer
  · rw [hr] at h
    cases h
    by_cases hbs : bs = []
    · rw [hbs]
      exact Nat.zero_le _
    · exact (Nat.le_add_left ..).trans (hh.length_le hbs)
  · rw [he] at h
    cases h

end FileImage

abbrev answerBound : Nat := 0x80000000

namespace OpenFile

variable {D : Type}

/-- A read moves the cursor only if its result can be returned. -/
theorem read_file [Devices D] (f : OpenFile) (fs : FileImage) (t : TerminalId) (buffer : Bytes)
    (d : D) : (f.read fs t buffer d).file = f ∨
      ∃ n, (f.read fs t buffer d).result = .ok n ∧ n < answerBound := by
  unfold read
  split
  · exact Or.inl rfl
  · exact Or.inl rfl
  · exact Or.inl rfl
  · unfold readDirectory
    split
    · exact Or.inl rfl
    · split
      · exact Or.inl rfl
      · rename_i entry he
        have hname : (entry.name.take buffer.length).length ≤ maxFileName := by
          rw [List.length_take]
          exact (Nat.min_le_right ..).trans (FileImage.length_dentryAt he)
        exact Or.inr ⟨_, rfl, hname.trans_lt (by decide)⟩
  · unfold readRegular
    split
    · exact Or.inl rfl
    · rename_i n b hr
      have hle : n ≤ blocksPerInode * blockSize := FileImage.readData_le (congrArg Prod.fst hr)
      exact Or.inr ⟨n, rfl, hle.trans_lt (by decide)⟩

end OpenFile

namespace KernelError

theorem syscallValue_ne_sentinel {n : Nat} (h : n < answerBound) :
    syscallValue ((Except.ok n : Except KernelError Nat).map Int.ofNat) ≠ sentinel := by
  have hn : n < 2147483648 := h
  change (if -2147483648 ≤ (n : Int) ∧ (n : Int) < 2147483648 then (n : Int) else sentinel) ≠ -1
  rw [if_pos (by omega)]
  omega

end KernelError

namespace Kernel

variable {M D : Type} {k k' : Kernel M D FileImage} {cur : ProcessId} {p : ProcessRecord}
  {value : Int} {m : M}

/-- The effect of a call of a process with an answer: at most one of its descriptors has changed,
and none if the call failed. Devices aside, the rest of the kernel is as it was. -/
def Edits (k k' : Kernel M D FileImage) (m : M) (cur : ProcessId) (p : ProcessRecord)
    (value : Int) : Prop :=
  ∃ files d, k' = k.served cur files d m ∧ (∃ fd, ∀ i, i ≠ fd → files.get? i = p.files.get? i) ∧
    (value = KernelError.sentinel → files = p.files)

theorem edits_refl (hp : k.processes.get? cur = some p) (d : D) (value : Int) :
    k.Edits { k with devices := d } k.machine cur p value := by
  refine ⟨p.files, d, ?_, ⟨0, fun _ _ => rfl⟩, fun _ => rfl⟩
  rw [served, withFiles_self hp]

theorem edits_putFile (hp : k.processes.get? cur = some p) (d : D) {fd : Nat}
    {file : Option OpenFile} (hv : value = KernelError.sentinel → p.files.put fd file = p.files) :
    k.Edits ({ k with devices := d }.putFile cur fd file) k.machine cur p value := by
  refine ⟨p.files.put fd file, d, ?_, ⟨fd, ?_⟩, hv⟩
  · exact putFile_eq (k := { k with devices := d }) hp fd file
  · intro i hi
    rw [FileTable.get?_put, if_neg (fun h => hi h.1)]

section

variable [Devices D] (hc : k.current = some cur) (hp : k.processes.get? cur = some p)

include hc hp

theorem edits_readDescriptor (fd : Int) (buffer : Bytes) :
    k.Edits (k.readDescriptor fd buffer).2.2 k.machine cur p
      (KernelError.syscallValue ((k.readDescriptor fd buffer).1.map Int.ofNat)) := by
  unfold readDescriptor
  split
  · exact edits_refl hp k.devices _
  · rename_i fd _
    split
    · exact edits_refl hp k.devices _
    · rename_i x t file hr
      obtain ⟨rfl, hfile⟩ := requireFile_eq_ok hc hp hr
      refine edits_putFile hp _ ?_
      intro hv
      -- A cursor that has moved belongs to a result that is not -1.
      obtain hsame | ⟨n, hn, hlt⟩ := file.read_file k.fs t buffer k.devices
      · rw [hsame, FileTable.put_self hfile]
      · dsimp only at hv
        rw [hn] at hv
        exact absurd hv (KernelError.syscallValue_ne_sentinel hlt)

omit hc in
theorem edits_writeDescriptor (fd : Int) (bytes : Bytes) (value : Int) :
    k.Edits (k.writeDescriptor fd bytes).2 k.machine cur p value := by
  unfold writeDescriptor
  split
  · exact edits_refl hp k.devices _
  · split
    · exact edits_refl hp k.devices _
    · exact edits_refl hp _ _

theorem edits_openLocked (name : Bytes) :
    k.Edits (k.openLocked name).2 k.machine cur p
      (KernelError.syscallValue ((k.openLocked name).1.map Int.ofNat)) := by
  have hr : k.requireCurrent = .ok cur := by rw [requireCurrent, hc]
  simp only [openLocked, hr, bind, Except.bind, pure, Except.pure]
  split
  · exact edits_refl hp k.devices _
  · rename_i x entry fd hfound
    obtain ⟨rfl, hfd⟩ : x = cur ∧ fd < maxOpenFiles := by
      split at hfound
      · cases hfound
      · split at hfound
        · cases hfound
        · rename_i fd' hfree
          cases hfound
          exact ⟨rfl, ProcessTable.findFreeDescriptor_lt hfree⟩
    split
    · exact edits_refl hp _ _
    · refine edits_putFile hp _ ?_
      intro hv
      exact absurd hv (KernelError.syscallValue_ne_sentinel (hfd.trans (by decide)))

omit [Devices D] in
theorem edits_closeLocked (fd : Nat) :
    k.Edits (k.closeLocked fd).2 k.machine cur p
      (KernelError.syscallValue ((k.closeLocked fd).1.map fun _ => 0)) := by
  unfold closeLocked
  split
  · exact edits_refl hp k.devices _
  · rename_i x t file hr
    obtain ⟨rfl, hfile⟩ := requireFile_eq_ok hc hp hr
    split
    · exact edits_refl hp k.devices _
    · refine edits_putFile hp k.devices ?_
      intro hv
      have hzero : (0 : Int) = -1 := hv
      cases hzero

end

def Answers [Machine M] (k k' : Kernel M D FileImage) (cur : ProcessId) (p : ProcessRecord)
    (transfer : Transfer) : Prop :=
  ∃ value m, transfer = .answer value ∧ Alike m k.machine ∧ k.Edits k' m cur p value

variable [Machine M]

theorem Edits.answers (h : k.Edits k' k.machine cur p value) :
    k.Answers k' cur p (.answer value) := ⟨value, k.machine, rfl, .refl _, h⟩

theorem Edits.answers_leave [LawfulInterrupts M] (h : k.masked.Edits k' k.masked.machine cur p value) :
    k.Answers (k.leave k') cur p (.answer value) := by
  obtain ⟨files, d, rfl, hfd, hv⟩ := h
  refine ⟨value, _, rfl, k.alike_leave, files, d, ?_, hfd, hv⟩
  unfold leave unmasked
  split <;> rfl

variable [LawfulInterrupts M] [Devices D]

theorem syscall_answers (hc : k.current = some cur) (hp : k.processes.get? cur = some p)
    {call : SystemCall} (hcall : call.IsService) (caller : SavedContext) :
    k.Answers (k.syscall call caller).2 cur p (k.syscall call caller).1.transfer := by
  cases call with
  | halt code => cases hcall
  | execute line => cases hcall
  | read fd buffer => exact (edits_readDescriptor hc hp fd buffer).answers
  | write fd bytes => exact (edits_writeDescriptor hp fd bytes _).answers
  | «open» name => exact (edits_openLocked (k := k.masked) hc hp name).answers_leave
  | close fd =>
    simp only [syscall, closeFile]
    split
    · exact (edits_refl hp k.devices _).answers
    · split
      · exact (edits_refl hp k.devices _).answers
      · exact (edits_closeLocked (k := k.masked) hc hp _).answers_leave
  | getArguments buffer => exact (edits_refl hp k.devices _).answers
  | videoMap dest => exact (edits_refl hp k.devices _).answers
  | setHandler | signalReturn => exact (edits_refl hp k.devices _).answers

theorem operate_answers (hc : k.current = some cur) (hp : k.processes.get? cur = some p)
    {op : Operation} (hop : op.request = .service) :
    k.Answers (k.operate op).2 cur p (k.operate op).1.transfer := by
  have hcall {call : SystemCall} {caller : SavedContext} (h : call.request caller = .service) :
      call.IsService := by
    cases call with
    | halt | execute => cases h
    | read | write | «open» | close | getArguments | videoMap | setHandler | signalReturn =>
      trivial
  cases op with
  | syscall call caller => exact syscall_answers hc hp (hcall hop) caller
  | syscallRaw number argument bytes caller =>
    obtain ⟨call, hreq, hr⟩ | ⟨-, hr⟩ := operate_syscallRaw number argument bytes caller k
    · rw [hreq] at hop
      rw [hr]
      exact syscall_answers hc hp (hcall hop) caller
    · rw [hr]
      exact (edits_refl hp k.devices _).answers
  | execute | halt | exception | timerTick | switchTerminal => cases hop

/-- After every run, a call that works on files changes at most one descriptor of the current
process, and none if it answers -1. -/
theorem answers_run {machine : M} {devices : D} {files : FileImage} {layout : Layout}
    {timer : TimerConfig} {first : Transfer}
    (hb : (fresh machine devices files layout timer).boot = (.ok first, k))
    (ops : List Operation) {op : Operation} (hop : op.request = .service) :
    ∃ cur p, (k.run ops).2.current = some cur ∧ (k.run ops).2.processes.get? cur = some p ∧
      (k.run ops).2.Answers ((k.run ops).2.operate op).2 cur p
        ((k.run ops).2.operate op).1.transfer := by
  obtain ⟨σ, h⟩ := sound_boot (unbooted_fresh ..) hb
  obtain ⟨σ', h'⟩ := h.run ops
  obtain ⟨cur, hc⟩ := h'.runs
  obtain ⟨p, hp⟩ := h'.current_live hc
  exact ⟨cur, p, hc, hp, operate_answers hc hp hop⟩

theorem answers_run_shellFiles :
    ∃ first k, (Sample.kernel Sample.shellFiles).boot = (.ok first, k) ∧
      ∀ ops caller fd argument,
        ∀ op ∈ [Operation.syscall (.read fd shell) caller, .syscall (.open shell) caller,
            .syscall (.close fd) caller, .syscallRaw 11 argument shell caller],
          ∃ cur p value files d, (k.run ops).2.processes.get? cur = some p ∧
            ((k.run ops).2.operate op).1.transfer = .answer value ∧
            ((k.run ops).2.operate op).2 =
              { (k.run ops).2.withFiles cur files with devices := d } ∧
            (∃ i, ∀ j, j ≠ i → files.get? j = p.files.get? j) ∧
            (value = KernelError.sentinel → files = p.files) := by
  obtain ⟨first, k, hb⟩ := Sample.boot_shellFiles
  refine ⟨first, k, hb, ?_⟩
  intro ops caller fd argument op hop
  have hservice : op.request = .service := by
    simp only [List.mem_cons, List.mem_nil_iff, or_false] at hop
    obtain rfl | rfl | rfl | rfl := hop <;> rfl
  obtain ⟨cur, p, -, hp, value, m, ht, hm, files, d, hk, hfd, hv⟩ := answers_run hb ops hservice
  rw [hm.eq] at hk
  exact ⟨cur, p, value, files, d, hp, ht, hk, hfd, hv⟩

end Kernel

end TerminalKernel
