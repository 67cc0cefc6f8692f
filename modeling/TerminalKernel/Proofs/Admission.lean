import TerminalKernel.Proofs.Bootable
import TerminalKernel.Proofs.Chunks
import TerminalKernel.Proofs.RoundTrips

namespace TerminalKernel

section

variable {l : Layout} {header : Bytes} {eip : UInt32}

theorem Executable.entry_eq_ok_iff : Executable.entry l header = .ok eip ↔
    headerLength ≤ header.length ∧ header.take 4 = magic ∧
      Bytes.toWord (header.drop entryOffset) = eip ∧ l.inProgramWindow eip = true := by
  unfold entry
  by_cases hm : header.length < headerLength ∨ header.take 4 ≠ magic
  · rw [if_pos hm]
    constructor
    · intro h
      cases h
    · rintro ⟨hl, ht, -⟩
      exact (hm.elim (Nat.not_lt.mpr hl) (· ht)).elim
  · rw [if_neg hm]
    rw [not_or, Nat.not_lt, not_not] at hm
    dsimp only
    split
    · rename_i hw
      rw [Except.ok.injEq]
      exact ⟨fun h => ⟨hm.1, hm.2, h, h ▸ hw⟩, fun h => h.2.2.1⟩
    · rename_i hw
      constructor
      · intro h
        cases h
      · rintro ⟨-, -, rfl, h⟩
        exact absurd h hw

theorem Executable.entry_error {e : KernelError} (h : Executable.entry l header = .error e) :
    e = .executableMalformed := by
  unfold entry at h
  split at h
  · cases h
    rfl
  · dsimp only at h
    split at h
    · cases h
    · cases h
      rfl

theorem Command.parse_error {line : Bytes} {e : KernelError} (h : Command.parse line = .error e) :
    e = .invalidCommand := by
  unfold parse at h
  dsimp only at h
  split at h
  · cases h
    rfl
  · split at h
    · cases h
    · cases h
      rfl

end

def FileImage.IsExecutable (f : FileImage) (l : Layout) (inode : Nat) (eip : UInt32) : Prop :=
  ∃ length header, f.fileLength inode = .ok length ∧ Executable.headerLength ≤ length ∧
    header.length = Executable.headerLength ∧ f.Holds inode 0 header ∧
      header.take 4 = Executable.magic ∧
        Bytes.toWord (header.drop Executable.entryOffset) = eip ∧ l.inProgramWindow eip = true

theorem FileImage.readHeader (f : FileImage) (l : Layout) (inode : Nat) :
    (∃ n header, f.readData inode 0 (List.replicate Executable.headerLength 0) = (.ok n, header) ∧
      ∀ eip, Executable.entry l (header.take n) = .ok eip ↔ f.IsExecutable l inode eip) ∨
    (∃ e, (f.readData inode 0 (List.replicate Executable.headerLength 0)).1 = .error e) ∧
      ∀ eip, ¬f.IsExecutable l inode eip := by
  have hmin {length : Nat} (h : Executable.headerLength ≤ length) :
      min (List.replicate Executable.headerLength (0 : UInt8)).length (length - 0) =
        Executable.headerLength := by
    rw [List.length_replicate, Nat.sub_zero, Nat.min_eq_left h]
  obtain ⟨length, bs, hl, hbs, hh, hr⟩ | ⟨he, hno⟩ := f.readData_cases inode 0
    (List.replicate Executable.headerLength 0)
  · refine Or.inl ⟨_, _, hr, ?_⟩
    intro eip
    rw [Bytes.fill, List.take_left, Executable.entry_eq_ok_iff]
    constructor
    · rintro ⟨hlen, hok⟩
      rw [hbs, List.length_replicate, Nat.sub_zero] at hlen
      have hle := hlen.trans (Nat.min_le_right ..)
      exact ⟨length, bs, hl, hle, hbs.trans (hmin hle), hh, hok⟩
    · rintro ⟨length', header, hl', hle, hlen, hh', hok⟩
      rw [hl] at hl'
      cases hl'
      have hbs' : bs.length = header.length := by rw [hbs, hmin hle, hlen]
      rw [hh.eq hh' hbs']
      exact ⟨Nat.le_of_eq hlen.symm, hok⟩
  · refine Or.inr ⟨he, ?_⟩
    rintro eip ⟨length, header, hl, hle, hlen, hh, -⟩
    exact hno length header hl (hlen.trans (hmin hle).symm) hh

namespace Kernel

variable {M D : Type} {k : Kernel M D FileImage} {name line : Bytes} {d : Dentry} {eip : UInt32}
  {inode length : Nat} {content : Bytes} {e : KernelError}

def IsProgram (k : Kernel M D FileImage) (d : Dentry) (eip : UInt32) : Prop :=
  d.fileType = .regular ∧ k.fs.IsExecutable k.layout d.inode eip

/-- A command line names a program that begins at `eip`, and whose whole file can be read and fits
between the load address and the end of the window. -/
def Loadable (k : Kernel M D FileImage) (line : Bytes) (eip : UInt32) : Prop :=
  ∃ command d content, Command.parse line = .ok command ∧
    k.fs.lookup command.name.bytes = .ok d ∧ k.IsProgram d eip ∧ k.fs.Content d.inode content ∧
      content.length ≤ k.layout.room

/-- What stands in the way of a launch, in the order in which it is looked for. -/
inductive Obstacle (k : Kernel M D FileImage) (line : Bytes) : KernelError → Prop
  | empty (hline : Bytes.beforeNul line = []) : Obstacle k line .invalidCommand
  | full (hline : Bytes.beforeNul line ≠ []) (hfull : ∀ pid, k.processes.get? pid ≠ none) :
      Obstacle k line .registryExhausted
  | unparsed {free : ProcessId} {e : KernelError} (hline : Bytes.beforeNul line ≠ [])
      (hfree : k.processes.get? free = none) (hparse : Command.parse line = .error e) :
      Obstacle k line .invalidCommand
  | absent {free : ProcessId} {command : Command} {e : FsError}
      (hfree : k.processes.get? free = none) (hparse : Command.parse line = .ok command)
      (hlookup : k.fs.lookup command.name.bytes = .error e) :
      Obstacle k line .executableNotFound
  | malformed {free : ProcessId} {command : Command} {d : Dentry}
      (hfree : k.processes.get? free = none) (hparse : Command.parse line = .ok command)
      (hlookup : k.fs.lookup command.name.bytes = .ok d) (hfile : ∀ eip, ¬k.IsProgram d eip) :
      Obstacle k line .executableMalformed
  | long {free : ProcessId} {command : Command} {d : Dentry} {eip : UInt32} {length : Nat}
      (hfree : k.processes.get? free = none) (hparse : Command.parse line = .ok command)
      (hlookup : k.fs.lookup command.name.bytes = .ok d) (hfile : k.IsProgram d eip)
      (hlength : k.fs.fileLength d.inode = .ok length) (hroom : k.layout.room < length) :
      Obstacle k line .executableMalformed
  | unreadable {free : ProcessId} {command : Command} {d : Dentry} {eip : UInt32} {length : Nat}
      (hfree : k.processes.get? free = none) (hparse : Command.parse line = .ok command)
      (hlookup : k.fs.lookup command.name.bytes = .ok d) (hfile : k.IsProgram d eip)
      (hlength : k.fs.fileLength d.inode = .ok length) (hroom : length ≤ k.layout.room)
      (hcontent : ∀ content, ¬k.fs.Content d.inode content) :
      Obstacle k line (.fs .corrupt)

theorem findExecutable_of_absent {e : FsError} (h : k.fs.lookup name = .error e) :
    k.findExecutable name = .error .executableNotFound := by
  have h' : FileSystem.lookup k.fs name = .error e := h
  rw [findExecutable, h']

theorem findExecutable_of_isProgram (h : k.fs.lookup name = .ok d) (hd : k.IsProgram d eip) :
    k.findExecutable name = .ok (d.inode, eip) := by
  have h' : FileSystem.lookup k.fs name = .ok d := h
  obtain ⟨n, header, hr, hiff⟩ | ⟨-, hno⟩ := k.fs.readHeader k.layout d.inode
  · have hr' : FileSystem.readData k.fs d.inode 0 (List.replicate Executable.headerLength 0) =
        (.ok n, header) := hr
    simp only [findExecutable, h', hr', (hiff eip).mpr hd.2]
    rw [if_neg (not_not.mpr hd.1)]
    rfl
  · exact absurd hd.2 (hno eip)

theorem findExecutable_of_not_isProgram (h : k.fs.lookup name = .ok d)
    (hd : ∀ eip, ¬k.IsProgram d eip) :
    k.findExecutable name = .error .executableMalformed := by
  have h' : FileSystem.lookup k.fs name = .ok d := h
  simp only [findExecutable, h']
  by_cases ht : d.fileType = .regular
  · rw [if_neg (not_not.mpr ht)]
    obtain ⟨n, header, hr, hiff⟩ | ⟨⟨e, he⟩, -⟩ := k.fs.readHeader k.layout d.inode
    · have hr' : FileSystem.readData k.fs d.inode 0 (List.replicate Executable.headerLength 0) =
          (.ok n, header) := hr
      simp only [hr']
      cases hentry : Executable.entry k.layout (header.take n) with
      | ok eip => exact absurd ⟨ht, (hiff eip).mp hentry⟩ (hd eip)
      | error e =>
        rw [Executable.entry_error hentry]
        rfl
    · obtain ⟨r, header, hr⟩ : ∃ r header, FileSystem.readData k.fs d.inode 0
          (List.replicate Executable.headerLength 0) = (r, header) := ⟨_, _, rfl⟩
      have hr' : r = .error e := (congrArg Prod.fst hr).symm.trans he
      simp only [hr, hr']
  · rw [if_pos ht]

theorem image_of_long (hl : k.fs.fileLength inode = .ok length) (hr : k.layout.room < length) :
    (k.image inode).2 = .error .executableMalformed := by
  have hl' : FileSystem.fileLength k.fs inode = .ok length := hl
  rw [image, hl']
  dsimp only
  rw [if_pos hr]

theorem image_of_fits (hl : k.fs.fileLength inode = .ok length) (hr : length ≤ k.layout.room) :
    k.image inode = readChunks k.fs inode length 0 := by
  have hl' : FileSystem.fileLength k.fs inode = .ok length := hl
  rw [image, hl']
  dsimp only
  rw [if_neg (Nat.not_lt.mpr hr)]

theorem image_of_content (hv : k.layout.Valid) (hc : k.fs.Content inode content)
    (hr : content.length ≤ k.layout.room) : (k.image inode).2 = .ok () := by
  obtain ⟨-, -, -, -, ⟨hok, -⟩ | ⟨-, hno⟩⟩ :=
    stores_readChunks hv (show 0 < processCapacity by decide) hc.1 hr (Nat.zero_le _)
  · rw [image_of_fits hc.1 hr, hok]
  · exact absurd hc.2 (hno content (Nat.sub_zero _).symm)

theorem image_of_unreadable (hv : k.layout.Valid) (hl : k.fs.fileLength inode = .ok length)
    (hr : length ≤ k.layout.room) (hc : ∀ content, ¬k.fs.Content inode content) :
    (k.image inode).2 = .error (.fs .corrupt) := by
  obtain ⟨bs, -, hh, -, ⟨-, hbs⟩ | ⟨he, -⟩⟩ :=
    stores_readChunks hv (show 0 < processCapacity by decide) hl hr (Nat.zero_le _)
  · rw [Nat.zero_add] at hbs
    exact absurd ⟨hbs ▸ hl, hh⟩ (hc bs)
  · rw [image_of_fits hl hr, he]

theorem program_of_loadable (hv : k.layout.Valid) (h : k.Loadable line eip) :
    ∃ prog, k.program line = .ok prog ∧ prog.entry = .start eip k.layout.userStackTop := by
  obtain ⟨command, d, content, hc, hl, hd, hcontent, hr⟩ := h
  exact ⟨_, program_of hc (findExecutable_of_isProgram hl hd) (image_of_content hv hcontent hr), rfl⟩

theorem Obstacle.program_eq (hv : k.layout.Valid) (ho : k.Obstacle line e)
    {free : ProcessId} (hline : Bytes.beforeNul line ≠ [])
    (hfree : k.processes.get? free = none) : k.program line = .error e := by
  cases ho with
  | empty hnil => exact absurd hnil hline
  | full _ hfull => exact absurd hfree (hfull free)
  | unparsed _ _ hc =>
    rw [Command.parse_error hc] at hc
    simp only [program, hc]
  | absent _ hc hl => simp only [program, hc, findExecutable_of_absent hl]
  | malformed _ hc hl hd => simp only [program, hc, findExecutable_of_not_isProgram hl hd]
  | long _ hc hl hd hlen hr =>
    simp only [program, hc, findExecutable_of_isProgram hl hd, image_of_long hlen hr]
  | unreadable _ hc hl hd hlen hr hno =>
    simp only [program, hc, findExecutable_of_isProgram hl hd, image_of_unreadable hv hlen hr hno]

theorem loadable_or_obstacle (hline : Bytes.beforeNul line ≠ []) {free : ProcessId}
    (hfree : k.processes.get? free = none) :
    (∃ eip, k.Loadable line eip) ∨ ∃ e, k.Obstacle line e := by
  cases hc : Command.parse line with
  | error e => exact Or.inr ⟨_, .unparsed hline hfree hc⟩
  | ok command =>
    cases hl : k.fs.lookup command.name.bytes with
    | error e => exact Or.inr ⟨_, .absent hfree hc hl⟩
    | ok d =>
      by_cases hd : ∃ eip, k.IsProgram d eip
      · obtain ⟨eip, hd⟩ := hd
        obtain ⟨length, header, hlen, -⟩ := hd.2
        by_cases hr : length ≤ k.layout.room
        · by_cases hcontent : ∃ content, k.fs.Content d.inode content
          · obtain ⟨content, hcontent⟩ := hcontent
            have hlength : content.length = length :=
              Except.ok.inj (hcontent.1.symm.trans hlen)
            rw [← hlength] at hr
            exact Or.inl ⟨eip, command, d, content, hc, hl, hd, hcontent, hr⟩
          · exact Or.inr ⟨_, .unreadable hfree hc hl hd hlen hr (not_exists.mp hcontent)⟩
        · exact Or.inr ⟨_, .long hfree hc hl hd hlen (Nat.lt_of_not_le hr)⟩
      · exact Or.inr ⟨_, .malformed hfree hc hl (not_exists.mp hd)⟩

/-- What a command line comes to: a new process exactly if a slot is free and the line names a
program that can be loaded, otherwise the error of the first obstacle. -/
structure Admits (k : Kernel M D FileImage) (line : Bytes) (transfer : Transfer)
    (k' : Kernel M D FileImage) : Prop where
  enters_iff : (∃ pid entry, transfer = .enterUser pid entry) ↔
    (∃ free, k.processes.get? free = none) ∧ ∃ eip, k.Loadable line eip
  child : ∀ pid entry, transfer = .enterUser pid entry →
    IsLeast {x | k.processes.get? x = none} pid ∧
      ∃ eip, k.Loadable line eip ∧ entry = .start eip k.layout.userStackTop
  obstacle : (∀ pid entry, transfer ≠ .enterUser pid entry) → ∃ e, k.Obstacle line e
  refused : ∀ e, k.Obstacle line e → transfer = .answer KernelError.sentinel ∧
    ∃ pid p, k.current = some pid ∧ k.processes.get? pid = some p ∧
      k'.events = if k.events.size < maxEvents then k.events.push (.launchFailed p.terminal e)
        else k.events

variable [Machine M] {σ : TerminalId → List ProcessId}

theorem events_refused (t : TerminalId) (e : KernelError) (calls : List MachineCall) :
    (k.refused t e calls).events =
      if k.events.size < maxEvents then k.events.push (.launchFailed t e) else k.events := by
  have hlog : (k.leave (k.masked.performAll calls)).logError.events = k.events := by
    unfold leave unmasked
    split <;> rfl
  rw [refused, record, hlog]
  split
  · rfl
  · exact hlog

theorem Sound.execute_obstacle (h : k.Sound σ) (ho : k.Obstacle line e) {cur : ProcessId}
    {p : ProcessRecord} (hc : k.current = some cur) (hp : k.processes.get? cur = some p)
    (caller : SavedContext) :
    ∃ calls, k.execute line caller =
      (.answer KernelError.sentinel, k.refused p.terminal e calls) := by
  rw [h.execute_eq hc hp]
  by_cases hline : Bytes.beforeNul line = []
  · rw [if_pos hline]
    cases ho with
    | empty => exact ⟨[], rfl⟩
    | full hne => exact absurd hline hne
    | unparsed hne => exact absurd hline hne
    | absent _ hc | malformed _ hc | long _ hc | unreadable _ hc =>
      exact absurd hline (beforeNul_of_parse hc)
  · rw [if_neg hline]
    cases hfree : k.processes.firstFree? with
    | none =>
      have hfull := ProcessTable.firstFree_eq_none_iff.mp hfree
      cases ho with
      | empty hnil => exact absurd hnil hline
      | full => exact ⟨[], rfl⟩
      | unparsed _ hx => exact absurd hx (hfull _)
      | absent hx | malformed hx | long hx | unreadable hx => exact absurd hx (hfull _)
    | some pid =>
      have hprog := ho.program_eq h.fits.toValid hline (ProcessTable.get?_firstFree hfree)
      simp only [hprog]
      exact ⟨_, rfl⟩

theorem Sound.execute_loadable (h : k.Sound σ) (hl : k.Loadable line eip)
    (hfree : ∃ free, k.processes.get? free = none) (caller : SavedContext) :
    ∃ pid, IsLeast {x | k.processes.get? x = none} pid ∧
      (k.execute line caller).1 = .enterUser pid (.start eip k.layout.userStackTop) := by
  obtain ⟨free, hfree⟩ := hfree
  obtain ⟨pid, hpid⟩ := ProcessTable.firstFree_isSome hfree
  obtain ⟨prog, hprog, hentry⟩ := program_of_loadable h.fits.toValid hl
  refine ⟨pid, ProcessTable.isLeast_firstFree hpid, ?_⟩
  rw [h.execute_enters hprog hpid, hentry]

theorem Sound.admits (h : k.Sound σ) (line : Bytes) (caller : SavedContext) :
    k.Admits line (k.execute line caller).1 (k.execute line caller).2 := by
  obtain ⟨cur, hc⟩ := h.runs
  obtain ⟨p, hp⟩ := h.current_live hc
  have hrefused (e : KernelError) (ho : k.Obstacle line e) :
      (k.execute line caller).1 = .answer KernelError.sentinel ∧
        ∃ pid p, k.current = some pid ∧ k.processes.get? pid = some p ∧
          (k.execute line caller).2.events =
            if k.events.size < maxEvents then k.events.push (.launchFailed p.terminal e)
            else k.events := by
    obtain ⟨calls, hx⟩ := h.execute_obstacle ho hc hp caller
    rw [hx]
    exact ⟨rfl, cur, p, hc, hp, events_refused ..⟩
  -- either a program is loaded, or an obstacle is met
  obtain ⟨hfree, eip, hl⟩ | ⟨e, ho⟩ : ((∃ free, k.processes.get? free = none) ∧
      ∃ eip, k.Loadable line eip) ∨ ∃ e, k.Obstacle line e := by
    by_cases hline : Bytes.beforeNul line = []
    · exact Or.inr ⟨_, .empty hline⟩
    · by_cases hfree : ∃ free, k.processes.get? free = none
      · obtain ⟨free, hx⟩ := hfree
        exact (loadable_or_obstacle hline hx).imp_left fun hl => ⟨⟨free, hx⟩, hl⟩
      · exact Or.inr ⟨_, .full hline (not_exists.mp hfree)⟩
  · obtain ⟨pid, hleast, hx⟩ := h.execute_loadable hl hfree caller
    rw [hx] at hrefused ⊢
    refine ⟨⟨fun _ => ⟨hfree, eip, hl⟩, fun _ => ⟨pid, _, rfl⟩⟩, ?_, ?_, hrefused⟩
    · intro pid' entry he
      cases he
      exact ⟨hleast, eip, hl, rfl⟩
    · intro hno
      exact absurd rfl (hno pid _)
  · have hans := (hrefused e ho).1
    refine ⟨⟨?_, ?_⟩, ?_, fun _ => ⟨e, ho⟩, hrefused⟩
    · rintro ⟨pid, entry, he⟩
      rw [hans] at he
      cases he
    · rintro ⟨hfree, eip, hl⟩
      obtain ⟨pid, -, hx⟩ := h.execute_loadable hl hfree caller
      exact ⟨pid, _, hx⟩
    · intro pid entry he
      rw [hans] at he
      cases he

variable [Devices D]

/-- After every run, a command line is launched exactly if nothing stands in its way. -/
theorem admits_run {machine : M} {devices : D} {files : FileImage} {layout : Layout}
    {timer : TimerConfig} {first : Transfer}
    (hb : (fresh machine devices files layout timer).boot = (.ok first, k))
    (ops : List Operation) (line : Bytes) (caller : SavedContext) :
    (k.run ops).2.Admits line ((k.run ops).2.execute line caller).1
      ((k.run ops).2.execute line caller).2 := by
  obtain ⟨σ, h⟩ := sound_boot (unbooted_fresh ..) hb
  obtain ⟨σ', h'⟩ := h.run ops
  exact h'.admits line caller

theorem admits_run_shellFiles :
    ∃ first k, (Sample.kernel Sample.shellFiles).boot = (.ok first, k) ∧
      (∀ ops line caller, (k.run ops).2.Admits line ((k.run ops).2.execute line caller).1
        ((k.run ops).2.execute line caller).2) ∧
          (∃ eip, k.Loadable shell eip) ∧ k.Obstacle [] .invalidCommand := by
  obtain ⟨first, k, hb⟩ := Sample.boot_shellFiles
  have hadmits := admits_run hb
  refine ⟨first, k, hb, hadmits, ?_, .empty rfl⟩
  obtain ⟨σ, h⟩ := sound_boot (unbooted_fresh ..) hb
  obtain ⟨prog, hprog⟩ := h.shell
  obtain ⟨child, hfree⟩ := firstFree_boot (unbooted_fresh ..) hb
  have hchild := h.execute_enters hprog hfree ⟨0, 0, ⟨Selector.kernelData, 0⟩⟩
  exact ((hadmits [] shell _).enters_iff.mp ⟨child, prog.entry, hchild⟩).2

end Kernel

end TerminalKernel
