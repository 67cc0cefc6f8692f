import TerminalKernel.Proofs.FileReads

namespace TerminalKernel

namespace FileImage

abbrev dentryPos (i : Nat) : Nat := dentrySize + dentrySize * i

def KnownTypes (f : FileImage) : Prop :=
  ∀ i < f.dentries, ∃ w, word f.image (dentryPos i + 32) = .ok w ∧ (FileType.ofCode? w).isSome

def nameField (f : FileImage) (i : Nat) : Bytes :=
  (f.image.extract (dentryPos i) (dentryPos i + maxFileName)).toList

def nameAt (f : FileImage) (i : Nat) : Bytes := Bytes.beforeNul (f.nameField i)

def namesFrom (f : FileImage) (position : Nat) : List Bytes :=
  ((List.range f.dentries).map f.nameAt).drop position

/-- One name for each buffer, cut to it, as long as there are names. -/
def partsFrom (f : FileImage) (position : Nat) (buffers : List Bytes) : List Bytes :=
  List.zipWith (fun name buffer => name.take buffer.length) (f.namesFrom position) buffers

variable {f : FileImage} {position : Nat} {buffer : Bytes} {buffers : List Bytes}

theorem Roomy.dentryAt_eq (hr : f.Roomy) (hk : f.KnownTypes) {i : Nat} (hi : i < f.dentries) :
    ∃ entry, f.dentryAt i = .ok entry ∧ entry.name = f.nameAt i := by
  have hd : f.dentries ≤ 63 := hr.dentries_le
  have hb : (1 + f.inodes + f.dataBlocks) * 4096 ≤ f.image.size := hr.blocks_le
  -- block 0 has room for the entry
  have hroom : dentryPos i + 64 ≤ f.image.size := by
    change 64 + 64 * i + 64 ≤ _
    omega
  have hfield : dentryPos i + maxFileName ≤ f.image.size := by
    change dentryPos i + 32 ≤ _
    omega
  have hname : slice? f.image (dentryPos i) maxFileName = some (f.nameField i) := if_pos hfield
  obtain ⟨w, hw, ht⟩ := hk i hi
  obtain ⟨type, htype⟩ := Option.isSome_iff_exists.mp ht
  obtain ⟨inode, hinode⟩ : ∃ w, word f.image (dentryPos i + 36) = .ok w :=
    exists_word (by omega)
  refine ⟨.ofField (f.nameField i) type inode.toNat, ?_, ?_⟩
  · rw [dentryAt, if_pos hi, dentry]
    simp only [hname, hw, bind, Except.bind, htype, hinode]
    rfl
  · rw [Dentry.ofField, nameAt, List.take_of_length_le]
    simp [nameField]

theorem namesFrom_of_le (h : f.dentries ≤ position) : f.namesFrom position = [] :=
  List.drop_eq_nil_of_le (by simpa using h)

theorem namesFrom_of_lt (h : position < f.dentries) :
    f.namesFrom position = f.nameAt position :: f.namesFrom (position + 1) := by
  rw [namesFrom, List.drop_eq_getElem_cons (by simpa using h)]
  simp [namesFrom]

theorem length_namesFrom (f : FileImage) (position : Nat) :
    (f.namesFrom position).length = f.dentries - position := by
  simp [namesFrom]

theorem partsFrom_of_le (h : f.dentries ≤ position) : f.partsFrom position buffers = [] := by
  rw [partsFrom, namesFrom_of_le h, List.zipWith_nil_left]

theorem partsFrom_cons (h : position < f.dentries) :
    f.partsFrom position (buffer :: buffers) =
      (f.nameAt position).take buffer.length :: f.partsFrom (position + 1) buffers := by
  rw [partsFrom, namesFrom_of_lt h, List.zipWith_cons_cons]
  rfl

theorem length_partsFrom (f : FileImage) (position : Nat) (buffers : List Bytes) :
    (f.partsFrom position buffers).length = min (f.dentries - position) buffers.length := by
  rw [partsFrom, List.length_zipWith, length_namesFrom]

theorem ne_nil_of_mem_partsFrom (hn : ∀ name ∈ f.namesFrom position, name ≠ [])
    (hb : ∀ buffer ∈ buffers, buffer ≠ []) : ∀ part ∈ f.partsFrom position buffers, part ≠ [] := by
  intro part hp
  obtain ⟨i, hi, rfl⟩ := List.mem_iff_getElem.mp hp
  simp only [partsFrom, List.getElem_zipWith]
  rw [Ne, List.take_eq_nil_iff, List.length_eq_zero_iff, not_or]
  exact ⟨hb _ (List.getElem_mem _), hn _ (List.getElem_mem _)⟩

end FileImage

namespace OpenFile

/-- How it went to read into one buffer after the other. -/
structure Drained (D : Type) where
  given : List Bytes
  ended : Except KernelError Bool
  file : OpenFile
  devices : D

def drain {D F : Type} [Devices D] [FileSystem F] (f : OpenFile) (fs : F) (t : TerminalId) (d : D) :
    List Bytes → Drained D
  | [] => ⟨[], .ok false, f, d⟩
  | buffer :: buffers =>
    let r := f.read fs t buffer d
    match r.result with
    | .error e => ⟨[], .error e, r.file, r.devices⟩
    | .ok 0 => ⟨[], .ok true, r.file, r.devices⟩
    | .ok n =>
      let rest := r.file.drain fs t r.devices buffers
      { rest with given := r.buffer.take n :: rest.given }

variable {D : Type} [Devices D] {files : FileImage} {f : OpenFile} {t : TerminalId}
  {buffer : Bytes} {d : D}

theorem read_atEnd (hf : f.kind = .directory) (h : files.dentries ≤ f.position) :
    f.read files t buffer d = ⟨.ok 0, buffer, f, d⟩ := by
  rw [read, hf]
  exact if_pos h

section

variable (hr : files.Roomy) (hk : files.KnownTypes)

include hr hk

theorem read_entry (hf : f.kind = .directory) (h : f.position < files.dentries) :
    f.read files t buffer d =
      ⟨.ok ((files.nameAt f.position).take buffer.length).length,
        Bytes.fill buffer ((files.nameAt f.position).take buffer.length),
        { f with position := f.position + 1 }, d⟩ := by
  obtain ⟨entry, hentry, hname⟩ := hr.dentryAt_eq hk h
  have he : FileSystem.dentryAt files f.position = .ok entry := hentry
  have hlt : ¬FileSystem.dentryCount files ≤ f.position := Nat.not_le.mpr h
  rw [read, hf]
  simp only [readDirectory, if_neg hlt, he, hname, hf]

theorem result_eq_zero_iff (hf : f.kind = .directory) :
    (f.read files t buffer d).result = .ok 0 ↔
      files.dentries ≤ f.position ∨ buffer = [] ∨ files.nameAt f.position = [] := by
  by_cases h : files.dentries ≤ f.position
  · rw [read_atEnd hf h]
    exact iff_of_true rfl (Or.inl h)
  · rw [read_entry hr hk hf (Nat.not_le.mp h), or_iff_right h, Except.ok.injEq,
      List.length_eq_zero_iff, List.take_eq_nil_iff, List.length_eq_zero_iff]

theorem drain_directory (hf : f.kind = .directory) (buffers : List Bytes) :
    f.drain files t d buffers =
      let parts := files.partsFrom f.position buffers
      let given := parts.takeWhile (· ≠ [])
      ⟨given, .ok (decide (given.length < parts.length ∨ parts.length < buffers.length)),
        { f with position := f.position + min parts.length (given.length + 1) }, d⟩ := by
  induction buffers generalizing f with
  | nil =>
    have hp : files.partsFrom f.position [] = [] := List.zipWith_nil_right
    simp [drain, hp]
  | cons buffer buffers ih =>
    by_cases h : files.dentries ≤ f.position
    · simp [drain, read_atEnd hf h, FileImage.partsFrom_of_le h]
    · have hlt := Nat.not_le.mp h
      rw [drain, read_entry hr hk hf hlt, FileImage.partsFrom_cons hlt]
      generalize (files.nameAt f.position).take buffer.length = part
      cases part with
      | nil => simp
      | cons b bs =>
        have hrest := ih (f := { f with position := f.position + 1 }) hf
        have htake : (Bytes.fill buffer (b :: bs)).take (bs.length + 1) = b :: bs :=
          List.take_left' rfl
        simp only [List.length_cons, htake, hrest, List.takeWhile_cons_of_pos, ne_eq, reduceCtorEq,
          not_false_eq_true, decide_true, Nat.add_lt_add_iff_right, Nat.add_min_add_right]
        rw [Nat.add_right_comm, Nat.add_assoc]

/-- Where neither names nor buffers are empty, a reader gets one part for each buffer until the
entries are at their end. -/
theorem drain_all (hf : f.kind = .directory) {buffers : List Bytes}
    (hn : ∀ name ∈ files.namesFrom f.position, name ≠ []) (hb : ∀ buffer ∈ buffers, buffer ≠ []) :
    f.drain files t d buffers =
      ⟨files.partsFrom f.position buffers,
        .ok (decide (files.dentries - f.position < buffers.length)),
        { f with position := f.position + min (files.dentries - f.position) buffers.length }, d⟩ := by
  have hall : (files.partsFrom f.position buffers).takeWhile (· ≠ []) =
      files.partsFrom f.position buffers := by
    refine List.takeWhile_eq_self_iff.mpr fun part hp => ?_
    simpa using FileImage.ne_nil_of_mem_partsFrom hn hb part hp
  have hmore : min (files.dentries - f.position) buffers.length < buffers.length ↔
      files.dentries - f.position < buffers.length := by omega
  rw [drain_directory hr hk hf]
  simp only [hall, FileImage.length_partsFrom, Nat.lt_irrefl, false_or, hmore,
    Nat.min_eq_left (Nat.le_succ _)]

end

end OpenFile

namespace FileImage

/-- How a directory of an image is listed. -/
structure ListsDirectory (D : Type) [Devices D] (files : FileImage) : Prop where
  atEnd : ∀ (f : OpenFile) (t : TerminalId) (buffer : Bytes) (d : D), f.kind = .directory →
    files.dentries ≤ f.position → f.read files t buffer d = ⟨.ok 0, buffer, f, d⟩
  entry : ∀ (f : OpenFile) (t : TerminalId) (buffer : Bytes) (d : D), f.kind = .directory →
    f.position < files.dentries → f.read files t buffer d =
      ⟨.ok ((files.nameAt f.position).take buffer.length).length,
        Bytes.fill buffer ((files.nameAt f.position).take buffer.length),
        { f with position := f.position + 1 }, d⟩
  zero : ∀ (f : OpenFile) (t : TerminalId) (buffer : Bytes) (d : D), f.kind = .directory →
    ((f.read files t buffer d).result = .ok 0 ↔
      files.dentries ≤ f.position ∨ buffer = [] ∨ files.nameAt f.position = [])
  stops : ∀ (f : OpenFile) (t : TerminalId) (d : D) (buffers : List Bytes), f.kind = .directory →
    f.drain files t d buffers =
      let parts := files.partsFrom f.position buffers
      let given := parts.takeWhile (· ≠ [])
      ⟨given, .ok (decide (given.length < parts.length ∨ parts.length < buffers.length)),
        { f with position := f.position + min parts.length (given.length + 1) }, d⟩
  lists : ∀ (f : OpenFile) (t : TerminalId) (d : D) (buffers : List Bytes), f.kind = .directory →
    (∀ name ∈ files.namesFrom f.position, name ≠ []) → (∀ buffer ∈ buffers, buffer ≠ []) →
    f.drain files t d buffers =
      ⟨files.partsFrom f.position buffers,
        .ok (decide (files.dentries - f.position < buffers.length)),
        { f with position := f.position + min (files.dentries - f.position) buffers.length }, d⟩

theorem listsDirectory_of_open {image : Array UInt8} {files : FileImage}
    (ho : open? image = .ok files) (hk : files.KnownTypes) (D : Type) [Devices D] :
    files.ListsDirectory D := by
  have hr := roomy_of_open ho
  exact {
    atEnd := fun _ _ _ _ hf => OpenFile.read_atEnd hf
    entry := fun _ _ _ _ hf => OpenFile.read_entry hr hk hf
    zero := fun _ _ _ _ hf => OpenFile.result_eq_zero_iff hr hk hf
    stops := fun _ _ _ buffers hf => OpenFile.drain_directory hr hk hf buffers
    lists := fun _ _ _ _ hf => OpenFile.drain_all hr hk hf }

end FileImage

namespace Sample

open FileImage Kernel

theorem knownTypes_shellFiles : shellFiles.KnownTypes := by
  intro i hi
  obtain rfl : i = 0 := Nat.lt_one_iff.mp hi
  exact ⟨2, word_shellBlocks (i := 0) rfl 96 (by decide +kernel), rfl⟩

theorem nameAt_shellFiles : shellFiles.nameAt 0 = shell := by
  obtain ⟨entry, he, hname⟩ :=
    (roomy_of_open open_shellFiles).dentryAt_eq knownTypes_shellFiles Nat.one_pos
  have hd : shellFiles.dentryAt 0 = .ok ⟨shell, .regular, 0⟩ :=
    (if_pos Nat.one_pos).trans dentry_shell
  rw [← hname, ← Except.ok.inj (hd.symm.trans he)]

end Sample

namespace FileImage

open Sample Kernel

theorem listsDirectory_of_open_shellFiles :
    open? (ofBlocks shellBlocks) = .ok shellFiles ∧ shellFiles.KnownTypes ∧
      shellFiles.ListsDirectory DeviceRecorder ∧
      ∀ (t : TerminalId) (d : DeviceRecorder),
        (OpenFile.drain ⟨.directory, 0, 0⟩ shellFiles t d [List.replicate 32 0, [0]]).given =
          [shell] := by
  have hl := listsDirectory_of_open open_shellFiles knownTypes_shellFiles DeviceRecorder
  refine ⟨open_shellFiles, knownTypes_shellFiles, hl, fun t d => ?_⟩
  have hn : shellFiles.namesFrom 0 = [shell] := by
    rw [namesFrom_of_lt Nat.one_pos, nameAt_shellFiles, namesFrom_of_le (Nat.le_refl 1)]
  rw [hl.lists _ t d _ rfl (by rw [hn, shell_eq]; decide) (by decide)]
  simp only [partsFrom, hn, shell_eq]
  decide

/-- Without room for a name a read gives 0 for an entry, which the reader then does not get. -/
theorem zero_before_end :
    open? (ofBlocks shellBlocks) = .ok shellFiles ∧ shellFiles.KnownTypes ∧
      0 < shellFiles.dentries ∧
      (OpenFile.read ⟨.directory, 0, 0⟩ shellFiles TerminalId.first [] ({} : DeviceRecorder)).result =
        .ok 0 ∧
      (OpenFile.read ⟨.directory, 0, 0⟩ shellFiles TerminalId.first []
        ({} : DeviceRecorder)).file.position = 1 ∧
      (OpenFile.drain ⟨.directory, 0, 0⟩ shellFiles TerminalId.first ({} : DeviceRecorder)
        [[], List.replicate 32 0]).given = [] := by
  have hr := roomy_of_open open_shellFiles
  have hread : OpenFile.read ⟨.directory, 0, 0⟩ shellFiles TerminalId.first []
      ({} : DeviceRecorder) = ⟨.ok 0, [], ⟨.directory, 1, 0⟩, {}⟩ :=
    OpenFile.read_entry hr knownTypes_shellFiles rfl Nat.one_pos
  refine ⟨open_shellFiles, knownTypes_shellFiles, Nat.one_pos, by rw [hread], by rw [hread], ?_⟩
  simp only [OpenFile.drain, hread]

end FileImage

end TerminalKernel
