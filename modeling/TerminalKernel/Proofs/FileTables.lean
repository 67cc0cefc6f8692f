import TerminalKernel.Proofs.FileReads
import TerminalKernel.Proofs.StandardStreams

namespace TerminalKernel

namespace OpenFile

variable {D : Type} [Devices D] {f : OpenFile} {files : FileImage}

/-- A file that an open can install, with its cursor at the beginning or inside what it reads. -/
def Inside (f : OpenFile) (files : FileImage) : Prop :=
  match f.kind with
  | .stdin | .stdout => False
  | .rtc => f.position = 0
  | .directory => f.position ≤ files.dentries
  | .regular => f.position = 0 ∨
      ∃ length, files.fileLength f.inode = .ok length ∧ f.position ≤ length

theorem inside_new (type : FileType) (inode : Nat) (files : FileImage) :
    Inside { kind := .ofType type, inode } files := by
  cases type with
  | rtc => rfl
  | directory => exact Nat.zero_le files.dentries
  | regular => exact Or.inl rfl

theorem Inside.read (h : f.Inside files) (t : TerminalId) (buffer : Bytes) (d : D) :
    (f.read files t buffer d).file.Inside files := by
  obtain ⟨kind, position, inode⟩ := f
  cases kind with
  | stdin | stdout => cases h
  | rtc => exact h
  | directory =>
    simp only [OpenFile.read, readDirectory]
    by_cases hend : FileSystem.dentryCount files ≤ position
    · rw [if_pos hend]
      exact h
    · rw [if_neg hend]
      cases FileSystem.dentryAt files position with
      | error e => exact h
      | ok entry => exact Nat.not_le.mp hend
  | regular =>
    simp only [OpenFile.read, readRegular]
    obtain ⟨length, bs, hlength, hbs, -, hread⟩ | ⟨⟨e, he⟩, -⟩ :=
      files.readData_cases inode position buffer
    · have hread' : FileSystem.readData files inode position buffer = _ := hread
      simp only [hread']
      -- the read gives nothing from behind the end of the file
      have hle : position + bs.length ≤ length ∨ bs.length = 0 := by omega
      obtain hle | hzero := hle
      · exact Or.inr ⟨length, hlength, hle⟩
      · simp only [hzero, Nat.add_zero]
        exact h
    · have he' : (FileSystem.readData files inode position buffer).1 = .error e := he
      generalize FileSystem.readData files inode position buffer = r at he' ⊢
      obtain ⟨result, filled⟩ := r
      cases he'
      exact h

theorem Inside.position_lt (h : f.Inside files) (hr : files.Roomy) : f.position < wordCount := by
  obtain ⟨kind, position, inode⟩ := f
  cases kind with
  | stdin | stdout => cases h
  | rtc =>
    have hzero : position = 0 := h
    exact hzero.trans_lt (by decide)
  | directory =>
    have hle : position ≤ files.dentries := h
    exact (hle.trans hr.dentries_le).trans_lt (by decide)
  | regular =>
    obtain hzero | ⟨length, hlength, hle⟩ := h
    · have hzero' : position = 0 := hzero
      exact hzero'.trans_lt (by decide)
    · obtain ⟨-, w, -, rfl⟩ := FileImage.fileLength_eq_ok_iff.mp hlength
      exact hle.trans_lt w.toNat_lt

end OpenFile

namespace FileTable

variable {t : FileTable} {files : FileImage} {fd i : Nat} {f : OpenFile}

theorem mem_openDescriptors : fd ∈ t.openDescriptors ↔
    firstUserDescriptor ≤ fd ∧ (t.get? fd).isSome := by
  rw [openDescriptors, List.mem_filter, userDescriptors, List.mem_range'_1]
  constructor
  · rintro ⟨⟨hge, -⟩, hsome⟩
    exact ⟨hge, hsome⟩
  · rintro ⟨hge, hsome⟩
    obtain ⟨f, hf⟩ := Option.isSome_iff_exists.mp hsome
    exact ⟨⟨hge, lt_of_get? hf⟩, hsome⟩

theorem mem_openDescriptors_put_some (hge : firstUserDescriptor ≤ fd) (hlt : fd < maxOpenFiles) :
    i ∈ (t.put fd (some f)).openDescriptors ↔ i = fd ∨ i ∈ t.openDescriptors := by
  rw [mem_openDescriptors, mem_openDescriptors, get?_put]
  by_cases hi : i = fd
  · rw [if_pos ⟨hi, hlt⟩, hi]
    exact iff_of_true ⟨hge, rfl⟩ (Or.inl rfl)
  · rw [if_neg (fun h => hi h.1), or_iff_right hi]

theorem mem_openDescriptors_put_none :
    i ∈ (t.put fd none).openDescriptors ↔ i ≠ fd ∧ i ∈ t.openDescriptors := by
  rw [mem_openDescriptors, mem_openDescriptors, get?_put]
  by_cases hi : i = fd
  · refine iff_of_false ?_ (fun h => h.1 hi)
    rintro ⟨-, hsome⟩
    split at hsome
    · cases hsome
    · rename_i hlt
      obtain ⟨f, hf⟩ := Option.isSome_iff_exists.mp hsome
      exact hlt ⟨hi, hi ▸ lt_of_get? hf⟩
  · rw [if_neg (fun h => hi h.1), and_iff_right hi]

theorem mem_openDescriptors_put_same {g : OpenFile} (hf : t.get? fd = some f) :
    i ∈ (t.put fd (some g)).openDescriptors ↔ i ∈ t.openDescriptors := by
  rw [mem_openDescriptors, mem_openDescriptors, get?_put]
  by_cases hi : i = fd
  · rw [if_pos ⟨hi, lt_of_get? hf⟩, hi, hf]
    rfl
  · rw [if_neg (fun h => hi h.1)]

theorem isLeast_findFree (h : t.findFree = some fd) :
    IsLeast {i | firstUserDescriptor ≤ i ∧ t.get? i = none} fd := by
  refine ⟨⟨findFree_ge h, get?_findFree h⟩, ?_⟩
  rintro i ⟨hge, hi⟩
  obtain ⟨-, -, hbefore⟩ := List.find?_range'_eq_some.mp h
  by_contra hlt
  have hused := hbefore i hge (Nat.not_le.mp hlt)
  rw [hi] at hused
  cases hused

theorem isSome_of_findFree_eq_none (h : t.findFree = none) (hge : firstUserDescriptor ≤ i)
    (hlt : i < maxOpenFiles) : (t.get? i).isSome := by
  have hused := List.find?_range'_eq_none.mp h i hge hlt
  rwa [Option.not_isNone] at hused

/-- The table of a process: the standard streams are where they were at its launch, and behind the
other descriptors cursors are inside what they read. -/
structure Orderly (t : FileTable) (files : FileImage) : Prop where
  stdin : t.get? 0 = some ⟨.stdin, 0, 0⟩
  stdout : t.get? 1 = some ⟨.stdout, 0, 0⟩
  inside : ∀ fd f, firstUserDescriptor ≤ fd → t.get? fd = some f → f.Inside files

theorem orderly_standard (files : FileImage) : standard.Orderly files := by
  refine ⟨rfl, rfl, ?_⟩
  intro fd f hfd hf
  rw [get?_standard hfd] at hf
  cases hf

theorem Orderly.put (h : t.Orderly files) {file : Option OpenFile}
    (hfd : firstUserDescriptor ≤ fd) (hfile : ∀ f ∈ file, f.Inside files) :
    (t.put fd file).Orderly files := by
  have hne (i : Nat) (hi : i < firstUserDescriptor) : (t.put fd file).get? i = t.get? i := by
    rw [get?_put, if_neg (fun he => absurd he.1 (hi.trans_le hfd).ne)]
  refine ⟨(hne 0 (by decide)).trans h.stdin, (hne 1 (by decide)).trans h.stdout, ?_⟩
  intro i f hi hf
  rw [get?_put] at hf
  split at hf
  · exact hfile f hf
  · exact h.inside i f hi hf

theorem Orderly.kinds (h : t.Orderly files) (hf : t.get? fd = some f) :
    f = ⟨.stdin, 0, 0⟩ ∨ f = ⟨.stdout, 0, 0⟩ ∨ firstUserDescriptor ≤ fd ∧ f.Inside files := by
  have hcases : fd = 0 ∨ fd = 1 ∨ 2 ≤ fd := by omega
  obtain rfl | rfl | hfd := hcases
  · exact Or.inl (Option.some.inj (hf.symm.trans h.stdin))
  · exact Or.inr (Or.inl (Option.some.inj (hf.symm.trans h.stdout)))
  · exact Or.inr (Or.inr ⟨hfd, h.inside fd f hfd hf⟩)

variable {D : Type} [Devices D]

theorem Orderly.read (h : t.Orderly files) (hf : t.get? fd = some f) (u : TerminalId)
    (buffer : Bytes) (d : D) :
    (t.put fd (some (f.read files u buffer d).file)).Orderly files := by
  obtain rfl | rfl | ⟨hfd, hinside⟩ := h.kinds hf
  · change (t.put fd (some ⟨.stdin, 0, 0⟩)).Orderly files
    rwa [put_self hf]
  · change (t.put fd (some ⟨.stdout, 0, 0⟩)).Orderly files
    rwa [put_self hf]
  · refine h.put hfd ?_
    intro g hg
    rw [Option.mem_some_iff] at hg
    rw [← hg]
    exact hinside.read u buffer d

theorem Orderly.position_read_lt (h : t.Orderly files) (hr : files.Roomy)
    (hf : t.get? fd = some f) (u : TerminalId) (buffer : Bytes) (d : D) :
    (f.read files u buffer d).file.position < wordCount := by
  obtain rfl | rfl | ⟨-, hinside⟩ := h.kinds hf
  · exact Nat.zero_lt_succ _
  · exact Nat.zero_lt_succ _
  · exact (hinside.read u buffer d).position_lt hr

end FileTable

end TerminalKernel
