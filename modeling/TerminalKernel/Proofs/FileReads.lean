import TerminalKernel.Proofs.Bootable
import TerminalKernel.Proofs.FileContents

namespace TerminalKernel.FileImage

/-- The image has room for the blocks that it counts, and block 0 for the entries. -/
structure Roomy (f : FileImage) : Prop where
  dentries_le : f.dentries ≤ maxDentries
  blocks_le : (1 + f.inodes + f.dataBlocks) * blockSize ≤ f.image.size

def HasBlock (f : FileImage) (inode slot block : Nat) : Prop :=
  slot < blocksPerInode ∧ block < f.dataBlocks ∧
    ∃ w, word f.image (blockSize * (inode + 1) + 4 + 4 * slot) = .ok w ∧ w.toNat = block

structure Part where
  pos : Nat
  length : Nat

/-- The parts of the image that `readBlocks` asks for, in order: the number of each block, and the
block itself. -/
def blockFootprint (f : FileImage) (base pos want : Nat) : List Part :=
  if want = 0 ∨ blocksPerInode ≤ pos / blockSize then []
  else
    let number : Part := ⟨base + 4 + 4 * (pos / blockSize), 4⟩
    match f.slotBase base (pos / blockSize) with
    | .error _ => [number]
    | .ok start =>
      let n := min (blockSize - pos % blockSize) want
      number :: ⟨start, blockSize⟩ :: f.blockFootprint base (pos + n) (want - n)
termination_by want
decreasing_by
  have := Nat.mod_lt pos (show 0 < blockSize by decide)
  omega

def footprint (f : FileImage) (inode offset : Nat) (buffer : Bytes) : List Part :=
  match f.inodeBase inode with
  | .error _ => []
  | .ok base =>
    let declared : Part := ⟨base, 4⟩
    match word f.image base with
    | .error _ => [declared]
    | .ok length =>
      if length.toNat ≤ offset ∨ buffer = [] then [declared]
      else
        declared :: f.blockFootprint base offset (min buffer.length (length.toNat - offset))

variable {f g : FileImage} {image : Array UInt8} {inode slot block pos n : Nat} {b : UInt8}
  {bs buffer : Bytes}

theorem exists_of_bind_ok {ε α β : Type} {r : Except ε α} {k : α → Except ε β} {y : β}
    (h : r >>= k = .ok y) : ∃ x, r = .ok x ∧ k x = .ok y := by
  cases r with
  | error e => cases h
  | ok x => exact ⟨x, rfl, h⟩

theorem roomy_of_open (h : open? image = .ok f) : f.Roomy := by
  obtain ⟨dentries, -, h⟩ := exists_of_bind_ok h
  obtain ⟨inodes, -, h⟩ := exists_of_bind_ok h
  obtain ⟨dataBlocks, -, h⟩ := exists_of_bind_ok h
  rw [Layout.ite_error_eq_ok, not_or, Nat.not_lt, Nat.not_lt, Except.ok.injEq] at h
  obtain ⟨⟨hd, hb⟩, rfl⟩ := h
  exact ⟨hd, hb⟩

theorem exists_word (h : pos + 4 ≤ image.size) : ∃ w, word image pos = .ok w := by
  rw [word, slice?, if_pos h]
  exact ⟨_, rfl⟩

theorem block_end_le {index blocks : Nat} (h : index < blocks) :
    blockSize * index + blockSize ≤ blocks * blockSize := by
  rw [← Nat.mul_succ, Nat.mul_comm]
  exact Nat.mul_le_mul_right _ h

section

variable (hr : f.Roomy)

include hr

theorem Roomy.inode_end_le (hi : inode < f.inodes) :
    blockSize * (inode + 1) + blockSize ≤ f.image.size :=
  (block_end_le (by omega)).trans hr.blocks_le

theorem Roomy.data_end_le (hb : block < f.dataBlocks) :
    f.blockBase block + blockSize ≤ f.image.size :=
  (block_end_le (by omega)).trans hr.blocks_le

theorem Roomy.slot_end_le {base start : Nat} (hs : f.slotBase base slot = .ok start) :
    start + blockSize ≤ f.image.size := by
  obtain ⟨-, block, -, hblock, rfl⟩ := slotBase_eq_ok_iff.mp hs
  exact hr.data_end_le hblock

theorem Roomy.exists_length (hi : inode < f.inodes) :
    ∃ w, word f.image (blockSize * (inode + 1)) = .ok w := by
  have hend : blockSize * (inode + 1) + 4096 ≤ f.image.size := hr.inode_end_le hi
  exact exists_word (by omega)

theorem Roomy.exists_fileLength (hi : inode < f.inodes) :
    ∃ length, f.fileLength inode = .ok length := by
  obtain ⟨w, hw⟩ := hr.exists_length hi
  exact ⟨w.toNat, fileLength_eq_ok_iff.mpr ⟨hi, w, hw, rfl⟩⟩

theorem Roomy.number_end_le (hi : inode < f.inodes) (hs : slot < blocksPerInode) :
    blockSize * (inode + 1) + 4 + 4 * slot + 4 ≤ f.image.size := by
  have hend : blockSize * (inode + 1) + 4096 ≤ f.image.size := hr.inode_end_le hi
  have hslot : slot < 1023 := hs
  omega

end

theorem hasByte_iff {i : Nat} :
    f.HasByte inode i b ↔ ∃ block, f.HasBlock inode (i / blockSize) block ∧
      f.image[blockSize * (1 + f.inodes + block) + i % blockSize]? = some b := by
  constructor
  · rintro ⟨hs, w, hw, hlt, hb⟩
    exact ⟨w.toNat, ⟨hs, hlt, w, hw, rfl⟩, hb⟩
  · rintro ⟨_, ⟨hs, hlt, w, hw, rfl⟩, hb⟩
    exact ⟨hs, w, hw, hlt, hb⟩

theorem HasBlock.eq {block' : Nat} (h : f.HasBlock inode slot block)
    (h' : f.HasBlock inode slot block') : block = block' := by
  obtain ⟨-, -, w, hw, rfl⟩ := h
  obtain ⟨-, -, w', hw', rfl⟩ := h'
  rw [hw, Except.ok.injEq] at hw'
  rw [hw']

theorem Roomy.exists_byte (hr : f.Roomy) (hb : block < f.dataBlocks) (i : Nat) :
    ∃ b, f.image[blockSize * (1 + f.inodes + block) + i % blockSize]? = some b := by
  have hend : blockSize * (1 + f.inodes + block) + blockSize ≤ f.image.size := hr.data_end_le hb
  have hlt : i % blockSize < blockSize := Nat.mod_lt i (by decide)
  exact ⟨_, Array.getElem?_eq_getElem (by omega)⟩

theorem Roomy.exists_hasByte_iff (hr : f.Roomy) {i : Nat} :
    (∃ b, f.HasByte inode i b) ↔ ∃ block, f.HasBlock inode (i / blockSize) block := by
  constructor
  · rintro ⟨b, hb⟩
    obtain ⟨block, hblock, -⟩ := hasByte_iff.mp hb
    exact ⟨block, hblock⟩
  · rintro ⟨block, hblock⟩
    obtain ⟨b, hb⟩ := hr.exists_byte hblock.2.1 i
    exact ⟨b, hasByte_iff.mpr ⟨block, hblock, hb⟩⟩

/-- Bytes are there exactly if the blocks are in which they lie. -/
theorem Roomy.exists_holds_iff (hr : f.Roomy) (inode pos n : Nat) :
    (∃ bs, bs.length = n ∧ f.Holds inode pos bs) ↔
      ∀ i < n, ∃ block, f.HasBlock inode ((pos + i) / blockSize) block := by
  constructor
  · rintro ⟨bs, rfl, h⟩ i hi
    exact hr.exists_hasByte_iff.mp ⟨_, h i _ (List.getElem?_eq_getElem hi)⟩
  · intro h
    have hbytes (i : Fin n) : ∃ b, f.HasByte inode (pos + i) b :=
      hr.exists_hasByte_iff.mpr (h i i.isLt)
    choose b hb using hbytes
    refine ⟨List.ofFn b, List.length_ofFn, ?_⟩
    intro i c hc
    obtain ⟨hi, rfl⟩ := List.getElem?_eq_some_iff.mp hc
    rw [List.length_ofFn] at hi
    rw [List.getElem_ofFn]
    exact hb ⟨i, hi⟩

theorem slotBase_eq_error (h : blocksPerInode ≤ slot) (f : FileImage) (base : Nat) :
    f.slotBase base slot = .error .corrupt := if_pos h

theorem Roomy.within_blockFootprint (hr : f.Roomy) (hi : inode < f.inodes) (pos want : Nat) :
    ∀ p ∈ f.blockFootprint (blockSize * (inode + 1)) pos want,
      p.pos + p.length ≤ f.image.size := by
  fun_induction blockFootprint f (blockSize * (inode + 1)) pos want with
  | case1 => exact fun p hp => nomatch hp
  | case2 pos want hmore number e hs =>
    rw [not_or, Nat.not_le] at hmore
    rw [List.forall_mem_singleton]
    exact hr.number_end_le hi hmore.2
  | case3 pos want hmore number start hs n ih =>
    rw [not_or, Nat.not_le] at hmore
    rw [List.forall_mem_cons, List.forall_mem_cons]
    exact ⟨hr.number_end_le hi hmore.2, hr.slot_end_le hs, ih⟩

theorem Roomy.within_footprint (hr : f.Roomy) (inode offset : Nat) (buffer : Bytes) :
    ∀ p ∈ f.footprint inode offset buffer, p.pos + p.length ≤ f.image.size := by
  unfold footprint inodeBase
  by_cases hi : inode < f.inodes
  · have hdeclared : blockSize * (inode + 1) + 4 ≤ f.image.size := by
      have hend : blockSize * (inode + 1) + 4096 ≤ f.image.size := hr.inode_end_le hi
      omega
    rw [if_pos hi]
    obtain ⟨length, hl⟩ := hr.exists_length hi
    simp only [hl]
    split
    · rwa [List.forall_mem_singleton]
    · rw [List.forall_mem_cons]
      exact ⟨hdeclared, hr.within_blockFootprint hi _ _⟩
  · rw [if_neg hi]
    exact fun p hp => nomatch hp

/-- A read asks for two parts in every pass, and every pass reads a byte or is the last one. -/
theorem length_blockFootprint_le (f : FileImage) (base pos want : Nat) :
    (f.blockFootprint base pos want).length ≤ 2 * want := by
  fun_induction blockFootprint f base pos want with
  | case1 => exact Nat.zero_le _
  | case2 pos want hmore number e hs =>
    rw [not_or] at hmore
    rw [List.length_singleton]
    omega
  | case3 pos want hmore number start hs n ih =>
    rw [not_or] at hmore
    have hlt : pos % blockSize < blockSize := Nat.mod_lt pos (by decide)
    rw [List.length_cons, List.length_cons]
    omega

theorem length_footprint_le (f : FileImage) (inode offset : Nat) (buffer : Bytes) :
    (f.footprint inode offset buffer).length ≤ 2 * buffer.length + 1 := by
  unfold footprint
  split
  · exact Nat.zero_le _
  · rename_i base hbase
    dsimp only
    split
    · simp
    · rename_i length hl
      split
      · simp
      · have hpassed := f.length_blockFootprint_le base offset
          (min buffer.length (length.toNat - offset))
        rw [List.length_cons]
        omega

theorem slice?_part {off len : Nat} (h : slice? image pos len = some bs) (hn : off + n ≤ len) :
    slice? image (pos + off) n = some ((bs.drop off).take n) := by
  have hroom : pos + len ≤ image.size := by
    unfold slice? at h
    split at h
    · assumption
    · cases h
  rw [slice?_eq hroom, Option.some.injEq] at h
  rw [slice?_eq (by omega), ← h, List.drop_take, List.take_take, List.drop_drop,
    Nat.min_eq_left (by omega)]

theorem word_congr (h : slice? g.image pos 4 = slice? f.image pos 4) :
    word g.image pos = word f.image pos := by
  rw [word, word, h]

structure SameCounts (g f : FileImage) : Prop where
  inodes : g.inodes = f.inodes
  dataBlocks : g.dataBlocks = f.dataBlocks

theorem SameCounts.slotBase (hc : g.SameCounts f) {base : Nat}
    (h : slice? g.image (base + 4 + 4 * slot) 4 = slice? f.image (base + 4 + 4 * slot) 4) :
    g.slotBase base slot = f.slotBase base slot := by
  unfold FileImage.slotBase blockBase
  rw [word_congr h, hc.inodes, hc.dataBlocks]

theorem Roomy.readBlocks_congr (hr : f.Roomy) (hc : g.SameCounts f) (base pos want : Nat)
    (h : ∀ p ∈ f.blockFootprint base pos want,
      slice? g.image p.pos p.length = slice? f.image p.pos p.length) :
    g.readBlocks base pos want = f.readBlocks base pos want := by
  fun_induction blockFootprint f base pos want with
  | case1 pos want hend =>
    rw [readBlocks, readBlocks]
    obtain hz | hs := hend
    · rw [if_pos hz, if_pos hz]
    · simp only [slotBase_eq_error hs]
  | case2 pos want hmore number e hs =>
    rw [List.forall_mem_singleton] at h
    rw [readBlocks, readBlocks]
    simp only [hc.slotBase h, hs]
  | case3 pos want hmore number start hs n ih =>
    rw [List.forall_mem_cons, List.forall_mem_cons] at h
    obtain ⟨hnumber, hblock, hrest⟩ := h
    have hn : min (blockSize - pos % blockSize) want = n := rfl
    have hpart : pos % blockSize + n ≤ blockSize := by
      have hlt : pos % blockSize < blockSize := Nat.mod_lt pos (by decide)
      omega
    -- the part of the block that is read is the same because the whole block is
    have hf := slice?_eq (hr.slot_end_le hs)
    have hpiece : slice? g.image (start + pos % blockSize) n =
        slice? f.image (start + pos % blockSize) n := by
      rw [slice?_part hf hpart, slice?_part (hblock.trans hf) hpart]
    rw [readBlocks, readBlocks]
    simp only [hc.slotBase hnumber, hs, hn, hpiece, ih hrest]

theorem Roomy.readData_congr (hr : f.Roomy) (hc : g.SameCounts f) {offset : Nat}
    (h : ∀ p ∈ f.footprint inode offset buffer,
      slice? g.image p.pos p.length = slice? f.image p.pos p.length) :
    g.readData inode offset buffer = f.readData inode offset buffer := by
  unfold footprint at h
  unfold readData
  have hbase : g.inodeBase inode = f.inodeBase inode := by rw [inodeBase, inodeBase, hc.inodes]
  rw [hbase]
  cases hb : f.inodeBase inode with
  | error e => rfl
  | ok base =>
    simp only [hb] at h ⊢
    cases hl : word f.image base with
    | error e =>
      simp only [hl, List.forall_mem_singleton] at h
      simp only [word_congr h, hl]
    | ok length =>
      simp only [hl] at h
      split at h
      · rename_i hend
        rw [List.forall_mem_singleton] at h
        simp only [word_congr h, hl, if_pos hend]
      · rename_i hend
        rw [List.forall_mem_cons] at h
        simp only [word_congr h.1, hl, if_neg hend, hr.readBlocks_congr hc _ _ _ h.2]

/-- A read of `n` bytes, at least one, gives them if all blocks are there in which they lie.
Otherwise the image contradicts itself. -/
structure ReadsBytes (f : FileImage) (inode offset n : Nat) (buffer : Bytes) : Prop where
  ok_iff : (f.readData inode offset buffer).1 = .ok n ↔
    ∀ i < n, ∃ block, f.HasBlock inode ((offset + i) / blockSize) block
  corrupt : (f.readData inode offset buffer).1 ≠ .ok n →
    (f.readData inode offset buffer).1 = .error .corrupt
  bytes : (f.readData inode offset buffer).1 = .ok n → ∀ i < n, ∀ block,
    f.HasBlock inode ((offset + i) / blockSize) block →
      ∃ b, (f.readData inode offset buffer).2[i]? = some b ∧
        f.image[blockSize * (1 + f.inodes + block) + (offset + i) % blockSize]? = some b
  rest : (f.readData inode offset buffer).1 = .ok n → ∀ i, n ≤ i →
    (f.readData inode offset buffer).2[i]? = buffer[i]?

/-- A read asks for parts of the image that are all there, two for every byte at most, and what it
gives depends on nothing else of the image. -/
structure StaysInside (f : FileImage) (inode offset : Nat) (buffer : Bytes) : Prop where
  within : ∀ p ∈ f.footprint inode offset buffer, p.pos + p.length ≤ f.image.size
  ends : (f.footprint inode offset buffer).length ≤ 2 * buffer.length + 1
  determined : ∀ g : FileImage, g.SameCounts f →
    (∀ p ∈ f.footprint inode offset buffer,
      slice? g.image p.pos p.length = slice? f.image p.pos p.length) →
    g.readData inode offset buffer = f.readData inode offset buffer

theorem Roomy.readsBytes (hr : f.Roomy) {offset length : Nat}
    (hl : f.fileLength inode = .ok length) (ho : offset < length) (hb : buffer ≠ []) :
    f.ReadsBytes inode offset (min buffer.length (length - offset)) buffer := by
  have hiff := hr.exists_holds_iff inode offset (min buffer.length (length - offset))
  obtain ⟨bs, hbs, hh, hread⟩ | ⟨hno, hread⟩ := readData_eq hl ho hb
  · rw [← hbs] at hiff ⊢
    refine ⟨?_, ?_, ?_, ?_⟩
    · rw [hread]
      exact iff_of_true rfl (hiff.mp ⟨bs, rfl, hh⟩)
    · rw [hread]
      exact fun hne => absurd rfl hne
    · intro _ i hi block hblock
      obtain ⟨block', hblock', hbyte⟩ := hasByte_iff.mp (hh i _ (List.getElem?_eq_getElem hi))
      rw [hblock'.eq hblock] at hbyte
      refine ⟨bs[i], ?_, hbyte⟩
      rw [hread, Bytes.fill, List.getElem?_append_left hi, List.getElem?_eq_getElem hi]
    · intro _ i hi
      rw [hread, Bytes.fill, List.getElem?_append_right hi, List.getElem?_drop,
        Nat.add_sub_cancel' hi]
  · have hne : (f.readData inode offset buffer).1 ≠
        .ok (min buffer.length (length - offset)) := by
      rw [hread]
      intro he
      cases he
    refine ⟨iff_of_false hne ?_, fun _ => hread, fun h => absurd h hne, fun h => absurd h hne⟩
    intro hall
    obtain ⟨bs, hbs, hh⟩ := hiff.mpr hall
    exact hno bs hbs hh

theorem readData_ne_badInode {length : Nat} (hl : f.fileLength inode = .ok length) (offset : Nat)
    (buffer : Bytes) : (f.readData inode offset buffer).1 ≠ .error .badInode := by
  by_cases hend : length ≤ offset ∨ buffer = []
  · rw [readData_end hl hend]
    exact nofun
  · rw [not_or, Nat.not_le] at hend
    obtain ⟨bs, -, -, hread⟩ | ⟨-, hread⟩ := readData_eq hl hend.1 hend.2
    · rw [hread]
      exact nofun
    · rw [hread]
      exact nofun

/-- Every read from an image that was opened, whatever the image holds. -/
theorem readData_exact (h : open? image = .ok f) (inode offset : Nat) (buffer : Bytes) :
    ((f.readData inode offset buffer).1 = .error .badInode ↔ f.inodes ≤ inode) ∧
      (inode < f.inodes → ∃ length, f.fileLength inode = .ok length ∧
        (length ≤ offset ∨ buffer = [] → f.readData inode offset buffer = (.ok 0, buffer)) ∧
        (offset < length → buffer ≠ [] →
          f.ReadsBytes inode offset (min buffer.length (length - offset)) buffer)) ∧
      f.StaysInside inode offset buffer := by
  have hr := roomy_of_open h
  refine ⟨?_, ?_, ?_⟩
  · constructor
    · intro hbad
      by_contra hi
      obtain ⟨length, hl⟩ := hr.exists_fileLength (Nat.not_le.mp hi)
      exact readData_ne_badInode hl offset buffer hbad
    · intro hi
      have hbase : f.inodeBase inode = .error .badInode := if_neg (Nat.not_lt.mpr hi)
      rw [readData, hbase]
  · intro hi
    obtain ⟨length, hl⟩ := hr.exists_fileLength hi
    exact ⟨length, hl, readData_end hl, hr.readsBytes hl⟩
  · exact ⟨hr.within_footprint inode offset buffer, f.length_footprint_le ..,
      fun g hc => hr.readData_congr hc⟩

end TerminalKernel.FileImage

namespace TerminalKernel.Sample

open FileImage

/-- A file of 5000 bytes. Its inode numbers the one data block that there is, and then a block that
there is not. -/
def damagedBlocks : List Bytes :=
  [Bytes.ofWord 0 ++ Bytes.ofWord 1 ++ Bytes.ofWord 1,
    Bytes.ofWord 5000 ++ Bytes.ofWord 0 ++ Bytes.ofWord 7,
    program shellEntry 40]

def damagedFiles : FileImage := ⟨ofBlocks damagedBlocks, 0, 1, 1⟩

theorem word_damagedBlocks {i : Nat} {b : Bytes} (hb : damagedBlocks[i]? = some b) (pos : Nat)
    {w : UInt32} (h : pos + 4 ≤ b.length ∧ Bytes.toWord (b.drop pos) = w) :
    word (ofBlocks damagedBlocks) (i * blockSize + pos) = .ok w := by
  have hlength : ∀ b ∈ damagedBlocks, b.length ≤ blockSize := by decide +kernel
  rw [word_ofBlocks hlength hb h.1, h.2]

theorem open_damagedFiles : open? (ofBlocks damagedBlocks) = .ok damagedFiles := by
  have h₀ : word (ofBlocks damagedBlocks) 0 = .ok 0 :=
    word_damagedBlocks (i := 0) rfl 0 (by decide +kernel)
  have h₄ : word (ofBlocks damagedBlocks) 4 = .ok 1 :=
    word_damagedBlocks (i := 0) rfl 4 (by decide +kernel)
  have h₈ : word (ofBlocks damagedBlocks) 8 = .ok 1 :=
    word_damagedBlocks (i := 0) rfl 8 (by decide +kernel)
  have hsize : (ofBlocks damagedBlocks).size = 3 * blockSize :=
    size_ofBlocks (by decide +kernel)
  rw [open?, h₀, h₄, h₈]
  simp only [hsize]
  rfl

theorem fileLength_damaged : damagedFiles.fileLength 0 = .ok 5000 :=
  fileLength_eq_ok_iff.mpr ⟨Nat.one_pos, 5000,
    word_damagedBlocks (i := 1) rfl 0 (by decide +kernel), rfl⟩

theorem hasBlock_damaged : damagedFiles.HasBlock 0 0 0 :=
  ⟨by decide, Nat.one_pos, 0, word_damagedBlocks (i := 1) rfl 4 (by decide +kernel), rfl⟩

theorem not_hasBlock_damaged (block : Nat) : ¬damagedFiles.HasBlock 0 1 block := by
  have hword : word damagedFiles.image (blockSize * (0 + 1) + 4 + 4 * 1) = .ok 7 :=
    word_damagedBlocks (i := 1) rfl 8 (by decide +kernel)
  rintro ⟨-, hlt, w, hw, rfl⟩
  rw [hword, Except.ok.injEq] at hw
  rw [← hw] at hlt
  exact absurd hlt (by decide)

end TerminalKernel.Sample

namespace TerminalKernel.FileImage

theorem readData_exact_damaged :
    open? (ofBlocks Sample.damagedBlocks) = .ok Sample.damagedFiles ∧
      (Sample.damagedFiles.readData 0 4090 (List.replicate 6 0)).1 = .ok 6 ∧
      (Sample.damagedFiles.readData 0 4090 (List.replicate 7 0)).1 = .error .corrupt ∧
      (Sample.damagedFiles.readData 1 0 []).1 = .error .badInode := by
  have hread (n : Nat) (hn : n ≠ 0) (hle : n ≤ 910) :
      Sample.damagedFiles.ReadsBytes 0 4090 n (List.replicate n 0) := by
    obtain ⟨-, hfile, -⟩ := readData_exact Sample.open_damagedFiles 0 4090 (List.replicate n 0)
    obtain ⟨length, hl, -, hbytes⟩ := hfile Nat.one_pos
    rw [Sample.fileLength_damaged, Except.ok.injEq] at hl
    subst length
    have hmin : min (List.replicate n (0 : UInt8)).length (5000 - 4090) = n := by
      rw [List.length_replicate]
      omega
    rw [hmin] at hbytes
    exact hbytes (by decide) (by rwa [Ne, List.replicate_eq_nil_iff])
  refine ⟨Sample.open_damagedFiles, ?_, ?_, ?_⟩
  · refine (hread 6 (by decide) (by decide)).ok_iff.mpr ?_
    intro i hi
    have hslot : (4090 + i) / blockSize = 0 := Nat.div_eq_of_lt (by change _ < 4096; omega)
    exact ⟨0, hslot ▸ Sample.hasBlock_damaged⟩
  · have hseven := hread 7 (by decide) (by decide)
    refine hseven.corrupt ?_
    rw [Ne, hseven.ok_iff]
    intro hall
    obtain ⟨block, hblock⟩ := hall 6 (by decide)
    exact Sample.not_hasBlock_damaged block hblock
  · exact (readData_exact Sample.open_damagedFiles 1 0 []).1.mpr (Nat.le_refl 1)

end TerminalKernel.FileImage
