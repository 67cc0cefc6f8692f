import Mathlib
import TerminalKernel.FileSystem.Image

namespace TerminalKernel.FileImage

/-- Byte `i` in the data blocks of a file, however long the file is: the inode numbers its block,
and the image counts that block. -/
def HasByte (f : FileImage) (inode i : Nat) (b : UInt8) : Prop :=
  i / blockSize < blocksPerInode ∧ ∃ block,
    word f.image (blockSize * (inode + 1) + 4 + 4 * (i / blockSize)) = .ok block ∧
    block.toNat < f.dataBlocks ∧
    f.image[blockSize * (1 + f.inodes + block.toNat) + i % blockSize]? = some b

def Holds (f : FileImage) (inode pos : Nat) (bs : Bytes) : Prop :=
  ∀ i b, bs[i]? = some b → f.HasByte inode (pos + i) b

def Content (f : FileImage) (inode : Nat) (bs : Bytes) : Prop :=
  f.fileLength inode = .ok bs.length ∧ f.Holds inode 0 bs

variable {f : FileImage} {inode i pos : Nat} {a b : UInt8} {bs cs : Bytes}

theorem HasByte.eq (ha : f.HasByte inode i a) (hb : f.HasByte inode i b) : a = b := by
  obtain ⟨-, block, hw, -, hab⟩ := ha
  obtain ⟨-, block', hw', -, hbb⟩ := hb
  rw [hw] at hw'
  cases hw'
  rw [hab] at hbb
  exact Option.some.inj hbb

theorem holds_nil : f.Holds inode pos [] := by
  intro i b hb
  cases hb

theorem forall_getElem?_append {P : Nat → UInt8 → Prop} :
    (∀ i b, (bs ++ cs)[i]? = some b → P i b) ↔
      (∀ i b, bs[i]? = some b → P i b) ∧ ∀ i b, cs[i]? = some b → P (bs.length + i) b := by
  constructor
  · intro h
    constructor
    · intro i b hb
      have hi : i < bs.length := (List.getElem?_eq_some_iff.mp hb).1
      exact h i b (by rwa [List.getElem?_append_left hi])
    · intro i b hb
      refine h (bs.length + i) b ?_
      rwa [List.getElem?_append_right (Nat.le_add_right ..), Nat.add_sub_cancel_left]
  · rintro ⟨hbs, hcs⟩ i b hb
    by_cases hi : i < bs.length
    · rw [List.getElem?_append_left hi] at hb
      exact hbs i b hb
    · have hle : bs.length ≤ i := Nat.le_of_not_lt hi
      rw [List.getElem?_append_right hle] at hb
      have hc := hcs (i - bs.length) b hb
      rwa [Nat.add_sub_cancel' hle] at hc

theorem holds_append :
    f.Holds inode pos (bs ++ cs) ↔ f.Holds inode pos bs ∧ f.Holds inode (pos + bs.length) cs := by
  simp only [Holds, Nat.add_assoc]
  exact forall_getElem?_append (P := fun i => f.HasByte inode (pos + i))

theorem Holds.eq (h : f.Holds inode pos bs) (h' : f.Holds inode pos cs)
    (hl : bs.length = cs.length) : bs = cs := by
  refine List.ext_getElem hl ?_
  intro i hi hi'
  exact (h i _ (List.getElem?_eq_getElem hi)).eq (h' i _ (List.getElem?_eq_getElem hi'))

theorem Holds.take (h : f.Holds inode pos bs) (n : Nat) : f.Holds inode pos (bs.take n) := by
  rw [← List.take_append_drop n bs, holds_append] at h
  exact h.1

theorem Holds.split (h : f.Holds inode pos bs) {n : Nat} (hn : n ≤ bs.length) :
    f.Holds inode pos (bs.take n) ∧ f.Holds inode (pos + n) (bs.drop n) := by
  have htake : (bs.take n).length = n := by rw [List.length_take, Nat.min_eq_left hn]
  rw [← List.take_append_drop n bs, holds_append, htake] at h
  exact h

theorem Holds.length_le (h : f.Holds inode pos bs) (hbs : bs ≠ []) :
    pos + bs.length ≤ blocksPerInode * blockSize := by
  have hpos : 0 < bs.length := List.length_pos_of_ne_nil hbs
  have hlast := (h (bs.length - 1) _ (List.getElem?_eq_getElem (by omega))).1
  rw [Nat.div_lt_iff_lt_mul (by decide)] at hlast
  omega

theorem length_slice? {image : Array UInt8} {n : Nat} (h : slice? image pos n = some bs) :
    bs.length = n := by
  unfold slice? at h
  split at h
  · cases h
    simp
    omega
  · cases h

theorem slice?_eq_some_iff {image : Array UInt8} {n : Nat} (hn : 0 < n) :
    slice? image pos n = some bs ↔
      bs.length = n ∧ ∀ i b, bs[i]? = some b → image[pos + i]? = some b := by
  constructor
  · intro h
    refine ⟨length_slice? h, ?_⟩
    intro i b hb
    unfold slice? at h
    split at h
    · cases h
      have hi := (List.getElem?_eq_some_iff.mp hb).1
      rw [Array.getElem?_toList, Array.getElem?_extract] at hb
      split at hb
      · exact hb
      · cases hb
    · cases h
  · rintro ⟨hl, h⟩
    have hroom : pos + n ≤ image.size := by
      have hlast := h (n - 1) _ (List.getElem?_eq_getElem (by omega))
      have := (Array.getElem?_eq_some_iff.mp hlast).1
      omega
    rw [slice?, if_pos hroom]
    refine congrArg some (List.ext_getElem? ?_)
    intro i
    rw [Array.getElem?_toList, Array.getElem?_extract]
    by_cases hi : i < n
    · have hb := h i _ (List.getElem?_eq_getElem (by omega))
      rw [if_pos (by omega), hb, List.getElem?_eq_getElem (by omega)]
    · rw [if_neg (by omega), List.getElem?_eq_none (by omega)]

theorem slotBase_eq_ok_iff {base slot start : Nat} :
    f.slotBase base slot = .ok start ↔
      slot < blocksPerInode ∧ ∃ block, word f.image (base + 4 + 4 * slot) = .ok block ∧
        block.toNat < f.dataBlocks ∧ start = blockSize * (1 + f.inodes + block.toNat) := by
  unfold slotBase
  split
  case isTrue h =>
    simp [Nat.not_lt.mpr h]
  case isFalse h =>
    cases hw : word f.image (base + 4 + 4 * slot) with
    | error e => simp [bind, Except.bind]
    | ok block =>
      simp only [bind, Except.bind, Except.ok.injEq]
      split
      case isTrue hb =>
        constructor
        · intro h
          cases h
        · rintro ⟨-, _, rfl, hlt, -⟩
          exact absurd hlt (Nat.not_lt.mpr hb)
      case isFalse hb =>
        constructor
        · intro h
          cases h
          exact ⟨Nat.lt_of_not_le ‹_›, block, rfl, Nat.lt_of_not_le hb, rfl⟩
        · rintro ⟨-, _, rfl, -, rfl⟩
          rfl

theorem slotBase_error {base slot : Nat} {e : FsError} (h : f.slotBase base slot = .error e) :
    e = .corrupt := by
  unfold slotBase at h
  split at h
  · cases h
    rfl
  · unfold word at h
    split at h
    · simp only [bind, Except.bind] at h
      split at h
      · cases h
        rfl
      · cases h
    · cases h
      rfl

theorem holds_block_iff (f : FileImage) (inode : Nat) {n : Nat} (hn : 0 < n)
    (hle : pos % blockSize + n ≤ blockSize) (bs : Bytes) :
    (∃ start, f.slotBase (blockSize * (inode + 1)) (pos / blockSize) = .ok start ∧
      slice? f.image (start + pos % blockSize) n = some bs) ↔
        bs.length = n ∧ f.Holds inode pos bs := by
  have hdiv (i : Nat) (hi : i < n) : (pos + i) / blockSize = pos / blockSize := by
    change (pos + i) / 4096 = pos / 4096
    change pos % 4096 + n ≤ 4096 at hle
    omega
  have hmod (i : Nat) (hi : i < n) : (pos + i) % blockSize = pos % blockSize + i := by
    change (pos + i) % 4096 = pos % 4096 + i
    change pos % 4096 + n ≤ 4096 at hle
    omega
  constructor
  · rintro ⟨start, hs, hslice⟩
    obtain ⟨hl, hbytes⟩ := (slice?_eq_some_iff hn).mp hslice
    obtain ⟨hslot, block, hw, hblock, rfl⟩ := slotBase_eq_ok_iff.mp hs
    refine ⟨hl, ?_⟩
    intro i b hb
    have hi : i < n := hl ▸ (List.getElem?_eq_some_iff.mp hb).1
    rw [HasByte, hdiv i hi, hmod i hi]
    refine ⟨hslot, block, hw, hblock, ?_⟩
    rw [← Nat.add_assoc]
    exact hbytes i b hb
  · rintro ⟨hl, h⟩
    obtain ⟨hslot, block, hw, hblock, -⟩ := h 0 _ (List.getElem?_eq_getElem (by omega))
    simp only [Nat.add_zero] at hslot hw
    refine ⟨_, slotBase_eq_ok_iff.mpr ⟨hslot, block, hw, hblock, rfl⟩, ?_⟩
    refine (slice?_eq_some_iff hn).mpr ⟨hl, ?_⟩
    intro i b hb
    have hi : i < n := hl ▸ (List.getElem?_eq_some_iff.mp hb).1
    have hbyte := h i b hb
    rw [HasByte, hdiv i hi, hmod i hi] at hbyte
    obtain ⟨-, block', hw', -, hb'⟩ := hbyte
    rw [hw] at hw'
    cases hw'
    rwa [Nat.add_assoc]

theorem holds_split_iff {n want : Nat} (hn : n ≤ want) :
    bs.length = want ∧ f.Holds inode pos bs ↔ ∃ piece rest, bs = piece ++ rest ∧
      (piece.length = n ∧ f.Holds inode pos piece) ∧
        rest.length = want - n ∧ f.Holds inode (pos + n) rest := by
  constructor
  · rintro ⟨hl, h⟩
    obtain ⟨htake, hdrop⟩ := h.split (n := n) (by omega)
    refine ⟨bs.take n, bs.drop n, (List.take_append_drop n bs).symm, ⟨?_, htake⟩, ?_, hdrop⟩
    · rw [List.length_take, hl, Nat.min_eq_left hn]
    · rw [List.length_drop, hl]
  · rintro ⟨piece, rest, rfl, ⟨rfl, hpiece⟩, hl, hrest⟩
    refine ⟨?_, holds_append.mpr ⟨hpiece, hrest⟩⟩
    rw [List.length_append, hl]
    omega

/-- A read takes what it can from one block, and the rest from those behind it. -/
theorem readBlocks_pos_iff {base want : Nat} (hw : 0 < want) :
    f.readBlocks base pos want = (.ok (), bs) ↔ ∃ piece rest, bs = piece ++ rest ∧
      (∃ start, f.slotBase base (pos / blockSize) = .ok start ∧
        slice? f.image (start + pos % blockSize) (min (blockSize - pos % blockSize) want) =
          some piece) ∧
      f.readBlocks base (pos + min (blockSize - pos % blockSize) want)
        (want - min (blockSize - pos % blockSize) want) = (.ok (), rest) := by
  rw [readBlocks, if_neg (Nat.pos_iff_ne_zero.mp hw)]
  dsimp only
  generalize min (blockSize - pos % blockSize) want = n
  cases hs : f.slotBase base (pos / blockSize) with
  | error e => simp
  | ok start =>
    dsimp only
    cases hp : slice? f.image (start + pos % blockSize) n with
    | none => simp [hp]
    | some piece =>
      dsimp only
      constructor
      · intro h
        obtain ⟨hok, rfl⟩ := Prod.mk.inj h
        exact ⟨piece, _, rfl, ⟨start, rfl, hp⟩, Prod.ext hok rfl⟩
      · rintro ⟨piece', rest, rfl, ⟨start', hstart, hpiece⟩, hrest⟩
        cases hstart
        rw [hp, Option.some.injEq] at hpiece
        rw [hpiece, hrest]

/-- A read goes through exactly if every byte is there, and then gives these bytes. -/
theorem readBlocks_eq_ok_iff (f : FileImage) (inode pos want : Nat) (bs : Bytes) :
    f.readBlocks (blockSize * (inode + 1)) pos want = (.ok (), bs) ↔
      bs.length = want ∧ f.Holds inode pos bs := by
  induction want using Nat.strongRecOn generalizing pos bs with
  | ind want ih =>
    obtain rfl | hw := Nat.eq_zero_or_pos want
    · rw [readBlocks, if_pos rfl, Prod.mk.injEq, eq_self, true_and, List.length_eq_zero_iff]
      constructor
      · rintro rfl
        exact ⟨rfl, holds_nil⟩
      · exact fun h => h.1.symm
    · have hlt : pos % blockSize < blockSize := Nat.mod_lt pos (by decide)
      have hn : 0 < min (blockSize - pos % blockSize) want := by omega
      have hle : pos % blockSize + min (blockSize - pos % blockSize) want ≤ blockSize := by omega
      rw [readBlocks_pos_iff hw, holds_split_iff (Nat.min_le_right ..)]
      refine exists₂_congr fun piece rest => ?_
      rw [holds_block_iff f inode hn hle, ih _ (by omega)]

theorem readBlocks_error {base want : Nat} {e : FsError}
    (h : (f.readBlocks base pos want).1 = .error e) : e = .corrupt := by
  induction want using Nat.strongRecOn generalizing pos with
  | ind want ih =>
    rw [readBlocks] at h
    split at h
    case isTrue => cases h
    case isFalse hz =>
      have hlt : pos % blockSize < blockSize := Nat.mod_lt pos (by decide)
      dsimp only at h
      split at h
      case h_1 e' hs =>
        cases h
        exact slotBase_error hs
      case h_2 start hs =>
        split at h
        · cases h
          rfl
        · exact ih _ (by omega) h

theorem fileLength_eq_ok_iff {length : Nat} :
    f.fileLength inode = .ok length ↔ inode < f.inodes ∧
      ∃ w, word f.image (blockSize * (inode + 1)) = .ok w ∧ length = w.toNat := by
  unfold fileLength inodeBase
  by_cases hi : inode < f.inodes
  · rw [if_pos hi]
    cases hw : word f.image (blockSize * (inode + 1)) with
    | error e => simp [bind, Except.bind, hw]
    | ok w =>
      simp only [bind, Except.bind, pure, Except.pure, hw, Except.ok.injEq, true_and, hi]
      exact ⟨fun h => ⟨w, rfl, h.symm⟩, by rintro ⟨_, rfl, h⟩; exact h.symm⟩
  · rw [if_neg hi]
    simp [bind, Except.bind, hi]

/-- A read before the end of a file gives as many bytes as fit into the buffer, up to the end, or
fails because one of them is not there. -/
theorem readData_eq {length offset : Nat} {buffer : Bytes} (hl : f.fileLength inode = .ok length)
    (ho : offset < length) (hb : buffer ≠ []) :
    (∃ bs, bs.length = min buffer.length (length - offset) ∧ f.Holds inode offset bs ∧
      f.readData inode offset buffer = (.ok bs.length, Bytes.fill buffer bs)) ∨
    (∀ bs, bs.length = min buffer.length (length - offset) → ¬f.Holds inode offset bs) ∧
      (f.readData inode offset buffer).1 = .error .corrupt := by
  obtain ⟨hi, w, hw, rfl⟩ := fileLength_eq_ok_iff.mp hl
  have hbase : f.inodeBase inode = .ok (blockSize * (inode + 1)) := if_pos hi
  have hne : ¬(w.toNat ≤ offset ∨ buffer = []) := not_or.mpr ⟨Nat.not_le.mpr ho, hb⟩
  have hr : f.readData inode offset buffer =
      ((f.readBlocks (blockSize * (inode + 1)) offset (min buffer.length (w.toNat - offset))).1.map
          fun _ => min buffer.length (w.toNat - offset),
        Bytes.fill buffer
          (f.readBlocks (blockSize * (inode + 1)) offset
            (min buffer.length (w.toNat - offset))).2) := by
    rw [readData, hbase]
    simp only [hw]
    rw [if_neg hne]
  have hiff := readBlocks_eq_ok_iff f inode offset (min buffer.length (w.toNat - offset))
  cases hres : f.readBlocks (blockSize * (inode + 1)) offset
      (min buffer.length (w.toNat - offset)) with
  | mk r bs =>
    rw [hres] at hr
    cases r with
    | ok u =>
      obtain ⟨hlen, hh⟩ := (hiff _).mp hres
      left
      refine ⟨bs, hlen, hh, ?_⟩
      rw [hr, hlen]
      rfl
    | error e =>
      right
      have he : e = .corrupt := readBlocks_error (congrArg Prod.fst hres)
      refine ⟨?_, by rw [hr, he]; rfl⟩
      intro bs' hlen hh
      rw [(hiff _).mpr ⟨hlen, hh⟩] at hres
      cases hres

theorem readData_error {e : FsError} (offset : Nat) (buffer : Bytes)
    (hl : f.fileLength inode = .error e) :
    f.readData inode offset buffer = (.error e, buffer) := by
  unfold fileLength at hl
  unfold readData
  cases hb : f.inodeBase inode with
  | error e' =>
    rw [hb] at hl
    cases hl
    rfl
  | ok base =>
    rw [hb] at hl
    cases hw : word f.image base with
    | error e' =>
      simp only [bind, Except.bind, hw] at hl
      cases hl
      simp only [hw]
    | ok w =>
      simp only [bind, Except.bind, hw] at hl
      cases hl

theorem readData_end {length offset : Nat} {buffer : Bytes} (hl : f.fileLength inode = .ok length)
    (h : length ≤ offset ∨ buffer = []) : f.readData inode offset buffer = (.ok 0, buffer) := by
  obtain ⟨hi, w, hw, rfl⟩ := fileLength_eq_ok_iff.mp hl
  have hbase : f.inodeBase inode = .ok (blockSize * (inode + 1)) := if_pos hi
  rw [readData, hbase]
  simp only [hw]
  rw [if_pos h]

theorem readData_cases (f : FileImage) (inode offset : Nat) (buffer : Bytes) :
    (∃ length bs, f.fileLength inode = .ok length ∧
      bs.length = min buffer.length (length - offset) ∧ f.Holds inode offset bs ∧
      f.readData inode offset buffer = (.ok bs.length, Bytes.fill buffer bs)) ∨
    (∃ e, (f.readData inode offset buffer).1 = .error e) ∧
      ∀ length bs, f.fileLength inode = .ok length →
        bs.length = min buffer.length (length - offset) → ¬f.Holds inode offset bs := by
  cases hl : f.fileLength inode with
  | error e => exact Or.inr ⟨⟨e, by rw [readData_error offset buffer hl]⟩, nofun⟩
  | ok length =>
    by_cases hend : length ≤ offset ∨ buffer = []
    · refine Or.inl ⟨length, [], rfl, ?_, holds_nil, readData_end hl hend⟩
      obtain ho | rfl := hend
      · rw [Nat.sub_eq_zero_of_le ho, Nat.min_zero, List.length_nil]
      · rw [List.length_nil, Nat.zero_min]
    · rw [not_or, Nat.not_le] at hend
      obtain ⟨bs, hbs, hh, hr⟩ | ⟨hno, hr⟩ := readData_eq hl hend.1 hend.2
      · exact Or.inl ⟨length, bs, rfl, hbs, hh, hr⟩
      · refine Or.inr ⟨⟨_, hr⟩, ?_⟩
        intro length' bs hl' hbs
        cases hl'
        exact hno bs hbs

abbrev chunk (bs : Bytes) (pos : Nat) (buffer : Bytes) : Bytes :=
  (bs.drop pos).take buffer.length

theorem readData_content (h : f.Content inode bs) (pos : Nat) (buffer : Bytes) :
    f.readData inode pos buffer =
      (.ok (chunk bs pos buffer).length, Bytes.fill buffer (chunk bs pos buffer)) := by
  obtain ⟨hlength, hholds⟩ := h
  have hchunk : f.Holds inode pos (chunk bs pos buffer) := by
    by_cases hpos : pos ≤ bs.length
    · have hdrop := (hholds.split hpos).2
      rw [Nat.zero_add] at hdrop
      exact hdrop.take _
    · rw [chunk, List.drop_eq_nil_of_le (Nat.le_of_not_le hpos), List.take_nil]
      exact holds_nil
  have hlen : (chunk bs pos buffer).length = min buffer.length (bs.length - pos) := by
    rw [List.length_take, List.length_drop]
  obtain ⟨length, cs, hl, hcs, hh, hr⟩ | ⟨-, hno⟩ := f.readData_cases inode pos buffer
  · rw [hlength, Except.ok.injEq] at hl
    subst length
    rw [hr, hh.eq hchunk (hcs.trans hlen.symm)]
  · exact absurd hchunk (hno bs.length _ hlength hlen)

end TerminalKernel.FileImage
