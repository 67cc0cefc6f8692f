import TerminalKernel.Proofs.Pieces

namespace TerminalKernel

variable {m : Array UInt8} {pos n : Nat} {e : ImageEntry} {es : List ImageEntry}

abbrev Zeroed (m : Array UInt8) (pos n : Nat) : Prop := Shows m pos (List.replicate n 0)

theorem Zeroed.part (h : Zeroed m pos n) {k l : Nat} (hkl : k + l ≤ n) : Zeroed m (pos + k) l := by
  intro i b hb
  rw [List.getElem?_replicate, Option.ite_none_right_eq_some, Option.some.injEq] at hb
  obtain ⟨hi, rfl⟩ := hb
  rw [Nat.add_assoc]
  exact h (k + i) 0 (List.getElem?_replicate_of_lt (by omega))

theorem zeroed_replicate {size : Nat} (h : pos + n ≤ size) :
    Zeroed (Array.replicate size 0) pos n := by
  intro i b hb
  rw [List.getElem?_replicate, Option.ite_none_right_eq_some, Option.some.injEq] at hb
  obtain ⟨hi, rfl⟩ := hb
  rw [Array.getElem?_replicate, if_pos (by omega)]

namespace ImageEntry

def isFile : ImageEntry → Bool
  | file .. => true
  | directory _ | rtc _ => false

def nameField (e : ImageEntry) : Bytes :=
  e.name ++ List.replicate (maxFileName - e.name.length) 0

def field (inode : Nat) (e : ImageEntry) : Bytes :=
  e.nameField ++ Bytes.ofWord e.fileType.code ++ Bytes.ofWord (UInt32.ofNat inode)

theorem length_nameField (hname : e.name.length ≤ maxFileName) :
    e.nameField.length = maxFileName := by
  rw [nameField, List.length_append, List.length_replicate, Nat.add_sub_cancel' hname]

end ImageEntry

namespace ImageBuilder

def dentryBase (i : Nat) : Nat := dentrySize + dentrySize * i

theorem dentryBase_eq (i : Nat) : dentryBase i = 64 + 64 * i := rfl

theorem length_ofWord (w : UInt32) : (Bytes.ofWord w).length = 4 := Bytes.length_ofNat ..

theorem toNat_ofNat {n : Nat} (h : n < 4294967296) : (UInt32.ofNat n).toNat = n :=
  UInt32.toNat_ofNat_of_lt' h

/-- The number that an entry has as a file, counted from `inode` on; 0 for other entries. -/
def number (inode : Nat) (e : ImageEntry) : Nat := if e.isFile then inode else 0

def entryPieces (base inode : Nat) (e : ImageEntry) : List Piece :=
  ⟨base, e.name⟩ :: ⟨base + 32, Bytes.ofWord e.fileType.code⟩ ::
    if e.isFile then [⟨base + 36, Bytes.ofWord (UInt32.ofNat inode)⟩] else []

theorem dentryPieces_cons (i inode : Nat) (e : ImageEntry) (es : List ImageEntry) :
    dentryPieces i inode (e :: es) =
      entryPieces (dentryBase i) inode e ++
        dentryPieces (i + 1) (inode + if e.isFile then 1 else 0) es := by
  cases e <;> rfl

theorem within_entryPieces {base inode : Nat} (hname : e.name.length ≤ maxFileName) :
    ∀ p ∈ entryPieces base inode e, p.Within base (base + 40) := by
  have hname' : e.name.length ≤ 32 := hname
  intro p hp
  unfold entryPieces at hp
  split at hp
  all_goals
    simp only [List.mem_cons, List.not_mem_nil, or_false] at hp
    obtain rfl | rfl | rfl := hp
  all_goals
    simp only [Piece.Within, length_ofWord]
    omega

theorem length_field (hname : e.name.length ≤ maxFileName) (inode : Nat) :
    (e.field inode).length = 40 := by
  rw [ImageEntry.field, List.length_append, List.length_append, ImageEntry.length_nameField hname,
    length_ofWord, length_ofWord]

theorem shows_field_iff (hname : e.name.length ≤ maxFileName) {base inode : Nat} :
    Shows m base (e.field inode) ↔ Shows m base e.nameField ∧
      Shows m (base + 32) (Bytes.ofWord e.fileType.code) ∧
      Shows m (base + 36) (Bytes.ofWord (UInt32.ofNat inode)) := by
  rw [ImageEntry.field, shows_append, shows_append, List.length_append,
    ImageEntry.length_nameField hname, length_ofWord, and_assoc]

section

variable {base : Nat} (inode : Nat)

theorem pos_of_mem_tail : ∀ q ∈ (entryPieces base inode e).tail, base + 32 ≤ q.pos := by
  intro q hq
  unfold entryPieces at hq
  split at hq
  all_goals
    simp only [List.tail_cons, List.mem_cons, List.not_mem_nil, or_false] at hq
  · obtain rfl | rfl := hq
    · exact Nat.le_refl _
    · exact Nat.add_le_add_left (by decide) base
  · subst q
    exact Nat.le_refl _

theorem pos_of_mem_tail_tail : ∀ q ∈ (entryPieces base inode e).tail.tail, base + 36 ≤ q.pos := by
  intro q hq
  unfold entryPieces at hq
  split at hq
  all_goals
    simp only [List.tail_cons, List.mem_cons, List.not_mem_nil, or_false] at hq
  subst q
  exact Nat.le_refl _

theorem shows_name (hsize : base + 40 ≤ m.size) (hlen : e.name.length ≤ maxFileName) :
    Shows (Piece.lay (entryPieces base inode e) m) base e.name := by
  have hmax : maxFileName = 32 := rfl
  refine shows_lay_cons (p := ⟨base, e.name⟩) (by dsimp only; omega) fun q hq => Or.inr ?_
  have := pos_of_mem_tail inode q hq
  dsimp only
  omega

theorem shows_padding (hz : Zeroed m base 40) (hlen : e.name.length ≤ maxFileName) :
    Shows (Piece.lay (entryPieces base inode e) m) (base + e.name.length)
      (List.replicate (maxFileName - e.name.length) 0) := by
  have hmax : maxFileName = 32 := rfl
  refine (hz.part (by omega)).lay fun p hp => ?_
  rw [List.length_replicate]
  obtain rfl | hp := List.mem_cons.mp hp
  · exact Or.inl (Nat.le_refl _)
  · have := pos_of_mem_tail inode p hp
    exact Or.inr (by omega)

theorem shows_code (hsize : base + 40 ≤ m.size) :
    Shows (Piece.lay (entryPieces base inode e) m) (base + 32)
      (Bytes.ofWord e.fileType.code) := by
  rw [entryPieces, Piece.lay_cons]
  refine shows_lay_cons (p := ⟨base + 32, Bytes.ofWord e.fileType.code⟩) ?_ fun q hq => ?_
  · rw [Bytes.size_storeAt, length_ofWord]
    dsimp only
    omega
  · rw [length_ofWord]
    exact Or.inr (pos_of_mem_tail_tail inode q hq)

/-- An entry that is no file has the number 0, which are the zero bytes from before. -/
theorem shows_number (hz : Zeroed m base 40) (hsize : base + 40 ≤ m.size)
    (hlen : e.name.length ≤ maxFileName) :
    Shows (Piece.lay (entryPieces base inode e) m) (base + 36)
      (Bytes.ofWord (UInt32.ofNat (number inode e))) := by
  have hmax : maxFileName = 32 := rfl
  unfold number entryPieces
  cases e.isFile with
  | true =>
    rw [if_pos rfl, if_pos rfl, Piece.lay_cons, Piece.lay_cons]
    refine shows_storeAt ?_
    rw [Bytes.size_storeAt, Bytes.size_storeAt, length_ofWord]
    dsimp only
    omega
  | false =>
    have hzero : Bytes.ofWord (UInt32.ofNat 0) = List.replicate 4 0 := rfl
    rw [if_neg Bool.false_ne_true, if_neg Bool.false_ne_true, hzero]
    refine Shows.lay (hz.part (k := 36) (l := 4) (by decide)) fun p hp => Or.inl ?_
    obtain rfl | hp := List.mem_cons.mp hp
    · dsimp only
      omega
    · obtain rfl := List.mem_singleton.mp hp
      rw [length_ofWord]

theorem shows_entry (hz : Zeroed m base 40) (hlen : e.name.length ≤ maxFileName) :
    Shows (Piece.lay (entryPieces base inode e) m) base (e.field (number inode e)) := by
  have hsize : base + 40 ≤ m.size := by
    have hle := hz.le_size (by decide)
    rwa [List.length_replicate] at hle
  exact (shows_field_iff hlen).mpr
    ⟨shows_append.mpr ⟨shows_name inode hsize hlen, shows_padding inode hz hlen⟩,
      shows_code inode hsize, shows_number inode hz hsize hlen⟩

end

theorem within_dentryPieces (i inode : Nat) (hnames : ∀ e ∈ es, e.name.length ≤ maxFileName) :
    ∀ p ∈ dentryPieces i inode es,
      p.Within (dentryBase i) (dentryBase (i + es.length)) := by
  induction es generalizing i inode with
  | nil =>
    intro p hp
    cases hp
  | cons e es ih =>
    obtain ⟨hname, hnames⟩ := List.forall_mem_cons.mp hnames
    intro p hp
    rw [dentryPieces_cons, List.mem_append] at hp
    rw [List.length_cons]
    obtain hp | hp := hp
    · obtain ⟨hstart, hstop⟩ := within_entryPieces hname p hp
      simp only [Piece.Within, dentryBase_eq] at hstart hstop ⊢
      omega
    · obtain ⟨hstart, hstop⟩ := ih _ _ hnames p hp
      simp only [Piece.Within, dentryBase_eq] at hstart hstop ⊢
      omega

def rank (es : List ImageEntry) (i : Nat) : Nat := (es.take i).countP ImageEntry.isFile

theorem shows_dentries {i : Nat} (inode : Nat) (hz : Zeroed m (dentryBase i) (dentrySize * es.length))
    (hnames : ∀ e ∈ es, e.name.length ≤ maxFileName) {j : Nat} (hj : es[j]? = some e) :
    Shows (Piece.lay (dentryPieces i inode es) m) (dentryBase (i + j))
      (e.field (number (inode + rank es j) e)) := by
  induction es generalizing m i inode j with
  | nil => cases hj
  | cons d es ih =>
    have hsize : dentrySize = 64 := rfl
    obtain ⟨hname, hnames⟩ := List.forall_mem_cons.mp hnames
    have hlater := within_dentryPieces (i + 1) (inode + if d.isFile then 1 else 0) hnames
    rw [List.length_cons, hsize] at hz
    rw [dentryPieces_cons, Piece.lay_append]
    cases j with
    | zero =>
      cases hj
      have hentry := shows_entry inode (hz.part (k := 0) (l := 40) (by omega)) hname
      refine hentry.lay ?_
      intro p hp
      obtain ⟨hstart, -⟩ := hlater p hp
      refine Or.inr ?_
      rw [length_field hname]
      simp only [dentryBase_eq] at hstart ⊢
      omega
    | succ j =>
      have hz' : Zeroed (Piece.lay (entryPieces (dentryBase i) inode d) m) (dentryBase (i + 1))
          (dentrySize * es.length) := by
        rw [hsize]
        refine Shows.lay (hz.part (k := 64) (by omega)) ?_
        intro p hp
        obtain ⟨-, hstop⟩ := within_entryPieces hname p hp
        exact Or.inl (by omega)
      have hrank : inode + rank (d :: es) (j + 1) =
          (inode + if d.isFile then 1 else 0) + rank es j := by
        rw [rank, List.take_succ_cons, List.countP_cons, Nat.add_comm (List.countP ..),
          ← Nat.add_assoc]
        rfl
      have hindex : i + (j + 1) = i + 1 + j := by omega
      rw [hrank, hindex]
      exact ih _ hz' hnames hj

def blockStart (b : Nat) : Nat := blockSize * b

theorem blockStart_eq (b : Nat) : blockStart b = 4096 * b := rfl

def blockCount (fs : List (Bytes × UInt32)) : Nat := (fs.map fun f => blocksFor f.1.length).sum

/-- What an inode holds of a file whose data blocks start with number `block`. -/
def inodeBytes (block : Nat) (f : Bytes × UInt32) : Bytes :=
  Bytes.ofWord f.2 ++
    (List.range (blocksFor f.1.length)).flatMap fun k => Bytes.ofWord (UInt32.ofNat (block + k))

variable {inodes i block : Nat} {f : Bytes × UInt32} {fs : List (Bytes × UInt32)}

theorem filePieces_cons (inodes i block : Nat) (f : Bytes × UInt32) (fs : List (Bytes × UInt32)) :
    filePieces inodes i block (f :: fs) =
      ⟨blockStart (1 + inodes + block), f.1⟩ :: ⟨blockStart (1 + i), inodeBytes block f⟩ ::
        filePieces inodes (i + 1) (block + blocksFor f.1.length) fs := rfl

theorem blockCount_cons (f : Bytes × UInt32) (fs : List (Bytes × UInt32)) :
    blockCount (f :: fs) = blocksFor f.1.length + blockCount fs := List.sum_cons

theorem blockCount_take_add_le {j : Nat} (hj : fs[j]? = some f) :
    blockCount (fs.take j) + blocksFor f.1.length ≤ blockCount fs := by
  induction fs generalizing j with
  | nil => cases hj
  | cons g fs ih =>
    cases j with
    | zero =>
      cases hj
      rw [List.take_zero, blockCount_cons]
      exact (Nat.zero_add _).le.trans (Nat.le_add_right ..)
    | succ j =>
      rw [List.take_succ_cons, blockCount_cons, blockCount_cons, Nat.add_assoc]
      exact Nat.add_le_add_left (ih hj) _

theorem blocksFor_eq (n : Nat) : blocksFor n = (n + 4095) / 4096 := rfl

/-- A file that an inode can number, and the inode, take no more than their blocks. -/
theorem length_inodeBytes_le (block : Nat) (hf : f.1.length ≤ blocksPerInode * blockSize) :
    (inodeBytes block f).length ≤ 4096 := by
  have hnumbers : ((List.range (blocksFor f.1.length)).flatMap fun k =>
      Bytes.ofWord (UInt32.ofNat (block + k))).length = 4 * blocksFor f.1.length := by
    simp [List.length_flatMap, length_ofWord, Nat.mul_comm]
  have hf' : f.1.length ≤ 1023 * 4096 := hf
  have hblocks := blocksFor_eq f.1.length
  rw [inodeBytes, List.length_append, length_ofWord, hnumbers]
  omega

/-- The pieces of files are inode blocks from the first one on, and data blocks. -/
theorem within_filePieces (inodes i block : Nat)
    (hfs : ∀ f ∈ fs, f.1.length ≤ blocksPerInode * blockSize) :
    ∀ p ∈ filePieces inodes i block fs,
      p.Within (blockStart (1 + i)) (blockStart (1 + i + fs.length)) ∨
        p.Within (blockStart (1 + inodes + block))
          (blockStart (1 + inodes + block + blockCount fs)) := by
  induction fs generalizing i block with
  | nil =>
    intro p hp
    cases hp
  | cons f fs ih =>
    obtain ⟨hf, hfs⟩ := List.forall_mem_cons.mp hfs
    have hinode := length_inodeBytes_le block hf
    have hblocks := blocksFor_eq f.1.length
    intro p hp
    rw [filePieces_cons] at hp
    rw [List.length_cons, blockCount_cons]
    simp only [Piece.Within, blockStart_eq] at ih ⊢
    obtain rfl | hp := List.mem_cons.mp hp
    · refine Or.inr ?_
      simp only [blockStart_eq]
      omega
    obtain rfl | hp := List.mem_cons.mp hp
    · refine Or.inl ?_
      simp only [blockStart_eq]
      omega
    · have := ih _ _ hfs p hp
      omega

theorem shows_files (hi : i + fs.length ≤ inodes)
    (hfs : ∀ f ∈ fs, f.1.length ≤ blocksPerInode * blockSize)
    (hsize : blockStart (1 + inodes + block + blockCount fs) ≤ m.size) {j : Nat}
    (hj : fs[j]? = some f) :
    Shows (Piece.lay (filePieces inodes i block fs) m)
        (blockStart (1 + inodes + (block + blockCount (fs.take j)))) f.1 ∧
      Shows (Piece.lay (filePieces inodes i block fs) m) (blockStart (1 + (i + j)))
        (inodeBytes (block + blockCount (fs.take j)) f) := by
  induction fs generalizing m i block j with
  | nil => cases hj
  | cons g fs ih =>
    obtain ⟨hg, hfs⟩ := List.forall_mem_cons.mp hfs
    have hinode := length_inodeBytes_le block hg
    have hblocks := blocksFor_eq g.1.length
    have hlater := within_filePieces inodes (i + 1) (block + blocksFor g.1.length) hfs
    rw [List.length_cons] at hi
    rw [blockCount_cons] at hsize
    rw [filePieces_cons]
    cases j with
    | zero =>
      cases hj
      simp only [Piece.Within, blockStart_eq] at hlater hsize
      constructor
      · refine shows_lay_cons (p := ⟨blockStart (1 + inodes + block), f.1⟩) ?_ ?_
        · simp only [blockStart_eq]
          omega
        · intro q hq
          simp only [Piece.Avoids, blockStart_eq]
          obtain rfl | hq := List.mem_cons.mp hq
          · simp only [blockStart_eq]
            omega
          · have := hlater q hq
            omega
      · rw [Piece.lay_cons]
        refine shows_lay_cons (p := ⟨blockStart (1 + i), inodeBytes block f⟩) ?_ ?_
        · rw [Bytes.size_storeAt]
          simp only [blockStart_eq]
          omega
        · intro q hq
          have := hlater q hq
          simp only [Piece.Avoids, blockStart_eq]
          omega
    | succ j =>
      have hcount : block + blockCount ((g :: fs).take (j + 1)) =
          block + blocksFor g.1.length + blockCount (fs.take j) := by
        rw [List.take_succ_cons, blockCount_cons, Nat.add_assoc]
      have hindex : i + (j + 1) = i + 1 + j := by omega
      rw [hcount, hindex, Piece.lay_cons, Piece.lay_cons]
      refine ih (by omega) hfs ?_ hj
      rw [Bytes.size_storeAt, Bytes.size_storeAt]
      simp only [blockStart_eq] at hsize ⊢
      omega

theorem length_files (es : List ImageEntry) : (files es).length = es.countP ImageEntry.isFile := by
  induction es with
  | nil => rfl
  | cons e es ih =>
    rw [List.countP_cons, ← ih]
    cases e <;> rfl

theorem getElem?_files {name data : Bytes} {declared : Option UInt32} {j : Nat}
    (hj : es[j]? = some (.file name data declared)) :
    (files es)[rank es j]? = some (data, declared.getD (UInt32.ofNat data.length)) := by
  induction es generalizing j with
  | nil => cases hj
  | cons e es ih =>
    cases j with
    | zero =>
      cases hj
      rfl
    | succ j =>
      rw [rank, List.take_succ_cons, List.countP_cons]
      cases e with
      | directory | rtc => exact ih hj
      | file => exact ih hj

theorem ofCode?_code (type : FileType) : FileType.ofCode? type.code = some type := by
  cases type <;> rfl

theorem dentry_eq_ok {f : FileImage} {i : Nat} {name : Bytes} {code inode : UInt32}
    {type : FileType} (hname : FileImage.slice? f.image (dentryBase i) maxFileName = some name)
    (hcode : FileImage.word f.image (dentryBase i + 32) = .ok code)
    (htype : FileType.ofCode? code = some type)
    (hinode : FileImage.word f.image (dentryBase i + 36) = .ok inode) :
    f.dentry i = .ok (.ofField name type inode.toNat) := by
  unfold dentryBase at hname hcode hinode
  rw [FileImage.dentry]
  simp only [hname, hcode, hinode, htype, bind, Except.bind]
  rfl

/-- A search stops at the first entry with the name. -/
theorem search_eq_ok {f : FileImage} {name : Bytes} {d : Dentry} {i j : Nat} (hij : i ≤ j)
    (hj : j < f.dentries) (hd : f.dentry j = .ok d) (hname : d.name = name)
    (hne : ∀ l, i ≤ l → l < j → ∃ d', f.dentry l = .ok d' ∧ d'.name ≠ name) :
    f.search name i = .ok d := by
  induction hij using Nat.decreasingInduction with
  | self => rw [FileImage.search, if_pos hj, hd]; exact if_pos hname
  | of_succ l hl ih =>
    obtain ⟨d', hd', hne'⟩ := hne l (Nat.le_refl l) hl
    rw [FileImage.search, if_pos (hl.trans hj), hd']
    simp only [if_neg hne']
    exact ih fun k hk => hne k (Nat.le_of_succ_le hk)

theorem search_eq_notFound {f : FileImage} {name : Bytes} {i : Nat} (hi : i ≤ f.dentries)
    (hne : ∀ l, i ≤ l → l < f.dentries → ∃ d, f.dentry l = .ok d ∧ d.name ≠ name) :
    f.search name i = .error .notFound := by
  induction hi using Nat.decreasingInduction with
  | self => rw [FileImage.search, if_neg (Nat.lt_irrefl _)]
  | of_succ l hl ih =>
    obtain ⟨d, hd, hne'⟩ := hne l (Nat.le_refl l) hl
    rw [FileImage.search, if_pos hl, hd]
    simp only [if_neg hne']
    exact ih fun k hk => hne k (Nat.le_of_succ_le hk)

theorem beforeNul_append_zeros {name : Bytes} (h : (0 : UInt8) ∉ name) (k : Nat) :
    Bytes.beforeNul (name ++ List.replicate k 0) = name := by
  have hname : ∀ b ∈ name, (b != 0) = true := by
    intro b hb
    rw [bne_iff_ne]
    rintro rfl
    exact h hb
  rw [Bytes.beforeNul, List.takeWhile_append_of_pos hname]
  cases k with
  | zero => exact List.append_nil name
  | succ k => rw [List.replicate_succ, List.takeWhile_cons_of_neg (by decide), List.append_nil]

/-- Entries that an image has room for and that can be told apart. -/
structure Buildable (es : List ImageEntry) : Prop where
  count : es.length ≤ maxDentries
  names : (es.map ImageEntry.name).Nodup
  named : ∀ e ∈ es, e.name ≠ [] ∧ e.name.length ≤ maxFileName ∧ (0 : UInt8) ∉ e.name
  sized : ∀ name data declared, .file name data declared ∈ es →
    data.length ≤ blocksPerInode * blockSize ∧ declared = none

def built (es : List ImageEntry) : FileImage :=
  ⟨build es, es.length, (files es).length, blockCount (files es)⟩

def counts (es : List ImageEntry) : Bytes :=
  [es.length, (files es).length, blockCount (files es)].flatMap
    fun n => Bytes.ofWord (UInt32.ofNat n)

theorem length_counts (es : List ImageEntry) : (counts es).length = 12 := by
  simp [counts, length_ofWord]

def blank (es : List ImageEntry) : Array UInt8 :=
  Array.replicate (blockStart (1 + (files es).length + blockCount (files es))) 0

theorem size_blank (es : List ImageEntry) :
    (blank es).size = 4096 * (1 + (files es).length + blockCount (files es)) :=
  Array.size_replicate

theorem image_built (es : List ImageEntry) : (built es).image = build es := by rw [built]

theorem build_eq (es : List ImageEntry) :
    build es = Piece.lay (⟨0, counts es⟩ ::
      (dentryPieces 0 0 es ++ filePieces (files es).length 0 0 (files es))) (blank es) := by
  have hcount : (files es).foldl (fun n f => n + blocksFor f.1.length) 0 =
      blockCount (files es) := by
    rw [blockCount, List.sum_eq_foldl, List.foldl_map]
  rw [blank, counts, ← hcount]
  rfl

namespace Buildable

variable (h : Buildable es)

include h

theorem length_name_le : ∀ e ∈ es, e.name.length ≤ maxFileName := fun e he => (h.named e he).2.1

theorem length_data_le : ∀ f ∈ files es, f.1.length ≤ blocksPerInode * blockSize := by
  intro f hf
  obtain ⟨e, he, hfe⟩ := List.mem_filterMap.mp hf
  cases e with
  | directory | rtc => cases hfe
  | file name data declared =>
    cases hfe
    exact (h.sized name data declared he).1

theorem length_files_le : (files es).length ≤ maxDentries := by
  rw [length_files]
  exact List.countP_le_length.trans h.count

theorem filePieces_start : ∀ p ∈ filePieces (files es).length 0 0 (files es), 4096 ≤ p.pos := by
  intro p hp
  have hwithin := within_filePieces _ _ _ h.length_data_le p hp
  simp only [Piece.Within, blockStart_eq] at hwithin
  omega

theorem shows_counts : Shows (build es) 0 (counts es) := by
  rw [build_eq]
  refine shows_lay_cons (p := ⟨0, counts es⟩) ?_ ?_
  · rw [length_counts, size_blank]
    dsimp only
    omega
  · intro q hq
    rw [length_counts]
    obtain hq | hq := List.mem_append.mp hq
    · obtain ⟨hstart, -⟩ := within_dentryPieces 0 0 h.length_name_le q hq
      rw [dentryBase_eq] at hstart
      exact Or.inr (by dsimp only; omega)
    · have := h.filePieces_start q hq
      exact Or.inr (by dsimp only; omega)

theorem shows_entry_build {j : Nat} (hj : es[j]? = some e) :
    Shows (build es) (dentryBase j) (e.field (number (rank es j) e)) := by
  have hcount : es.length ≤ 63 := h.count
  have hj' : j < es.length := (List.getElem?_eq_some_iff.mp hj).1
  have hz : Zeroed (Bytes.storeAt (blank es) 0 (counts es)) (dentryBase 0)
      (dentrySize * es.length) := by
    have hsize : dentrySize = 64 := rfl
    refine Shows.storeAt (zeroed_replicate ?_) (Or.inl ?_)
    · rw [dentryBase_eq, blockStart_eq, hsize]
      omega
    · rw [length_counts, dentryBase_eq]
      omega
  have hentry := shows_dentries 0 hz h.length_name_le hj
  rw [Nat.zero_add, Nat.zero_add] at hentry
  rw [build_eq, Piece.lay_cons, Piece.lay_append]
  refine hentry.lay ?_
  intro p hp
  have := h.filePieces_start p hp
  rw [length_field (h.length_name_le e (List.mem_of_getElem? hj)), dentryBase_eq]
  exact Or.inr (by omega)

theorem shows_file_build {j : Nat} {f : Bytes × UInt32} (hj : (files es)[j]? = some f) :
    Shows (build es) (blockStart (1 + (files es).length + blockCount ((files es).take j))) f.1 ∧
      Shows (build es) (blockStart (1 + j)) (inodeBytes (blockCount ((files es).take j)) f) := by
  have hsize : blockStart (1 + (files es).length + 0 + blockCount (files es)) ≤
      (Piece.lay (dentryPieces 0 0 es) (Bytes.storeAt (blank es) 0 (counts es))).size := by
    rw [Piece.size_lay, Bytes.size_storeAt, size_blank, Nat.add_zero, blockStart_eq]
  have hfile := shows_files (i := 0) (Nat.zero_add _).le h.length_data_le hsize hj
  rw [Nat.zero_add, Nat.zero_add] at hfile
  rw [build_eq, Piece.lay_cons, Piece.lay_append]
  exact hfile

omit h in
theorem size_build (es : List ImageEntry) :
    (build es).size = (1 + (files es).length + blockCount (files es)) * blockSize := by
  rw [build_eq, Piece.size_lay, size_blank, Nat.mul_comm]

theorem blockCount_le : blockCount (files es) ≤ maxDentries * blocksPerInode := by
  have hle : ∀ n ∈ (files es).map fun f => blocksFor f.1.length, n ≤ blocksPerInode := by
    intro n hn
    obtain ⟨f, hf, rfl⟩ := List.mem_map.mp hn
    have hdata : f.1.length ≤ 1023 * 4096 := h.length_data_le f hf
    change (f.1.length + 4095) / 4096 ≤ 1023
    omega
  have hsum := List.sum_le_card_nsmul _ _ hle
  rw [List.length_map, smul_eq_mul] at hsum
  exact hsum.trans (Nat.mul_le_mul_right _ h.length_files_le)

theorem open_build : FileImage.open? (build es) = .ok (built es) := by
  have hcount : es.length ≤ 63 := h.count
  have hfiles : (files es).length ≤ 63 := h.length_files_le
  have hblocks : blockCount (files es) ≤ 63 * 1023 := h.blockCount_le
  have hcounts := h.shows_counts
  simp only [counts, List.flatMap_cons, List.flatMap_nil, List.append_nil, shows_append,
    length_ofWord] at hcounts
  obtain ⟨h₀, h₄, h₈⟩ := hcounts
  have hroom : ¬(maxDentries < es.length ∨
      (build es).size < (1 + (files es).length + blockCount (files es)) * blockSize) := by
    rw [size_build, not_or]
    exact ⟨Nat.not_lt.mpr h.count, Nat.lt_irrefl _⟩
  rw [FileImage.open?]
  simp only [h₀.word, h₄.word, h₈.word, bind, Except.bind]
  rw [toNat_ofNat (by omega), toNat_ofNat (by omega), toNat_ofNat (by omega), if_neg hroom]
  rfl

theorem dentry_build {j : Nat} (hj : es[j]? = some e) :
    (built es).dentry j = .ok ⟨e.name, e.fileType, number (rank es j) e⟩ := by
  obtain ⟨-, hlen, hnul⟩ := h.named e (List.mem_of_getElem? hj)
  have hrank : rank es j ≤ 63 := calc
    rank es j ≤ (es.take j).length := List.countP_le_length
    _ ≤ es.length := List.length_take_le' ..
    _ ≤ 63 := h.count
  have hnumber : number (rank es j) e ≤ 63 := by
    unfold number
    split
    · exact hrank
    · exact Nat.zero_le _
  have hshows := h.shows_entry_build hj
  rw [← image_built, shows_field_iff hlen] at hshows
  obtain ⟨hname, hcode, hinode⟩ := hshows
  have hslice := hname.slice? (by rw [ImageEntry.length_nameField hlen]; decide)
  rw [ImageEntry.length_nameField hlen] at hslice
  have hbefore : Bytes.beforeNul (e.nameField.take maxFileName) = e.name := by
    rw [List.take_of_length_le (ImageEntry.length_nameField hlen).le]
    exact beforeNul_append_zeros hnul _
  rw [dentry_eq_ok hslice hcode.word (ofCode?_code _) hinode.word, Dentry.ofField, hbefore,
    toNat_ofNat (by omega)]

theorem name_ne {j l : Nat} {d : ImageEntry} (hj : es[j]? = some e) (hl : es[l]? = some d)
    (hjl : l ≠ j) : d.name ≠ e.name := by
  intro hname
  have hj' : (es.map ImageEntry.name)[j]? = some e.name := by rw [List.getElem?_map, hj]; rfl
  have hl' : (es.map ImageEntry.name)[l]? = some e.name := by
    rw [List.getElem?_map, hl, ← hname]
    rfl
  have hlt : l < (es.map ImageEntry.name).length := (List.getElem?_eq_some_iff.mp hl').1
  exact hjl ((List.getElem?_inj hlt h.names).mp (hl'.trans hj'.symm))

theorem lookup_build {j : Nat} (hj : es[j]? = some e) :
    (built es).lookup e.name = .ok ⟨e.name, e.fileType, number (rank es j) e⟩ := by
  obtain ⟨hne, hlen, -⟩ := h.named e (List.mem_of_getElem? hj)
  have hlt : j < es.length := (List.getElem?_eq_some_iff.mp hj).1
  have hsearch : (built es).search e.name 0 = .ok ⟨e.name, e.fileType, number (rank es j) e⟩ := by
    refine search_eq_ok (Nat.zero_le j) hlt (h.dentry_build hj) rfl ?_
    intro l _ hl
    have hl' : es[l]? = some es[l] := List.getElem?_eq_getElem (hl.trans hlt)
    exact ⟨_, h.dentry_build hl', h.name_ne hj hl' (Nat.ne_of_lt hl)⟩
  rw [FileImage.lookup, if_neg (not_or.mpr ⟨hne, Nat.not_lt.mpr hlen⟩), hsearch]

theorem lookup_build_notFound {name : Bytes} (hname : ∀ e ∈ es, e.name ≠ name) :
    (built es).lookup name = .error .notFound := by
  have hsearch : (built es).search name 0 = .error .notFound := by
    refine search_eq_notFound (Nat.zero_le _) ?_
    intro l _ hl
    have hl' : es[l]? = some es[l] := List.getElem?_eq_getElem hl
    exact ⟨_, h.dentry_build hl', hname _ (List.getElem_mem hl)⟩
  rw [FileImage.lookup, hsearch, ite_self]

theorem content_build {j : Nat} {name data : Bytes}
    (hj : es[j]? = some (.file name data none)) : (built es).Content (rank es j) data := by
  have hfile : (files es)[rank es j]? = some (data, UInt32.ofNat data.length) := getElem?_files hj
  have hrank : rank es j < (files es).length := (List.getElem?_eq_some_iff.mp hfile).1
  obtain ⟨hdata, hinode⟩ := h.shows_file_build hfile
  have hroom : blockCount ((files es).take (rank es j)) + blocksFor data.length ≤
      blockCount (files es) := blockCount_take_add_le hfile
  have hcount : blockCount (files es) ≤ 63 * 1023 := h.blockCount_le
  have hsize : data.length ≤ 1023 * 4096 := h.length_data_le _ (List.mem_of_getElem? hfile)
  rw [← image_built] at hdata hinode
  rw [inodeBytes, shows_append, length_ofWord] at hinode
  obtain ⟨hlength, hnumbers⟩ := hinode
  generalize blockCount ((files es).take (rank es j)) = first at hdata hnumbers hroom
  have hstart : blockStart (1 + rank es j) = blockSize * (rank es j + 1) :=
    congrArg (blockSize * ·) (Nat.add_comm ..)
  rw [hstart] at hlength hnumbers
  refine ⟨FileImage.fileLength_eq_ok_iff.mpr ⟨hrank, _, hlength.word, ?_⟩, ?_⟩
  · rw [toNat_ofNat (by omega)]
  · intro i b hb
    have hi : i < data.length := (List.getElem?_eq_some_iff.mp hb).1
    have hslot : i / 4096 < blocksFor data.length := by
      rw [blocksFor_eq]
      omega
    have hnumber : (UInt32.ofNat (first + i / 4096)).toNat = first + i / 4096 :=
      toNat_ofNat (by omega)
    have hpos : blockSize * (1 + (files es).length + (first + i / 4096)) + i % 4096 =
        blockStart (1 + (files es).length + first) + i := by
      rw [blockStart_eq]
      change 4096 * _ + _ = _
      omega
    rw [Nat.zero_add]
    refine ⟨?_, UInt32.ofNat (first + i / 4096), (hnumbers.nth_word hslot).word, ?_, ?_⟩
    · change i / 4096 < 1023
      omega
    · rw [hnumber]
      exact lt_of_lt_of_le (Nat.add_lt_add_left hslot first) hroom
    · rw [hnumber]
      exact (congrArg ((built es).image[·]?) hpos).trans (hdata i b hb)

end Buildable

/-- An image that is built is accepted and has the entries in order, each under its name and under no
other one, and every file reads as its data from any offset into any buffer. -/
theorem build_reads_back (h : Buildable es) :
    ∃ f, FileImage.open? (build es) = .ok f ∧ f.dentries = es.length ∧
      (∀ i e, es[i]? = some e →
        f.dentryAt i = .ok ⟨e.name, e.fileType, number (rank es i) e⟩ ∧
          f.lookup e.name = .ok ⟨e.name, e.fileType, number (rank es i) e⟩) ∧
      (∀ name, (∀ e ∈ es, e.name ≠ name) → f.lookup name = .error .notFound) ∧
      ∀ i name data declared, es[i]? = some (.file name data declared) →
        f.fileLength (rank es i) = .ok data.length ∧
          ∀ offset buffer, f.readData (rank es i) offset buffer =
            (.ok (FileImage.chunk data offset buffer).length,
              Bytes.fill buffer (FileImage.chunk data offset buffer)) := by
  refine ⟨built es, h.open_build, rfl, ?_, fun name => h.lookup_build_notFound, ?_⟩
  · intro i e hi
    have hlt : i < (built es).dentries := (List.getElem?_eq_some_iff.mp hi).1
    refine ⟨?_, h.lookup_build hi⟩
    rw [FileImage.dentryAt, if_pos hlt, h.dentry_build hi]
  · intro i name data declared hi
    obtain ⟨-, rfl⟩ := h.sized name data declared (List.mem_of_getElem? hi)
    have hcontent := h.content_build hi
    exact ⟨hcontent.1, FileImage.readData_content hcontent⟩

def sampleEntries : List ImageEntry :=
  [.directory [46], .rtc [114, 116, 99], .file [97] (List.replicate 5000 7) none,
    .file [98] [1, 2, 3] none]

theorem build_reads_back_sampleEntries :
    Buildable sampleEntries ∧ ∃ f, FileImage.open? (build sampleEntries) = .ok f ∧
      f.lookup [98] = .ok ⟨[98], .regular, 1⟩ ∧ f.lookup [99] = .error .notFound ∧
      f.readData 0 4090 (List.replicate 8 0) = (.ok 8, List.replicate 8 7) := by
  have h : Buildable sampleEntries := by
    refine ⟨by decide, by decide, by decide, ?_⟩
    intro name data declared hmem
    simp only [sampleEntries, List.mem_cons, List.not_mem_nil, or_false, reduceCtorEq, false_or,
      ImageEntry.file.injEq] at hmem
    obtain ⟨-, rfl, rfl⟩ | ⟨-, rfl, rfl⟩ := hmem
    · exact ⟨by rw [List.length_replicate]; decide, rfl⟩
    · exact ⟨by decide, rfl⟩
  obtain ⟨f, hopen, -, hentries, hnone, hfiles⟩ := build_reads_back h
  have hread := (hfiles 2 [97] (List.replicate 5000 7) none rfl).2 4090 (List.replicate 8 0)
  refine ⟨h, f, hopen, (hentries 3 _ rfl).2, hnone [99] (by decide), hread.trans ?_⟩
  rw [FileImage.chunk, List.drop_replicate, List.take_replicate, List.length_replicate,
    List.length_replicate]
  rfl

end ImageBuilder

end TerminalKernel
