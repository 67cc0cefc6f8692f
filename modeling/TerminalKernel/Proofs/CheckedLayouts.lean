import TerminalKernel.Proofs.Areas
import TerminalKernel.Proofs.Loading

namespace TerminalKernel

namespace Word

def ofNat? (n : Nat) : Option UInt32 := if n < wordCount then some (.ofNat n) else none

def add? (a b : UInt32) : Option UInt32 := ofNat? (a.toNat + b.toNat)

def mul? (a b : UInt32) : Option UInt32 := ofNat? (a.toNat * b.toNat)

def sub? (a b : UInt32) : Option UInt32 := if b ≤ a then some (a - b) else none

def div? (a b : UInt32) : Option UInt32 := if b = 0 then none else some (a / b)

def mod? (a b : UInt32) : Option UInt32 := if b = 0 then none else some (a % b)

def double? (n : Nat) : Option Nat := if n < 0x10000000000000000 then some n else none

variable {a b c : UInt32} {n : Nat}

theorem ofNat?_eq_some_iff : ofNat? n = some c ↔ c.toNat = n := by
  unfold ofNat?
  constructor
  · intro h
    split at h
    case isTrue hlt =>
      cases h
      exact UInt32.toNat_ofNat_of_lt' hlt
    case isFalse => cases h
  · rintro rfl
    rw [if_pos c.toNat_lt, UInt32.ofNat_toNat]

theorem add?_eq_some_iff : add? a b = some c ↔ c.toNat = a.toNat + b.toNat := ofNat?_eq_some_iff

theorem mul?_eq_some_iff : mul? a b = some c ↔ c.toNat = a.toNat * b.toNat := ofNat?_eq_some_iff

theorem add?_eq_none_iff : add? a b = none ↔ wordCount ≤ a.toNat + b.toNat := by
  unfold add? ofNat?
  split
  case isTrue h => exact iff_of_false nofun (Nat.not_le.mpr h)
  case isFalse h => exact iff_of_true rfl (Nat.le_of_not_lt h)

theorem toNat_sub (h : b.toNat ≤ a.toNat) : (a - b).toNat = a.toNat - b.toNat :=
  UInt32.toNat_sub_of_le _ _ (UInt32.le_iff_toNat_le.mpr h)

theorem sub?_of_le (h : b.toNat ≤ a.toNat) : sub? a b = some (a - b) :=
  if_pos (UInt32.le_iff_toNat_le.mpr h)

theorem mod?_largePageSize (a : UInt32) : mod? a largePageSize = some (a % largePageSize) :=
  if_neg (by decide)

theorem double?_of_lt (h : n < 0x10000000000000000) : double? n = some n := if_pos h

theorem bind_eq_some {α β : Type} {x : Option α} {f : α → Option β} {a : α} {b : β}
    (hx : x = some a) (hf : f a = some b) : (x >>= f) = some b := by
  rw [hx]
  exact hf

/-- A check that fails ends both computations alike, and one that passes leaves the rest. -/
theorem ite_eq_some {α : Type} {c d : Prop} [Decidable c] [Decidable d] {e b : α} {x : Option α}
    (hcd : c ↔ d) (hx : ¬d → x = some b) :
    (if c then pure e else x) = some (if d then e else b) := by
  by_cases hd : d
  · rw [if_pos (hcd.mpr hd), if_pos hd]
    rfl
  · rw [if_neg (mt hcd.mp hd), if_neg hd]
    exact hx hd

end Word

namespace Layout

def programWindowEnd? (l : Layout) : Option UInt32 := Word.add? l.programWindow.val largePageSize

/-- The end of the window is needed only if the address does not lie before it. -/
def inProgramWindow? (l : Layout) (a : UInt32) : Option Bool :=
  if l.programWindow.val ≤ a then l.programWindowEnd?.map fun stop => decide (a < stop)
  else some false

def userStackTop? (l : Layout) : Option UInt32 := do Word.sub? (← l.programWindowEnd?) 4

def room? (l : Layout) : Option UInt32 := do Word.sub? (← l.programWindowEnd?) l.loadAddress.val

def nthPage? (first : PhysAddr) (size : UInt32) (n : Nat) : Option PhysAddr := do
  let distance ← Word.mul? size (.ofNat n)
  return ⟨← Word.add? first.val distance⟩

def programPhys? (l : Layout) (slot : Nat) : Option PhysAddr :=
  nthPage? l.programPhysBase largePageSize slot

def videoBuffer? (l : Layout) (terminal : Nat) : Option PhysAddr :=
  nthPage? l.videoBuffers pageSize terminal

def recordAddress? (l : Layout) (slot : Nat) : Option UInt32 := do
  let distance ← Word.mul? l.kernelStackSize (← Word.add? (.ofNat slot) 1)
  Word.sub? l.kernelStackRegionEnd distance

def kernelStackTop? (l : Layout) (slot : Nat) : Option UInt32 := do
  let distance ← Word.mul? l.kernelStackSize (.ofNat slot)
  Word.sub? (← Word.sub? l.kernelStackRegionEnd distance) 4

/-- The first fault of a layout, found with checked arithmetic. -/
def validate? (l : Layout) : Option (Except ConfigError Unit) := do
  if (← Word.mod? l.kernelRegion.val largePageSize) ≠ 0 ∨ l.kernelRegion.val = 0 then
    return .error (.misaligned "kernel_region")
  if (← Word.mod? l.programWindow.val largePageSize) ≠ 0 ∨ !l.programWindow.isLargeRegion then
    return .error (.misaligned "program_window")
  if Word.add? l.programWindow.val largePageSize = none then
    return .error (.outOfRange "program_window")
  if (← Word.mod? l.programPhysBase.val largePageSize) ≠ 0 then
    return .error (.misaligned "program_phys_base")
  let slots ← Word.double? (largePageSize.toNat * processCapacity)
  let slotsEnd ← Word.double? (l.programPhysBase.val.toNat + slots)
  let limit ← Word.double? wordCount
  if limit < slotsEnd then
    return .error (.outOfRange "program_phys_base")
  if !(← l.inProgramWindow? l.loadAddress.val) then
    return .error (.outOfRange "load_address")
  if !l.video.isAligned ∨ !l.videoBuffers.isAligned then
    return .error (.misaligned "video")
  let buffers ← Word.double? (pageSize.toNat * terminalCount)
  let buffersEnd ← Word.double? (l.videoBuffers.val.toNat + buffers)
  if largePageSize.toNat < buffersEnd ∨ largePageSize ≤ l.video.val then
    return .error (.outOfRange "video")
  if !isPowerOfTwo l.kernelStackSize ∨ l.kernelStackSize < pageSize then
    return .error (.misaligned "kernel_stack_size")
  let stackBytes ← Word.double? (l.kernelStackSize.toNat * processCapacity)
  if l.kernelStackRegionEnd.toNat < stackBytes then
    return .error (.outOfRange "kernel_stack_region_end")
  if (← Word.mod? l.kernelStackRegionEnd l.kernelStackSize) ≠ 0 then
    return .error (.outOfRange "kernel_stack_region_end")
  return .ok ()

variable {l : Layout}

theorem programWindowEnd?_eq
    (h : ¬wordCount ≤ l.programWindow.val.toNat + largePageSize.toNat) :
    l.programWindowEnd? = some l.programWindowEnd := by
  rw [programWindowEnd?, Word.add?_eq_some_iff, programWindowEnd, UInt32.toNat_add]
  exact Nat.mod_eq_of_lt (Nat.lt_of_not_le h)

theorem inProgramWindow?_eq
    (h : ¬wordCount ≤ l.programWindow.val.toNat + largePageSize.toNat) (a : UInt32) :
    l.inProgramWindow? a = some (l.inProgramWindow a) := by
  rw [inProgramWindow?, programWindowEnd?_eq h, inProgramWindow]
  by_cases ha : l.programWindow.val ≤ a
  · simp [ha]
  · simp [ha]

theorem double?_regions (base : UInt32) {n : Nat} (hn : n < 0x100000000) :
    Word.double? (base.toNat + n) = some (base.toNat + n) := by
  have hlt : base.toNat < 4294967296 := base.toNat_lt
  exact Word.double?_of_lt (by omega)

theorem double?_stacks (size : UInt32) :
    Word.double? (size.toNat * processCapacity) = some (size.toNat * processCapacity) := by
  have hlt : size.toNat < 4294967296 := size.toNat_lt
  have hle : size.toNat * 6 < 0x10000000000000000 := by omega
  exact Word.double?_of_lt hle

/-- Validation never leaves its words: what it has checked before protects what it computes. -/
theorem validate?_eq (l : Layout) : l.validate? = some l.validate := by
  unfold validate? validate
  refine Word.bind_eq_some (Word.mod?_largePageSize _) (Word.ite_eq_some Iff.rfl fun _ => ?_)
  refine Word.bind_eq_some (Word.mod?_largePageSize _) (Word.ite_eq_some Iff.rfl fun _ => ?_)
  refine Word.ite_eq_some Word.add?_eq_none_iff fun hwindow => ?_
  refine Word.bind_eq_some (Word.mod?_largePageSize _) (Word.ite_eq_some Iff.rfl fun _ => ?_)
  refine Word.bind_eq_some (Word.double?_of_lt (by decide)) ?_
  refine Word.bind_eq_some (double?_regions _ (by decide)) ?_
  refine Word.bind_eq_some (Word.double?_of_lt (by decide)) (Word.ite_eq_some Iff.rfl fun _ => ?_)
  -- the window is known to have an end by now
  refine Word.bind_eq_some (inProgramWindow?_eq hwindow _) (Word.ite_eq_some Iff.rfl fun _ => ?_)
  refine Word.ite_eq_some Iff.rfl fun _ => ?_
  refine Word.bind_eq_some (Word.double?_of_lt (by decide)) ?_
  refine Word.bind_eq_some (double?_regions _ (by decide)) (Word.ite_eq_some Iff.rfl fun _ => ?_)
  refine Word.ite_eq_some Iff.rfl fun hsize => ?_
  -- and the stacks not to be empty
  have hzero : l.kernelStackSize ≠ 0 := by
    intro h0
    rw [h0] at hsize
    exact hsize (Or.inr (by decide))
  refine Word.bind_eq_some (double?_stacks _) ?_
  rw [ite_or]
  refine Word.ite_eq_some Iff.rfl fun _ => ?_
  exact Word.bind_eq_some (if_neg hzero) (Word.ite_eq_some Iff.rfl fun _ => rfl)

structure AlignedStacks (l : Layout) : Prop extends l.ValidStacks where
  page_le : 4096 ≤ l.kernelStackSize.toNat
  end_mod : l.kernelStackRegionEnd.toNat % l.kernelStackSize.toNat = 0
  exists_power : ∃ k, l.kernelStackSize.toNat = 2 ^ k

theorem alignedStacks_of_validate (h : l.validate = .ok ()) : l.AlignedStacks := by
  refine ⟨validStacks_of_validate h, ?_, ?_, ?_⟩
  all_goals
    simp only [validate, ite_error_eq_ok] at h
    obtain ⟨-, -, -, -, -, -, -, -, hsize, hend, -⟩ := h
    rw [not_or] at hsize hend
  · exact Nat.le_of_not_lt hsize.2
  · exact toNat_mod_of_eq_zero (not_not.mp hend.2)
  · have hpower := hsize.1
    simp only [isPowerOfTwo, Bool.not_eq_true, Bool.not_eq_false', List.any_eq_true,
      beq_iff_eq] at hpower
    obtain ⟨k, -, hk⟩ := hpower
    exact ⟨k, by rw [hk, Nat.shiftLeft_eq, Nat.one_mul]⟩

namespace AlignedStacks

variable (h : l.AlignedStacks) (slot : ProcessId)
include h

theorem top_le : l.kernelStackSize.toNat * slot + 4096 ≤ l.kernelStackRegionEnd.toNat := by
  have hle := h.distance_le (n := slot + 1) slot.isLt
  have hpage := h.page_le
  rw [Nat.mul_succ] at hle
  omega

theorem end_sub_toNat : (l.kernelStackRegionEnd - l.kernelStackSize * .ofNat slot).toNat =
    l.kernelStackRegionEnd.toNat - l.kernelStackSize.toNat * slot := by
  have hle := h.top_le slot
  have hdistance := h.distance_toNat (n := slot) slot.isLt.le
  rw [Word.toNat_sub (by omega), hdistance]

theorem kernelStackTop_toNat :
    (l.kernelStackTop slot).toNat + 4 =
      l.kernelStackRegionEnd.toNat - l.kernelStackSize.toNat * slot := by
  have hle := h.top_le slot
  have hfour : (4 : UInt32).toNat = 4 := rfl
  have hbase := h.end_sub_toNat slot
  rw [kernelStackTop, Word.toNat_sub (by omega), hbase, hfour]
  omega

theorem recordAddress_toNat_add :
    (l.recordAddress slot).toNat + l.kernelStackSize.toNat = (l.kernelStackTop slot).toNat + 4 := by
  have hle := h.distance_le (n := slot + 1) slot.isLt
  rw [h.recordAddress_toNat, h.kernelStackTop_toNat]
  rw [Nat.mul_succ] at hle ⊢
  omega

theorem recordAddress_mod : (l.recordAddress slot).toNat % l.kernelStackSize.toNat = 0 := by
  rw [h.recordAddress_toNat]
  exact Nat.mod_eq_zero_of_dvd
    (Nat.dvd_sub (Nat.dvd_of_mod_eq_zero h.end_mod) (Nat.dvd_mul_right ..))

end AlignedStacks

/-- Whatever is taken from a layout is a word that arithmetic does not leave on the way, and what
the slots get does not overlap. -/
structure StaysInWords (l : Layout) : Prop where
  windowEnd : l.programWindowEnd? = some l.programWindowEnd
  window : ∀ a, l.inProgramWindow? a = some (l.inProgramWindow a)
  userStack : l.userStackTop? = some l.userStackTop
  room : l.room? = some (l.programWindowEnd - l.loadAddress.val)
  programs : ∀ slot : ProcessId, l.programPhys? slot = some (l.programPhys slot)
  records : ∀ slot : ProcessId, l.recordAddress? slot = some (l.recordAddress slot)
  stackTops : ∀ slot : ProcessId, l.kernelStackTop? slot = some (l.kernelStackTop slot)
  buffers : ∀ t ≤ terminalCount, l.videoBuffer? t = some (l.videoBuffer t)
  programs_proper : ∀ slot : ProcessId, (Area.largePage (l.programPhys slot)).Proper
  programs_apart : ∀ x y : ProcessId, x ≠ y →
    (Area.largePage (l.programPhys x)).Apart (.largePage (l.programPhys y))
  /-- A kernel stack goes from the record of its slot up to the word above its first pointer. -/
  stacks_span : ∀ slot : ProcessId,
    (l.recordAddress slot).toNat + l.kernelStackSize.toNat = (l.kernelStackTop slot).toNat + 4
  stacks_aligned : ∀ slot : ProcessId,
    (l.recordAddress slot).toNat % l.kernelStackSize.toNat = 0
  stacks_apart : ∀ x y : ProcessId, x ≠ y → (l.kernelStack x).Apart (l.kernelStack y)

theorem Valid.hasEnd (h : l.Valid) :
    ¬wordCount ≤ l.programWindow.val.toNat + largePageSize.toNat := Nat.not_le.mpr h.window_lt

theorem Valid.userStackTop?_eq (h : l.Valid) : l.userStackTop? = some l.userStackTop := by
  have hend := h.programWindowEnd_toNat
  refine Word.bind_eq_some (programWindowEnd?_eq h.hasEnd) (Word.sub?_of_le ?_)
  change 4 ≤ _
  omega

theorem Valid.room?_eq (h : l.Valid) :
    l.room? = some (l.programWindowEnd - l.loadAddress.val) := by
  have hend := h.programWindowEnd_toNat
  have hload := (h.inProgramWindow_iff _).mp h.load
  exact Word.bind_eq_some (programWindowEnd?_eq h.hasEnd) (Word.sub?_of_le (by omega))

theorem nthPage?_eq {first : PhysAddr} {size : UInt32} {n : Nat} (hn : n < 4294967296)
    (h : (first.offset (size * .ofNat n)).val.toNat = first.val.toNat + size.toNat * n) :
    nthPage? first size n = some (first.offset (size * .ofNat n)) := by
  have hnat : (UInt32.ofNat n).toNat = n := UInt32.toNat_ofNat_of_lt' hn
  have hlt : first.val.toNat + size.toNat * n < 4294967296 := h ▸ UInt32.toNat_lt _
  have hproduct : (size * UInt32.ofNat n).toNat = size.toNat * (UInt32.ofNat n).toNat := by
    rw [UInt32.toNat_mul, hnat]
    exact Nat.mod_eq_of_lt (Nat.lt_of_le_of_lt (Nat.le_add_left ..) hlt)
  have hsum : (first.offset (size * .ofNat n)).val.toNat =
      first.val.toNat + (size * UInt32.ofNat n).toNat := by
    rw [hproduct, hnat]
    exact h
  exact Word.bind_eq_some (Word.mul?_eq_some_iff.mpr hproduct)
    (Word.bind_eq_some (Word.add?_eq_some_iff.mpr hsum) rfl)

theorem Valid.programPhys?_eq (h : l.Valid) (slot : ProcessId) :
    l.programPhys? slot = some (l.programPhys slot) := by
  have hlt : slot.val < 6 := slot.isLt
  exact nthPage?_eq (by omega) (h.programPhys_toNat slot.isLt)

theorem Valid.videoBuffer?_eq (h : l.Valid) {t : Nat} (ht : t ≤ terminalCount) :
    l.videoBuffer? t = some (l.videoBuffer t) := by
  have hle : t ≤ 3 := ht
  exact nthPage?_eq (by omega) (h.videoBuffer_toNat_of_le ht)

namespace AlignedStacks

variable (h : l.AlignedStacks) (slot : ProcessId)
include h

theorem mul?_eq {n : Nat} (hn : n ≤ processCapacity) :
    Word.mul? l.kernelStackSize (.ofNat n) = some (l.kernelStackSize * .ofNat n) := by
  have hle : n ≤ 6 := hn
  rw [Word.mul?_eq_some_iff, h.distance_toNat hn,
    UInt32.toNat_ofNat_of_lt' (by change n < 4294967296; omega)]

theorem recordAddress?_eq : l.recordAddress? slot = some (l.recordAddress slot) := by
  have hdistance := h.distance_toNat (n := slot + 1) slot.isLt
  have hle := h.distance_le (n := slot + 1) slot.isLt
  have hlt : slot.val < 6 := slot.isLt
  have hnext : Word.add? (.ofNat slot) 1 = some (.ofNat (slot + 1)) := by
    rw [Word.add?_eq_some_iff, UInt32.toNat_ofNat_of_lt' (by change _ < 4294967296; omega),
      UInt32.toNat_ofNat_of_lt' (by change _ < 4294967296; omega)]
    rfl
  refine Word.bind_eq_some hnext (Word.bind_eq_some (h.mul?_eq slot.isLt) ?_)
  rw [Word.sub?_of_le (hdistance.trans_le hle), recordAddress, UInt32.ofNat_add]
  rfl

theorem kernelStackTop?_eq : l.kernelStackTop? slot = some (l.kernelStackTop slot) := by
  have hdistance := h.distance_toNat (n := slot) slot.isLt.le
  have hle := h.top_le slot
  have hbase := h.end_sub_toNat slot
  have hfirst := Word.sub?_of_le (a := l.kernelStackRegionEnd)
    (b := l.kernelStackSize * .ofNat slot) (by omega)
  refine Word.bind_eq_some (h.mul?_eq slot.isLt.le) (Word.bind_eq_some hfirst (Word.sub?_of_le ?_))
  change 4 ≤ _
  omega

theorem end_le_of_lt {x y : ProcessId} (hxy : x < y) :
    (l.kernelStack y).start + (l.kernelStack y).size ≤ (l.kernelStack x).start := by
  have hmul : l.kernelStackSize.toNat * (x + 1) ≤ l.kernelStackSize.toNat * y :=
    Nat.mul_le_mul_left _ hxy
  change (l.recordAddress y).toNat + l.kernelStackSize.toNat ≤ (l.recordAddress x).toNat
  rw [h.recordAddress_toNat_add, h.kernelStackTop_toNat, h.recordAddress_toNat]
  omega

theorem apart {x y : ProcessId} (hxy : x ≠ y) : (l.kernelStack x).Apart (l.kernelStack y) := by
  obtain hlt | hlt := lt_or_gt_of_ne hxy
  · exact Or.inr (h.end_le_of_lt hlt)
  · exact Or.inl (h.end_le_of_lt hlt)

end AlignedStacks

theorem Valid.programs_apart (h : l.Valid) {x y : ProcessId} (hxy : x ≠ y) :
    (Area.largePage (l.programPhys x)).Apart (.largePage (l.programPhys y)) := by
  have hx := h.programPhys_toNat x.isLt
  have hy := h.programPhys_toNat y.isLt
  have hne : x.val ≠ y.val := fun he => hxy (Fin.ext he)
  change (l.programPhys x).val.toNat + 4194304 ≤ (l.programPhys y).val.toNat ∨
    (l.programPhys y).val.toNat + 4194304 ≤ (l.programPhys x).val.toNat
  omega

theorem Valid.proper_program (h : l.Valid) (slot : ProcessId) :
    (Area.largePage (l.programPhys slot)).Proper := by
  have hphys := h.programPhys_toNat slot.isLt
  have hle := h.phys_le
  have hlt : slot.val < 6 := slot.isLt
  have hend : (l.programPhys slot).val.toNat + 4194304 ≤ 4294967296 := by omega
  exact ⟨(by decide : 0 < 4194304), hend⟩

theorem Valid.staysInWords (h : l.Valid) (hs : l.AlignedStacks) : l.StaysInWords where
  windowEnd := programWindowEnd?_eq h.hasEnd
  window := inProgramWindow?_eq h.hasEnd
  userStack := h.userStackTop?_eq
  room := h.room?_eq
  programs := h.programPhys?_eq
  records := hs.recordAddress?_eq
  stackTops := hs.kernelStackTop?_eq
  buffers _ := h.videoBuffer?_eq
  programs_proper := h.proper_program
  programs_apart _ _ := h.programs_apart
  stacks_span := hs.recordAddress_toNat_add
  stacks_aligned := hs.recordAddress_mod
  stacks_apart _ _ := hs.apart

/-- Validation has a result for every layout, and whatever is taken from a layout that it accepts
has one. -/
theorem validate_staysInWords (l : Layout) :
    l.validate? = some l.validate ∧ (l.validate = .ok () → l.StaysInWords) :=
  ⟨validate?_eq l, fun h => (valid_of_validate h).staysInWords (alignedStacks_of_validate h)⟩

end Layout

/-- A layout at the bounds of what is accepted: its programs end with the last address of physical
memory, its window is the last that has an end, and its kernel stacks are the largest ones. -/
def Sample.outermost : Layout where
  programWindow := ⟨0xFF800000⟩
  programPhysBase := ⟨0xFE800000⟩
  loadAddress := ⟨0xFFBFFFFF⟩
  video := ⟨0x3FF000⟩
  videoBuffers := ⟨0x3FD000⟩
  kernelStackSize := 0x20000000
  kernelStackRegionEnd := 0xE0000000

theorem Layout.validate_staysInWords_outermost :
    Sample.outermost.validate = .ok () ∧ Sample.outermost.StaysInWords :=
  ⟨rfl, (validate_staysInWords Sample.outermost).2 rfl⟩

end TerminalKernel
