import TerminalKernel.ProcessTable.Record
import TerminalKernel.Proofs.Layouts

namespace TerminalKernel

structure Area where
  start : Nat
  size : Nat

namespace Area

instance : Membership PhysAddr Area where
  mem a b := a.start ≤ b.val.toNat ∧ b.val.toNat < a.start + a.size

def Apart (a b : Area) : Prop := a.start + a.size ≤ b.start ∨ b.start + b.size ≤ a.start

instance (a b : Area) : Decidable (a.Apart b) := inferInstanceAs (Decidable (_ ∨ _))

def page (a : PhysAddr) : Area := ⟨a.val.toNat, pageSize.toNat⟩

def largePage (a : PhysAddr) : Area := ⟨a.val.toNat, largePageSize.toNat⟩

variable {a b : Area} {c d : PhysAddr}

theorem mem_iff : c ∈ a ↔ a.start ≤ c.val.toNat ∧ c.val.toNat < a.start + a.size := Iff.rfl

theorem mem_page : c ∈ page d ↔ d.val.toNat ≤ c.val.toNat ∧ c.val.toNat < d.val.toNat + 4096 :=
  Iff.rfl

theorem mem_largePage :
    c ∈ largePage d ↔ d.val.toNat ≤ c.val.toNat ∧ c.val.toNat < d.val.toNat + 4194304 := Iff.rfl

theorem Apart.not_mem (h : a.Apart b) (hc : c ∈ a) : c ∉ b := by
  rw [Apart] at h
  rw [mem_iff] at hc ⊢
  omega

structure Proper (a : Area) : Prop where
  pos : 0 < a.size
  le : a.start + a.size ≤ 4294967296

theorem Proper.apart (ha : a.Proper) (hb : b.Proper) (h : ∀ c ∈ a, c ∉ b) : a.Apart b := by
  obtain ⟨hapos, hale⟩ := ha
  obtain ⟨hbpos, hble⟩ := hb
  by_contra hne
  rw [Apart] at hne
  -- the later one of the two starts in the other one
  have hstart : (UInt32.ofNat (max a.start b.start)).toNat = max a.start b.start := by
    rw [UInt32.toNat_ofNat']
    exact Nat.mod_eq_of_lt (by change _ < 4294967296; omega)
  refine h ⟨UInt32.ofNat (max a.start b.start)⟩ ?_ ?_
  · rw [mem_iff, hstart]
    omega
  · rw [mem_iff, hstart]
    omega

/-- The bytes of an area are those of the parts into which it is cut. -/
theorem mem_parts {start size n : Nat} :
    c ∈ (⟨start, size * n⟩ : Area) ↔ ∃ i : Fin n, c ∈ (⟨start + size * i, size⟩ : Area) := by
  simp only [mem_iff]
  constructor
  · rintro ⟨hle, hlt⟩
    have hpos : 0 < size := by
      rw [Nat.pos_iff_ne_zero]
      rintro rfl
      rw [Nat.zero_mul] at hlt
      omega
    have hdiv := Nat.div_add_mod (c.val.toNat - start) size
    have hmod := Nat.mod_lt (c.val.toNat - start) hpos
    have hi : (c.val.toNat - start) / size < n := Nat.div_lt_of_lt_mul (by omega)
    exact ⟨⟨_, hi⟩, by dsimp only; omega, by dsimp only; omega⟩
  · rintro ⟨i, hle, hlt⟩
    have hi : size * i + size ≤ size * n := by
      rw [← Nat.mul_succ]
      exact Nat.mul_le_mul_left size i.isLt
    omega

theorem mem_iff_offset (hn : a.start = d.val.toNat) (hle : a.start + a.size ≤ 4294967296) :
    c ∈ a ↔ ∃ n : UInt32, n.toNat < a.size ∧ c = d.offset n := by
  rw [mem_iff]
  constructor
  · rintro ⟨hge, hlt⟩
    have hn' : (c.val - d.val).toNat = c.val.toNat - d.val.toNat :=
      UInt32.toNat_sub_of_le _ _ (UInt32.le_iff_toNat_le.mpr (by omega))
    refine ⟨c.val - d.val, by omega, ?_⟩
    rw [PhysAddr.offset]
    cases c
    exact congrArg PhysAddr.mk (by rw [UInt32.add_comm, UInt32.sub_add_cancel])
  · rintro ⟨n, hlt, rfl⟩
    rw [PhysAddr.offset, UInt32.toNat_add]
    omega

theorem mem_page_iff_offset (h : d.val.toNat % 4096 = 0) :
    c ∈ page d ↔ ∃ n : UInt32, n < pageSize ∧ c = d.offset n := by
  have hlt : d.val.toNat < 4294967296 := d.val.toNat_lt
  have hle : d.val.toNat + 4096 ≤ 4294967296 := by omega
  simp only [UInt32.lt_iff_toNat_lt]
  exact mem_iff_offset (a := page d) rfl hle

theorem mem_largePage_iff_offset (h : d.val.toNat % 4194304 = 0) :
    c ∈ largePage d ↔ ∃ n : UInt32, n < largePageSize ∧ c = d.offset n := by
  have hlt : d.val.toNat < 4294967296 := d.val.toNat_lt
  have hle : d.val.toNat + 4194304 ≤ 4294967296 := by omega
  simp only [UInt32.lt_iff_toNat_lt]
  exact mem_iff_offset (a := largePage d) rfl hle

theorem eq_of_mem_page {e : PhysAddr} (hd : d.val.toNat % 4096 = 0) (he : e.val.toNat % 4096 = 0)
    (h : c ∈ page d) (h' : c ∈ page e) : d = e := by
  rw [mem_page] at h h'
  exact physAddr_ext (by omega)

end Area

namespace Layout

def programs (l : Layout) : Area :=
  ⟨l.programPhysBase.val.toNat, largePageSize.toNat * processCapacity⟩

/-- The kernel stack of a slot, with its process record. -/
def kernelStack (l : Layout) (slot : Nat) : Area :=
  ⟨(l.recordAddress slot).toNat, l.kernelStackSize.toNat⟩

def kernelStacks (l : Layout) : Area :=
  ⟨l.kernelStackRegionEnd.toNat - l.kernelStackSize.toNat * processCapacity,
    l.kernelStackSize.toNat * processCapacity⟩

def buffers (l : Layout) : Area := ⟨l.videoBuffers.val.toNat, pageSize.toNat * terminalCount⟩

/-- The windows of the programs are apart from the kernel and from the page on screen, and the
kernel stacks from all text buffers. -/
structure Separated (l : Layout) : Prop where
  kernel : l.programs.Apart (.largePage l.kernelRegion)
  kernelStacks : l.programs.Apart l.kernelStacks
  video : l.programs.Apart (.page l.video)
  kernelStacks_video : l.kernelStacks.Apart (.page l.video)
  kernelStacks_buffers : l.kernelStacks.Apart l.buffers

structure ValidStacks (l : Layout) : Prop where
  size_pos : 0 < l.kernelStackSize.toNat
  size_le : l.kernelStackSize.toNat * 6 ≤ l.kernelStackRegionEnd.toNat

variable {l : Layout} {b : PhysAddr}

theorem separated_iff :
    l.Separated ↔ l.programs.Apart (.largePage l.kernelRegion) ∧ l.programs.Apart l.kernelStacks ∧
      l.programs.Apart (.page l.video) ∧ l.kernelStacks.Apart (.page l.video) ∧
        l.kernelStacks.Apart l.buffers :=
  ⟨fun ⟨hk, hs, hv, hsv, hsb⟩ => ⟨hk, hs, hv, hsv, hsb⟩,
    fun ⟨hk, hs, hv, hsv, hsb⟩ => ⟨hk, hs, hv, hsv, hsb⟩⟩

instance : Decidable l.Separated := decidable_of_iff' _ separated_iff

theorem validStacks_of_validate (h : l.validate = .ok ()) : l.ValidStacks := by
  simp only [validate, ite_error_eq_ok] at h
  obtain ⟨-, -, -, -, -, -, -, -, hsize, hend, -⟩ := h
  rw [not_or] at hsize hend
  refine ⟨?_, Nat.not_lt.mp hend.1⟩
  have hpage : 4096 ≤ l.kernelStackSize.toNat := by
    have hn := hsize.2
    rwa [UInt32.lt_iff_toNat_lt, Nat.not_lt] at hn
  omega

theorem ValidStacks.distance_le (h : l.ValidStacks) {n : Nat} (hn : n ≤ processCapacity) :
    l.kernelStackSize.toNat * n ≤ l.kernelStackRegionEnd.toNat :=
  (Nat.mul_le_mul_left _ hn).trans h.size_le

theorem ValidStacks.distance_toNat (h : l.ValidStacks) {n : Nat} (hn : n ≤ processCapacity) :
    (l.kernelStackSize * UInt32.ofNat n).toNat = l.kernelStackSize.toNat * n := by
  have hend := l.kernelStackRegionEnd.toNat_lt
  have hle := h.distance_le hn
  have hn' : n ≤ 6 := hn
  rw [UInt32.toNat_mul, UInt32.toNat_ofNat_of_lt' (by change n < 4294967296; omega)]
  exact Nat.mod_eq_of_lt (by omega)

theorem ValidStacks.recordAddress_toNat (h : l.ValidStacks) (slot : ProcessId) :
    (l.recordAddress slot).toNat =
      l.kernelStackRegionEnd.toNat - l.kernelStackSize.toNat * (slot + 1) := by
  have hle := h.distance_le (n := slot + 1) slot.isLt
  have hdistance := h.distance_toNat (n := slot + 1) slot.isLt
  rw [UInt32.ofNat_add] at hdistance
  rw [recordAddress, UInt32.toNat_sub_of_le, ← hdistance]
  · rfl
  · rw [UInt32.le_iff_toNat_le]
    exact hdistance.trans_le hle

theorem ValidStacks.mem_kernelStacks (h : l.ValidStacks) :
    b ∈ l.kernelStacks ↔ ∃ slot : ProcessId, b ∈ l.kernelStack slot := by
  -- slot 0 has the highest part
  refine Area.mem_parts.trans (Fin.revPerm.exists_congr ?_)
  intro i
  have hle := h.size_le
  have hsum : l.kernelStackSize.toNat * i + l.kernelStackSize.toNat * (i.rev + 1) =
      l.kernelStackSize.toNat * 6 := by
    have hi : i.val < 6 := i.isLt
    have hrev : i.val + (i.rev.val + 1) = 6 := by
      rw [Fin.val_rev]
      change i.val + (6 - (i.val + 1) + 1) = 6
      omega
    rw [← Nat.mul_add, hrev]
  have hstart : l.kernelStackRegionEnd.toNat - l.kernelStackSize.toNat * 6 +
      l.kernelStackSize.toNat * i = (l.recordAddress i.rev).toNat := by
    rw [h.recordAddress_toNat]
    omega
  exact iff_of_eq (congrArg (fun start => b ∈ Area.mk start l.kernelStackSize.toNat) hstart)

theorem Valid.mem_programs (h : l.Valid) :
    b ∈ l.programs ↔ ∃ slot : ProcessId, b ∈ Area.largePage (l.programPhys slot) := by
  refine Area.mem_parts.trans (exists_congr ?_)
  intro slot
  have hstart : (l.programPhys slot).val.toNat = l.programPhysBase.val.toNat + 4194304 * slot :=
    h.programPhys_toNat slot.isLt
  rw [Area.mem_largePage, hstart]
  rfl

theorem Valid.mem_buffers (h : l.Valid) :
    b ∈ l.buffers ↔ ∃ t : TerminalId, b ∈ Area.page (l.videoBuffer t) := by
  refine Area.mem_parts.trans (exists_congr ?_)
  intro t
  rw [Area.mem_page, h.videoBuffer_toNat]
  rfl

theorem Valid.proper_programs (h : l.Valid) : l.programs.Proper :=
  ⟨(by decide : 0 < 4194304 * 6), h.phys_le⟩

theorem Valid.proper_buffers (h : l.Valid) : l.buffers.Proper :=
  ⟨(by decide : 0 < 4096 * 3), h.buffers_le.trans (by decide)⟩

theorem Valid.proper_video (h : l.Valid) : (Area.page l.video).Proper := by
  have hlt := h.video_lt
  have hle : l.video.val.toNat + 4096 ≤ 4294967296 := by omega
  exact ⟨(by decide : 0 < 4096), hle⟩

theorem Valid.proper_kernel (h : l.Valid) : (Area.largePage l.kernelRegion).Proper := by
  have hmod := h.kernel_mod
  have hlt : l.kernelRegion.val.toNat < 4294967296 := l.kernelRegion.val.toNat_lt
  have hle : l.kernelRegion.val.toNat + 4194304 ≤ 4294967296 := by omega
  exact ⟨(by decide : 0 < 4194304), hle⟩

theorem ValidStacks.proper (h : l.ValidStacks) : l.kernelStacks.Proper := by
  have hpos := h.size_pos
  have hle := h.size_le
  have hlt : l.kernelStackRegionEnd.toNat < 4294967296 := l.kernelStackRegionEnd.toNat_lt
  refine ⟨Nat.mul_pos hpos (by decide), ?_⟩
  change l.kernelStackRegionEnd.toNat - l.kernelStackSize.toNat * 6 +
    l.kernelStackSize.toNat * 6 ≤ 4294967296
  omega

theorem Valid.video_apart_kernel (h : l.Valid) :
    (Area.page l.video).Apart (.largePage l.kernelRegion) := by
  have hpos := h.kernel_pos
  have hlt := h.video_lt
  have hmod := h.video_mod
  have hle : l.video.val.toNat + 4096 ≤ l.kernelRegion.val.toNat := by omega
  exact Or.inl hle

theorem Valid.buffers_apart_kernel (h : l.Valid) :
    l.buffers.Apart (.largePage l.kernelRegion) :=
  Or.inl (h.buffers_le.trans h.kernel_pos)

/-- Programs that are apart from the page on screen lie above all text buffers. -/
theorem Valid.buffers_apart_programs (h : l.Valid) (hv : l.programs.Apart (.page l.video)) :
    l.buffers.Apart l.programs := by
  have hmod := h.phys_mod
  have hlt := h.video_lt
  have hle := h.buffers_le
  have hpos : 4194304 ≤ l.programPhysBase.val.toNat := by
    obtain hp | hp := hv
    · have hend : l.programPhysBase.val.toNat + 4194304 * 6 ≤ l.video.val.toNat := hp
      omega
    · have hstart : l.video.val.toNat + 4096 ≤ l.programPhysBase.val.toNat := hp
      omega
  exact Or.inl (hle.trans hpos)

end Layout

end TerminalKernel
