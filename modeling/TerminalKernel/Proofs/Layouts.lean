import TerminalKernel.Devices.Basic
import TerminalKernel.Proofs.Pages

namespace TerminalKernel.Layout

/-- The bounds and alignments of the mapped regions that `validate` checks. -/
structure Valid (l : Layout) : Prop where
  kernel_mod : l.kernelRegion.val.toNat % 4194304 = 0
  kernel_pos : 4194304 ≤ l.kernelRegion.val.toNat
  window_mod : l.programWindow.val.toNat % 4194304 = 0
  window_pos : 4194304 ≤ l.programWindow.val.toNat
  window_lt : l.programWindow.val.toNat + 4194304 < 4294967296
  phys_mod : l.programPhysBase.val.toNat % 4194304 = 0
  phys_le : l.programPhysBase.val.toNat + 4194304 * 6 ≤ 4294967296
  load : l.inProgramWindow l.loadAddress.val = true
  video_mod : l.video.val.toNat % 4096 = 0
  video_lt : l.video.val.toNat < 4194304
  buffers_mod : l.videoBuffers.val.toNat % 4096 = 0
  buffers_le : l.videoBuffers.val.toNat + 4096 * 3 ≤ 4194304

theorem ite_error_eq_ok {ε α : Type} {c : Prop} [Decidable c] {e : ε} {r : Except ε α} {a : α} :
    (if c then .error e else r) = .ok a ↔ ¬c ∧ r = .ok a := by
  by_cases hc : c <;> simp [hc]

theorem toNat_mod_of_eq_zero {w n : UInt32} (h : w % n = 0) : w.toNat % n.toNat = 0 := by
  rw [← UInt32.toNat_mod, h]
  rfl

variable {l : Layout}

theorem valid_of_validate (h : l.validate = .ok ()) : l.Valid := by
  simp only [validate, ite_error_eq_ok] at h
  obtain ⟨hk, hw, hwe, hp, hpe, hload, hva, hv, -⟩ := h
  simp only [not_or, not_not, Bool.not_eq_true', Bool.not_eq_false, not_lt, not_le,
    PhysAddr.isAligned, beq_iff_eq, VirtAddr.isLargeRegion_iff] at hk hw hwe hp hpe hload hva hv
  have hkm := toNat_mod_of_eq_zero hk.1
  have hk0 : l.kernelRegion.val.toNat ≠ 0 := fun he => hk.2 (UInt32.toNat_inj.mp he)
  have hvl : l.video.val.toNat < 4194304 := by
    have hn := hv.2
    rwa [UInt32.le_iff_toNat_le, Nat.not_le] at hn
  exact {
    kernel_mod := hkm
    kernel_pos := by
      have hd : l.kernelRegion.val.toNat % 4194304 = 0 := hkm
      omega
    window_mod := toNat_mod_of_eq_zero hw.1
    window_pos := hw.2
    window_lt := hwe
    phys_mod := toNat_mod_of_eq_zero hp
    phys_le := hpe
    load := hload
    video_mod := toNat_mod_of_eq_zero hva.1
    video_lt := hvl
    buffers_mod := toNat_mod_of_eq_zero hva.2
    buffers_le := hv.1 }

variable (hl : l.Valid)
include hl

theorem Valid.programWindowEnd_toNat :
    l.programWindowEnd.toNat = l.programWindow.val.toNat + 4194304 := by
  have h := hl.window_lt
  rw [programWindowEnd, UInt32.toNat_add]
  exact Nat.mod_eq_of_lt (by show _ + 4194304 < _; omega)

theorem Valid.inProgramWindow_iff (a : UInt32) :
    l.inProgramWindow a = true ↔
      l.programWindow.val.toNat ≤ a.toNat ∧ a.toNat < l.programWindow.val.toNat + 4194304 := by
  rw [inProgramWindow, Bool.and_eq_true, decide_eq_true_eq, decide_eq_true_eq,
    UInt32.le_iff_toNat_le, UInt32.lt_iff_toNat_lt, hl.programWindowEnd_toNat]

theorem Valid.programPhys_toNat {slot : Nat} (hs : slot < processCapacity) :
    (l.programPhys slot).val.toNat = l.programPhysBase.val.toNat + 4194304 * slot := by
  have h := hl.phys_le
  have hs' : slot < 6 := hs
  rw [programPhys, PhysAddr.offset, UInt32.toNat_add, UInt32.toNat_mul, UInt32.toNat_ofNat']
  change (_ + 4194304 * (slot % 4294967296) % 4294967296) % 4294967296 = _
  omega

theorem Valid.videoBuffer_toNat_of_le {t : Nat} (ht : t ≤ terminalCount) :
    (l.videoBuffer t).val.toNat = l.videoBuffers.val.toNat + 4096 * t := by
  have h := hl.buffers_le
  have ht' : t ≤ 3 := ht
  rw [videoBuffer, PhysAddr.offset, UInt32.toNat_add, UInt32.toNat_mul, UInt32.toNat_ofNat']
  change (_ + 4096 * (t % 4294967296) % 4294967296) % 4294967296 = _
  omega

theorem Valid.videoBuffer_toNat (t : TerminalId) :
    (l.videoBuffer t).val.toNat = l.videoBuffers.val.toNat + 4096 * t.val :=
  hl.videoBuffer_toNat_of_le t.isLt.le

end TerminalKernel.Layout
