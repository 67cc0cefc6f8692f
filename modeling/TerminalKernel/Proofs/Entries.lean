import Mathlib
import TerminalKernel.Paging.Entry

namespace TerminalKernel

def PageFlags.Fits (f : PageFlags) : Prop := f.bits.toNat < 512

def PageFlags.IsCaller (f : PageFlags) : Prop := f &&& callerMask = f

namespace PageFlags

variable {f : PageFlags}

theorem isCaller_and (f : PageFlags) : (f &&& callerMask).IsCaller := by
  change PageFlags.mk (f.bits &&& callerMask.bits &&& callerMask.bits) =
    ⟨f.bits &&& callerMask.bits⟩
  rw [UInt32.and_assoc, UInt32.and_self]

theorem IsCaller.le (hf : f.IsCaller) : f.bits.toNat ≤ 0x11E := by
  have hb : f.bits.toNat &&& 0x11E = f.bits.toNat := by
    have h : (f.bits &&& callerMask.bits).toNat = f.bits.toNat :=
      congrArg (fun x => x.bits.toNat) hf
    rwa [UInt32.toNat_and] at h
  rw [← hb]
  exact Nat.and_le_right

theorem fits_or {g : PageFlags} (hf : f.Fits) (hg : g.Fits) : (f ||| g).Fits := by
  change (f.bits ||| g.bits).toNat < 2 ^ 9
  rw [UInt32.toNat_or]
  exact Nat.or_lt_two_pow hf hg

theorem IsCaller.fits (hf : f.IsCaller) : f.Fits := Nat.lt_of_le_of_lt hf.le (by decide)

theorem fits_present : present.Fits := by
  change present.bits.toNat < 512
  decide

theorem fits_large : large.Fits := by
  change large.bits.toNat < 512
  decide

theorem contains_or_right (f g : PageFlags) : (f ||| g).contains g = true := by
  change ((f.bits ||| g.bits) &&& g.bits == g.bits) = true
  rw [beq_iff_eq]
  apply UInt32.toNat_inj.mp
  rw [UInt32.toNat_and, UInt32.toNat_or, Nat.and_or_distrib_right, Nat.and_self]
  exact Nat.eq_of_testBit_eq fun i => by simp

theorem contains_or_left {g h : PageFlags} (hf : f.contains h = true) :
    (f ||| g).contains h = true := by
  have hb : f.bits &&& h.bits = h.bits := by simpa [contains] using hf
  change ((f.bits ||| g.bits) &&& h.bits == h.bits) = true
  rw [beq_iff_eq]
  apply UInt32.toNat_inj.mp
  have hn : f.bits.toNat &&& h.bits.toNat = h.bits.toNat := by
    rw [← UInt32.toNat_and, hb]
  rw [UInt32.toNat_and, UInt32.toNat_or, Nat.and_or_distrib_right, hn]
  apply Nat.eq_of_testBit_eq
  intro i
  have hi := congrArg (fun n => n.testBit i) hn
  simp only [Nat.testBit_and, Nat.testBit_or] at hi ⊢
  cases hh : h.bits.toNat.testBit i <;> simp

/-- The large bit is not a caller's choice. -/
theorem IsCaller.not_large (hf : f.IsCaller) : (f ||| present).contains large = false := by
  have hb : f.bits.toNat &&& 0x11E = f.bits.toNat := by
    have h : (f.bits &&& callerMask.bits).toNat = f.bits.toNat :=
      congrArg (fun x => x.bits.toNat) hf
    rwa [UInt32.toNat_and] at h
  have hz : ((f.bits ||| present.bits) &&& large.bits).toNat = 0 := by
    rw [UInt32.toNat_and, UInt32.toNat_or, ← hb, Nat.and_or_distrib_right, Nat.and_assoc]
    have h1 : 0x11E &&& large.bits.toNat = 0 := by decide
    have h2 : present.bits.toNat &&& large.bits.toNat = 0 := by decide
    rw [h1, h2]
    simp
  change ((f.bits ||| present.bits) &&& large.bits == large.bits) = false
  rw [beq_eq_false_iff_ne]
  intro he
  rw [he] at hz
  exact absurd hz (by decide)

end PageFlags

theorem or_toNat {w f : UInt32} (hw : w.toNat % 4096 = 0) (hf : f.toNat < 4096) :
    (w ||| f).toNat = w.toNat + f.toNat := by
  have hm : w.toNat = 2 ^ 12 * (w.toNat / 4096) := by omega
  rw [UInt32.toNat_or, hm, Nat.two_pow_add_eq_or_of_lt (by omega)]

theorem alignDown_toNat (a : PhysAddr) :
    a.alignDown.val.toNat = a.val.toNat - a.val.toNat % 4096 := by
  have h : (a.val % pageSize).toNat = a.val.toNat % 4096 := UInt32.toNat_mod ..
  have hle : a.val % pageSize ≤ a.val := by
    rw [UInt32.le_iff_toNat_le, h]
    exact Nat.mod_le ..
  rw [PhysAddr.alignDown, UInt32.toNat_sub_of_le _ _ hle, h]

theorem alignDownLarge_toNat (a : PhysAddr) :
    a.alignDownLarge.val.toNat = a.val.toNat - a.val.toNat % 4194304 := by
  have h : (a.val % largePageSize).toNat = a.val.toNat % 4194304 := UInt32.toNat_mod ..
  have hle : a.val % largePageSize ≤ a.val := by
    rw [UInt32.le_iff_toNat_le, h]
    exact Nat.mod_le ..
  rw [PhysAddr.alignDownLarge, UInt32.toNat_sub_of_le _ _ hle, h]

theorem physAddr_ext {a b : PhysAddr} (h : a.val.toNat = b.val.toNat) : a = b := by
  cases a
  cases b
  exact congrArg PhysAddr.mk (UInt32.toNat_inj.mp h)

namespace Entry

variable {w : UInt32} {f : PageFlags}

theorem flags_or (hw : w.toNat % 4096 = 0) (hf : f.Fits) : (Entry.mk (w ||| f.bits)).flags = f := by
  have hb : f.bits.toNat < 512 := hf
  have h : (w ||| f.bits) &&& 0x1FF = f.bits := by
    apply UInt32.toNat_inj.mp
    rw [UInt32.toNat_and, or_toNat hw (by omega)]
    have hm : (w.toNat + f.bits.toNat) &&& (2 ^ 9 - 1) = (w.toNat + f.bits.toNat) % 2 ^ 9 :=
      Nat.and_two_pow_sub_one_eq_mod ..
    exact hm.trans (by omega)
  rw [flags, PageFlags.ofBits, h]

theorem base_or (hw : w.toNat % 4096 = 0) (hf : f.Fits) (hl : f.contains .large = false) :
    (Entry.mk (w ||| f.bits)).base = ⟨w⟩ := by
  have hb : f.bits.toNat < 512 := hf
  rw [base, isLarge, flags_or hw hf, hl]
  apply physAddr_ext
  rw [if_neg (by simp), alignDown_toNat]
  simp only [or_toNat hw (show f.bits.toNat < 4096 by omega)]
  omega

theorem base_or_large (hw : w.toNat % 4194304 = 0) (hf : f.Fits) (hl : f.contains .large = true) :
    (Entry.mk (w ||| f.bits)).base = ⟨w⟩ := by
  have hb : f.bits.toNat < 512 := hf
  have hw' : w.toNat % 4096 = 0 := by omega
  rw [base, isLarge, flags_or hw' hf, hl]
  apply physAddr_ext
  rw [if_pos rfl, alignDownLarge_toNat]
  simp only [or_toNat hw' (show f.bits.toNat < 4096 by omega)]
  omega

theorem alignDown_mod (a : PhysAddr) : a.alignDown.val.toNat % 4096 = 0 := by
  rw [alignDown_toNat]
  omega

theorem alignDownLarge_mod (a : PhysAddr) : a.alignDownLarge.val.toNat % 4194304 = 0 := by
  rw [alignDownLarge_toNat]
  omega

variable (a : PhysAddr)

theorem flags_small (hf : f.IsCaller) : (small a f).flags = f ||| .present :=
  flags_or (alignDown_mod a) (PageFlags.fits_or hf.fits PageFlags.fits_present)

theorem base_small (hf : f.IsCaller) : (small a f).base = a.alignDown :=
  base_or (alignDown_mod a) (PageFlags.fits_or hf.fits PageFlags.fits_present) hf.not_large

theorem isPresent_small (hf : f.IsCaller) : (small a f).isPresent = true := by
  rw [isPresent, flags_small a hf]
  exact PageFlags.contains_or_right ..

theorem isLarge_small (hf : f.IsCaller) : (small a f).isLarge = false := by
  rw [isLarge, flags_small a hf]
  exact hf.not_large

theorem flags_large (hf : f.IsCaller) : (large a f).flags = f ||| .present ||| .large := by
  refine flags_or ?_ (PageFlags.fits_or (PageFlags.fits_or hf.fits PageFlags.fits_present)
    PageFlags.fits_large)
  have := alignDownLarge_mod a
  omega

theorem base_large (hf : f.IsCaller) : (large a f).base = a.alignDownLarge :=
  base_or_large (alignDownLarge_mod a) (PageFlags.fits_or (PageFlags.fits_or hf.fits
    PageFlags.fits_present) PageFlags.fits_large) (PageFlags.contains_or_right ..)

theorem isPresent_large (hf : f.IsCaller) : (large a f).isPresent = true := by
  rw [isPresent, flags_large a hf]
  exact PageFlags.contains_or_left (PageFlags.contains_or_right ..)

theorem isLarge_large (hf : f.IsCaller) : (large a f).isLarge = true := by
  rw [isLarge, flags_large a hf]
  exact PageFlags.contains_or_right ..

@[simp] theorem isPresent_empty : empty.isPresent = false := rfl

@[simp] theorem isLarge_empty : empty.isLarge = false := rfl

end Entry

end TerminalKernel
