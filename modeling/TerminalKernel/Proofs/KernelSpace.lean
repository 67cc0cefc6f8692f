import TerminalKernel.Proofs.Areas
import TerminalKernel.Proofs.Globals

namespace TerminalKernel

structure Entry.IsSupervisor (e : Entry) : Prop where
  writable : e.flags.contains .writable = true
  kernelOnly : e.flags.contains .user = false

theorem Mapping.isSupervisor_self (a : PhysAddr) : (Mapping.self a).entry.IsSupervisor := by
  rw [Mapping.entry]
  cases (Mapping.self a).page with
  | small i =>
    refine ⟨?_, ?_⟩ <;>
    · rw [Page.entry, Entry.flags_small _ (PageFlags.isCaller_and _), Mapping.self,
        PageFlags.writable_global_and]
      decide
  | large i =>
    refine ⟨?_, ?_⟩ <;>
    · rw [Page.entry, Entry.flags_large _ (PageFlags.isCaller_and _), Mapping.self,
        PageFlags.writable_global_and]
      decide

theorem SpaceArena.isSupervisor_tableLink (a : SpaceArena) :
    (a.tableLink .kernel).IsSupervisor := by
  have hs : (a.tableLink .kernel).flags = .writable ||| .present :=
    Entry.flags_small _ PageFlags.writable_and
  exact ⟨by rw [hs]; decide, by rw [hs]; decide⟩

namespace Layout

variable {l : Layout} {link : Entry} {virt : VirtAddr} {a : PhysAddr}

def lastLargePage : PhysAddr := ⟨0xFFC00000⟩

theorem Valid.lt_offset_iff (h : l.Valid) :
    l.kernelRegion.val < (l.kernelRegion.offset largePageSize).val ↔
      l.kernelRegion ≠ lastLargePage := by
  have hm := h.kernel_mod
  have hlt : l.kernelRegion.val.toNat < 4294967296 := l.kernelRegion.val.toNat_lt
  have hs : (l.kernelRegion.offset largePageSize).val.toNat =
      (l.kernelRegion.val.toNat + 4194304) % 4294967296 := by
    rw [PhysAddr.offset, UInt32.toNat_add]
    rfl
  have hlast : l.kernelRegion = lastLargePage ↔ l.kernelRegion.val.toNat = 4290772992 :=
    ⟨fun he => congrArg (fun a => a.val.toNat) he, fun he => physAddr_ext he⟩
  rw [UInt32.lt_iff_toNat_lt, hs, Ne, hlast]
  omega

theorem eq_offset_iff {d : UInt32} :
    virt = (VirtAddr.mk a.val).offset d ↔ PhysAddr.mk virt.val = a.offset d := by
  cases virt
  rw [VirtAddr.offset, PhysAddr.offset, VirtAddr.mk.injEq, PhysAddr.mk.injEq]

theorem page_self_iff_small (hl : a.val.toNat < 4194304) (ha : a.val.toNat % 4096 = 0) :
    virt.page = (Mapping.self a).page ↔ ⟨virt.val⟩ ∈ Area.page a := by
  refine (VirtAddr.page_eq_iff_small hl ha).trans ?_
  simp only [Mapping.self, eq_offset_iff, Area.mem_page_iff_offset ha]

theorem page_self_iff_large (hl : 4194304 ≤ a.val.toNat) (ha : a.val.toNat % 4194304 = 0) :
    virt.page = (Mapping.self a).page ↔ ⟨virt.val⟩ ∈ Area.largePage a := by
  refine (VirtAddr.page_eq_iff_large hl ha).trans ?_
  simp only [Mapping.self, eq_offset_iff, Area.mem_largePage_iff_offset ha]

theorem Valid.exists_kernelPages_iff (h : l.Valid) :
    (∃ a ∈ l.kernelPages, virt.page = (Mapping.self a).page) ↔
      ⟨virt.val⟩ ∈ Area.page l.video ∨ ⟨virt.val⟩ ∈ l.buffers ∨
        ⟨virt.val⟩ ∈ Area.largePage l.kernelRegion ∧ l.kernelRegion ≠ lastLargePage := by
  have hbuffer (t : TerminalId) : virt.page = (Mapping.self (l.videoBuffer t)).page ↔
      ⟨virt.val⟩ ∈ Area.page (l.videoBuffer t) :=
    page_self_iff_small (h.isSmall_buffer t).virt_lt (h.videoBuffer_mod t)
  have hvideo : virt.page = (Mapping.self l.video).page ↔ ⟨virt.val⟩ ∈ Area.page l.video :=
    page_self_iff_small h.video_lt h.video_mod
  have hregion : virt.page = (Mapping.self l.kernelRegion).page ↔
      ⟨virt.val⟩ ∈ Area.largePage l.kernelRegion := page_self_iff_large h.kernel_pos h.kernel_mod
  simp only [mem_kernelPages, h.lt_offset_iff, h.mem_buffers, ← hbuffer, ← hvideo, ← hregion]
  constructor
  · rintro ⟨a, ⟨hlast, rfl⟩ | rfl | ⟨t, rfl⟩, hpage⟩
    · exact Or.inr (Or.inr ⟨hpage, hlast⟩)
    · exact Or.inl hpage
    · exact Or.inr (Or.inl ⟨t, hpage⟩)
  · rintro (hpage | ⟨t, hpage⟩ | ⟨hpage, hlast⟩)
    · exact ⟨_, Or.inr (Or.inl rfl), hpage⟩
    · exact ⟨_, Or.inr (Or.inr ⟨t, rfl⟩), hpage⟩
    · exact ⟨_, Or.inl ⟨hlast, rfl⟩, hpage⟩

theorem Fits.isSupervisor_kernelMap (h : l.Fits) (hp : link.isPresent = true)
    (hl : link.isLarge = false) {e : Entry} (he : (l.kernelMap link).leaf virt = some e) :
    e.IsSupervisor := by
  have hflags : ((l.kernelMap link).leaf virt).map Entry.flags = some e.flags := by
    rw [he]
    rfl
  rw [h.kernelMap_eq hp,
    PageMap.flags_leaf_fill hp hl h.nodup_kernelPages h.aligned_kernelPages] at hflags
  obtain ⟨x, hx, phys, d, -, -, -, hf⟩ := hflags
  obtain ⟨a, -, rfl⟩ := List.mem_map.mp hx
  have hself := Mapping.isSupervisor_self a
  exact ⟨by rw [hf]; exact hself.writable, by rw [hf]; exact hself.kernelOnly⟩

end Layout

namespace Kernel

variable {M D F : Type} {k : Kernel M D F}

/-- The kernel's space leads the video page, the hidden buffers and the kernel region to
themselves, through entries for the kernel alone, and maps nothing else. A kernel region that ends
with the last address is not mapped either. -/
structure MapsItself (k : Kernel M D F) (l : Layout) : Prop where
  translate : ∀ virt phys, k.spaces.translate .kernel virt = some phys ↔
    phys = ⟨virt.val⟩ ∧ (phys ∈ Area.page l.video ∨ phys ∈ l.buffers ∨
      phys ∈ Area.largePage l.kernelRegion ∧ l.kernelRegion ≠ Layout.lastLargePage)
  leaf : ∀ virt phys, k.spaces.translate .kernel virt = some phys →
    ∃ e, k.spaces.leaf .kernel virt = some e ∧ e.IsSupervisor
  link : k.spaces.kernel.directory[0].IsSupervisor

theorem KernelMapped.mapsItself (hk : k.KernelMapped) (hf : k.layout.Fits) :
    k.MapsItself k.layout := by
  have hlink := k.spaces.isPresent_tableLink .kernel
  have hsmall := k.spaces.isLarge_tableLink .kernel
  refine ⟨?_, ?_, ?_⟩
  · intro virt phys
    rw [hk.translate_iff hf, hf.exists_kernelPages_iff]
    refine and_congr_right ?_
    rintro rfl
    exact Iff.rfl
  · intro virt phys ht
    obtain ⟨e, he⟩ := SpaceArena.exists_leaf ht
    refine ⟨e, he, ?_⟩
    have hlookup : k.spaces.lookup .kernel = .ok k.spaces.kernel := rfl
    rw [SpaceArena.leaf, hlookup, hk] at he
    exact hf.isSupervisor_kernelMap hlink hsmall he
  · rw [hk, hf.directory_zero_kernelMap hlink]
    exact k.spaces.isSupervisor_tableLink

variable [Machine M] [Devices D] [FileSystem F]

/-- After every operation the kernel's space leads the video page, the hidden buffers and the
kernel region to themselves and maps nothing else, except that a kernel region that ends with the
last address is missing. -/
theorem mapsItself_run {machine : M} {devices : D} {fs : F} {layout : Layout} {timer : TimerConfig}
    {first : Transfer} (hb : (fresh machine devices fs layout timer).boot = (.ok first, k))
    (ops : List Operation) : (k.run ops).2.MapsItself layout := by
  have hu := unbooted_fresh machine devices fs layout timer
  obtain ⟨_, h₀⟩ := sound_boot hu hb
  obtain ⟨σ, h⟩ := h₀.run ops
  have hl : (k.run ops).2.layout = layout := (h₀.run_fixed ops).2.trans (boot_fixed hu hb).2
  have hmaps := (h₀.kernelMapped_run (kernelMapped_boot hu hb) ops).mapsItself h.fits
  rwa [hl] at hmaps

theorem mapsItself_run_shellFiles :
    ∃ first k, (Sample.kernel Sample.shellFiles).boot = (.ok first, k) ∧
      ∀ ops, (k.run ops).2.MapsItself {} := by
  obtain ⟨first, k, hb⟩ := Sample.boot_shellFiles
  exact ⟨first, k, hb, mapsItself_run hb⟩

end Kernel

def Sample.topmost : Layout := { kernelRegion := ⟨0xFFC00000⟩ }

/-- Validation lets that layout through, and after the boot the kernel region is mapped for every
process but not for the kernel itself. -/
theorem Kernel.unmapped_topmost :
    Sample.topmost.validate = .ok () ∧ ∃ first k,
      (Sample.kernelIn Sample.topmost).boot = (.ok first, k) ∧
        ⟨0xFFC00000⟩ ∈ Area.largePage k.layout.kernelRegion ∧
          k.spaces.translate .kernel ⟨0xFFC00000⟩ = none ∧
            ∀ x p, k.processes.get? x = some p →
              k.spaces.translate (.process x) ⟨0xFFC00000⟩ = some ⟨0xFFC00000⟩ := by
  have hv : Sample.topmost.validate = .ok () := rfl
  obtain ⟨first, k, hb⟩ :=
    Sample.boot_kernelIn hv ⟨Layout.valid_of_validate hv, by decide⟩ rfl rfl
  have hu : (Sample.kernelIn Sample.topmost).Unbooted := unbooted_fresh ..
  obtain ⟨σ, h⟩ := sound_boot hu hb
  have hl : k.layout = Sample.topmost := (boot_fixed hu hb).2
  have hmaps := (kernelMapped_boot hu hb).mapsItself h.fits
  refine ⟨hv, first, k, hb, ?_, ?_, ?_⟩
  · rw [hl, Area.mem_largePage]
    decide
  · rw [Option.eq_none_iff_forall_ne_some]
    intro phys ht
    obtain ⟨rfl, hin⟩ := (hmaps.translate _ _).mp ht
    rw [hl] at hin
    obtain hin | hin | ⟨-, hlast⟩ := hin
    · exact absurd (Area.mem_page.mp hin) (by decide)
    · exact absurd (Area.mem_iff.mp hin) (by decide)
    · exact hlast rfl
  · intro x p hp
    rw [h.translate_iff h.fits hp, hl]
    exact ⟨_, .kernel 0 (by decide)⟩

end TerminalKernel
