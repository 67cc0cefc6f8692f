import TerminalKernel.Proofs.KernelMap

namespace TerminalKernel

namespace SpaceArena

theorem exists_leaf {a : SpaceArena} {space : SpaceId} {virt : VirtAddr} {phys : PhysAddr}
    (h : a.translate space virt = some phys) : ∃ e, a.leaf space virt = some e := by
  unfold translate at h
  unfold leaf
  split at h
  case h_1 m _ =>
    obtain ⟨w, hw, -⟩ := Option.map_eq_some_iff.mp h
    exact ⟨w.1, by rw [PageMap.leaf, hw, Option.map_some]⟩
  case h_2 => cases h

def identifyAll (a : SpaceArena) (ranges : List (PhysAddr × PhysAddr)) : SpaceArena :=
  ranges.foldl (fun a r => a.identify r.1 r.2) a

theorem placement_identifyAll (a : SpaceArena) (ranges : List (PhysAddr × PhysAddr)) :
    (a.identifyAll ranges).placement = a.placement := by
  induction ranges generalizing a with
  | nil => rfl
  | cons r rs ih => exact ih (a.identify r.1 r.2)

theorem kernel_identifyAll (a : SpaceArena) (ranges : List (PhysAddr × PhysAddr)) :
    (a.identifyAll ranges).kernel = a.kernel.identifyAll (a.tableLink .kernel) ranges := by
  induction ranges generalizing a with
  | nil => rfl
  | cons r rs ih => exact ih (a.identify r.1 r.2)

theorem isGiven_of_translate {a : SpaceArena} {slot : Nat} {virt : VirtAddr}
    {phys : PhysAddr} (h : a.translate (.process slot) virt = some phys) :
    ∃ pid : ProcessId, slot = pid ∧ a.isGiven pid = true := by
  rw [translate, lookup] at h
  split at h
  case h_1 m hm =>
    split at hm
    case isTrue hs =>
      split at hm
      case isTrue ho =>
        refine ⟨⟨slot, hs⟩, rfl, ?_⟩
        rwa [isGiven, Vector.get_eq_getElem]
      case isFalse => cases hm
    case isFalse => cases hm
  case h_2 => cases h

end SpaceArena

theorem Mapping.Sends.eq_self_iff {x : Mapping} {virt : VirtAddr} {phys : PhysAddr}
    {flags : PageFlags} (h : x.Sends virt phys flags) :
    phys = ⟨virt.val⟩ ↔ x.phys = ⟨x.virt.val⟩ := by
  obtain ⟨d, -, rfl, rfl, -⟩ := h
  rw [PhysAddr.offset, VirtAddr.offset, PhysAddr.mk.injEq, UInt32.add_left_inj]
  cases x.phys
  rw [PhysAddr.mk.injEq]

namespace Layout

variable {l : Layout} {slot : Nat} {video : PhysAddr} {x y : Mapping} {page : Page}

theorem Fits.eq_of_page_eq (h : l.Fits) (hx : x ∈ l.mappings slot video)
    (hy : y ∈ l.mappings slot video) (he : x.page = y.page) : x = y :=
  List.inj_on_of_nodup_map (h.nodup slot video) hx hy he

theorem Fits.ne_window (h : l.Fits)
    (hm : page ∈ ((l.mappings 0 l.video).map Mapping.page).tail) :
    page ≠ l.programWindow.page := by
  have hn := h.apart
  rw [mappings, List.map_cons, List.nodup_cons] at hn
  rintro rfl
  exact hn.1 hm

theorem Fits.eq_self_iff (h : l.Fits) (hx : x ∈ l.mappings slot video)
    (hw : x.page ≠ l.programWindow.page) :
    x.phys = ⟨x.virt.val⟩ ↔ (x.page = l.videoPage → video = l.video) := by
  by_cases hv : x.page = l.videoPage
  · have hmem : ⟨⟨l.video.val⟩, video, videoFlags⟩ ∈ l.mappings slot video :=
      mem_mappings.mpr (Or.inr (Or.inr (Or.inl rfl)))
    obtain rfl := h.eq_of_page_eq hx hmem hv
    exact ⟨fun he _ => he, fun he => he hv⟩
  · refine iff_of_true ?_ fun he => absurd he hv
    obtain rfl | rfl | rfl | ⟨t, rfl⟩ := mem_mappings.mp hx
    · exact absurd rfl hw
    · rfl
    · exact absurd rfl hv
    · rfl

theorem Maps.page_of_global (h : l.Valid) {virt : VirtAddr} {phys : PhysAddr} {flags : PageFlags}
    (hm : l.Maps slot video virt phys flags) (hg : flags.contains .global = true) :
    virt.page = (Mapping.self l.kernelRegion).page := by
  cases hm with
  | program => exact absurd hg (by decide)
  | kernel d hd =>
    exact h.isLarge_kernel.aligned.page_eq_iff.mpr
      ⟨_, _, h.isLarge_kernel.sends_iff.mpr ⟨d, hd, rfl, rfl, rfl⟩⟩
  | video => exact absurd hg (by decide)
  | buffer => exact absurd hg (by decide)

theorem Fits.videoBuffer_ne (h : l.Fits) (t : TerminalId) : l.videoBuffer t ≠ l.video := by
  intro he
  have hbuffer : ⟨⟨(l.videoBuffer t).val⟩, l.videoBuffer t, .writable⟩ ∈ l.mappings 0 l.video :=
    mem_mappings.mpr (Or.inr (Or.inr (Or.inr ⟨t, rfl⟩)))
  have hvideo : ⟨⟨l.video.val⟩, l.video, videoFlags⟩ ∈ l.mappings 0 l.video :=
    mem_mappings.mpr (Or.inr (Or.inr (Or.inl rfl)))
  have hsame := h.eq_of_page_eq hbuffer hvideo (by rw [he]; rfl)
  have hflags : PageFlags.writable = videoFlags := congrArg Mapping.flags hsame
  exact absurd hflags (by decide)

theorem Fits.kernelPages_ne_window (h : l.Fits) {a : PhysAddr} (ha : a ∈ l.kernelPages) :
    (Mapping.self a).page ≠ l.programWindow.page :=
  h.ne_window (kernelPages_sublist.subset (List.mem_map_of_mem ha))

theorem Fits.kernelRegion_ne_window (h : l.Fits) :
    (Mapping.self l.kernelRegion).page ≠ l.programWindow.page :=
  h.ne_window (List.mem_cons_self ..)

theorem Valid.kernelRegion_ne_video (h : l.Valid) :
    (Mapping.self l.kernelRegion).page ≠ l.videoPage := by
  rw [h.videoPage_eq, show (Mapping.self l.kernelRegion).page = _ from h.isLarge_kernel.page_eq]
  exact nofun

end Layout

namespace Kernel

variable {M D F : Type} [FileSystem F] {k k' : Kernel M D F} {σ : TerminalId → List ProcessId}
  {space : SpaceId} {virt : VirtAddr} {phys : PhysAddr} {e : Entry}

def KernelMapped (k : Kernel M D F) : Prop :=
  k.spaces.kernel = k.layout.kernelMap (k.spaces.tableLink .kernel)

/-- The page is the video page of a process whose terminal is not on screen. -/
structure HiddenVideo (k : Kernel M D F) (space : SpaceId) (page : Page) : Prop where
  page : page = k.layout.videoPage
  hidden : ∃ (x : ProcessId) (r : ProcessRecord), space = .process x ∧
    k.processes.get? x = some r ∧ r.terminal ≠ k.displayed

theorem Consistent.live_of_translate (h : k.Consistent σ) {slot : Nat}
    (ht : k.spaces.translate (.process slot) virt = some phys) :
    ∃ (x : ProcessId) (r : ProcessRecord), slot = x ∧ k.processes.get? x = some r := by
  obtain ⟨x, rfl, hx⟩ := SpaceArena.isGiven_of_translate ht
  rw [h.given] at hx
  obtain ⟨r, hr⟩ := Option.isSome_iff_exists.mp hx
  exact ⟨x, r, rfl, hr⟩

omit [FileSystem F] in
theorem videoTarget_eq_video (h : k.layout.Fits) (t : TerminalId) :
    k.videoTarget t = k.layout.video ↔ t = k.displayed := by
  unfold videoTarget
  split
  case isTrue he => exact iff_of_true rfl he
  case isFalse hne => exact iff_of_false (h.videoBuffer_ne t) hne

section

variable (hk : k.KernelMapped) (hf : k.layout.Fits)
include hk hf

omit [FileSystem F] in
theorem KernelMapped.translate_iff :
    k.spaces.translate .kernel virt = some phys ↔
      phys = ⟨virt.val⟩ ∧ ∃ a ∈ k.layout.kernelPages, virt.page = (Mapping.self a).page := by
  have hlookup : k.spaces.lookup .kernel = .ok k.spaces.kernel := rfl
  rw [SpaceArena.translate, hlookup, hk]
  exact hf.translate_kernelMap (k.spaces.isPresent_tableLink _) (k.spaces.isLarge_tableLink _)

omit [FileSystem F] in
theorem KernelMapped.global (he : k.spaces.leaf .kernel virt = some e) :
    e.flags.contains .global = true := by
  have hlookup : k.spaces.lookup .kernel = .ok k.spaces.kernel := rfl
  rw [SpaceArena.leaf, hlookup, hk] at he
  exact hf.global_kernelMap (k.spaces.isPresent_tableLink _) (k.spaces.isLarge_tableLink _) he

end

/-- An address leads to itself in every space that maps it, outside programs and hidden video
pages. -/
theorem Consistent.eq_self_iff (h : k.Consistent σ) (hf : k.layout.Fits) (hk : k.KernelMapped)
    (ht : k.spaces.translate space virt = some phys)
    (hw : virt.page ≠ k.layout.programWindow.page) :
    phys = ⟨virt.val⟩ ↔ ¬k.HiddenVideo space virt.page := by
  cases space with
  | kernel =>
    refine iff_of_true ((hk.translate_iff hf).mp ht).1 ?_
    rintro ⟨-, x, r, hx, -⟩
    cases hx
  | process slot =>
    obtain ⟨x, r, rfl, hr⟩ := h.live_of_translate ht
    have hv := videoTarget_mod hf.toValid r.terminal
    obtain ⟨flags, hm⟩ := (h.translate_iff hf hr virt phys).mp ht
    obtain ⟨m, hmem, hs⟩ := (hf.sends_iff x.isLt hv).mpr hm
    have hpage := (hf.aligned_mappings x.isLt hv m hmem).page_eq_iff.mpr ⟨phys, flags, hs⟩
    rw [hpage] at hw
    rw [hs.eq_self_iff, hf.eq_self_iff hmem hw, videoTarget_eq_video hf, ← hpage]
    constructor
    · rintro hd ⟨hvideo, y, r', hy, hr', hne⟩
      cases Fin.ext (SpaceId.process.inj hy)
      rw [hr, Option.some.injEq] at hr'
      exact hne (hr' ▸ hd hvideo)
    · intro hno hvideo
      by_contra hne
      exact hno ⟨hvideo, x, r, rfl, hr, hne⟩

/-- A page that stays cached is no program's, and the video page only in the kernel's space. -/
theorem Consistent.page_of_global (h : k.Consistent σ) (hf : k.layout.Fits) (hk : k.KernelMapped)
    (ht : k.spaces.translate space virt = some phys) (he : k.spaces.leaf space virt = some e)
    (hg : e.flags.contains .global = true) :
    virt.page ≠ k.layout.programWindow.page ∧
      (space = .kernel ∨ virt.page ≠ k.layout.videoPage) := by
  cases space with
  | kernel =>
    obtain ⟨-, a, ha, hpage⟩ := (hk.translate_iff hf).mp ht
    rw [hpage]
    exact ⟨hf.kernelPages_ne_window ha, Or.inl rfl⟩
  | process slot =>
    obtain ⟨x, r, rfl, hr⟩ := h.live_of_translate ht
    have hflags : (k.spaces.leaf (.process x) virt).map Entry.flags = some e.flags := by
      rw [he, Option.map_some]
    obtain ⟨_, hm⟩ := (h.flags_leaf_iff hf hr virt e.flags).mp hflags
    rw [hm.page_of_global hf.toValid hg]
    exact ⟨hf.kernelRegion_ne_window, Or.inr hf.kernelRegion_ne_video⟩

theorem Consistent.ne_iff_of_global (h : k.Consistent σ) (hf : k.layout.Fits)
    (hk : k.KernelMapped) {other : SpaceId} {phys' : PhysAddr}
    (he : k.spaces.leaf space virt = some e) (hg : e.flags.contains .global = true)
    (ht : k.spaces.translate space virt = some phys)
    (ht' : k.spaces.translate other virt = some phys') :
    phys ≠ phys' ↔ space = .kernel ∧ k.HiddenVideo other virt.page := by
  obtain ⟨hw, hspace⟩ := h.page_of_global hf hk ht he hg
  have hself : phys = ⟨virt.val⟩ := by
    rw [h.eq_self_iff hf hk ht hw]
    rintro ⟨hvideo, x, r, rfl, -⟩
    obtain hx | hne := hspace
    · cases hx
    · exact hne hvideo
  rw [hself, ne_comm, Ne, h.eq_self_iff hf hk ht' hw, not_not]
  constructor
  · intro hv
    exact ⟨hspace.resolve_right (not_not.mpr hv.page), hv⟩
  · exact And.right

omit [FileSystem F] in
theorem KernelMapped.of_eq (h : k.KernelMapped) (hs : k'.spaces.kernel = k.spaces.kernel)
    (hp : k'.spaces.placement = k.spaces.placement) (hl : k'.layout = k.layout) :
    k'.KernelMapped := by
  rw [KernelMapped, hs, hl, SpaceArena.tableLink_congr hp]
  exact h

/-- The video page stays cached for the kernel, and every process off screen leads it elsewhere. -/
theorem Consistent.splits (h : k.Consistent σ) (hf : k.layout.Fits) (hk : k.KernelMapped)
    {x : ProcessId} {r : ProcessRecord} (hr : k.processes.get? x = some r)
    (hne : r.terminal ≠ k.displayed) :
    (∃ e, k.spaces.leaf .kernel ⟨k.layout.video.val⟩ = some e ∧
      e.flags.contains .global = true) ∧
      k.spaces.translate .kernel ⟨k.layout.video.val⟩ = some k.layout.video ∧
        k.spaces.translate (.process x) ⟨k.layout.video.val⟩ =
          some (k.layout.videoBuffer r.terminal) := by
  have hvideo : k.spaces.translate .kernel ⟨k.layout.video.val⟩ = some k.layout.video := by
    rw [hk.translate_iff hf]
    exact ⟨rfl, _, Layout.mem_kernelPages.mpr (Or.inr (Or.inl rfl)), rfl⟩
  refine ⟨?_, hvideo, ?_⟩
  · obtain ⟨e, he⟩ := SpaceArena.exists_leaf hvideo
    exact ⟨e, he, hk.global hf he⟩
  · rw [h.translate_iff hf hr, videoTarget, if_neg hne]
    have hmaps := @Layout.Maps.video k.layout x (k.layout.videoBuffer r.terminal) 0 (by decide)
    rw [UInt32.add_zero, PhysAddr.offset, UInt32.add_zero] at hmaps
    exact ⟨_, hmaps⟩

variable [Machine M]

omit [FileSystem F] in
theorem KernelMapped.leave (h : k'.KernelMapped) : (k.leave k').KernelMapped := by
  have hs := sameCore_leave k k'
  exact h.of_eq (by rw [hs.spaces]) (by rw [hs.spaces]) hs.layout

theorem Effect.kernelMapped [Devices D] {σ' : TerminalId → List ProcessId} {request : Request}
    {transfer : Transfer} (h : k.KernelMapped) (he : k.Effect σ request transfer k' σ') :
    k'.KernelMapped := by
  cases he with
  | refused | launched | returned | relaunched | turned | kept | shown =>
    exact KernelMapped.leave (h.of_eq rfl rfl rfl)
  | served hc hm hk =>
    obtain ⟨files, d, -, rfl⟩ := hk
    exact h.of_eq rfl rfl rfl

theorem Sound.kernelMapped_run [Devices D] (h : k.Sound σ) (hk : k.KernelMapped)
    (ops : List Operation) : (k.run ops).2.KernelMapped := by
  induction ops generalizing k σ with
  | nil => exact hk
  | cons op ops ih =>
    obtain ⟨k', σ', he, ha⟩ := operate_effect h op
    have hk' := (he.kernelMapped hk).of_eq (by rw [ha.spaces]) (by rw [ha.spaces]) ha.layout
    exact ih ((he.sound h).of_sameCore ha.toSameCore) hk'

omit [FileSystem F] [Machine M] in
theorem spaces_identifyKernel (k : Kernel M D F) :
    k.identifyKernel.spaces = k.spaces.identifyAll k.layout.kernelRanges := rfl

omit [FileSystem F] [Machine M] in
theorem Unbooted.identifyKernel (hu : k.Unbooted) : k.identifyKernel.KernelMapped := by
  have hempty : k.spaces.kernel = .empty := by rw [hu.spaces]
  have hl : k.identifyKernel.layout = k.layout := by
    obtain ⟨m, hm⟩ := k.identifyKernel_eq
    rw [hm]
  rw [KernelMapped, spaces_identifyKernel, SpaceArena.kernel_identifyAll,
    SpaceArena.tableLink_congr (SpaceArena.placement_identifyAll ..), hempty, hl, Layout.kernelMap]

omit [FileSystem F] in
theorem KernelMapped.restored (h : k.KernelMapped) (program : TimerProgram) :
    ((((k.restoreSpace .kernel).perform (.setKernelStack
      ⟨Selector.kernelData, (k.restoreSpace .kernel).layout.globalKernelStack⟩)).perform
        (.programTimer program)).perform (.setIrqMask timerIrq false)).KernelMapped := by
  have hl : k.spaces.lookup .kernel = .ok k.spaces.kernel := rfl
  rw [restoreSpace_eq hl]
  exact h.of_eq rfl rfl rfl

omit [FileSystem F] in
theorem Unbooted.kernelMapped (hu : k.Unbooted) (program : TimerProgram) :
    (k.startMachine program).KernelMapped := hu.identifyKernel.restored program

theorem kernelMapped_boot (hu : k.Unbooted) {first : Transfer} (hb : k.boot = (.ok first, k')) :
    k'.KernelMapped := by
  refine (boot_induct (P := KernelMapped) ?_ hu hu.kernelMapped hb).1
  intro k k₁ k₂ σ t pid prog _ _ _ _ ho hk₂ hk
  have ha : k₂.Agrees k₁ := hk₂ ▸ agrees_record ..
  have hk₁ : k₁.KernelMapped := by
    cases ho with
    | first | beside => exact KernelMapped.leave (hk.of_eq rfl rfl rfl)
  exact hk₁.of_eq (by rw [ha.spaces]) (by rw [ha.spaces]) ha.layout

theorem displayed_boot (hu : k.Unbooted) {first : Transfer} (hb : k.boot = (.ok first, k')) :
    k'.displayed = k.displayed := by
  refine (boot_induct (P := fun k₁ => k₁.displayed = k.displayed) ?_ hu ?_ hb).1
  · intro k₀ k₁ k₂ σ t pid prog _ _ _ _ ho hk₂ hd
    have ha : k₂.Agrees k₁ := hk₂ ▸ agrees_record ..
    have hd₁ : k₁.displayed = k₀.displayed := by
      cases ho with
      | first | beside => exact (sameCore_leave ..).displayed
    exact ha.displayed.trans (hd₁.trans hd)
  · intro program
    obtain ⟨m, hm⟩ := k.startMachine_eq program
    rw [hm]

theorem hidden_boot_shellFiles :
    ∃ first k, (Sample.kernel Sample.shellFiles).boot = (.ok first, k) ∧
      (∃ σ, k.Sound σ) ∧ k.KernelMapped ∧ k.layout = {} ∧
        ∃ x r, k.processes.get? x = some r ∧ r.terminal = ⟨1, by decide⟩ ∧
          r.terminal ≠ k.displayed := by
  obtain ⟨first, k, hb⟩ := Sample.boot_shellFiles
  have hu : (Sample.kernel Sample.shellFiles).Unbooted := unbooted_fresh ..
  obtain ⟨σ, h⟩ := sound_boot hu hb
  obtain ⟨x, hx⟩ := List.exists_mem_of_ne_nil _ (h.inhabited ⟨1, by decide⟩)
  obtain ⟨r, hr, ht⟩ := h.stacked.mem_iff.mp hx
  have hd : k.displayed = .first := displayed_boot hu hb
  refine ⟨first, k, hb, ⟨σ, h⟩, kernelMapped_boot hu hb, (boot_fixed hu hb).2, x, r, hr, ht, ?_⟩
  rw [ht, hd]
  decide

variable [Devices D]

/-- Two spaces lead an address of a page that stays cached to different places exactly if the page
is the kernel's video page and the other space that of a process off screen. -/
theorem ne_iff_of_global_run {machine : M} {devices : D} {fs : F} {layout : Layout}
    {timer : TimerConfig} {first : Transfer}
    (hb : (fresh machine devices fs layout timer).boot = (.ok first, k)) (ops : List Operation)
    {other : SpaceId} {phys' : PhysAddr} (he : (k.run ops).2.spaces.leaf space virt = some e)
    (hg : e.flags.contains .global = true)
    (ht : (k.run ops).2.spaces.translate space virt = some phys)
    (ht' : (k.run ops).2.spaces.translate other virt = some phys') :
    phys ≠ phys' ↔ space = .kernel ∧ (k.run ops).2.HiddenVideo other virt.page := by
  have hu := unbooted_fresh machine devices fs layout timer
  obtain ⟨_, h₀⟩ := sound_boot hu hb
  obtain ⟨σ, h⟩ := h₀.run ops
  exact h.ne_iff_of_global h.fits (h₀.kernelMapped_run (kernelMapped_boot hu hb) ops) he hg ht ht'

theorem ne_iff_of_global_run_shellFiles :
    ∃ first k, (Sample.kernel Sample.shellFiles).boot = (.ok first, k) ∧
      ∃ (x : ProcessId) (e : Entry), k.spaces.leaf .kernel ⟨0xB8000⟩ = some e ∧
        e.flags.contains .global = true ∧
          k.spaces.translate .kernel ⟨0xB8000⟩ = some ⟨0xB8000⟩ ∧
            k.spaces.translate (.process x) ⟨0xB8000⟩ = some ⟨0xBA000⟩ ∧
              ((⟨0xB8000⟩ : PhysAddr) ≠ ⟨0xBA000⟩ ↔ SpaceId.kernel = .kernel ∧
                k.HiddenVideo (.process x) (VirtAddr.mk 0xB8000).page) := by
  obtain ⟨first, k, hb, ⟨σ, h⟩, hk, hl, x, r, hr, ht, hne⟩ := hidden_boot_shellFiles
  obtain ⟨⟨e, he, hg⟩, hkernel, hprocess⟩ := h.splits h.fits hk hr hne
  rw [hl] at he hkernel
  rw [hl, ht] at hprocess
  exact ⟨first, k, hb, x, e, he, hg, hkernel, hprocess,
    ne_iff_of_global_run hb [] he hg hkernel hprocess⟩

/-- After the boot the kernel and a process off screen have the video page at different places, and
the entry of the kernel stays cached. -/
theorem split_shellFiles :
    ∃ first k, (Sample.kernel Sample.shellFiles).boot = (.ok first, k) ∧
      ∃ (x : ProcessId) (e : Entry), k.spaces.isOwned .kernel = true ∧
        k.spaces.isOwned (.process x) = true ∧ k.spaces.leaf .kernel ⟨0xB8000⟩ = some e ∧
          e.flags.contains .global = true ∧
            k.spaces.translate .kernel ⟨0xB8000⟩ = some ⟨0xB8000⟩ ∧
              k.spaces.translate (.process x) ⟨0xB8000⟩ = some ⟨0xBA000⟩ := by
  obtain ⟨first, k, hb, ⟨σ, h⟩, hk, hl, x, r, hr, ht, hne⟩ := hidden_boot_shellFiles
  obtain ⟨⟨e, he, hg⟩, hkernel, hprocess⟩ := h.splits h.fits hk hr hne
  rw [hl] at he hkernel
  rw [hl, ht] at hprocess
  refine ⟨first, k, hb, x, e, rfl, ?_, he, hg, hkernel, hprocess⟩
  rw [SpaceArena.isOwned_process]
  exact h.isGiven hr

end Kernel

end TerminalKernel
