import TerminalKernel.Proofs.Bootable

namespace TerminalKernel

def Page.size : Page → UInt32
  | .small _ => pageSize
  | .large _ => largePageSize

namespace VirtAddr

variable {v w : VirtAddr} {d : UInt32}

theorem toNat_offset_large (h : v.val.toNat % 4194304 = 0) (hd : d < largePageSize) :
    (v.offset d).val.toNat = v.val.toNat + d.toNat := by
  have hv := v.val.toNat_lt
  have hd' : d.toNat < 4194304 := UInt32.lt_iff_toNat_lt.mp hd
  rw [offset, UInt32.toNat_add]
  omega

theorem toNat_offset_small (h : v.val.toNat < 4194304) (hd : d < pageSize) :
    (v.offset d).val.toNat = v.val.toNat + d.toNat := by
  have hd' : d.toNat < 4096 := UInt32.lt_iff_toNat_lt.mp hd
  rw [offset, UInt32.toNat_add]
  omega

theorem ext_toNat (h : v.val.toNat = w.val.toNat) : v = w := by
  cases v
  cases w
  exact congrArg VirtAddr.mk (UInt32.toNat_inj.mp h)

theorem page_eq_iff_large (hl : 4194304 ≤ v.val.toNat) (hv : v.val.toNat % 4194304 = 0) :
    w.page = v.page ↔ ∃ d, d < largePageSize ∧ w = v.offset d := by
  rw [page_of_large (v.isLargeRegion_iff.mpr hl)]
  constructor
  · intro h
    cases hw : w.isLargeRegion with
    | false =>
      rw [page_of_small hw] at h
      cases h
    | true =>
      rw [page_of_large hw, Page.large.injEq] at h
      have hi : w.val.toNat / 0x400000 = v.val.toNat / 0x400000 := congrArg Fin.val h
      have hm : w.largePageOffset.toNat = w.val.toNat % 4194304 := UInt32.toNat_mod ..
      have hlt : w.largePageOffset < largePageSize := by
        rw [UInt32.lt_iff_toNat_lt, hm]
        exact Nat.mod_lt _ (by decide)
      refine ⟨w.largePageOffset, hlt, ext_toNat ?_⟩
      rw [toNat_offset_large hv hlt, hm]
      omega
  · rintro ⟨d, hd, rfl⟩
    have hs := toNat_offset_large hv hd
    have hd' : d.toNat < 4194304 := UInt32.lt_iff_toNat_lt.mp hd
    rw [page_of_large ((v.offset d).isLargeRegion_iff.mpr (by omega)), Page.large.injEq]
    apply Fin.ext
    change (v.offset d).val.toNat / 0x400000 = v.val.toNat / 0x400000
    omega

theorem page_eq_iff_small (hl : v.val.toNat < 4194304) (hv : v.val.toNat % 4096 = 0) :
    w.page = v.page ↔ ∃ d, d < pageSize ∧ w = v.offset d := by
  have hsmall {u : VirtAddr} (hu : u.val.toNat < 4194304) : u.page = .small u.tableIndex := by
    refine page_of_small ?_
    rw [← Bool.not_eq_true, isLargeRegion_iff]
    omega
  rw [hsmall hl]
  constructor
  · intro h
    cases hw : w.isLargeRegion with
    | true =>
      rw [page_of_large hw] at h
      cases h
    | false =>
      have hwl : w.val.toNat < 4194304 := by
        rw [← Bool.not_eq_true, isLargeRegion_iff] at hw
        omega
      rw [page_of_small hw, Page.small.injEq] at h
      have hi : w.val.toNat / 0x1000 % 1024 = v.val.toNat / 0x1000 % 1024 := congrArg Fin.val h
      have hm : w.pageOffset.toNat = w.val.toNat % 4096 := UInt32.toNat_mod ..
      have hlt : w.pageOffset < pageSize := by
        rw [UInt32.lt_iff_toNat_lt, hm]
        exact Nat.mod_lt _ (by decide)
      refine ⟨w.pageOffset, hlt, ext_toNat ?_⟩
      rw [toNat_offset_small hl hlt, hm]
      omega
  · rintro ⟨d, hd, rfl⟩
    have hs := toNat_offset_small hl hd
    have hd' : d.toNat < 4096 := UInt32.lt_iff_toNat_lt.mp hd
    rw [hsmall (by omega), Page.small.injEq]
    apply Fin.ext
    change (v.offset d).val.toNat / 0x1000 % 1024 = v.val.toNat / 0x1000 % 1024
    omega

def StartsPage (v : VirtAddr) : Prop := v.val.toNat % v.page.size.toNat = 0

theorem page_eq_iff (hv : v.StartsPage) :
    w.page = v.page ↔ ∃ d, d < v.page.size ∧ w = v.offset d := by
  unfold StartsPage at hv
  cases hl : v.isLargeRegion with
  | true =>
    have hp := page_of_large hl
    rw [hp] at hv
    rw [page_eq_iff_large (v.isLargeRegion_iff.mp hl) hv, hp]
    rfl
  | false =>
    have hp := page_of_small hl
    rw [hp] at hv
    rw [← Bool.not_eq_true, isLargeRegion_iff, Nat.not_le] at hl
    rw [page_eq_iff_small hl hv, hp]
    rfl

theorem offsetIn_offset (hv : v.StartsPage) (hd : d < v.page.size) :
    (v.offset d).offsetIn v.page = d := by
  unfold StartsPage at hv
  rw [← UInt32.toNat_inj]
  cases hl : v.isLargeRegion with
  | true =>
    have hp := page_of_large hl
    rw [hp] at hv hd ⊢
    have hv' : v.val.toNat % 4194304 = 0 := hv
    have hd' : d.toNat < 4194304 := UInt32.lt_iff_toNat_lt.mp hd
    have hm : (v.offset d).largePageOffset.toNat = (v.offset d).val.toNat % 4194304 :=
      UInt32.toNat_mod ..
    rw [offsetIn, hm, toNat_offset_large hv' hd]
    omega
  | false =>
    have hp := page_of_small hl
    rw [hp] at hv hd ⊢
    rw [← Bool.not_eq_true, isLargeRegion_iff, Nat.not_le] at hl
    have hv' : v.val.toNat % 4096 = 0 := hv
    have hd' : d.toNat < 4096 := UInt32.lt_iff_toNat_lt.mp hd
    have hm : (v.offset d).pageOffset.toNat = (v.offset d).val.toNat % 4096 := UInt32.toNat_mod ..
    rw [offsetIn, hm, toNat_offset_small hl hd]
    omega

end VirtAddr

structure Mapping.Aligned (x : Mapping) : Prop where
  virt : x.virt.StartsPage
  phys : x.entry.base = x.phys

/-- An address of the page that a mapping adds, where it leads, and the attributes on the way. -/
def Mapping.Sends (x : Mapping) (virt : VirtAddr) (phys : PhysAddr) (flags : PageFlags) : Prop :=
  ∃ d, d < x.page.size ∧ virt = x.virt.offset d ∧ phys = x.phys.offset d ∧ flags = x.entry.flags

theorem Mapping.Aligned.page_eq_iff {x : Mapping} (h : x.Aligned) {virt : VirtAddr} :
    virt.page = x.page ↔ ∃ phys flags, x.Sends virt phys flags := by
  refine (VirtAddr.page_eq_iff h.virt).trans ?_
  constructor
  · rintro ⟨d, hd, rfl⟩
    exact ⟨_, _, d, hd, rfl, rfl, rfl⟩
  · rintro ⟨_, _, d, hd, rfl, -, -⟩
    exact ⟨d, hd, rfl⟩

theorem Mapping.Sends.phys_eq {x : Mapping} (h : x.Aligned) {virt : VirtAddr} {phys : PhysAddr}
    {flags : PageFlags} (hs : x.Sends virt phys flags) :
    phys = x.entry.base.offset (virt.offsetIn virt.page) := by
  have hp := h.page_eq_iff.mpr ⟨phys, flags, hs⟩
  obtain ⟨d, hd, rfl, rfl, -⟩ := hs
  rw [hp, Mapping.page, VirtAddr.offsetIn_offset h.virt hd, h.phys]

namespace PageFlags

theorem user_writable_and : (user ||| writable) &&& callerMask = user ||| writable := by decide

theorem writable_global_and : (writable ||| global) &&& callerMask = writable ||| global := by
  decide

theorem writable_and : writable &&& callerMask = writable := by decide

end PageFlags

structure Mapping.IsLarge (x : Mapping) : Prop where
  virt_pos : 4194304 ≤ x.virt.val.toNat
  virt_mod : x.virt.val.toNat % 4194304 = 0
  phys_mod : x.phys.val.toNat % 4194304 = 0
  caller : x.flags &&& .callerMask = x.flags

structure Mapping.IsSmall (x : Mapping) : Prop where
  virt_lt : x.virt.val.toNat < 4194304
  virt_mod : x.virt.val.toNat % 4096 = 0
  phys_mod : x.phys.val.toNat % 4096 = 0
  caller : x.flags &&& .callerMask = x.flags

section

variable {x : Mapping}

theorem Mapping.IsLarge.page_eq (h : x.IsLarge) : x.page = .large x.virt.dirIndex :=
  VirtAddr.page_of_large (x.virt.isLargeRegion_iff.mpr h.virt_pos)

theorem Mapping.IsLarge.aligned (h : x.IsLarge) : x.Aligned := by
  refine ⟨?_, ?_⟩
  · rw [VirtAddr.StartsPage, show x.virt.page = _ from h.page_eq]
    exact h.virt_mod
  · rw [Mapping.entry, h.page_eq]
    refine (Entry.base_large _ (PageFlags.isCaller_and _)).trans (physAddr_ext ?_)
    rw [alignDownLarge_toNat, h.phys_mod, Nat.sub_zero]

theorem Mapping.IsLarge.flags_eq (h : x.IsLarge) :
    x.entry.flags = x.flags ||| .present ||| .large := by
  rw [Mapping.entry, h.page_eq]
  refine (Entry.flags_large _ (PageFlags.isCaller_and _)).trans ?_
  rw [h.caller]

theorem Mapping.IsSmall.page_eq (h : x.IsSmall) : x.page = .small x.virt.tableIndex := by
  refine VirtAddr.page_of_small ?_
  rw [← Bool.not_eq_true, VirtAddr.isLargeRegion_iff]
  exact Nat.not_le.mpr h.virt_lt

theorem Mapping.IsSmall.aligned (h : x.IsSmall) : x.Aligned := by
  refine ⟨?_, ?_⟩
  · rw [VirtAddr.StartsPage, show x.virt.page = _ from h.page_eq]
    exact h.virt_mod
  · rw [Mapping.entry, h.page_eq]
    refine (Entry.base_small _ (PageFlags.isCaller_and _)).trans (physAddr_ext ?_)
    rw [alignDown_toNat, h.phys_mod, Nat.sub_zero]

theorem Mapping.IsSmall.flags_eq (h : x.IsSmall) :
    x.entry.flags = x.flags ||| .present := by
  rw [Mapping.entry, h.page_eq]
  refine (Entry.flags_small _ (PageFlags.isCaller_and _)).trans ?_
  rw [h.caller]

theorem Mapping.IsLarge.sends_iff (h : x.IsLarge) {virt : VirtAddr} {phys : PhysAddr}
    {flags : PageFlags} :
    x.Sends virt phys flags ↔ ∃ d, d < largePageSize ∧ virt = x.virt.offset d ∧
      phys = x.phys.offset d ∧ flags = x.flags ||| .present ||| .large := by
  rw [Mapping.Sends, h.page_eq, h.flags_eq]
  rfl

theorem Mapping.IsSmall.sends_iff (h : x.IsSmall) {virt : VirtAddr} {phys : PhysAddr}
    {flags : PageFlags} :
    x.Sends virt phys flags ↔ ∃ d, d < pageSize ∧ virt = x.virt.offset d ∧
      phys = x.phys.offset d ∧ flags = x.flags ||| .present := by
  rw [Mapping.Sends, h.page_eq, h.flags_eq]
  rfl

end

namespace PageMap

variable {link : Entry} {ms : List Mapping} {virt : VirtAddr}

theorem isPresent_empty (page : Page) : (empty.entryAt page).isPresent = false := by
  cases page with
  | small i => simp [entryAt, empty, PageTable.empty]
  | large i => simp [entryAt, empty, PageTable.empty]

theorem isPresent_fill (hn : (ms.map Mapping.page).Nodup) {page : Page} (h0 : page ≠ .large 0) :
    ((empty.fill link ms).entryAt page).isPresent = true ↔ ∃ x ∈ ms, page = x.page := by
  constructor
  · intro h
    by_contra hno
    have hout : ∀ x ∈ ms, x.page ≠ page := by
      intro x hx he
      exact hno ⟨x, hx, he.symm⟩
    rw [entryAt_fill_of_not_mem h0 hout, isPresent_empty] at h
    cases h
  · rintro ⟨x, hx, rfl⟩
    rw [entryAt_fill_of_mem hn hx]
    exact isPresent_entry ..

variable (hp : link.isPresent = true) (hl : link.isLarge = false)
  (hn : (ms.map Mapping.page).Nodup) (ha : ∀ x ∈ ms, x.Aligned)
include hp hl hn ha

theorem flags_leaf_fill {flags : PageFlags} :
    ((empty.fill link ms).leaf virt).map Entry.flags = some flags ↔
      ∃ x ∈ ms, ∃ phys, x.Sends virt phys flags := by
  rw [(isRegular_empty.fill hp hl).leaf]
  constructor
  · intro h
    split at h
    case isFalse => cases h
    case isTrue hpres =>
      obtain ⟨x, hx, hpage⟩ := (isPresent_fill hn virt.page_ne).mp hpres
      obtain ⟨phys, flags', d, hd, hv, hphys, hf⟩ := (ha x hx).page_eq_iff.mp hpage
      rw [hpage, entryAt_fill_of_mem hn hx, Option.map_some, Option.some.injEq] at h
      exact ⟨x, hx, phys, d, hd, hv, hphys, h.symm⟩
  · rintro ⟨x, hx, phys, hs⟩
    have hpage := (ha x hx).page_eq_iff.mpr ⟨phys, flags, hs⟩
    obtain ⟨_, _, _, _, hf⟩ := hs
    rw [if_pos ((isPresent_fill hn virt.page_ne).mpr ⟨x, hx, hpage⟩), hpage,
      entryAt_fill_of_mem hn hx, hf]
    rfl

theorem translate_fill {phys : PhysAddr} :
    (empty.fill link ms).translate virt = some phys ↔
      ∃ x ∈ ms, ∃ flags, x.Sends virt phys flags := by
  rw [(isRegular_empty.fill hp hl).translate]
  constructor
  · intro h
    split at h
    case isFalse => cases h
    case isTrue hpres =>
      obtain ⟨x, hx, hpage⟩ := (isPresent_fill hn virt.page_ne).mp hpres
      obtain ⟨phys', flags, hs⟩ := (ha x hx).page_eq_iff.mp hpage
      have hphys := hs.phys_eq (ha x hx)
      rw [hpage, entryAt_fill_of_mem hn hx, Option.some.injEq, ← hpage, ← hphys] at h
      exact ⟨x, hx, flags, h ▸ hs⟩
  · rintro ⟨x, hx, flags, hs⟩
    have hpage := (ha x hx).page_eq_iff.mpr ⟨phys, flags, hs⟩
    have hphys := hs.phys_eq (ha x hx)
    rw [if_pos ((isPresent_fill hn virt.page_ne).mpr ⟨x, hx, hpage⟩), hphys, hpage,
      entryAt_fill_of_mem hn hx]

end PageMap

namespace Layout

/-- Where an address leads in the space of a process, with all attributes of the page: the process
in a slot has its program, the kernel, a video page and the hidden buffers. -/
inductive Maps (l : Layout) (slot : Nat) (video : PhysAddr) : VirtAddr → PhysAddr → PageFlags → Prop
  | program (d : UInt32) (hd : d < largePageSize) :
      Maps l slot video (l.programWindow.offset d) ((l.programPhys slot).offset d)
        (.user ||| .writable ||| .present ||| .large)
  | kernel (d : UInt32) (hd : d < largePageSize) :
      Maps l slot video ⟨l.kernelRegion.val + d⟩ (l.kernelRegion.offset d)
        (.writable ||| .global ||| .present ||| .large)
  | video (d : UInt32) (hd : d < pageSize) :
      Maps l slot video ⟨l.video.val + d⟩ (video.offset d) (.user ||| .writable ||| .present)
  | buffer (t : TerminalId) (d : UInt32) (hd : d < pageSize) :
      Maps l slot video ⟨(l.videoBuffer t).val + d⟩ ((l.videoBuffer t).offset d)
        (.writable ||| .present)

variable {l : Layout} {slot : Nat} {video : PhysAddr}

theorem Valid.isLarge_program (h : l.Valid) (hs : slot < processCapacity) :
    Mapping.IsLarge ⟨l.programWindow, l.programPhys slot, .user ||| .writable⟩ := by
  refine ⟨h.window_pos, h.window_mod, ?_, PageFlags.user_writable_and⟩
  have hm := h.phys_mod
  rw [h.programPhys_toNat hs]
  omega

theorem Valid.isLarge_kernel (h : l.Valid) :
    Mapping.IsLarge ⟨⟨l.kernelRegion.val⟩, l.kernelRegion, .writable ||| .global⟩ :=
  ⟨h.kernel_pos, h.kernel_mod, h.kernel_mod, PageFlags.writable_global_and⟩

theorem Valid.isSmall_video (h : l.Valid) (hv : video.val.toNat % 4096 = 0) :
    Mapping.IsSmall ⟨⟨l.video.val⟩, video, videoFlags⟩ :=
  ⟨h.video_lt, h.video_mod, hv, PageFlags.user_writable_and⟩

theorem Valid.videoBuffer_mod (h : l.Valid) (t : TerminalId) :
    (l.videoBuffer t).val.toNat % 4096 = 0 := by
  have hm := h.buffers_mod
  rw [h.videoBuffer_toNat]
  omega

theorem Valid.isSmall_buffer (h : l.Valid) (t : TerminalId) :
    Mapping.IsSmall ⟨⟨(l.videoBuffer t).val⟩, l.videoBuffer t, .writable⟩ := by
  refine ⟨?_, h.videoBuffer_mod t, h.videoBuffer_mod t, PageFlags.writable_and⟩
  have hle := h.buffers_le
  have ht : t.val < 3 := t.isLt
  change (l.videoBuffer t).val.toNat < _
  rw [h.videoBuffer_toNat]
  omega

theorem mem_mappings {x : Mapping} :
    x ∈ l.mappings slot video ↔
      x = ⟨l.programWindow, l.programPhys slot, .user ||| .writable⟩ ∨
      x = ⟨⟨l.kernelRegion.val⟩, l.kernelRegion, .writable ||| .global⟩ ∨
      x = ⟨⟨l.video.val⟩, video, videoFlags⟩ ∨
      ∃ t : TerminalId, x = ⟨⟨(l.videoBuffer t).val⟩, l.videoBuffer t, .writable⟩ := by
  simp only [mappings, List.mem_cons, List.mem_map]
  have hall : ∀ t : TerminalId, t ∈ TerminalId.all := by decide
  constructor
  · rintro (h | h | h | ⟨t, -, h⟩)
    · exact Or.inl h
    · exact Or.inr (Or.inl h)
    · exact Or.inr (Or.inr (Or.inl h))
    · exact Or.inr (Or.inr (Or.inr ⟨t, h.symm⟩))
  · rintro (h | h | h | ⟨t, h⟩)
    · exact Or.inl h
    · exact Or.inr (Or.inl h)
    · exact Or.inr (Or.inr (Or.inl h))
    · exact Or.inr (Or.inr (Or.inr ⟨t, hall t, h.symm⟩))

theorem Valid.aligned_mappings (h : l.Valid) (hs : slot < processCapacity)
    (hv : video.val.toNat % 4096 = 0) : ∀ x ∈ l.mappings slot video, x.Aligned := by
  intro x hx
  obtain rfl | rfl | rfl | ⟨t, rfl⟩ := mem_mappings.mp hx
  · exact (h.isLarge_program hs).aligned
  · exact h.isLarge_kernel.aligned
  · exact (h.isSmall_video hv).aligned
  · exact (h.isSmall_buffer t).aligned

theorem Valid.sends_iff (h : l.Valid) (hs : slot < processCapacity)
    (hv : video.val.toNat % 4096 = 0) {virt : VirtAddr} {phys : PhysAddr} {flags : PageFlags} :
    (∃ x ∈ l.mappings slot video, x.Sends virt phys flags) ↔ l.Maps slot video virt phys flags := by
  constructor
  · rintro ⟨x, hx, hsends⟩
    obtain rfl | rfl | rfl | ⟨t, rfl⟩ := mem_mappings.mp hx
    · obtain ⟨d, hd, rfl, rfl, rfl⟩ := (h.isLarge_program hs).sends_iff.mp hsends
      exact .program d hd
    · obtain ⟨d, hd, rfl, rfl, rfl⟩ := h.isLarge_kernel.sends_iff.mp hsends
      exact .kernel d hd
    · obtain ⟨d, hd, rfl, rfl, rfl⟩ := (h.isSmall_video hv).sends_iff.mp hsends
      exact .video d hd
    · obtain ⟨d, hd, rfl, rfl, rfl⟩ := (h.isSmall_buffer t).sends_iff.mp hsends
      exact .buffer t d hd
  · intro hm
    cases hm with
    | program d hd =>
      exact ⟨_, mem_mappings.mpr (Or.inl rfl),
        (h.isLarge_program hs).sends_iff.mpr ⟨d, hd, rfl, rfl, rfl⟩⟩
    | kernel d hd =>
      exact ⟨_, mem_mappings.mpr (Or.inr (Or.inl rfl)),
        h.isLarge_kernel.sends_iff.mpr ⟨d, hd, rfl, rfl, rfl⟩⟩
    | video d hd =>
      exact ⟨_, mem_mappings.mpr (Or.inr (Or.inr (Or.inl rfl))),
        (h.isSmall_video hv).sends_iff.mpr ⟨d, hd, rfl, rfl, rfl⟩⟩
    | buffer t d hd =>
      exact ⟨_, mem_mappings.mpr (Or.inr (Or.inr (Or.inr ⟨t, rfl⟩))),
        (h.isSmall_buffer t).sends_iff.mpr ⟨d, hd, rfl, rfl, rfl⟩⟩

end Layout

namespace Kernel

variable {M D F : Type} [FileSystem F] {k : Kernel M D F} {σ : TerminalId → List ProcessId}
  {pid : ProcessId} {p : ProcessRecord}

omit [FileSystem F] in
theorem videoTarget_mod (h : k.layout.Valid) (t : TerminalId) :
    (k.videoTarget t).val.toNat % 4096 = 0 := by
  unfold videoTarget
  split
  · exact h.video_mod
  · exact h.videoBuffer_mod t

/-- The space of a process leads where it should, and nowhere else. -/
theorem Consistent.translate_iff (h : k.Consistent σ) (hf : k.layout.Fits)
    (hp : k.processes.get? pid = some p) (virt : VirtAddr) (phys : PhysAddr) :
    k.spaces.translate (.process pid) virt = some phys ↔
      ∃ flags, k.layout.Maps pid (k.videoTarget p.terminal) virt phys flags := by
  have hv := videoTarget_mod hf.toValid p.terminal
  have hlink := k.spaces.isPresent_tableLink (.process pid)
  have hlarge := k.spaces.isLarge_tableLink (.process pid)
  have ha := hf.toValid.aligned_mappings pid.isLt hv
  simp only [SpaceArena.translate, h.lookup hp, h.slotMap hp, Layout.processMap,
    PageMap.translate_fill hlink hlarge (hf.nodup _ _) ha, ← hf.toValid.sends_iff pid.isLt hv]
  constructor
  · rintro ⟨x, hx, flags, hs⟩
    exact ⟨flags, x, hx, hs⟩
  · rintro ⟨flags, x, hx, hs⟩
    exact ⟨x, hx, flags, hs⟩

theorem Consistent.flags_leaf_iff (h : k.Consistent σ) (hf : k.layout.Fits)
    (hp : k.processes.get? pid = some p) (virt : VirtAddr) (flags : PageFlags) :
    (k.spaces.leaf (.process pid) virt).map Entry.flags = some flags ↔
      ∃ phys, k.layout.Maps pid (k.videoTarget p.terminal) virt phys flags := by
  have hv := videoTarget_mod hf.toValid p.terminal
  have hlink := k.spaces.isPresent_tableLink (.process pid)
  have hlarge := k.spaces.isLarge_tableLink (.process pid)
  have ha := hf.toValid.aligned_mappings pid.isLt hv
  simp only [SpaceArena.leaf, h.lookup hp, h.slotMap hp, Layout.processMap,
    PageMap.flags_leaf_fill hlink hlarge (hf.nodup _ _) ha, ← hf.toValid.sends_iff pid.isLt hv]
  constructor
  · rintro ⟨x, hx, phys, hs⟩
    exact ⟨phys, x, hx, hs⟩
  · rintro ⟨phys, x, hx, hs⟩
    exact ⟨x, hx, phys, hs⟩

/-- In the space of a slot every address leads where it leads for a process whose video page leads
to `video`. -/
structure Shows (k : Kernel M D F) (l : Layout) (x : ProcessId) (video : PhysAddr) : Prop where
  translate : ∀ virt phys, k.spaces.translate (.process x) virt = some phys ↔
    ∃ flags, l.Maps x video virt phys flags
  flags : ∀ virt flags, (k.spaces.leaf (.process x) virt).map Entry.flags = some flags ↔
    ∃ phys, l.Maps x video virt phys flags

theorem Consistent.shows (h : k.Consistent σ) (hf : k.layout.Fits)
    (hp : k.processes.get? pid = some p) : k.Shows k.layout pid (k.videoTarget p.terminal) :=
  ⟨h.translate_iff hf hp, h.flags_leaf_iff hf hp⟩

variable [Machine M] [Devices D]

/-- After every operation the space of a process maps what it should, with the video page of the
terminal on screen or of a hidden buffer, and the spaces of free slots are empty and have no
owner. -/
theorem shows_run {machine : M} {devices : D} {fs : F} {layout : Layout} {timer : TimerConfig}
    {first : Transfer} (hb : (fresh machine devices fs layout timer).boot = (.ok first, k))
    (ops : List Operation) :
    (∀ x p, (k.run ops).2.processes.get? x = some p → p.space = some (.process x) ∧
      (k.run ops).2.Shows layout x
        (if p.terminal = (k.run ops).2.displayed then layout.video
          else layout.videoBuffer p.terminal)) ∧
      ∀ x : ProcessId, (k.run ops).2.processes.get? x = none →
        (k.run ops).2.spaces.isOwned (.process x) = false ∧
          (k.run ops).2.spaces.slotMap x = .empty := by
  have hu := unbooted_fresh machine devices fs layout timer
  obtain ⟨_, h₀⟩ := sound_boot hu hb
  obtain ⟨σ, h⟩ := h₀.run ops
  have hl : (k.run ops).2.layout = layout := (h₀.run_fixed ops).2.trans (boot_fixed hu hb).2
  refine ⟨?_, ?_⟩
  · intro x p hp
    have hshows := h.shows h.fits hp
    rw [videoTarget, hl] at hshows
    exact ⟨(h.launched x p hp).space, hshows⟩
  · intro x hx
    rw [SpaceArena.isOwned_process]
    exact ⟨h.isGiven_free hx, h.slotMap_free hx⟩

theorem shows_run_shellFiles :
    ∃ first k, (Sample.kernel Sample.shellFiles).boot = (.ok first, k) ∧
      ∀ ops, (∀ x p, (k.run ops).2.processes.get? x = some p → p.space = some (.process x) ∧
        (k.run ops).2.Shows {} x
          (if p.terminal = (k.run ops).2.displayed then Layout.video {}
            else Layout.videoBuffer {} p.terminal)) ∧
        ∀ x : ProcessId, (k.run ops).2.processes.get? x = none →
          (k.run ops).2.spaces.isOwned (.process x) = false ∧
            (k.run ops).2.spaces.slotMap x = .empty := by
  obtain ⟨first, k, hb⟩ := Sample.boot_shellFiles
  exact ⟨first, k, hb, shows_run hb⟩

end Kernel

end TerminalKernel
