import TerminalKernel.Proofs.Mappings

namespace TerminalKernel

namespace Page

def start : Page → PhysAddr
  | .small i => ⟨UInt32.ofNat i * pageSize⟩
  | .large i => ⟨UInt32.ofNat i * largePageSize⟩

theorem start_small (i : Fin entryCount) : (Page.small i).start.val.toNat = i * 4096 := by
  have hi : i.val < 1024 := i.isLt
  rw [start, UInt32.toNat_mul, UInt32.toNat_ofNat']
  change i.val % 4294967296 * 4096 % 4294967296 = _
  omega

theorem start_large (i : Fin entryCount) : (Page.large i).start.val.toNat = i * 4194304 := by
  have hi : i.val < 1024 := i.isLt
  rw [start, UInt32.toNat_mul, UInt32.toNat_ofNat']
  change i.val % 4294967296 * 4194304 % 4294967296 = _
  omega

theorem large_ne_zero {i : Fin entryCount} (h : Page.large i ≠ .large 0) : i.val ≠ 0 :=
  fun he => h (congrArg Page.large (Fin.ext he))

theorem page_start {page : Page} (h : page ≠ .large 0) :
    (VirtAddr.mk page.start.val).page = page := by
  cases page with
  | small i =>
    have hi : i.val < 1024 := i.isLt
    have hs := start_small i
    have hl : (VirtAddr.mk (Page.small i).start.val).isLargeRegion = false := by
      rw [← Bool.not_eq_true, VirtAddr.isLargeRegion_iff]
      change ¬4194304 ≤ (Page.small i).start.val.toNat
      omega
    rw [VirtAddr.page_of_small hl]
    refine congrArg Page.small (Fin.ext ?_)
    change (Page.small i).start.val.toNat / 0x1000 % 1024 = i
    omega
  | large i =>
    have hi := large_ne_zero h
    have hs := start_large i
    have hl : (VirtAddr.mk (Page.large i).start.val).isLargeRegion = true := by
      rw [VirtAddr.isLargeRegion_iff]
      change 4194304 ≤ (Page.large i).start.val.toNat
      omega
    rw [VirtAddr.page_of_large hl]
    refine congrArg Page.large (Fin.ext ?_)
    change (Page.large i).start.val.toNat / 0x400000 = i
    omega

theorem start_page {a : PhysAddr} (h : (VirtAddr.mk a.val).StartsPage) :
    (VirtAddr.mk a.val).page.start = a := by
  unfold VirtAddr.StartsPage at h
  apply physAddr_ext
  cases hl : (VirtAddr.mk a.val).isLargeRegion with
  | true =>
    have hp := VirtAddr.page_of_large hl
    rw [hp] at h
    have hm : a.val.toNat % 4194304 = 0 := h
    rw [hp, start_large]
    change a.val.toNat / 0x400000 * 4194304 = _
    omega
  | false =>
    have hp := VirtAddr.page_of_small hl
    rw [hp] at h
    have hm : a.val.toNat % 4096 = 0 := h
    have hlt : ¬4194304 ≤ a.val.toNat := by
      rwa [← Bool.not_eq_true, VirtAddr.isLargeRegion_iff] at hl
    rw [hp, start_small]
    change a.val.toNat / 0x1000 % 1024 * 4096 = _
    omega

/-- The page has an address from `start` up to `stop`. -/
def Meets (page : Page) (start stop : PhysAddr) : Prop :=
  start.val.toNat < stop.val.toNat ∧ page.start.val.toNat < stop.val.toNat ∧
    start.val.toNat < page.start.val.toNat + page.size.toNat

instance (page : Page) (start stop : PhysAddr) : Decidable (page.Meets start stop) :=
  inferInstanceAs (Decidable (_ ∧ _ ∧ _))

theorem meets_iff_of_small {page : Page} (h : page ≠ .large 0) {start stop : PhysAddr}
    (hs : start.val.toNat % 4096 = 0) (hle : stop.val.toNat ≤ 4194304) :
    page.Meets start stop ↔
      start.val.toNat ≤ page.start.val.toNat ∧ page.start.val.toNat < stop.val.toNat := by
  cases page with
  | small i =>
    have hsize : (Page.small i).size.toNat = 4096 := rfl
    rw [Meets, start_small, hsize]
    omega
  | large i =>
    have hi := large_ne_zero h
    rw [Meets, start_large]
    omega

theorem meets_iff_of_large {page : Page} {start stop : PhysAddr}
    (hs : start.val.toNat % 4194304 = 0) (hle : 4194304 ≤ start.val.toNat) :
    page.Meets start stop ↔
      start.val.toNat ≤ page.start.val.toNat ∧ page.start.val.toNat < stop.val.toNat := by
  cases page with
  | small i =>
    have hi : i.val < 1024 := i.isLt
    have hsize : (Page.small i).size.toNat = 4096 := rfl
    rw [Meets, start_small, hsize]
    omega
  | large i =>
    have hsize : (Page.large i).size.toNat = 4194304 := rfl
    rw [Meets, start_large, hsize]
    omega

theorem start_mod (page : Page) : page.start.val.toNat % 4096 = 0 := by
  cases page with
  | small i =>
    rw [start_small]
    omega
  | large i =>
    rw [start_large]
    omega

theorem start_mod_of_le {page : Page} (h : 4194304 ≤ page.start.val.toNat) :
    page.start.val.toNat % 4194304 = 0 := by
  cases page with
  | small i =>
    have hi : i.val < 1024 := i.isLt
    rw [start_small] at h
    omega
  | large i =>
    rw [start_large]
    omega

end Page

def Mapping.self (a : PhysAddr) : Mapping := ⟨⟨a.val⟩, a, .writable ||| .global⟩

theorem Mapping.page_self_start {page : Page} (h : page ≠ .large 0) :
    (Mapping.self page.start).page = page := Page.page_start h

namespace PageMap

variable {m : PageMap} {link : Entry} {page : Page}

theorem entryAt_link (h : page ≠ .large 0) : (m.link link).entryAt page = m.entryAt page := by
  rw [PageMap.link]
  split
  · rfl
  · cases page with
    | small i => rfl
    | large i =>
      exact Vector.getElem_set_ne (Nat.succ_pos _) i.isLt (Ne.symm (Page.large_ne_zero h))

theorem entryAt_identify (h : page ≠ .large 0) (start stop : PhysAddr) :
    (m.identify link start stop).entryAt page =
      if page.Meets start stop then (Mapping.self page.start).entry else m.entryAt page := by
  unfold identify
  by_cases hle : stop.val.toNat ≤ start.val.toNat
  · have hno : ¬page.Meets start stop := fun hm => absurd hm.1 (Nat.not_lt.mpr hle)
    rw [if_neg hno]
    simp only [if_pos hle]
  · have hlink : (if start.val.toNat < largePageSize.toNat then m.link link else m).entryAt page =
        m.entryAt page := by
      split
      · exact entryAt_link h
      · rfl
    rw [Mapping.entry, Mapping.page_self_start h, ← hlink]
    simp only [if_neg hle]
    cases page with
    | small i =>
      have hmeets : (Page.small i).Meets start stop ↔
          meets pageSize.toNat start.val.toNat stop.val.toNat i = true := by
        have hsize : (Page.small i).size.toNat = 4096 := rfl
        have hps : pageSize.toNat = 4096 := rfl
        simp only [Page.Meets, Page.start_small, hsize, hps, meets, Bool.and_eq_true,
          decide_eq_true_eq]
        omega
      simp only [hmeets, entryAt, Fin.getElem_fin, Vector.getElem_mapFinIdx, Page.entry,
        Mapping.self, PageFlags.writable_global_and]
      rfl
    | large i =>
      have hi := Page.large_ne_zero h
      have hmeets : (Page.large i).Meets start stop ↔
          (decide (0 < i.val) &&
            meets largePageSize.toNat start.val.toNat stop.val.toNat i) = true := by
        have hsize : (Page.large i).size.toNat = 4194304 := rfl
        have hps : largePageSize.toNat = 4194304 := rfl
        simp only [Page.Meets, Page.start_large, hsize, hps, meets, Bool.and_eq_true,
          decide_eq_true_eq]
        omega
      simp only [hmeets, entryAt, Fin.getElem_fin, Vector.getElem_mapFinIdx, Page.entry,
        Mapping.self, PageFlags.writable_global_and]
      rfl

theorem directory_zero_identify (start stop : PhysAddr) :
    (m.identify link start stop).directory[0] =
      if start.val.toNat < stop.val.toNat ∧ start.val.toNat < largePageSize.toNat then
        (m.link link).directory[0]
      else m.directory[0] := by
  by_cases hle : stop.val.toNat ≤ start.val.toNat
  · simp [identify, hle, Nat.not_lt.mpr hle]
  · by_cases hlow : start.val.toNat < largePageSize.toNat
    · simp [identify, hle, hlow, Nat.lt_of_not_le hle]
    · simp [identify, hle, hlow]

/-- The map in which ranges lead to themselves, one after the other. -/
def identifyAll (link : Entry) (m : PageMap) (ranges : List (PhysAddr × PhysAddr)) : PageMap :=
  ranges.foldl (fun m r => m.identify link r.1 r.2) m

theorem entryAt_identifyAll (h : page ≠ .large 0) (ranges : List (PhysAddr × PhysAddr)) :
    (m.identifyAll link ranges).entryAt page =
      if ∃ r ∈ ranges, page.Meets r.1 r.2 then (Mapping.self page.start).entry
      else m.entryAt page := by
  induction ranges generalizing m with
  | nil => simp [identifyAll]
  | cons r rs ih =>
    refine (ih (m := m.identify link r.1 r.2)).trans ?_
    rw [entryAt_identify h]
    by_cases hr : page.Meets r.1 r.2
    · simp [hr]
    · simp only [List.exists_mem_cons_iff, hr, false_or, if_false]

theorem directory_zero_identifyAll (hp : link.isPresent = true) (h : m.directory[0] = link)
    (ranges : List (PhysAddr × PhysAddr)) : (m.identifyAll link ranges).directory[0] = link := by
  induction ranges generalizing m with
  | nil => exact h
  | cons r rs ih =>
    refine ih (m := m.identify link r.1 r.2) ?_
    rw [directory_zero_identify]
    split
    · rw [PageMap.link, if_pos (by rw [h, hp])]
      exact h
    · exact h

end PageMap

namespace Layout

def kernelRanges (l : Layout) : List (PhysAddr × PhysAddr) :=
  [(l.video, l.video.offset pageSize), (l.videoBuffer 0, l.videoBuffer terminalCount),
    (l.kernelRegion, l.kernelRegion.offset largePageSize)]

def kernelMap (l : Layout) (link : Entry) : PageMap :=
  PageMap.empty.identifyAll link l.kernelRanges

/-- Where the pages of the kernel's address space start. A kernel region that ends with the last
address is not mapped, because its end wraps. -/
def kernelPages (l : Layout) : List PhysAddr :=
  (if l.kernelRegion.val < (l.kernelRegion.offset largePageSize).val then [l.kernelRegion]
    else []) ++ l.video :: TerminalId.all.map fun (b : TerminalId) => l.videoBuffer b

variable {l : Layout} {link : Entry} {page : Page} {a : PhysAddr}

theorem mem_kernelPages : a ∈ l.kernelPages ↔
    (l.kernelRegion.val < (l.kernelRegion.offset largePageSize).val ∧ a = l.kernelRegion) ∨
      a = l.video ∨ ∃ t : TerminalId, a = l.videoBuffer t := by
  have hall : ∀ t : TerminalId, t ∈ TerminalId.all := by decide
  simp only [kernelPages, List.mem_append, List.mem_ite_nil_right, List.mem_cons,
    List.not_mem_nil, or_false, List.mem_map, hall, true_and, eq_comm]

theorem Valid.aligned_self (h : l.Valid) (ha : a ∈ l.kernelPages) : (Mapping.self a).Aligned := by
  have hsmall {x : Mapping} (hx : x.IsSmall) (hself : x.virt = ⟨x.phys.val⟩) :
      (Mapping.self x.phys).Aligned := by
    have hlt := hx.virt_lt
    have hm := hx.virt_mod
    rw [hself] at hlt hm
    exact Mapping.IsSmall.aligned ⟨hlt, hm, hx.phys_mod, PageFlags.writable_global_and⟩
  obtain ⟨-, rfl⟩ | rfl | ⟨t, rfl⟩ := mem_kernelPages.mp ha
  · exact h.isLarge_kernel.aligned
  · exact hsmall (h.isSmall_video h.video_mod) rfl
  · exact hsmall (h.isSmall_buffer t) rfl

section

variable (h : l.Valid) (h0 : page ≠ .large 0)
include h

theorem Valid.video_offset_toNat :
    (l.video.offset pageSize).val.toNat = l.video.val.toNat + 4096 := by
  have hlt := h.video_lt
  rw [PhysAddr.offset, UInt32.toNat_add]
  change (_ + 4096) % 4294967296 = _
  omega

theorem Valid.buffers_end_toNat :
    (l.videoBuffer terminalCount).val.toNat = l.videoBuffers.val.toNat + 12288 := by
  have hle := h.buffers_le
  rw [videoBuffer, PhysAddr.offset, UInt32.toNat_add]
  change (_ + 12288) % 4294967296 = _
  omega

theorem Valid.kernelRegion_offset_toNat :
    (l.kernelRegion.offset largePageSize).val.toNat =
      if l.kernelRegion.val < (l.kernelRegion.offset largePageSize).val then
        l.kernelRegion.val.toNat + 4194304
      else 0 := by
  have hlt := l.kernelRegion.val.toNat_lt
  have hm := h.kernel_mod
  have hs : (l.kernelRegion.offset largePageSize).val.toNat =
      (l.kernelRegion.val.toNat + 4194304) % 4294967296 := by
    rw [PhysAddr.offset, UInt32.toNat_add]
    rfl
  split
  case isTrue hw =>
    rw [UInt32.lt_iff_toNat_lt] at hw
    omega
  case isFalse hw =>
    rw [UInt32.lt_iff_toNat_lt] at hw
    omega

include h0

theorem Valid.meets_video :
    page.Meets l.video (l.video.offset pageSize) ↔ page.start = l.video := by
  have hm := page.start_mod
  have hv := h.video_mod
  have hlt := h.video_lt
  have hs := h.video_offset_toNat
  rw [Page.meets_iff_of_small h0 hv (by omega)]
  constructor
  · intro hmeets
    exact physAddr_ext (by omega)
  · intro he
    rw [he]
    omega

theorem Valid.meets_buffers :
    page.Meets (l.videoBuffer 0) (l.videoBuffer terminalCount) ↔
      ∃ t : TerminalId, page.start = l.videoBuffer t := by
  have hm := page.start_mod
  have hb := h.buffers_mod
  have hle := h.buffers_le
  have hs := h.buffers_end_toNat
  have h₀ : (l.videoBuffer 0).val.toNat = l.videoBuffers.val.toNat :=
    h.videoBuffer_toNat ⟨0, by decide⟩
  rw [Page.meets_iff_of_small h0 (by omega) (by omega)]
  constructor
  · intro hmeets
    let t : TerminalId := ⟨(page.start.val.toNat - l.videoBuffers.val.toNat) / 4096, by
      change _ < 3
      omega⟩
    refine ⟨t, physAddr_ext ?_⟩
    rw [h.videoBuffer_toNat]
    change _ = _ + 4096 * ((page.start.val.toNat - l.videoBuffers.val.toNat) / 4096)
    omega
  · rintro ⟨t, he⟩
    have ht : t.val < 3 := t.isLt
    rw [he, h.videoBuffer_toNat]
    omega

omit h0 in
theorem Valid.meets_kernelRegion :
    page.Meets l.kernelRegion (l.kernelRegion.offset largePageSize) ↔
      l.kernelRegion.val < (l.kernelRegion.offset largePageSize).val ∧
        page.start = l.kernelRegion := by
  have hk := h.kernel_mod
  have hp := h.kernel_pos
  have hs := h.kernelRegion_offset_toNat
  rw [Page.meets_iff_of_large hk hp, hs]
  split
  case isTrue hw =>
    constructor
    · intro hmeets
      have hm := Page.start_mod_of_le (hp.trans hmeets.1)
      exact ⟨hw, physAddr_ext (by omega)⟩
    · rintro ⟨-, he⟩
      rw [he]
      omega
  case isFalse hw => simp [hw]

theorem Valid.meets_kernelRanges :
    (∃ r ∈ l.kernelRanges, page.Meets r.1 r.2) ↔ page.start ∈ l.kernelPages := by
  rw [mem_kernelPages, ← h.meets_video h0, ← h.meets_buffers h0, ← h.meets_kernelRegion]
  simp only [kernelRanges, List.exists_mem_cons_iff, List.not_mem_nil, false_and, exists_false,
    or_false]
  exact or_rotate.symm

end

/-- A process maps every page of the kernel's address space, and its program besides. -/
theorem kernelPages_sublist :
    (l.kernelPages.map fun a => (Mapping.self a).page).Sublist
      (((l.mappings 0 l.video).map Mapping.page).tail) := by
  have hregion : ((if l.kernelRegion.val < (l.kernelRegion.offset largePageSize).val then
      [l.kernelRegion] else []).map fun a => (Mapping.self a).page).Sublist
        [(VirtAddr.mk l.kernelRegion.val).page] := by
    split
    · exact List.Sublist.refl _
    · exact List.nil_sublist _
  have htail : ((l.mappings 0 l.video).map Mapping.page).tail =
      [(VirtAddr.mk l.kernelRegion.val).page] ++
        (l.video :: TerminalId.all.map fun (b : TerminalId) => l.videoBuffer b).map fun a =>
          (Mapping.self a).page := by
    simp only [mappings, List.map_cons, List.map_map, List.tail_cons, List.singleton_append]
    rfl
  rw [htail, kernelPages, List.map_append]
  exact hregion.append (List.Sublist.refl _)

theorem Fits.nodup_kernelPages (h : l.Fits) :
    ((l.kernelPages.map Mapping.self).map Mapping.page).Nodup := by
  rw [List.map_map]
  exact h.apart.sublist (kernelPages_sublist.trans (List.tail_sublist _))

theorem Valid.directory_zero_kernelMap (h : l.Valid) (hp : link.isPresent = true) :
    (l.kernelMap link).directory[0] = link := by
  have hv : l.video.val.toNat < (l.video.offset pageSize).val.toNat := by
    rw [h.video_offset_toNat]
    exact Nat.lt_add_of_pos_right (Nat.succ_pos _)
  have hfirst : (PageMap.empty.identify link l.video (l.video.offset pageSize)).directory[0] =
      link := by
    rw [PageMap.directory_zero_identify, if_pos ⟨hv, h.video_lt⟩]
    simp [PageMap.link, PageMap.empty, PageTable.empty]
  rw [kernelMap, kernelRanges, PageMap.identifyAll, List.foldl_cons]
  exact PageMap.directory_zero_identifyAll hp hfirst _

/-- The kernel's address space has one mapping for each of its pages. -/
theorem Fits.kernelMap_eq (h : l.Fits) (hp : link.isPresent = true) :
    l.kernelMap link = PageMap.empty.fill link (l.kernelPages.map Mapping.self) := by
  apply PageMap.ext_entryAt
  · rw [h.directory_zero_kernelMap hp]
    refine (PageMap.link_fill hp (Or.inr ⟨?_, Mapping.self l.video, ?_, _, h.videoPage_eq⟩)).symm
    · simp [PageMap.empty, PageTable.empty]
    · exact List.mem_map_of_mem (mem_kernelPages.mpr (Or.inr (Or.inl rfl)))
  · intro page h0
    rw [kernelMap, PageMap.entryAt_identifyAll h0]
    split
    case isTrue hr =>
      have hx := List.mem_map_of_mem (f := Mapping.self) ((h.meets_kernelRanges h0).mp hr)
      have hpage := Mapping.page_self_start h0
      rw [← PageMap.entryAt_fill_of_mem h.nodup_kernelPages hx, hpage]
    case isFalse hr =>
      refine (PageMap.entryAt_fill_of_not_mem h0 ?_).symm
      intro x hx hpage
      obtain ⟨a, ha, rfl⟩ := List.mem_map.mp hx
      refine hr ((h.meets_kernelRanges h0).mpr ?_)
      have hself : (VirtAddr.mk a.val).page = page := hpage
      rwa [← hself, Page.start_page (h.aligned_self ha).virt]

variable (h : l.Fits) (hp : link.isPresent = true) (hl : link.isLarge = false) {virt : VirtAddr}
include h

theorem Fits.aligned_kernelPages : ∀ x ∈ l.kernelPages.map Mapping.self, x.Aligned := by
  intro x hx
  obtain ⟨a, ha, rfl⟩ := List.mem_map.mp hx
  exact h.aligned_self ha

include hp hl

theorem Fits.translate_kernelMap {phys : PhysAddr} :
    (l.kernelMap link).translate virt = some phys ↔
      phys = ⟨virt.val⟩ ∧ ∃ a ∈ l.kernelPages, virt.page = (Mapping.self a).page := by
  rw [h.kernelMap_eq hp,
    PageMap.translate_fill hp hl h.nodup_kernelPages h.aligned_kernelPages]
  constructor
  · rintro ⟨x, hx, flags, hs⟩
    obtain ⟨a, ha, rfl⟩ := List.mem_map.mp hx
    have hpage := (h.aligned_self ha).page_eq_iff.mpr ⟨phys, flags, hs⟩
    obtain ⟨d, -, rfl, rfl, -⟩ := hs
    exact ⟨rfl, a, ha, hpage⟩
  · rintro ⟨rfl, a, ha, hpage⟩
    obtain ⟨phys, flags, hs⟩ := (h.aligned_self ha).page_eq_iff.mp hpage
    refine ⟨_, List.mem_map_of_mem ha, flags, ?_⟩
    obtain ⟨d, hd, rfl, rfl, hf⟩ := hs
    exact ⟨d, hd, rfl, rfl, hf⟩

end Layout

theorem Mapping.global_self (a : PhysAddr) :
    (Mapping.self a).entry.flags.contains .global = true := by
  rw [Mapping.entry]
  cases (Mapping.self a).page with
  | small i =>
    rw [Page.entry, Entry.flags_small _ (PageFlags.isCaller_and _), Mapping.self,
      PageFlags.writable_global_and]
    decide
  | large i =>
    rw [Page.entry, Entry.flags_large _ (PageFlags.isCaller_and _), Mapping.self,
      PageFlags.writable_global_and]
    decide

theorem Layout.Fits.global_kernelMap {l : Layout} (h : l.Fits) {link : Entry}
    (hp : link.isPresent = true) (hl : link.isLarge = false) {virt : VirtAddr} {e : Entry}
    (he : (l.kernelMap link).leaf virt = some e) : e.flags.contains .global = true := by
  have hflags : ((l.kernelMap link).leaf virt).map Entry.flags = some e.flags := by
    rw [he]
    rfl
  rw [h.kernelMap_eq hp,
    PageMap.flags_leaf_fill hp hl h.nodup_kernelPages h.aligned_kernelPages] at hflags
  obtain ⟨x, hx, phys, d, -, -, -, hf⟩ := hflags
  obtain ⟨a, -, rfl⟩ := List.mem_map.mp hx
  rw [hf]
  exact Mapping.global_self a

end TerminalKernel
