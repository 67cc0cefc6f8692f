import TerminalKernel.Kernel.Launch
import TerminalKernel.Proofs.Layouts

namespace TerminalKernel

def Mapping.page (x : Mapping) : Page := x.virt.page

theorem Mapping.page_ne (x : Mapping) : x.page ≠ .large 0 := x.virt.page_ne

def Mapping.entry (x : Mapping) : Entry := x.page.entry x.phys x.flags

namespace PageMap

def fill (link : Entry) (m : PageMap) (ms : List Mapping) : PageMap :=
  ms.foldl (fun m x => m.put link x.entry x.page) m

variable {m : PageMap} {link : Entry} {ms : List Mapping} {page : Page}

theorem fill_cons (x : Mapping) :
    m.fill link (x :: ms) = (m.put link x.entry x.page).fill link ms := rfl

theorem entryAt_fill_of_not_mem (h0 : page ≠ .large 0) (h : ∀ x ∈ ms, x.page ≠ page) :
    (m.fill link ms).entryAt page = m.entryAt page := by
  induction ms generalizing m with
  | nil => rfl
  | cons x ms ih =>
    rw [fill_cons, ih (fun y hy => h y (List.mem_cons_of_mem x hy)), entryAt_put _ _ _ h0,
      if_neg (Ne.symm (h x (List.mem_cons_self ..)))]

theorem entryAt_fill_of_mem (hn : (ms.map Mapping.page).Nodup) {x : Mapping} (hx : x ∈ ms) :
    (m.fill link ms).entryAt x.page = x.entry := by
  induction ms generalizing m with
  | nil => simp at hx
  | cons y ms ih =>
    rw [List.map_cons, List.nodup_cons] at hn
    rw [fill_cons]
    cases List.mem_cons.mp hx with
    | inl he =>
      subst he
      have hout : ∀ z ∈ ms, z.page ≠ x.page := by
        intro z hz he
        exact hn.1 (he ▸ List.mem_map_of_mem hz)
      rw [entryAt_fill_of_not_mem x.page_ne hout, entryAt_put _ _ _ x.page_ne, if_pos rfl]
    | inr hm => exact ih hn.2 hm

theorem IsRegular.fill (h : m.IsRegular) (hp : link.isPresent = true)
    (hl : link.isLarge = false) : (m.fill link ms).IsRegular := by
  induction ms generalizing m with
  | nil => exact h
  | cons x ms ih => exact ih (h.put hp hl x.page_ne x.phys x.flags)

/-- The link of a filled map is there as soon as it is there before, or a small page is added. -/
theorem link_fill (hp : link.isPresent = true)
    (h : m.directory[0] = link ∨ m.directory[0] = .empty ∧ ∃ x ∈ ms, ∃ i, x.page = .small i) :
    (m.fill link ms).directory[0] = link := by
  induction ms generalizing m with
  | nil =>
    obtain h | ⟨_, x, hx, _⟩ := h
    · exact h
    · simp at hx
  | cons x ms ih =>
    rw [fill_cons]
    refine ih ?_
    cases hx : x.page with
    | small i =>
      left
      obtain h | h := h
      · simp [put, PageMap.link, h, hp]
      · simp [put, PageMap.link, h.1]
    | large i =>
      have hi : i.val ≠ 0 := by
        intro he
        exact x.page_ne (hx.trans (congrArg Page.large (Fin.ext he)))
      have hd : (m.put link x.entry (.large i)).directory[0] = m.directory[0] := by
        simp [put, hi]
      rw [hd]
      obtain h | ⟨he, y, hy, j, hj⟩ := h
      · exact Or.inl h
      · refine Or.inr ⟨he, y, ?_, j, hj⟩
        cases List.mem_cons.mp hy with
        | inl hyx =>
          rw [hyx, hx] at hj
          cases hj
        | inr hy => exact hy

end PageMap

namespace SpaceArena

variable {a : SpaceArena} {space : SpaceId} {m : PageMap} {ms : List Mapping}

theorem map_eq (h : a.lookup space = .ok m) (x : Mapping) :
    a.map space x.virt x.phys x.flags =
      if (m.entryAt x.page).isPresent then .error .mappingConflict
      else .ok (a.store space (m.put (a.tableLink space) x.entry x.page)) := by
  have hm : a.map space x.virt x.phys x.flags =
      (m.map (a.tableLink space) x.virt x.phys x.flags).map (a.store space) := by
    rw [SpaceArena.map, h]
    rfl
  rw [hm, m.map_eq]
  unfold Mapping.page
  split <;> rfl

theorem lookup_store (h : a.lookup space = .ok m) (n : PageMap) :
    (a.store space n).lookup space = .ok n := by
  cases space with
  | kernel => rfl
  | process slot =>
    simp only [lookup] at h ⊢
    split at h
    · rename_i hs
      split at h
      · rename_i ho
        simp [store, hs, ho]
      · cases h
    · cases h

theorem store_self (h : a.lookup space = .ok m) : a.store space m = a := by
  cases space with
  | kernel =>
    cases h
    rfl
  | process slot =>
    simp only [lookup] at h
    split at h
    · rename_i hs
      split at h
      · cases h
        have hv : a.process.setIfInBounds slot a.process[slot] = a.process := by
          apply Vector.ext
          intro i hi
          rw [Vector.getElem_setIfInBounds]
          split
          · rename_i he
            simp only [he]
          · rfl
        rw [store, hv]
      · cases h
    · cases h

theorem store_store (n o : PageMap) : (a.store space n).store space o = a.store space o := by
  cases space with
  | kernel => rfl
  | process slot =>
    simp only [store]
    congr 1
    apply Vector.ext
    intro i hi
    simp only [Vector.getElem_setIfInBounds]
    split <;> rfl

theorem tableLink_store (n : PageMap) : (a.store space n).tableLink space = a.tableLink space := by
  cases space <;> rfl

theorem mapAll_eq (h : a.lookup space = .ok m) (hn : (ms.map Mapping.page).Nodup)
    (hf : ∀ x ∈ ms, (m.entryAt x.page).isPresent = false) :
    mapAll space ms a = (.ok (), a.store space (m.fill (a.tableLink space) ms)) := by
  induction ms generalizing a m with
  | nil =>
    rw [PageMap.fill, List.foldl_nil, store_self h]
    rfl
  | cons x ms ih =>
    rw [List.map_cons, List.nodup_cons] at hn
    have hx := hf x (List.mem_cons_self ..)
    have hrest : ∀ y ∈ ms,
        ((m.put (a.tableLink space) x.entry x.page).entryAt y.page).isPresent = false := by
      intro y hy
      have hne : y.page ≠ x.page := fun he => hn.1 (he ▸ List.mem_map_of_mem hy)
      rw [PageMap.entryAt_put _ _ _ y.page_ne, if_neg hne]
      exact hf y (List.mem_cons_of_mem x hy)
    rw [mapAll, map_eq h, hx, if_neg (by simp)]
    change mapAll space ms (a.store space (m.put (a.tableLink space) x.entry x.page)) = _
    rw [ih (lookup_store h _) hn.2 hrest, tableLink_store, store_store, PageMap.fill_cons]

theorem nodup_of_mapAll (h : a.lookup space = .ok m) (ho : (mapAll space ms a).1 = .ok ()) :
    (ms.map Mapping.page).Nodup ∧ ∀ x ∈ ms, (m.entryAt x.page).isPresent = false := by
  induction ms generalizing a m with
  | nil => simp
  | cons x ms ih =>
    rw [mapAll, map_eq h] at ho
    split at ho
    case h_2 => cases ho
    case h_1 b hb =>
      split at hb
      case isTrue => cases hb
      case isFalse hp =>
        cases hb
        have ⟨hn, hf⟩ := ih (lookup_store h _) ho
        have hne : ∀ y ∈ ms, y.page ≠ x.page := by
          intro y hy he
          have := hf y hy
          rw [PageMap.entryAt_put _ _ _ y.page_ne, if_pos he] at this
          rw [Mapping.entry, PageMap.isPresent_entry] at this
          cases this
        refine ⟨?_, ?_⟩
        · rw [List.map_cons, List.nodup_cons, List.mem_map]
          refine ⟨?_, hn⟩
          rintro ⟨y, hy, he⟩
          exact hne y hy he
        · intro y hy
          cases List.mem_cons.mp hy with
          | inl he =>
            rw [he]
            simpa using hp
          | inr hy =>
            have := hf y hy
            rwa [PageMap.entryAt_put _ _ _ y.page_ne, if_neg (hne y hy)] at this

end SpaceArena

namespace Layout

def mappings (l : Layout) (slot : Nat) (video : PhysAddr) : List Mapping :=
  ⟨l.programWindow, l.programPhys slot, .user ||| .writable⟩ ::
    ⟨⟨l.kernelRegion.val⟩, l.kernelRegion, .writable ||| .global⟩ ::
    ⟨⟨l.video.val⟩, video, videoFlags⟩ ::
    TerminalId.all.map fun (b : TerminalId) => ⟨⟨(l.videoBuffer b).val⟩, l.videoBuffer b, .writable⟩

def processMap (l : Layout) (link : Entry) (slot : Nat) (video : PhysAddr) : PageMap :=
  PageMap.empty.fill link (l.mappings slot video)

/-- The layout is valid, and the pages of a process are apart from each other. -/
structure Fits (l : Layout) : Prop extends l.Valid where
  apart : ((l.mappings 0 l.video).map Mapping.page).Nodup

variable {l : Layout}

theorem Fits.nodup (h : l.Fits) (slot : Nat) (video : PhysAddr) :
    ((l.mappings slot video).map Mapping.page).Nodup := h.apart

def videoPage (l : Layout) : Page := (VirtAddr.mk l.video.val).page

theorem Valid.videoPage_eq (h : l.Valid) :
    l.videoPage = .small (VirtAddr.mk l.video.val).tableIndex := by
  apply VirtAddr.page_of_small
  have hv := h.video_lt
  have hn := (VirtAddr.mk l.video.val).isLargeRegion_iff
  cases hl : (VirtAddr.mk l.video.val).isLargeRegion with
  | false => rfl
  | true => exact absurd (hn.mp hl) (Nat.not_le.mpr hv)

variable {link : Entry} (hp : link.isPresent = true) (hl : link.isLarge = false) (slot : Nat)
  (video : PhysAddr)

include hp hl in
theorem isRegular_processMap : (l.processMap link slot video).IsRegular :=
  PageMap.isRegular_empty.fill hp hl

include hp in
theorem Valid.link_processMap (h : l.Valid) :
    (l.processMap link slot video).directory[0] = link := by
  refine PageMap.link_fill hp (Or.inr ⟨?_, ⟨⟨l.video.val⟩, video, videoFlags⟩, ?_, ?_⟩)
  · simp [PageMap.empty, PageTable.empty]
  · simp [mappings]
  · exact ⟨_, h.videoPage_eq⟩

theorem mem_mappings_of_ne {video' : PhysAddr} {x : Mapping} (hx : x ∈ l.mappings slot video)
    (hv : x.page ≠ l.videoPage) : x ∈ l.mappings slot video' := by
  simp only [mappings, List.mem_cons] at hx ⊢
  obtain hx | hx | hx | hx := hx
  · exact Or.inl hx
  · exact Or.inr (Or.inl hx)
  · exact absurd (by rw [hx]; rfl) hv
  · exact Or.inr (Or.inr (Or.inr hx))

include hp in
/-- Moving the video page of a process gives the space that it would have been built with. -/
theorem Fits.put_video (h : l.Fits) (video' : PhysAddr) :
    (l.processMap link slot video).put link (l.videoPage.entry video' videoFlags) l.videoPage =
      l.processMap link slot video' := by
  have hlink := fun v => h.toValid.link_processMap hp slot v
  apply PageMap.ext_entryAt
  · rw [hlink, h.toValid.videoPage_eq]
    simp [PageMap.put, PageMap.link, hlink, hp]
  · intro page h0
    rw [PageMap.entryAt_put _ _ _ h0]
    split
    · rename_i he
      let x : Mapping := ⟨⟨l.video.val⟩, video', videoFlags⟩
      have hx : x ∈ l.mappings slot video' := by simp [mappings, x]
      rw [he]
      exact (PageMap.entryAt_fill_of_mem (h.nodup slot video') hx).symm
    · rename_i hne
      by_cases hm : ∃ x ∈ l.mappings slot video, x.page = page
      · obtain ⟨x, hx, rfl⟩ := hm
        rw [processMap, processMap, PageMap.entryAt_fill_of_mem (h.nodup slot video) hx,
          PageMap.entryAt_fill_of_mem (h.nodup slot video') (mem_mappings_of_ne slot video hx hne)]
      · have hout : ∀ v, ∀ x ∈ l.mappings slot v, x.page ≠ page := by
          intro v x hx he
          exact hm ⟨x, mem_mappings_of_ne slot v hx (by rwa [he]), he⟩
        rw [processMap, processMap, PageMap.entryAt_fill_of_not_mem h0 (hout video),
          PageMap.entryAt_fill_of_not_mem h0 (hout video')]

end Layout

end TerminalKernel
