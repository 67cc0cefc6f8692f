import TerminalKernel.Proofs.KernelMap

namespace TerminalKernel

/-- What a page is mapped to: a page of physical memory, with the attributes of the caller. -/
structure Frame where
  base : PhysAddr
  flags : PageFlags
  deriving DecidableEq

abbrev FlatMap := Page → Option Frame

deriving instance Fintype for Page

def FlatMap.count (f : FlatMap) : Nat := (Finset.univ.filter fun page => (f page).isSome).card

theorem countP_eq_card {α : Type} {n : Nat} (p : α → Bool) (v : Vector α n) :
    v.countP p = (Finset.univ.filter fun i : Fin n => p v[i] = true).card := by
  have hl : v.toList = (List.finRange n).map fun i => v[i] := by
    apply List.ext_getElem <;> simp
  rw [← Vector.countP_toList, hl, List.countP_map, List.countP_eq_length_filter,
    ← List.toFinset_card_of_nodup ((List.nodup_finRange n).filter _)]
  congr 1
  ext i
  simp

namespace Page

open Finset in
theorem card_filter (p : Page → Prop) [DecidablePred p] :
    (univ.filter p).card =
      (univ.filter fun i => p (.small i)).card + (univ.filter fun i => p (.large i)).card := by
  have h : univ.filter p = (univ.filter fun i => p (.small i)).image small ∪
      (univ.filter fun i => p (.large i)).image large := by
    ext page
    cases page <;> simp
  have hd : Disjoint ((univ.filter fun i => p (.small i)).image small)
      ((univ.filter fun i => p (.large i)).image large) := by
    rw [disjoint_left]
    intro page hs hl
    cases page <;> simp at hs hl
  rw [h, card_union_of_disjoint hd, card_image_of_injective _ fun _ _ => small.inj,
    card_image_of_injective _ fun _ _ => large.inj]

def alignDown : Page → PhysAddr → PhysAddr
  | small _, a => a.alignDown
  | large _, a => a.alignDownLarge

def frame (page : Page) (phys : PhysAddr) (flags : PageFlags) : Frame :=
  ⟨page.alignDown phys, flags &&& PageFlags.callerMask⟩

end Page

namespace PageFlags

theorem and_or_and {f g : PageFlags} (hg : g &&& callerMask = ⟨0⟩) :
    (f ||| g) &&& callerMask = f &&& callerMask := by
  have h0 : g.bits.toNat &&& callerMask.bits.toNat = 0 := by
    rw [← UInt32.toNat_and]
    exact congrArg (fun x => x.bits.toNat) hg
  change PageFlags.mk ((f.bits ||| g.bits) &&& callerMask.bits) = ⟨f.bits &&& callerMask.bits⟩
  refine congrArg PageFlags.mk (UInt32.toNat_inj.mp ?_)
  rw [UInt32.toNat_and, UInt32.toNat_or, Nat.and_or_distrib_right, h0, Nat.or_zero,
    UInt32.toNat_and]

theorem IsCaller.and_and {f : PageFlags} (h : f.IsCaller) : f &&& callerMask = f := h

end PageFlags

theorem PhysAddr.alignDown_alignDown (a : PhysAddr) : a.alignDown.alignDown = a.alignDown := by
  apply physAddr_ext
  rw [alignDown_toNat, Entry.alignDown_mod, Nat.sub_zero]

theorem PhysAddr.alignDownLarge_alignDownLarge (a : PhysAddr) :
    a.alignDownLarge.alignDownLarge = a.alignDownLarge := by
  apply physAddr_ext
  rw [alignDownLarge_toNat, Entry.alignDownLarge_mod, Nat.sub_zero]

namespace Page

variable (page : Page) (phys : PhysAddr) (flags : PageFlags)

theorem base_entry : (page.entry phys flags).base = page.alignDown phys := by
  cases page with
  | small i => exact Entry.base_small phys (PageFlags.isCaller_and flags)
  | large i => exact Entry.base_large phys (PageFlags.isCaller_and flags)

theorem flags_entry :
    (page.entry phys flags).flags &&& PageFlags.callerMask = flags &&& PageFlags.callerMask := by
  have hf := PageFlags.isCaller_and flags
  have hp : PageFlags.present &&& PageFlags.callerMask = ⟨0⟩ := by decide
  have hl : PageFlags.large &&& PageFlags.callerMask = ⟨0⟩ := by decide
  cases page with
  | small i => rw [entry, Entry.flags_small phys hf, PageFlags.and_or_and hp, hf.and_and]
  | large i =>
    rw [entry, Entry.flags_large phys hf, PageFlags.and_or_and hl, PageFlags.and_or_and hp,
      hf.and_and]

theorem entry_frame :
    page.entry (page.frame phys flags).base (page.frame phys flags).flags =
      page.entry phys flags := by
  have hf := (PageFlags.isCaller_and flags).and_and
  cases page with
  | small i =>
    simp only [frame, alignDown, entry, hf, Entry.small, PhysAddr.alignDown_alignDown]
  | large i =>
    simp only [frame, alignDown, entry, hf, Entry.large, PhysAddr.alignDownLarge_alignDownLarge]

end Page

namespace PageMap

def flat (m : PageMap) : FlatMap := fun page =>
  if page ≠ .large 0 ∧ (m.entryAt page).isPresent then
    some ⟨(m.entryAt page).base, (m.entryAt page).flags &&& PageFlags.callerMask⟩
  else none

/-- A regular map in which every mapping was made for a caller. -/
structure IsFlat (m : PageMap) : Prop extends m.IsRegular where
  built : ∀ page, page ≠ .large 0 → (m.entryAt page).isPresent = true →
    ∃ phys flags, m.entryAt page = page.entry phys flags

variable {m : PageMap} {page : Page} {link : Entry}

theorem flat_of_entryAt (h0 : page ≠ .large 0) {phys : PhysAddr} {flags : PageFlags}
    (h : m.entryAt page = page.entry phys flags) : m.flat page = some (page.frame phys flags) := by
  have hp := isPresent_entry page phys flags
  rw [flat, h, if_pos ⟨h0, hp⟩, page.base_entry, page.flags_entry]
  rfl

theorem flat_eq_none (h0 : page ≠ .large 0) :
    m.flat page = none ↔ (m.entryAt page).isPresent = false := by
  simp [flat, h0]

theorem isSome_flat (h0 : page ≠ .large 0) :
    (m.flat page).isSome = (m.entryAt page).isPresent := by
  cases hp : (m.entryAt page).isPresent <;> simp [flat, h0, hp]

@[simp] theorem flat_empty : empty.flat = fun _ => none := by
  funext page
  have hp : (empty.entryAt page).isPresent = false := isPresent_empty page
  rw [flat, hp, if_neg (by simp)]

theorem flat_put (h0 : page ≠ .large 0) (phys : PhysAddr) (flags : PageFlags) :
    (m.put link (page.entry phys flags) page).flat =
      Function.update m.flat page (some (page.frame phys flags)) := by
  funext other
  by_cases ho : other = page
  · subst other
    have he : (m.put link (page.entry phys flags) page).entryAt page = page.entry phys flags :=
      (m.entryAt_put link _ h0).trans (if_pos rfl)
    rw [Function.update_self, flat_of_entryAt h0 he]
  · rw [Function.update_of_ne ho]
    by_cases hz : other = .large 0
    · simp [flat, hz]
    · rw [flat, flat, m.entryAt_put link _ hz, if_neg ho]

theorem entry_self_start (h0 : page ≠ .large 0) :
    (Mapping.self page.start).entry = page.entry page.start (.writable ||| .global) := by
  rw [Mapping.entry, Mapping.page_self_start h0]
  rfl

theorem not_meets_small {start stop : PhysAddr} {i : Fin entryCount}
    (h : ¬(start.val.toNat < stop.val.toNat ∧ start.val.toNat < largePageSize.toNat)) :
    ¬(Page.small i).Meets start stop := by
  rintro ⟨hlt, -, hend⟩
  refine h ⟨hlt, ?_⟩
  have hi : i.val < 1024 := i.isLt
  have hsize : (Page.small i).size.toNat = 4096 := rfl
  rw [Page.start_small, hsize] at hend
  change start.val.toNat < 4194304
  omega

theorem IsRegular.identify (h : m.IsRegular) (hp : link.isPresent = true)
    (hl : link.isLarge = false) (start stop : PhysAddr) :
    (m.identify link start stop).IsRegular := by
  have hlink := h.directory_zero_link hp hl
  refine ⟨?_, ?_, ?_⟩
  · rw [directory_zero_identify]
    split
    · exact hlink.2
    · exact h.link
  · intro hn i
    have h0 : Page.small i ≠ .large 0 := by simp
    have he : (m.identify link start stop).entryAt (.small i) = _ := entryAt_identify h0 start stop
    rw [directory_zero_identify] at hn
    split at hn
    case isTrue =>
      rw [hlink.1] at hn
      cases hn
    case isFalse hlow =>
      rw [if_neg (not_meets_small hlow)] at he
      exact (congrArg Entry.isPresent he).trans (h.low hn i)
  · intro i hi hpres
    have h0 : Page.large i ≠ .large 0 := fun he => hi (congrArg Fin.val (Page.large.inj he))
    have he : (m.identify link start stop).directory[i] = _ :=
      entryAt_identify h0 start stop
    rw [he] at hpres ⊢
    split
    case isTrue =>
      rw [entry_self_start h0]
      exact Entry.isLarge_large _ (PageFlags.isCaller_and _)
    case isFalse hno =>
      rw [if_neg hno] at hpres
      exact h.large i hi hpres

theorem isFlat_empty : empty.IsFlat := by
  refine ⟨isRegular_empty, ?_⟩
  intro page _ hp
  rw [isPresent_empty] at hp
  cases hp

namespace IsFlat

theorem put (h : m.IsFlat) (hp : link.isPresent = true) (hl : link.isLarge = false)
    (h0 : page ≠ .large 0) (phys : PhysAddr) (flags : PageFlags) :
    (m.put link (page.entry phys flags) page).IsFlat := by
  refine ⟨h.toIsRegular.put hp hl h0 phys flags, ?_⟩
  intro other ho hpres
  rw [m.entryAt_put link _ ho] at hpres ⊢
  split
  case isTrue he =>
    subst other
    exact ⟨phys, flags, rfl⟩
  case isFalse hne =>
    rw [if_neg hne] at hpres
    exact h.built other ho hpres

theorem identify (h : m.IsFlat) (hp : link.isPresent = true) (hl : link.isLarge = false)
    (start stop : PhysAddr) : (m.identify link start stop).IsFlat := by
  refine ⟨h.toIsRegular.identify hp hl start stop, ?_⟩
  intro page h0 hpres
  rw [entryAt_identify h0] at hpres ⊢
  split
  case isTrue => exact ⟨_, _, entry_self_start h0⟩
  case isFalse hno =>
    rw [if_neg hno] at hpres
    exact h.built page h0 hpres

theorem leaf (h : m.IsFlat) (virt : VirtAddr) :
    m.leaf virt = (m.flat virt.page).map fun f => virt.page.entry f.base f.flags := by
  have h0 := virt.page_ne
  rw [h.toIsRegular.leaf]
  split
  case isTrue hp =>
    obtain ⟨phys, flags, he⟩ := h.built _ h0 hp
    rw [flat_of_entryAt h0 he, he, Option.map_some, Page.entry_frame]
  case isFalse hp =>
    rw [(flat_eq_none h0).mpr (by simpa using hp)]
    rfl

theorem translate (h : m.IsFlat) (virt : VirtAddr) :
    m.translate virt =
      (m.flat virt.page).map fun f => f.base.offset (virt.offsetIn virt.page) := by
  have h0 := virt.page_ne
  rw [h.toIsRegular.translate]
  split
  case isTrue hp =>
    obtain ⟨phys, flags, he⟩ := h.built _ h0 hp
    rw [flat_of_entryAt h0 he, he, Page.base_entry]
    rfl
  case isFalse hp =>
    rw [(flat_eq_none h0).mpr (by simpa using hp)]
    rfl

theorem isSome_flat_large (h : m.IsFlat) (i : Fin entryCount) :
    (m.flat (.large i)).isSome =
      ((m.entryAt (.large i)).isPresent && (m.entryAt (.large i)).isLarge) := by
  by_cases hi : i.val = 0
  · obtain rfl : i = 0 := Fin.ext hi
    have hlink : (m.entryAt (.large 0)).isLarge = false := h.link
    rw [hlink, Bool.and_false]
    simp [flat]
  · have h0 : Page.large i ≠ .large 0 := fun he => hi (congrArg Fin.val (Page.large.inj he))
    have hl : (m.entryAt (.large i)).isPresent = true → (m.entryAt (.large i)).isLarge = true :=
      h.large i hi
    rw [isSome_flat h0]
    cases hp : (m.entryAt (.large i)).isPresent with
    | false => rfl
    | true => exact (hl hp).symm

theorem presentCount_table (m : PageMap) :
    m.table.presentCount =
      (Finset.univ.filter fun i => (m.flat (.small i)).isSome = true).card := by
  rw [PageTable.presentCount, countP_eq_card]
  refine congrArg Finset.card (Finset.filter_congr ?_)
  intro i _
  rw [isSome_flat (by simp)]
  rfl

/-- The table has no entries unless it is linked. -/
theorem presentCount_linked (h : m.IsFlat) :
    (if m.directory[0].isPresent && !m.directory[0].isLarge then m.table.presentCount else 0) =
      m.table.presentCount := by
  rw [h.link]
  cases hp : m.directory[0].isPresent with
  | true => rfl
  | false =>
    have hnone : ∀ i ∈ (Finset.univ : Finset (Fin entryCount)), ¬m.table[i].isPresent = true := by
      intro i _
      rw [h.low hp i]
      exact Bool.false_ne_true
    rw [PageTable.presentCount, countP_eq_card, Finset.filter_false_of_mem hnone]
    rfl

theorem mappingCount (h : m.IsFlat) : m.mappingCount = m.flat.count := by
  have hdirectory : m.directory.countP (fun e => e.isPresent && e.isLarge) =
      (Finset.univ.filter fun i => (m.flat (.large i)).isSome = true).card := by
    rw [countP_eq_card]
    refine congrArg Finset.card (Finset.filter_congr ?_)
    intro i _
    rw [h.isSome_flat_large]
    rfl
  rw [PageMap.mappingCount, FlatMap.count, Page.card_filter, h.presentCount_linked,
    presentCount_table, hdirectory, Nat.add_comm]

end IsFlat

end PageMap

end TerminalKernel
