import TerminalKernel.Proofs.FlatSpaces

namespace TerminalKernel

open Finset in
theorem countP_eq_add {α : Type} {n : Nat} {p q : α → Bool} {v : Vector α n} (i : Fin n)
    (h : ∀ j, j ≠ i → p (v.get j) = q (v.get j)) (hq : q (v.get i) = false) :
    v.countP p = v.countP q + if p (v.get i) then 1 else 0 := by
  have hget (j : Fin n) : v.get j = v[j] := v.get_eq_getElem j
  simp only [hget] at h hq ⊢
  have hnot : i ∉ univ.filter fun j => q v[j] = true := by
    rw [mem_filter, hq]
    exact fun hi => Bool.false_ne_true hi.2
  rw [countP_eq_card, countP_eq_card]
  split
  case isTrue hp =>
    rw [← card_insert_of_notMem hnot]
    refine congrArg card (Finset.ext fun j => ?_)
    by_cases hj : j = i
    · simp only [mem_filter, mem_insert, hj, hp, true_or, mem_univ, true_and]
    · simp only [mem_filter, mem_insert, hj, h j hj, false_or]
  case isFalse hp =>
    refine congrArg card (filter_congr fun j _ => ?_)
    by_cases hj : j = i
    · simp only [hj, hp, hq]
    · rw [h j hj]

namespace PageMap

/-- Every entry is all zero, the link of the low table, or what mapping a page wrote. The link is
there when the table maps a page, and only then. -/
structure IsBuilt (m : PageMap) (link : Entry) : Prop where
  link : m.directory[0] = .empty ∨ m.directory[0] = link
  linked : m.directory[0].isPresent = true ↔ ∃ i, (m.entryAt (.small i)).isPresent = true
  built : ∀ page, page ≠ .large 0 →
    m.entryAt page = .empty ∨ ∃ phys flags, m.entryAt page = page.entry phys flags

variable {m : PageMap} {link : Entry} {page : Page}

theorem isBuilt_empty (link : Entry) : empty.IsBuilt link := by
  have hzero : empty.directory[0] = .empty := by simp [empty, PageTable.empty]
  refine ⟨Or.inl hzero, ?_, fun page _ => Or.inl ?_⟩
  · simp [hzero, isPresent_empty]
  · cases page <;> simp [empty, PageTable.empty, entryAt]

theorem directory_get (m : PageMap) (i : Fin entryCount) :
    m.directory.get i = m.entryAt (.large i) := m.directory.get_eq_getElem i

theorem table_get (m : PageMap) (i : Fin entryCount) : m.table.get i = m.entryAt (.small i) :=
  m.table.get_eq_getElem i

namespace IsBuilt

theorem directory_zero_link (h : m.IsBuilt link) : (m.link link).directory[0] = link := by
  unfold PageMap.link
  split
  case isTrue hp =>
    refine h.link.resolve_left fun he => ?_
    rw [he] at hp
    cases hp
  case isFalse => exact Vector.getElem_set_self _

theorem put (h : m.IsBuilt link) (hp : link.isPresent = true) (h0 : page ≠ .large 0)
    (phys : PhysAddr) (flags : PageFlags) :
    (m.put link (page.entry phys flags) page).IsBuilt link := by
  have hbuilt : ∀ other, other ≠ .large 0 →
      (m.put link (page.entry phys flags) page).entryAt other = .empty ∨
        ∃ p f, (m.put link (page.entry phys flags) page).entryAt other = other.entry p f := by
    intro other ho
    rw [m.entryAt_put link _ ho]
    split
    case isTrue he => exact Or.inr ⟨phys, flags, by rw [he]⟩
    case isFalse => exact h.built other ho
  have hself : (m.put link (page.entry phys flags) page).entryAt page = page.entry phys flags :=
    (m.entryAt_put link _ h0).trans (if_pos rfl)
  cases page with
  | small i =>
    refine ⟨Or.inr h.directory_zero_link, ⟨fun _ => ⟨i, ?_⟩, fun _ => isPresent_link hp m⟩, hbuilt⟩
    exact (congrArg Entry.isPresent hself).trans (isPresent_entry ..)
  | large i =>
    have hzero : (m.put link ((Page.large i).entry phys flags) (.large i)).directory[0] =
        m.directory[0] := Vector.getElem_set_ne i.isLt (by decide) (Page.large_ne_zero h0)
    refine ⟨?_, ?_, hbuilt⟩
    · rw [hzero]
      exact h.link
    · rw [hzero]
      exact h.linked

/-- A range that reaches below 4 MiB maps a small page there, so that the table is not linked in
vain. -/
theorem identify (h : m.IsBuilt link) (hp : link.isPresent = true) (start stop : PhysAddr) :
    (m.identify link start stop).IsBuilt link := by
  have hne (i : Fin entryCount) : Page.small i ≠ .large 0 := by simp
  have hsmall (i : Fin entryCount) : (m.identify link start stop).entryAt (.small i) = _ :=
    entryAt_identify (hne i) start stop
  refine ⟨?_, ?_, ?_⟩
  · rw [directory_zero_identify]
    split
    · exact Or.inr h.directory_zero_link
    · exact h.link
  · rw [directory_zero_identify]
    simp only [hsmall]
    split
    case isTrue hlow =>
      have hlt : start.val.toNat < 4194304 := hlow.2
      let i : Fin entryCount := ⟨start.val.toNat / 4096, by
        change _ < 1024
        omega⟩
      have hmeets : (Page.small i).Meets start stop := by
        have hsize : (Page.small i).size.toNat = 4096 := rfl
        have hindex : i.val = start.val.toNat / 4096 := rfl
        rw [Page.Meets, Page.start_small, hsize]
        omega
      refine iff_of_true (isPresent_link hp m) ⟨i, ?_⟩
      rw [if_pos hmeets]
      exact isPresent_entry ..
    case isFalse hlow =>
      simp only [if_neg (not_meets_small hlow)]
      exact h.linked
  · intro page h0
    rw [entryAt_identify h0]
    split
    · exact Or.inr ⟨_, _, entry_self_start h0⟩
    · exact h.built page h0

theorem isLarge_directory (h : m.IsBuilt link) {i : Fin entryCount} (hi : i.val ≠ 0) :
    m.directory.get i = .empty ∨
      ((m.directory.get i).isPresent = true ∧ (m.directory.get i).isLarge = true) := by
  rw [directory_get]
  obtain he | ⟨phys, flags, he⟩ :=
    h.built (.large i) fun hz => hi (congrArg Fin.val (Page.large.inj hz))
  · exact Or.inl he
  · rw [he]
    exact Or.inr ⟨isPresent_entry .., Entry.isLarge_large phys (PageFlags.isCaller_and flags)⟩

theorem isLarge_table (h : m.IsBuilt link) (i : Fin entryCount) :
    (m.table.get i).isLarge = false := by
  rw [table_get]
  obtain he | ⟨phys, flags, he⟩ := h.built (.small i) (by simp)
  · exact congrArg Entry.isLarge he
  · exact (congrArg Entry.isLarge he).trans
      (Entry.isLarge_small phys (PageFlags.isCaller_and flags))

end IsBuilt

theorem flat_large_zero (m : PageMap) : m.flat (.large 0) = none := by simp [flat]

theorem IsFlat.presentCount_directory (h : m.IsFlat) :
    m.directory.presentCount = m.directory.countP (fun e => e.isPresent && e.isLarge) +
      if m.directory[0].isPresent then 1 else 0 := by
  have hlink : (m.directory.get 0).isLarge = false :=
    (congrArg Entry.isLarge (m.directory.get_eq_getElem 0)).trans h.link
  refine countP_eq_add 0 (fun i hi => ?_) ?_
  · have hl : (m.entryAt (.large i)).isPresent = true → (m.entryAt (.large i)).isLarge = true :=
      h.large i fun hz => hi (Fin.ext hz)
    simp only [directory_get]
    cases hp : (m.entryAt (.large i)).isPresent with
    | false => rfl
    | true => exact (hl hp).symm
  · rw [hlink, Bool.and_false]

theorem IsFlat.presentCount (h : m.IsFlat) :
    m.presentCount = m.mappingCount + if m.directory[0].isPresent then 1 else 0 := by
  rw [PageMap.presentCount, PageMap.mappingCount, h.presentCount_directory, h.presentCount_linked]
  omega

end PageMap

/-- The pages that are mapped are those with an address that leads somewhere. -/
theorem FlatMap.count_eq_ncard {f : FlatMap} (h : f (.large 0) = none) :
    f.count = Set.ncard {page | ∃ virt : VirtAddr, virt.page = page ∧ (f virt.page).isSome} := by
  have hset : {page | ∃ virt : VirtAddr, virt.page = page ∧ (f virt.page).isSome = true} =
      (Finset.univ.filter fun page => (f page).isSome : Finset Page) := by
    ext page
    simp only [Set.mem_ofPred_eq, Finset.coe_filter, Finset.mem_univ, true_and]
    constructor
    · rintro ⟨virt, rfl, hs⟩
      exact hs
    · intro hs
      have h0 : page ≠ .large 0 := by
        rintro rfl
        rw [h] at hs
        cases hs
      exact ⟨⟨page.start.val⟩, Page.page_start h0, by rwa [Page.page_start h0]⟩
  rw [hset, Set.ncard_coe_finset, FlatMap.count]

namespace SpaceArena

variable {a b : SpaceArena} {space : SpaceId} {n : PageMap}

theorem isOwned_iff_check : a.isOwned space = true ↔ a.flat.check space = .ok () := by
  obtain rfl | ⟨pid, rfl⟩ | ⟨slot, hslot, rfl⟩ := space.kernel_or_slot
  · exact iff_of_true rfl rfl
  · rw [isOwned_process, check_flat]
    cases a.isGiven pid <;> simp
  · rw [FlatSpaces.check_badSlot hslot]
    simp [isOwned, hslot]

theorem presentCount_eq (h : a.flat.check space = .ok ()) :
    a.presentCount space = (a.mapAt space).presentCount := by
  obtain rfl | ⟨pid, rfl⟩ | ⟨slot, hslot, rfl⟩ := space.kernel_or_slot
  · rfl
  · rw [mapAt_process, SpaceArena.presentCount, Vector.getElem?_eq_getElem pid.isLt]
    rfl
  · rw [FlatSpaces.check_badSlot hslot] at h
    cases h

theorem Becomes.placement (h : a.Becomes b) : b.placement = a.placement := by
  cases h with
  | claimed _ _ => rfl
  | rewritten space _ _ _ _ => cases space <;> rfl
  | freed _ _ _ => rfl
  | activated _ _ => rfl

/-- Tidy tables in which every entry is accounted for, and a space to run in. -/
structure IsKept (a : SpaceArena) : Prop extends a.IsTidy where
  built : ∀ space, (a.mapAt space).IsBuilt (a.tableLink space)
  usable : a.flat.check a.active = .ok ()

theorem isBuilt_update (h : ∀ space, (a.mapAt space).IsBuilt (a.tableLink space))
    (hp : b.placement = a.placement) (hm : b.mapAt = Function.update a.mapAt space n)
    (hn : n.IsBuilt (a.tableLink space)) (other : SpaceId) :
    (b.mapAt other).IsBuilt (b.tableLink other) := by
  rw [tableLink_congr hp, hm]
  by_cases ho : other = space
  · rwa [ho, Function.update_self]
  · rw [Function.update_of_ne ho]
    exact h other

theorem isKept_new (placement : PhysAddr) : ({ placement } : SpaceArena).IsKept := by
  have ht := isTidy_new placement
  refine ⟨ht, fun space => ?_, rfl⟩
  rw [mapAt_new]
  exact PageMap.isBuilt_empty _

theorem IsKept.becomes (h : a.IsKept) (hb : a.Becomes b) (ht : b.IsTidy) : b.IsKept := by
  have hplacement := hb.placement
  cases hb with
  | claimed pid _ =>
    have hbuilt := isBuilt_update h.built hplacement (mapAt_give a pid .empty)
      (PageMap.isBuilt_empty _)
    exact ⟨ht, hbuilt, check_give h.usable⟩
  | rewritten space virt phys flags hc =>
    have hput := (h.built space).put (isPresent_tableLink space) virt.page_ne phys flags
    have hactive : (a.rewritten space virt phys flags).active = a.active := by cases space <;> rfl
    refine ⟨ht, isBuilt_update h.built hplacement (mapAt_store hc _) hput, ?_⟩
    rw [hactive]
    exact check_store h.usable
  | freed pid _ ha =>
    -- the active space is not the one that is freed
    have hbuilt := isBuilt_update h.built hplacement (mapAt_free a pid) (PageMap.isBuilt_empty _)
    exact ⟨ht, hbuilt, check_free ha h.usable⟩
  | activated space hc =>
    refine ⟨ht, fun other => ?_, hc⟩
    rw [mapAt_activated]
    exact h.built other

theorem IsKept.identify (h : a.IsKept) (start stop : PhysAddr) : (a.identify start stop).IsKept :=
  ⟨h.toIsTidy.identify start stop, isBuilt_update h.built rfl (mapAt_identify a start stop)
    ((h.built .kernel).identify (isPresent_tableLink .kernel) start stop), h.usable⟩

theorem IsKept.after (h : a.IsKept) (step : SpaceStep) : (a.after step).IsKept := by
  cases step with
  | call c =>
    rw [SpaceArena.after]
    cases hc : a.call c with
    | ok b => exact h.becomes (h.toIsTidy.becomes hc) (h.toIsTidy.call hc)
    | error e => exact h
  | identify start stop => exact h.identify start stop

theorem IsKept.run (h : a.IsKept) (steps : List SpaceStep) : (a.run steps).IsKept := by
  induction steps generalizing a with
  | nil => exact h
  | cons step steps ih => exact ih (h.after step)

theorem IsTidy.presentCount (h : a.IsTidy) (hc : a.flat.check space = .ok ()) :
    a.presentCount space = a.mappingCount space +
      if (a.mapAt space).directory[0].isPresent then 1 else 0 := by
  have hm : (a.mapAt space).mappingCount = a.mappingCount space :=
    (h.flat space).mappingCount.trans (h.mappingCount space).symm
  rw [presentCount_eq hc, (h.flat space).presentCount, hm]

theorem IsTidy.mappingCount_eq_ncard (h : a.IsTidy) (space : SpaceId) :
    a.mappingCount space =
      Set.ncard {page | ∃ virt : VirtAddr, virt.page = page ∧
        (a.translate space virt).isSome = true} := by
  have h0 : a.flat.maps space (.large 0) = none :=
    PageMap.flat_large_zero (a.mapAt space)
  simp only [h.mappingCount, FlatMap.count_eq_ncard h0, h.translate, FlatSpaces.translate,
    Option.isSome_map]

/-- What holds of the directories and tables of an arena at any time. -/
structure Accounted (a : SpaceArena) : Prop where
  link : ∀ space, (a.mapAt space).directory[0] = .empty ∨
    ((a.mapAt space).directory[0] = a.tableLink space ∧
      (a.mapAt space).directory[0].isPresent = true ∧
      (a.mapAt space).directory[0].isLarge = false)
  linked : ∀ space, (a.mapAt space).directory[0].isPresent = true ↔
    ∃ i, ((a.mapAt space).table.get i).isPresent = true
  directory : ∀ space (i : Fin entryCount), i.val ≠ 0 →
    (a.mapAt space).directory.get i = .empty ∨
      (((a.mapAt space).directory.get i).isPresent = true ∧
        ((a.mapAt space).directory.get i).isLarge = true)
  table : ∀ space i, ((a.mapAt space).table.get i).isLarge = false
  unowned : ∀ space, a.isOwned space = false → a.mapAt space = .empty
  active : a.isOwned a.active = true
  presentCount : ∀ space, a.isOwned space = true →
    a.presentCount space = a.mappingCount space +
      if (a.mapAt space).directory[0].isPresent then 1 else 0
  mappingCount : ∀ space, a.isOwned space = true →
    a.mappingCount space =
      Set.ncard {page | ∃ virt : VirtAddr, virt.page = page ∧
        (a.translate space virt).isSome = true}

theorem IsKept.accounted (h : a.IsKept) : a.Accounted where
  link space := by
    refine (h.built space).link.imp_right fun hl => ⟨hl, ?_, ?_⟩
    · rw [hl]
      exact isPresent_tableLink space
    · rw [hl]
      exact isLarge_tableLink space
  linked space := by
    simp only [PageMap.table_get]
    exact (h.built space).linked
  directory space _ hi := (h.built space).isLarge_directory hi
  table space := (h.built space).isLarge_table
  unowned space ho := by
    refine h.empty space fun hc => ?_
    rw [← isOwned_iff_check, ho] at hc
    cases hc
  active := isOwned_iff_check.mpr h.usable
  presentCount _ ho := h.toIsTidy.presentCount (isOwned_iff_check.mp ho)
  mappingCount space _ := h.toIsTidy.mappingCount_eq_ncard space

/-- Calls and ranges in any order and with any arguments, failures among them, keep the tables. -/
theorem accounted_run (placement : PhysAddr) (steps : List SpaceStep) :
    (({ placement } : SpaceArena).run steps).Accounted :=
  ((isKept_new placement).run steps).accounted

end SpaceArena

end TerminalKernel
