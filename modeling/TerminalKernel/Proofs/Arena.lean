import TerminalKernel.Proofs.ProcessMap
import TerminalKernel.Proofs.Slots

namespace TerminalKernel.SpaceArena

variable (a : SpaceArena) (pid x : ProcessId) (m : PageMap)

def slotMap : PageMap := a.process.get pid

def isGiven : Bool := a.owned.get pid

/-- The arena in which a slot has an owner and a map. -/
def give : SpaceArena :=
  { a with owned := a.owned.set pid true pid.isLt, process := a.process.set pid m pid.isLt }

def free : SpaceArena :=
  { a with owned := a.owned.set pid false pid.isLt, process := a.process.set pid .empty pid.isLt }

@[simp] theorem slotMap_give : (a.give pid m).slotMap x = if x = pid then m else a.slotMap x := by
  simp only [give, slotMap, Vector.get_eq_getElem, Vector.getElem_set, Fin.val_inj, eq_comm]

@[simp] theorem isGiven_give :
    (a.give pid m).isGiven x = if x = pid then true else a.isGiven x := by
  simp only [give, isGiven, Vector.get_eq_getElem, Vector.getElem_set, Fin.val_inj, eq_comm]

@[simp] theorem slotMap_free :
    (a.free pid).slotMap x = if x = pid then .empty else a.slotMap x := by
  simp only [free, slotMap, Vector.get_eq_getElem, Vector.getElem_set, Fin.val_inj, eq_comm]

@[simp] theorem isGiven_free : (a.free pid).isGiven x = if x = pid then false else a.isGiven x := by
  simp only [free, isGiven, Vector.get_eq_getElem, Vector.getElem_set, Fin.val_inj, eq_comm]

theorem isOwned_process : a.isOwned (.process pid) = a.isGiven pid := by
  simp [isOwned, isGiven, Vector.get_eq_getElem]

variable {a pid x m}

theorem ext_slots {b : SpaceArena} (hk : a.kernel = b.kernel) (ha : a.active = b.active)
    (hp : a.placement = b.placement) (hm : ∀ x, a.slotMap x = b.slotMap x)
    (ho : ∀ x, a.isGiven x = b.isGiven x) : a = b := by
  cases a with
  | mk kernel process owned active placement =>
    cases b with
    | mk kernel' process' owned' active' placement' =>
      have hpr : process = process' := by
        apply Vector.ext
        intro i hi
        simpa only [slotMap, Vector.get_eq_getElem] using hm ⟨i, hi⟩
      have how : owned = owned' := by
        apply Vector.ext
        intro i hi
        simpa only [isGiven, Vector.get_eq_getElem] using ho ⟨i, hi⟩
      simp_all

theorem free_give (ho : a.isGiven pid = false) (hm : a.slotMap pid = .empty) :
    (a.give pid m).free pid = a := by
  apply ext_slots
  · rfl
  · rfl
  · rfl
  · intro y
    by_cases hy : y = pid
    · simp [hy, hm]
    · simp [hy]
  · intro y
    by_cases hy : y = pid
    · simp [hy, ho]
    · simp [hy]

theorem give_slotMap (ho : a.isGiven pid = true) : a.give pid (a.slotMap pid) = a := by
  apply ext_slots
  · rfl
  · rfl
  · rfl
  · intro y
    by_cases hy : y = pid
    · simp [hy]
    · simp [hy]
  · intro y
    by_cases hy : y = pid
    · simp [hy, ho]
    · simp [hy]

theorem lookup_process (h : a.isGiven pid = true) :
    a.lookup (.process pid) = .ok (a.slotMap pid) := by
  have ho : a.owned[pid.val] = true := by simpa only [isGiven, Vector.get_eq_getElem] using h
  simp [lookup, slotMap, Vector.get_eq_getElem, ho]

theorem lookup_give {space : SpaceId} (h : space ≠ .process pid) :
    (a.give pid m).lookup space = a.lookup space := by
  cases space with
  | kernel => rfl
  | process slot =>
    have hs : pid.val ≠ slot := fun he => h (by rw [he])
    simp only [lookup, give, Vector.getElem_set, if_neg hs]

theorem lookup_free {space : SpaceId} (h : space ≠ .process pid) :
    (a.free pid).lookup space = a.lookup space := by
  cases space with
  | kernel => rfl
  | process slot =>
    have hs : pid.val ≠ slot := fun he => h (by rw [he])
    simp only [lookup, free, Vector.getElem_set, if_neg hs]

theorem claim_eq (h : a.isGiven pid = false) (hm : a.slotMap pid = .empty) :
    a.claim pid = .ok (a.give pid .empty) := by
  have ho : a.owned[pid.val] = false := by simpa only [isGiven, Vector.get_eq_getElem] using h
  have he : { a with owned := a.owned.set pid true pid.isLt } = a.give pid .empty := by
    apply ext_slots
    · rfl
    · rfl
    · rfl
    · intro y
      rw [slotMap_give]
      split
      · rename_i hy
        rw [hy]
        exact hm
      · rfl
    · intro y
      rfl
  simp only [claim, pid.isLt, ho, dif_pos]
  exact congrArg Except.ok he

theorem store_process (h : a.isGiven pid = true) (n : PageMap) :
    a.store (.process pid) n = a.give pid n := by
  apply ext_slots
  · rfl
  · rfl
  · rfl
  · intro y
    simp only [store, give, slotMap, Vector.get_eq_getElem, Vector.getElem_setIfInBounds,
      Vector.getElem_set]
  · intro y
    rw [isGiven_give]
    split
    · rename_i hy
      rw [hy]
      exact h
    · rfl

theorem teardown_eq (h : a.isGiven pid = true) (ha : a.active ≠ .process pid) :
    a.teardown (.process pid) = .ok (a.free pid) := by
  have hf : { a.store (.process pid) .empty with owned := a.owned.setIfInBounds pid false } =
      a.free pid := by
    apply ext_slots
    · rfl
    · rfl
    · rfl
    · intro y
      simp only [store, free, slotMap, Vector.get_eq_getElem, Vector.getElem_setIfInBounds,
        Vector.getElem_set]
    · intro y
      simp only [free, isGiven, Vector.get_eq_getElem, Vector.getElem_setIfInBounds,
        Vector.getElem_set]
  simp only [teardown, lookup_process h, if_neg ha]
  exact congrArg Except.ok hf

theorem remap_process (h : a.isGiven pid = true) (hr : (a.slotMap pid).IsRegular)
    {virt : VirtAddr} (hp : ((a.slotMap pid).entryAt virt.page).isPresent = true) (phys : PhysAddr)
    (flags : PageFlags) (link : Entry) :
    a.remap (.process pid) virt phys flags =
      .ok (a.give pid ((a.slotMap pid).put link (virt.page.entry phys flags) virt.page)) := by
  have hm : a.remap (.process pid) virt phys flags =
      ((a.slotMap pid).remap virt phys flags).map (a.store (.process pid)) := by
    rw [SpaceArena.remap, lookup_process h]
    rfl
  rw [hm, hr.remap link, if_pos hp, ← store_process h]
  rfl

theorem tableLink_congr {b : SpaceArena} (h : a.placement = b.placement) (space : SpaceId) :
    a.tableLink space = b.tableLink space := by
  unfold tableLink tableAddress pageAddress
  rw [h]

theorem isPresent_tableLink (space : SpaceId) : (a.tableLink space).isPresent = true := by
  cases space with
  | kernel => exact Entry.isPresent_small _ rfl
  | process slot => exact Entry.isPresent_small _ rfl

theorem isLarge_tableLink (space : SpaceId) : (a.tableLink space).isLarge = false := by
  cases space with
  | kernel => exact Entry.isLarge_small _ rfl
  | process slot => exact Entry.isLarge_small _ rfl

theorem remap_video {l : Layout} (hf : l.Fits) (h : a.isGiven pid = true) {video : PhysAddr}
    (hm : a.slotMap pid = l.processMap (a.tableLink (.process pid)) pid video) (target : PhysAddr) :
    a.remap (.process pid) ⟨l.video.val⟩ target videoFlags =
      .ok (a.give pid (l.processMap (a.tableLink (.process pid)) pid target)) := by
  have hlp := a.isPresent_tableLink (.process pid)
  have hll := a.isLarge_tableLink (.process pid)
  have hreg : (a.slotMap pid).IsRegular := by
    rw [hm]
    exact Layout.isRegular_processMap hlp hll pid _
  let x : Mapping := ⟨⟨l.video.val⟩, video, videoFlags⟩
  have hx : x ∈ l.mappings pid video := by simp [Layout.mappings, x]
  have hpres : ((a.slotMap pid).entryAt x.page).isPresent = true := by
    rw [hm, Layout.processMap, PageMap.entryAt_fill_of_mem (hf.nodup pid _) hx]
    exact PageMap.isPresent_entry ..
  refine (remap_process h hreg hpres target videoFlags (a.tableLink (.process pid))).trans ?_
  rw [hm]
  exact congrArg (fun m => Except.ok (a.give pid m)) (hf.put_video hlp pid _ target)

end TerminalKernel.SpaceArena
