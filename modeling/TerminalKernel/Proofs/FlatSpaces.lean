import TerminalKernel.Proofs.FlatMaps

namespace TerminalKernel

theorem SpaceId.kernel_or_slot (space : SpaceId) :
    space = .kernel ∨ (∃ pid : ProcessId, space = .process pid) ∨
      ∃ slot, ¬slot < processCapacity ∧ space = .process slot := by
  cases space with
  | kernel => exact Or.inl rfl
  | process slot =>
    by_cases h : slot < processCapacity
    · exact Or.inr (Or.inl ⟨⟨slot, h⟩, rfl⟩)
    · exact Or.inr (Or.inr ⟨slot, h, rfl⟩)

inductive SpaceCall where
  | claim (slot : Nat)
  | map (space : SpaceId) (virt : VirtAddr) (phys : PhysAddr) (flags : PageFlags)
  | remap (space : SpaceId) (virt : VirtAddr) (phys : PhysAddr) (flags : PageFlags)
  | teardown (space : SpaceId)
  | activate (space : SpaceId)

structure FlatSpaces where
  owned : Finset ProcessId
  active : SpaceId
  maps : SpaceId → FlatMap

namespace FlatSpaces

/-- Only the kernel's space and those that someone owns can be used. -/
def check (s : FlatSpaces) : SpaceId → Except SpaceError Unit
  | .kernel => .ok ()
  | .process slot =>
    if h : slot < processCapacity then
      if ⟨slot, h⟩ ∈ s.owned then .ok () else .error .notOwned
    else .error .badSlot

def store (s : FlatSpaces) (space : SpaceId) (f : FlatMap) : FlatSpaces :=
  { s with maps := Function.update s.maps space f }

def put (s : FlatSpaces) (space : SpaceId) (page : Page) (f : Frame) : FlatSpaces :=
  s.store space (Function.update (s.maps space) page (some f))

def call (s : FlatSpaces) : SpaceCall → Except SpaceError FlatSpaces
  | .claim slot =>
    if h : slot < processCapacity then
      if ⟨slot, h⟩ ∈ s.owned then .error .alreadyOwned
      else .ok { s with owned := insert ⟨slot, h⟩ s.owned }
    else .error .badSlot
  | .map space virt phys flags => do
    s.check space
    if (s.maps space virt.page).isSome then .error .mappingConflict
    else .ok (s.put space virt.page (virt.page.frame phys flags))
  | .remap space virt phys flags => do
    s.check space
    if (s.maps space virt.page).isSome then .ok (s.put space virt.page (virt.page.frame phys flags))
    else .error .mappingAbsent
  | .teardown .kernel => .error .kernelSpace
  | .teardown (.process slot) => do
    s.check (.process slot)
    if s.active = .process slot then .error .activeSpace
    else
      .ok { s.store (.process slot) (fun _ => none) with
        owned := s.owned.filter fun pid => pid.val ≠ slot }
  | .activate space => do
    s.check space
    .ok { s with active := space }

def translate (s : FlatSpaces) (space : SpaceId) (virt : VirtAddr) : Option PhysAddr :=
  (s.maps space virt.page).map fun f => f.base.offset (virt.offsetIn virt.page)

def leaf (s : FlatSpaces) (space : SpaceId) (virt : VirtAddr) : Option Entry :=
  (s.maps space virt.page).map fun f => virt.page.entry f.base f.flags

variable {s s' : FlatSpaces} {space : SpaceId}

theorem check_process (pid : ProcessId) :
    s.check (.process pid) = if pid ∈ s.owned then .ok () else .error .notOwned := dif_pos pid.isLt

theorem check_badSlot {slot : Nat} (h : ¬slot < processCapacity) :
    s.check (.process slot) = .error .badSlot := dif_neg h

theorem check_mono (h : s.owned ⊆ s'.owned) (hs : s.check space = .ok ()) :
    s'.check space = .ok () := by
  obtain rfl | ⟨pid, rfl⟩ | ⟨slot, hslot, rfl⟩ := space.kernel_or_slot
  · rfl
  · rw [check_process] at hs ⊢
    by_cases hmem : pid ∈ s.owned
    · rw [if_pos (h hmem)]
    · rw [if_neg hmem] at hs
      cases hs
  · rw [check_badSlot hslot] at hs
    cases hs

theorem check_of_bind {α : Type} {f : Unit → Except SpaceError α} {x : α}
    (h : (s.check space).bind f = .ok x) : s.check space = .ok () ∧ f () = .ok x := by
  cases hc : s.check space with
  | error e =>
    rw [hc] at h
    cases h
  | ok u =>
    rw [hc] at h
    exact ⟨rfl, h⟩

end FlatSpaces

namespace SpaceArena

def call (a : SpaceArena) : SpaceCall → Except SpaceError SpaceArena
  | .claim slot => a.claim slot
  | .map space virt phys flags => a.map space virt phys flags
  | .remap space virt phys flags => a.remap space virt phys flags
  | .teardown space => a.teardown space
  | .activate space => (a.activate space).map Prod.snd

def mapAt (a : SpaceArena) : SpaceId → PageMap
  | .kernel => a.kernel
  | .process slot => if h : slot < processCapacity then a.slotMap ⟨slot, h⟩ else .empty

def flat (a : SpaceArena) : FlatSpaces where
  owned := Finset.univ.filter fun pid => a.isGiven pid
  active := a.active
  maps space := (a.mapAt space).flat

/-- The tables are what calls of the arena make of them, and those that nobody owns are empty. -/
structure IsTidy (a : SpaceArena) : Prop where
  flat : ∀ space, (a.mapAt space).IsFlat
  empty : ∀ space, a.flat.check space ≠ .ok () → a.mapAt space = .empty

variable {a b : SpaceArena} {space other : SpaceId} {m : PageMap} {pid : ProcessId}

theorem mapAt_process (a : SpaceArena) (pid : ProcessId) : a.mapAt (.process pid) = a.slotMap pid :=
  dif_pos pid.isLt

theorem mapAt_badSlot {slot : Nat} (h : ¬slot < processCapacity) :
    a.mapAt (.process slot) = .empty := dif_neg h

theorem mem_owned_flat : pid ∈ a.flat.owned ↔ a.isGiven pid = true := by simp [flat]

theorem check_flat (a : SpaceArena) (pid : ProcessId) :
    a.flat.check (.process pid) = if a.isGiven pid then .ok () else .error .notOwned := by
  rw [FlatSpaces.check_process]
  simp [flat]

theorem isGiven_of_check (h : a.flat.check (.process pid) = .ok ()) : a.isGiven pid = true := by
  rw [check_flat] at h
  cases hg : a.isGiven pid with
  | true => rfl
  | false =>
    rw [hg] at h
    cases h

/-- A space can be used, or whatever uses it fails. -/
theorem lookup_flat (a : SpaceArena) (space : SpaceId) :
    a.lookup space = (a.flat.check space).map fun _ => a.mapAt space := by
  obtain rfl | ⟨pid, rfl⟩ | ⟨slot, hslot, rfl⟩ := space.kernel_or_slot
  · rfl
  · rw [check_flat, mapAt_process]
    cases hg : a.isGiven pid with
    | true => exact lookup_process hg
    | false =>
      have ho : a.owned[pid.val] = false := by simpa only [isGiven, Vector.get_eq_getElem] using hg
      simp [lookup, ho, Except.map]
  · rw [FlatSpaces.check_badSlot hslot]
    simp [lookup, hslot, Except.map]

theorem mapAt_give (a : SpaceArena) (pid : ProcessId) (m : PageMap) :
    (a.give pid m).mapAt = Function.update a.mapAt (.process pid) m := by
  funext other
  obtain rfl | ⟨x, rfl⟩ | ⟨slot, hslot, rfl⟩ := other.kernel_or_slot
  · rfl
  · rw [mapAt_process, slotMap_give]
    split
    case isTrue h => rw [h, Function.update_self]
    case isFalse h =>
      rw [Function.update_of_ne (fun he => h (Fin.ext (SpaceId.process.inj he))), mapAt_process]
  · have hne : SpaceId.process slot ≠ .process pid := by
      intro he
      rw [SpaceId.process.inj he] at hslot
      exact hslot pid.isLt
    rw [Function.update_of_ne hne, mapAt_badSlot hslot, mapAt_badSlot hslot]

theorem mapAt_store (h : a.flat.check space = .ok ()) (n : PageMap) :
    (a.store space n).mapAt = Function.update a.mapAt space n := by
  obtain rfl | ⟨pid, rfl⟩ | ⟨slot, hslot, rfl⟩ := space.kernel_or_slot
  · funext other
    cases other <;> rfl
  · rw [store_process (isGiven_of_check h), mapAt_give]
  · rw [FlatSpaces.check_badSlot hslot] at h
    cases h

theorem flat_store (h : a.flat.check space = .ok ()) (n : PageMap) :
    (a.store space n).flat = a.flat.store space n.flat := by
  have hmaps : (fun x => ((a.store space n).mapAt x).flat) =
      Function.update (fun x => (a.mapAt x).flat) space n.flat := by
    rw [mapAt_store h]
    exact Function.comp_update PageMap.flat a.mapAt space n
  cases space with
  | kernel => exact congrArg (FlatSpaces.mk _ _) hmaps
  | process slot => exact congrArg (FlatSpaces.mk _ _) hmaps

theorem isSome_maps (a : SpaceArena) (space : SpaceId) (virt : VirtAddr) :
    (a.flat.maps space virt.page).isSome = ((a.mapAt space).entryAt virt.page).isPresent :=
  PageMap.isSome_flat virt.page_ne

def rewritten (a : SpaceArena) (space : SpaceId) (virt : VirtAddr) (phys : PhysAddr)
    (flags : PageFlags) : SpaceArena :=
  a.store space ((a.mapAt space).put (a.tableLink space) (virt.page.entry phys flags) virt.page)

theorem flat_rewritten (h : a.flat.check space = .ok ()) (virt : VirtAddr) (phys : PhysAddr)
    (flags : PageFlags) :
    (a.rewritten space virt phys flags).flat =
      a.flat.put space virt.page (virt.page.frame phys flags) := by
  rw [rewritten, flat_store h, PageMap.flat_put virt.page_ne]
  rfl

theorem map_eq_check (a : SpaceArena) (space : SpaceId) (virt : VirtAddr) (phys : PhysAddr)
    (flags : PageFlags) :
    a.map space virt phys flags = (a.flat.check space).bind fun _ =>
      if (a.flat.maps space virt.page).isSome then .error .mappingConflict
      else .ok (a.rewritten space virt phys flags) := by
  simp only [SpaceArena.map, lookup_flat, PageMap.map_eq, isSome_maps]
  cases a.flat.check space with
  | error e => rfl
  | ok u =>
    simp only [Except.map, bind, Except.bind]
    cases ((a.mapAt space).entryAt virt.page).isPresent <;> rfl

theorem IsTidy.remap_eq (h : a.IsTidy) (space : SpaceId) (virt : VirtAddr) (phys : PhysAddr)
    (flags : PageFlags) :
    a.remap space virt phys flags = (a.flat.check space).bind fun _ =>
      if (a.flat.maps space virt.page).isSome then .ok (a.rewritten space virt phys flags)
      else .error .mappingAbsent := by
  have hr := (h.flat space).toIsRegular.remap (a.tableLink space) virt phys flags
  simp only [SpaceArena.remap, lookup_flat, isSome_maps]
  cases a.flat.check space with
  | error e => rfl
  | ok u =>
    simp only [Except.map, bind, Except.bind, hr]
    cases ((a.mapAt space).entryAt virt.page).isPresent <;> rfl

theorem isGiven_eq (a : SpaceArena) {slot : Nat} (h : slot < processCapacity) :
    a.isGiven ⟨slot, h⟩ = a.owned[slot] := by simp [isGiven, Vector.get_eq_getElem]

theorem IsTidy.slotMap_eq_empty (h : a.IsTidy) (hg : a.isGiven pid = false) :
    a.slotMap pid = .empty := by
  rw [← mapAt_process]
  refine h.empty _ ?_
  rw [check_flat, hg]
  exact nofun

theorem IsTidy.claim_eq (h : a.IsTidy) (slot : Nat) :
    a.claim slot =
      if h : slot < processCapacity then
        if a.isGiven ⟨slot, h⟩ then .error .alreadyOwned else .ok (a.give ⟨slot, h⟩ .empty)
      else .error .badSlot := by
  by_cases hlt : slot < processCapacity
  · rw [dif_pos hlt]
    cases hg : a.isGiven ⟨slot, hlt⟩ with
    | true =>
      rw [isGiven_eq] at hg
      simp [claim, hlt, hg]
    | false => exact SpaceArena.claim_eq hg (h.slotMap_eq_empty hg)
  · simp [claim, hlt]

theorem teardown_eq_check (a : SpaceArena) (pid : ProcessId) :
    a.teardown (.process pid) = (a.flat.check (.process pid)).bind fun _ =>
      if a.active = .process pid then .error .activeSpace else .ok (a.free pid) := by
  cases hg : a.isGiven pid with
  | false =>
    simp only [teardown, lookup_flat, check_flat, hg]
    rfl
  | true =>
    have hc : a.flat.check (.process pid) = .ok () := by rw [check_flat, hg]; rfl
    rw [hc]
    by_cases ha : a.active = .process pid
    · simp only [teardown, lookup_flat, hc, ha]
      rfl
    · rw [teardown_eq hg ha]
      exact (if_neg ha).symm

theorem activate_eq_check (a : SpaceArena) (space : SpaceId) :
    (a.activate space).map Prod.snd =
      (a.flat.check space).bind fun _ => .ok { a with active := space } := by
  simp only [activate, rootOf, lookup_flat]
  cases a.flat.check space <;> rfl

theorem flat_update {n : PageMap} (hm : b.mapAt = Function.update a.mapAt space n) :
    b.flat.maps = Function.update a.flat.maps space n.flat := by
  change (fun x => (b.mapAt x).flat) = _
  rw [hm]
  exact Function.comp_update PageMap.flat a.mapAt space n

theorem mapAt_free (a : SpaceArena) (pid : ProcessId) :
    (a.free pid).mapAt = Function.update a.mapAt (.process pid) .empty := mapAt_give a pid .empty

theorem owned_give (a : SpaceArena) (pid : ProcessId) (m : PageMap) :
    (a.give pid m).flat.owned = insert pid a.flat.owned := by
  ext x
  rw [Finset.mem_insert, mem_owned_flat, mem_owned_flat, isGiven_give]
  by_cases hx : x = pid <;> simp [hx]

theorem owned_free (a : SpaceArena) (pid : ProcessId) :
    (a.free pid).flat.owned = a.flat.owned.filter fun x => x.val ≠ pid.val := by
  ext x
  rw [Finset.mem_filter, mem_owned_flat, mem_owned_flat, isGiven_free]
  by_cases hx : x = pid
  · simp [hx]
  · simp [hx, Fin.val_inj]

theorem IsTidy.flat_claimed (h : a.IsTidy) (hg : a.isGiven pid = false) :
    (a.give pid .empty).flat = { a.flat with owned := insert pid a.flat.owned } := by
  have hmaps : (a.give pid .empty).flat.maps = a.flat.maps := by
    have hempty : a.flat.maps (.process pid) = PageMap.empty.flat := by
      rw [← h.slotMap_eq_empty hg, ← mapAt_process]
      rfl
    rw [flat_update (mapAt_give a pid .empty), ← hempty, Function.update_eq_self]
  exact congr (congrArg (FlatSpaces.mk · _) (owned_give a pid .empty)) hmaps

theorem flat_free (a : SpaceArena) (pid : ProcessId) :
    (a.free pid).flat = { a.flat.store (.process pid) (fun _ => none) with
      owned := a.flat.owned.filter fun x => x.val ≠ pid.val } := by
  have hmaps := flat_update (mapAt_free a pid)
  rw [PageMap.flat_empty] at hmaps
  exact congr (congrArg (FlatSpaces.mk · _) (owned_free a pid)) hmaps

/-- A call to the arena is the same call to its finite maps. -/
theorem IsTidy.call_flat (h : a.IsTidy) (c : SpaceCall) :
    (a.call c).map SpaceArena.flat = a.flat.call c := by
  cases c with
  | claim slot =>
    rw [call, h.claim_eq, FlatSpaces.call]
    split
    case isTrue hlt =>
      simp only [mem_owned_flat]
      split
      case isTrue => rfl
      case isFalse hg => exact congrArg Except.ok (h.flat_claimed (by simpa using hg))
    case isFalse => rfl
  | map space virt phys flags =>
    rw [call, map_eq_check, FlatSpaces.call]
    cases hc : a.flat.check space with
    | error e => rfl
    | ok u =>
      have hf := flat_rewritten hc virt phys flags
      simp only [bind, Except.bind]
      split
      · rfl
      · exact congrArg Except.ok hf
  | remap space virt phys flags =>
    rw [call, h.remap_eq, FlatSpaces.call]
    cases hc : a.flat.check space with
    | error e => rfl
    | ok u =>
      have hf := flat_rewritten hc virt phys flags
      simp only [bind, Except.bind]
      split
      · exact congrArg Except.ok hf
      · rfl
  | teardown space =>
    obtain rfl | ⟨pid, rfl⟩ | ⟨slot, hslot, rfl⟩ := space.kernel_or_slot
    · rfl
    · have hf := a.flat_free pid
      rw [call, teardown_eq_check, FlatSpaces.call]
      cases a.flat.check (.process pid) with
      | error e => rfl
      | ok u =>
        simp only [bind, Except.bind]
        split
        case isTrue ha => exact (if_pos ha).symm
        case isFalse ha => exact (congrArg Except.ok hf).trans (if_neg ha).symm
    · have hc := FlatSpaces.check_badSlot (s := a.flat) hslot
      simp only [call, teardown, lookup_flat, FlatSpaces.call, hc]
      rfl
  | activate space =>
    rw [call, activate_eq_check, FlatSpaces.call]
    cases a.flat.check space <;> rfl

/-- What a call that succeeds makes of the arena. -/
inductive Becomes (a : SpaceArena) : SpaceArena → Prop
  | claimed (pid : ProcessId) (hg : a.isGiven pid = false) : Becomes a (a.give pid .empty)
  | rewritten (space : SpaceId) (virt : VirtAddr) (phys : PhysAddr) (flags : PageFlags)
      (hc : a.flat.check space = .ok ()) : Becomes a (a.rewritten space virt phys flags)
  | freed (pid : ProcessId) (hg : a.isGiven pid = true) (ha : a.active ≠ .process pid) :
      Becomes a (a.free pid)
  | activated (space : SpaceId) (hc : a.flat.check space = .ok ()) :
      Becomes a { a with active := space }

theorem IsTidy.becomes (h : a.IsTidy) {c : SpaceCall} (hc : a.call c = .ok b) : a.Becomes b := by
  cases c with
  | claim slot =>
    rw [call, h.claim_eq] at hc
    split at hc
    case isFalse => cases hc
    case isTrue hlt =>
      split at hc
      case isTrue => cases hc
      case isFalse hg =>
        cases hc
        exact .claimed _ (by simpa using hg)
  | map space virt phys flags =>
    rw [call, map_eq_check] at hc
    obtain ⟨hcheck, hc⟩ := FlatSpaces.check_of_bind hc
    split at hc
    case isTrue => cases hc
    case isFalse =>
      cases hc
      exact .rewritten space virt phys flags hcheck
  | remap space virt phys flags =>
    rw [call, h.remap_eq] at hc
    obtain ⟨hcheck, hc⟩ := FlatSpaces.check_of_bind hc
    split at hc
    case isTrue =>
      cases hc
      exact .rewritten space virt phys flags hcheck
    case isFalse => cases hc
  | teardown space =>
    obtain rfl | ⟨pid, rfl⟩ | ⟨slot, hslot, rfl⟩ := space.kernel_or_slot
    · cases hc
    · rw [call, teardown_eq_check] at hc
      obtain ⟨hcheck, hc⟩ := FlatSpaces.check_of_bind hc
      split at hc
      case isTrue => cases hc
      case isFalse ha =>
        cases hc
        exact .freed pid (isGiven_of_check hcheck) ha
    · simp only [call, teardown, lookup_flat, FlatSpaces.check_badSlot hslot] at hc
      cases hc
  | activate space =>
    rw [call, activate_eq_check] at hc
    obtain ⟨hcheck, hc⟩ := FlatSpaces.check_of_bind hc
    cases hc
    exact .activated space hcheck

theorem mapAt_identify (a : SpaceArena) (start stop : PhysAddr) :
    (a.identify start stop).mapAt = Function.update a.mapAt .kernel
      (a.kernel.identify (a.tableLink .kernel) start stop) := by
  funext x
  cases x with
  | kernel => rfl
  | process slot => exact (Function.update_of_ne (by simp) ..).symm

theorem check_give (h : a.flat.check space = .ok ()) :
    (a.give pid m).flat.check space = .ok () := by
  refine FlatSpaces.check_mono ?_ h
  rw [owned_give]
  exact Finset.subset_insert ..

theorem check_store (h : a.flat.check space = .ok ()) :
    (a.store other m).flat.check space = .ok () := by
  have howned : (a.store other m).flat.owned = a.flat.owned := by cases other <;> rfl
  exact FlatSpaces.check_mono (Finset.subset_of_eq howned.symm) h

theorem check_free (hne : space ≠ .process pid) (h : a.flat.check space = .ok ()) :
    (a.free pid).flat.check space = .ok () := by
  obtain rfl | ⟨x, rfl⟩ | ⟨slot, hslot, rfl⟩ := space.kernel_or_slot
  · rfl
  · have hx : x ≠ pid := fun he => hne (by rw [he])
    rw [check_flat, isGiven_free, if_neg hx, ← check_flat]
    exact h
  · rw [FlatSpaces.check_badSlot hslot] at h
    cases h

theorem mapAt_activated (a : SpaceArena) (active : SpaceId) :
    ({ a with active } : SpaceArena).mapAt = a.mapAt := by
  funext x
  cases x <;> rfl

namespace IsTidy

/-- The map of one space changes, and the others stay with their owners. -/
theorem update (h : a.IsTidy) {n : PageMap} (hm : b.mapAt = Function.update a.mapAt space n)
    (hn : n.IsFlat) (hs : b.flat.check space = .ok () ∨ n = .empty)
    (ho : ∀ x, x ≠ space → a.flat.check x = .ok () → b.flat.check x = .ok ()) : b.IsTidy := by
  constructor
  · intro x
    rw [hm]
    by_cases hx : x = space
    · rwa [hx, Function.update_self]
    · rw [Function.update_of_ne hx]
      exact h.flat x
  · intro x hcheck
    rw [hm]
    by_cases hx : x = space
    · rw [hx] at hcheck ⊢
      rw [Function.update_self]
      exact hs.resolve_left hcheck
    · rw [Function.update_of_ne hx]
      exact h.empty x fun hok => hcheck (ho x hx hok)

theorem give (h : a.IsTidy) (pid : ProcessId) : (a.give pid .empty).IsTidy :=
  h.update (mapAt_give a pid .empty) PageMap.isFlat_empty (Or.inr rfl) fun _ _ => check_give

theorem free (h : a.IsTidy) (pid : ProcessId) : (a.free pid).IsTidy :=
  h.update (mapAt_free a pid) PageMap.isFlat_empty (Or.inr rfl) fun _ => check_free

theorem rewritten (h : a.IsTidy) (hc : a.flat.check space = .ok ()) (virt : VirtAddr)
    (phys : PhysAddr) (flags : PageFlags) : (a.rewritten space virt phys flags).IsTidy := by
  refine h.update (mapAt_store hc _) ?_ (Or.inl (check_store hc)) fun _ _ => check_store
  exact (h.flat space).put (isPresent_tableLink space) (isLarge_tableLink space) virt.page_ne _ _

theorem identify (h : a.IsTidy) (start stop : PhysAddr) : (a.identify start stop).IsTidy := by
  refine h.update (mapAt_identify a start stop) ?_ (Or.inl rfl) fun _ _ hx => hx
  exact PageMap.IsFlat.identify (h.flat .kernel) (isPresent_tableLink _) (isLarge_tableLink _) _ _

theorem call (h : a.IsTidy) {c : SpaceCall} (hc : a.call c = .ok b) : b.IsTidy := by
  cases h.becomes hc with
  | claimed pid _ => exact h.give pid
  | rewritten space virt phys flags hcheck => exact h.rewritten hcheck virt phys flags
  | freed pid _ _ => exact h.free pid
  | activated space _ =>
    refine ⟨fun x => ?_, fun x hx => ?_⟩
    · rw [mapAt_activated]
      exact h.flat x
    · rw [mapAt_activated]
      exact h.empty x hx

theorem maps_eq_none (h : a.IsTidy) {e : SpaceError} (hc : a.flat.check space = .error e) :
    a.flat.maps space = fun _ => none := by
  have he := h.empty space (by rw [hc]; exact nofun)
  exact (congrArg PageMap.flat he).trans PageMap.flat_empty

theorem translate (h : a.IsTidy) (space : SpaceId) (virt : VirtAddr) :
    a.translate space virt = a.flat.translate space virt := by
  have ht := (h.flat space).translate virt
  rw [SpaceArena.translate, lookup_flat]
  cases hc : a.flat.check space with
  | ok u => exact ht
  | error e =>
    rw [FlatSpaces.translate, h.maps_eq_none hc]
    rfl

theorem leaf (h : a.IsTidy) (space : SpaceId) (virt : VirtAddr) :
    a.leaf space virt = a.flat.leaf space virt := by
  have ht := (h.flat space).leaf virt
  rw [SpaceArena.leaf, lookup_flat]
  cases hc : a.flat.check space with
  | ok u => exact ht
  | error e =>
    rw [FlatSpaces.leaf, h.maps_eq_none hc]
    rfl

theorem mappingCount (h : a.IsTidy) (space : SpaceId) :
    a.mappingCount space = (a.flat.maps space).count := by
  have ht := (h.flat space).mappingCount
  rw [SpaceArena.mappingCount, lookup_flat]
  cases hc : a.flat.check space with
  | ok u => exact ht
  | error e =>
    rw [h.maps_eq_none hc, FlatMap.count]
    simp [Except.map]

end IsTidy

theorem mapAt_new (placement : PhysAddr) (space : SpaceId) :
    ({ placement } : SpaceArena).mapAt space = .empty := by
  obtain rfl | ⟨pid, rfl⟩ | ⟨slot, hslot, rfl⟩ := space.kernel_or_slot
  · rfl
  · rw [mapAt_process, slotMap, Vector.get_eq_getElem, Vector.getElem_replicate]
  · exact mapAt_badSlot hslot

theorem isTidy_new (placement : PhysAddr) : ({ placement } : SpaceArena).IsTidy := by
  refine ⟨fun space => ?_, fun space _ => mapAt_new placement space⟩
  rw [mapAt_new]
  exact PageMap.isFlat_empty

end SpaceArena

/-- What can happen to the arena. -/
inductive SpaceStep where
  | call (c : SpaceCall)
  | identify (start stop : PhysAddr)

namespace SpaceArena

variable {a : SpaceArena}

def after (a : SpaceArena) : SpaceStep → SpaceArena
  | .call c =>
    match a.call c with
    | .ok b => b
    | .error _ => a
  | .identify start stop => a.identify start stop

def run (a : SpaceArena) (steps : List SpaceStep) : SpaceArena := steps.foldl after a

theorem IsTidy.after (h : a.IsTidy) (step : SpaceStep) : (a.after step).IsTidy := by
  cases step with
  | call c =>
    cases hc : a.call c with
    | ok b =>
      simp only [SpaceArena.after, hc]
      exact h.call hc
    | error e =>
      simp only [SpaceArena.after, hc]
      exact h
  | identify start stop => exact h.identify start stop

theorem IsTidy.run (h : a.IsTidy) (steps : List SpaceStep) : (a.run steps).IsTidy := by
  induction steps generalizing a with
  | nil => exact h
  | cons step steps ih => exact ih (h.after step)

/-- The arena is no more than its finite maps: its calls are theirs, and so is what it says of every
space. -/
structure Refines (a : SpaceArena) : Prop where
  call : ∀ c, (a.call c).map flat = a.flat.call c
  translate : ∀ space virt, a.translate space virt = a.flat.translate space virt
  leaf : ∀ space virt, a.leaf space virt = a.flat.leaf space virt
  mappingCount : ∀ space, a.mappingCount space = (a.flat.maps space).count

/-- Whatever was done to the arena before, it refines its finite maps. -/
theorem refines_run (placement : PhysAddr) (steps : List SpaceStep) :
    (({ placement } : SpaceArena).run steps).Refines :=
  have h := (isTidy_new placement).run steps
  ⟨h.call_flat, h.translate, h.leaf, h.mappingCount⟩

end SpaceArena

end TerminalKernel
