import TerminalKernel.AddressSpace.Arena
import TerminalKernel.Proofs.Entries

namespace TerminalKernel

inductive Page where
  | small (i : Fin entryCount)
  | large (i : Fin entryCount)
  deriving DecidableEq

def VirtAddr.page (virt : VirtAddr) : Page :=
  if virt.isLargeRegion then .large virt.dirIndex else .small virt.tableIndex

theorem VirtAddr.isLargeRegion_iff (virt : VirtAddr) :
    virt.isLargeRegion = true ↔ 4194304 ≤ virt.val.toNat := by
  simp [isLargeRegion, largePageSize, UInt32.le_iff_toNat_le]

theorem VirtAddr.page_of_large {virt : VirtAddr} (h : virt.isLargeRegion = true) :
    virt.page = .large virt.dirIndex := by
  rw [page, if_pos h]

theorem VirtAddr.page_of_small {virt : VirtAddr} (h : virt.isLargeRegion = false) :
    virt.page = .small virt.tableIndex := by
  rw [page, h, if_neg (by simp)]

theorem VirtAddr.dirIndex_eq_zero {virt : VirtAddr} :
    virt.dirIndex.val = 0 ↔ virt.isLargeRegion = false := by
  rw [← Bool.not_eq_true, isLargeRegion_iff]
  change virt.val.toNat / 0x400000 = 0 ↔ _
  omega

/-- No address belongs to the large page that the low table replaces. -/
theorem VirtAddr.page_ne (virt : VirtAddr) : virt.page ≠ .large 0 := by
  intro h
  cases hv : virt.isLargeRegion with
  | true =>
    rw [page_of_large hv, Page.large.injEq] at h
    have h0 := dirIndex_eq_zero.mp (congrArg Fin.val h)
    rw [hv] at h0
    cases h0
  | false =>
    rw [page_of_small hv] at h
    cases h

def VirtAddr.offsetIn (virt : VirtAddr) : Page → UInt32
  | .small _ => virt.pageOffset
  | .large _ => virt.largePageOffset

/-- The entry that a page gets for a caller of `map` or `remap`. -/
def Page.entry (page : Page) (phys : PhysAddr) (flags : PageFlags) : Entry :=
  match page with
  | .small _ => .small phys (flags &&& PageFlags.callerMask)
  | .large _ => .large phys (flags &&& PageFlags.callerMask)

namespace PageMap

variable (m : PageMap) (link e : Entry)

def entryAt : Page → Entry
  | .small i => m.table[i]
  | .large i => m.directory[i]

def put : Page → PageMap
  | .small i => { m.link link with table := m.table.set i e i.isLt }
  | .large i => { m with directory := m.directory.set i e i.isLt }

theorem map_eq (virt : VirtAddr) (phys : PhysAddr) (flags : PageFlags) :
    m.map link virt phys flags =
      if (m.entryAt virt.page).isPresent then .error .mappingConflict
      else .ok (m.put link (virt.page.entry phys flags) virt.page) := by
  unfold PageMap.map VirtAddr.page
  cases h : virt.isLargeRegion <;> simp [entryAt, put, Page.entry]

theorem entryAt_put {page other : Page} (h : other ≠ .large 0) :
    (m.put link e page).entryAt other = if other = page then e else m.entryAt other := by
  cases page with
  | small i =>
    cases other with
    | small j => simp [put, entryAt, Vector.getElem_set, Fin.ext_iff, eq_comm]
    | large j =>
      have hj : 0 ≠ j.val := fun he => h (congrArg Page.large (Fin.ext he.symm))
      have hl : (m.link link).directory[j] = m.directory[j] := by
        rw [PageMap.link]
        split
        · rfl
        · exact Vector.getElem_set_ne (Nat.succ_pos _) j.isLt hj
      simpa [put, entryAt] using hl
  | large i =>
    cases other with
    | small j => simp [put, entryAt]
    | large j => simp [put, entryAt, Vector.getElem_set, Fin.ext_iff, eq_comm]

/-- The directory starts with the link to the low table, which is there once the table has an entry.
Every other entry of the directory is empty or a large page. -/
structure IsRegular : Prop where
  link : m.directory[0].isLarge = false
  low : m.directory[0].isPresent = false → ∀ i : Fin entryCount, m.table[i].isPresent = false
  large : ∀ i : Fin entryCount, i.val ≠ 0 → m.directory[i].isPresent → m.directory[i].isLarge

variable {m}

theorem IsRegular.walk (h : m.IsRegular) (virt : VirtAddr) :
    m.walk virt = if (m.entryAt virt.page).isPresent then
      some (m.entryAt virt.page, virt.offsetIn virt.page) else none := by
  unfold PageMap.walk
  cases hv : virt.isLargeRegion with
  | true =>
    have hi : virt.dirIndex.val ≠ 0 := fun he => by simp [VirtAddr.dirIndex_eq_zero.mp he] at hv
    have hl := h.large virt.dirIndex hi
    rw [VirtAddr.page_of_large hv]
    simp only [entryAt, VirtAddr.offsetIn, Fin.getElem_fin] at hl ⊢
    by_cases hp : m.directory[virt.dirIndex.val].isPresent = true
    · simp [hp, hl hp]
    · simp [hp]
  | false =>
    have hd : m.directory[virt.dirIndex] = m.directory[0] := by
      simp only [Fin.getElem_fin, VirtAddr.dirIndex_eq_zero.mpr hv]
    have hlow := fun hp => h.low hp virt.tableIndex
    rw [VirtAddr.page_of_small hv]
    simp only [entryAt, VirtAddr.offsetIn, Fin.getElem_fin, hd] at hlow ⊢
    by_cases hp : m.directory[0].isPresent = true
    · simp only [hp, h.link]
      rfl
    · simp [hp, hlow (by simpa using hp)]

theorem IsRegular.leaf (h : m.IsRegular) (virt : VirtAddr) :
    m.leaf virt = if (m.entryAt virt.page).isPresent then some (m.entryAt virt.page) else none := by
  rw [PageMap.leaf, h.walk]
  split <;> rfl

theorem IsRegular.translate (h : m.IsRegular) (virt : VirtAddr) :
    m.translate virt = if (m.entryAt virt.page).isPresent then
      some ((m.entryAt virt.page).base.offset (virt.offsetIn virt.page)) else none := by
  rw [PageMap.translate, h.walk]
  split <;> rfl

theorem IsRegular.remap (h : m.IsRegular) (link : Entry) (virt : VirtAddr) (phys : PhysAddr)
    (flags : PageFlags) :
    m.remap virt phys flags =
      if (m.entryAt virt.page).isPresent then
        .ok (m.put link (virt.page.entry phys flags) virt.page)
      else .error .mappingAbsent := by
  unfold PageMap.remap
  cases hv : virt.isLargeRegion with
  | true => simp [VirtAddr.page_of_large hv, entryAt, PageMap.put, Page.entry]
  | false =>
    have hlow := fun hp => h.low hp virt.tableIndex
    rw [VirtAddr.page_of_small hv]
    simp only [entryAt, PageMap.put, Page.entry, PageMap.link, Fin.getElem_fin] at hlow ⊢
    by_cases hp : m.directory[0].isPresent = true
    · simp [hp]
    · simp [hp, hlow (by simpa using hp)]

theorem isRegular_empty : PageMap.empty.IsRegular := by
  constructor <;> simp [PageMap.empty, PageTable.empty]

theorem isPresent_link {link : Entry} (hp : link.isPresent = true) (m : PageMap) :
    (m.link link).directory[0].isPresent = true := by
  unfold PageMap.link
  split
  case isTrue h => exact h
  case isFalse => simpa using hp

theorem IsRegular.directory_zero_link (h : m.IsRegular) {link : Entry}
    (hp : link.isPresent = true) (hl : link.isLarge = false) :
    (m.link link).directory[0].isPresent = true ∧ (m.link link).directory[0].isLarge = false := by
  unfold PageMap.link
  split
  case isTrue hm => exact ⟨hm, h.link⟩
  case isFalse => simp [hp, hl]

theorem IsRegular.put (h : m.IsRegular) {link : Entry} (hp : link.isPresent = true)
    (hl : link.isLarge = false) {page : Page} (h0 : page ≠ .large 0) (phys : PhysAddr)
    (flags : PageFlags) : (m.put link (page.entry phys flags) page).IsRegular := by
  cases page with
  | small i =>
    have hd := h.directory_zero_link hp hl
    refine ⟨hd.2, ?_, ?_⟩
    · intro hn
      rw [PageMap.put, hd.1] at hn
      cases hn
    · intro j hj hpj
      have hj0 : Page.large j ≠ .large 0 := fun he => hj (congrArg Fin.val (Page.large.inj he))
      have hm : (m.put link ((Page.small i).entry phys flags) (.small i)).entryAt (.large j) =
          m.entryAt (.large j) := (m.entryAt_put link _ hj0).trans (if_neg (by simp))
      have hd : (m.put link ((Page.small i).entry phys flags) (.small i)).directory[j] =
          m.directory[j] := hm
      rw [hd] at hpj ⊢
      exact h.large j hj hpj
  | large i =>
    have hi : i.val ≠ 0 := fun he => h0 (congrArg Page.large (Fin.ext he))
    refine ⟨?_, ?_, ?_⟩
    · simpa [PageMap.put, Vector.getElem_set, hi] using h.link
    · intro hn
      exact h.low (by simpa [PageMap.put, Vector.getElem_set, hi] using hn)
    · intro j hj hpj
      by_cases hji : j = i
      · subst hji
        simpa [PageMap.put, Page.entry] using
          Entry.isLarge_large phys (PageFlags.isCaller_and flags)
      · have hv : i.val ≠ j.val := fun he => hji (Fin.ext he.symm)
        simp only [PageMap.put, Fin.getElem_fin, Vector.getElem_set, if_neg hv] at hpj ⊢
        exact h.large j hj hpj

theorem isPresent_entry (page : Page) (phys : PhysAddr) (flags : PageFlags) :
    (page.entry phys flags).isPresent = true := by
  cases page with
  | small i => exact Entry.isPresent_small phys (PageFlags.isCaller_and flags)
  | large i => exact Entry.isPresent_large phys (PageFlags.isCaller_and flags)

theorem ext_entryAt {n : PageMap} (h0 : m.directory[0] = n.directory[0])
    (h : ∀ page, page ≠ .large 0 → m.entryAt page = n.entryAt page) : m = n := by
  cases m with
  | mk d t =>
    cases n with
    | mk d' t' =>
      have hd : d = d' := by
        apply Vector.ext
        intro i hi
        by_cases hz : i = 0
        · subst i
          exact h0
        · exact h (.large ⟨i, hi⟩) (fun he => hz (congrArg Fin.val (Page.large.inj he)))
      have ht : t = t' := Vector.ext fun i hi => h (.small ⟨i, hi⟩) (by simp)
      rw [hd, ht]

end PageMap

end TerminalKernel
