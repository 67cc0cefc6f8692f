import TerminalKernel.Proofs.FlatSpaces
import TerminalKernel.Proofs.KernelSpace

namespace TerminalKernel

def VirtAddr.Touches (virt : VirtAddr) (start stop : PhysAddr) : Prop :=
  ∃ a : UInt32, a / virt.page.size = virt.val / virt.page.size ∧ start.val ≤ a ∧ a < stop.val

namespace VirtAddr

variable {virt : VirtAddr}

theorem lt_of_not_large (h : virt.isLargeRegion = false) : virt.val.toNat < 4194304 := by
  rw [← Nat.not_le, ← isLargeRegion_iff, h]
  exact Bool.false_ne_true

theorem toNat_start_large (h : virt.isLargeRegion = true) :
    virt.page.start.val.toNat = virt.val.toNat / 4194304 * 4194304 := by
  rw [page_of_large h, Page.start_large]
  rfl

theorem toNat_start_small (h : virt.isLargeRegion = false) :
    virt.page.start.val.toNat = virt.val.toNat / 4096 * 4096 := by
  have hlt := lt_of_not_large h
  have hindex : virt.tableIndex.val = virt.val.toNat / 0x1000 % 1024 := rfl
  rw [page_of_small h, Page.start_small]
  omega

theorem touches_iff {start stop : PhysAddr} :
    virt.Touches start stop ↔ virt.page.Meets start stop := by
  have hlt : virt.val.toNat < 4294967296 := virt.val.toNat_lt
  -- the page in numbers: it has `n` bytes, and as many pages of this size lie before it as fit
  obtain ⟨n, hsize, hn, hstart⟩ : ∃ n, virt.page.size.toNat = n ∧ 0 < n ∧
      virt.page.start.val.toNat = virt.val.toNat / n * n := by
    cases hv : virt.isLargeRegion with
    | true => exact ⟨4194304, by rw [page_of_large hv]; rfl, by omega, toNat_start_large hv⟩
    | false => exact ⟨4096, by rw [page_of_small hv]; rfl, by omega, toNat_start_small hv⟩
  have hshares (a : UInt32) : a / virt.page.size = virt.val / virt.page.size ↔
      virt.page.start.val.toNat ≤ a.toNat ∧ a.toNat < virt.page.start.val.toNat + n := by
    rw [← UInt32.toNat_inj, UInt32.toNat_div, UInt32.toNat_div, hsize, hstart,
      Nat.div_eq_iff hn]
    omega
  simp only [Touches, hshares, Page.Meets, hsize, UInt32.le_iff_toNat_le, UInt32.lt_iff_toNat_lt]
  constructor
  · rintro ⟨a, ⟨hle, hlt⟩, hs, he⟩
    omega
  · rintro ⟨hse, hpe, hsp⟩
    by_cases h : start.val.toNat ≤ virt.page.start.val.toNat
    · exact ⟨virt.page.start.val, ⟨le_rfl, Nat.lt_add_of_pos_right hn⟩, h, hpe⟩
    · exact ⟨start.val, ⟨Nat.le_of_not_le h, hsp⟩, le_rfl, hse⟩

theorem start_offset (virt : VirtAddr) :
    (virt.page.alignDown virt.page.start).offset (virt.offsetIn virt.page) = ⟨virt.val⟩ := by
  have hlt : virt.val.toNat < 4294967296 := virt.val.toNat_lt
  apply physAddr_ext
  rw [PhysAddr.offset, UInt32.toNat_add]
  cases hv : virt.isLargeRegion with
  | true =>
    have hstart := toNat_start_large hv
    have hoff : virt.largePageOffset.toNat = virt.val.toNat % 0x400000 := rfl
    rw [page_of_large hv] at hstart ⊢
    rw [Page.alignDown, alignDownLarge_toNat, hstart, offsetIn, hoff]
    change _ % 4294967296 = virt.val.toNat
    omega
  | false =>
    have hstart := toNat_start_small hv
    have hoff : virt.pageOffset.toNat = virt.val.toNat % 0x1000 := rfl
    rw [page_of_small hv] at hstart ⊢
    rw [Page.alignDown, alignDown_toNat, hstart, offsetIn, hoff]
    change _ % 4294967296 = virt.val.toNat
    omega

end VirtAddr

namespace PageMap

def writeSmall (a : PhysAddr) (m : PageMap) : PageMap :=
  let index := (VirtAddr.mk a.val).tableIndex
  { m with table := m.table.set index (.small a (.writable ||| .global)) index.isLt }

def writeLarge (a : PhysAddr) (m : PageMap) : PageMap :=
  let index := (VirtAddr.mk a.val).dirIndex
  { m with directory := m.directory.set index (.large a (.writable ||| .global)) index.isLt }

/-- Write the pages of one size, from the address `page` on, while they start below `stop`. -/
def sweep (write : PhysAddr → PageMap → PageMap) (size stop page : Nat) (m : PageMap) : PageMap :=
  if 0 < size ∧ page < stop then
    sweep write size stop (page + size) (write ⟨UInt32.ofNat page⟩ m)
  else m
termination_by stop - page

def sweepSmall (m : PageMap) (toTable : Entry) (start stop : PhysAddr) : PageMap :=
  if start.val < largePageSize then
    (m.link toTable).sweep writeSmall 0x1000 (min stop.val.toNat 0x400000)
      start.alignDown.val.toNat
  else m

def sweepLarge (m : PageMap) (start stop : PhysAddr) : PageMap :=
  if largePageSize < stop.val then
    m.sweep writeLarge 0x400000 stop.val.toNat
      (PhysAddr.mk (max start.val largePageSize)).alignDownLarge.val.toNat
  else m

def sweeps (m : PageMap) (toTable : Entry) (start stop : PhysAddr) : PageMap :=
  if stop.val ≤ start.val then m else (m.sweepSmall toTable start stop).sweepLarge start stop

variable {m : PageMap} {link : Entry} {q : Page} {write : PhysAddr → PageMap → PageMap}
  {size stop page low : Nat}

theorem mk_eq_start (h : page = q.start.val.toNat) : PhysAddr.mk (UInt32.ofNat page) = q.start := by
  rw [h, UInt32.ofNat_toNat]

theorem entryAt_writeSmall (hp : 4096 ∣ page) (hlt : page < 4194304) (m : PageMap)
    (h0 : q ≠ .large 0) :
    (writeSmall ⟨UInt32.ofNat page⟩ m).entryAt q =
      if page = q.start.val.toNat then (Mapping.self q.start).entry else m.entryAt q := by
  have hnat : (UInt32.ofNat page).toNat = page := UInt32.toNat_ofNat_of_lt' (hlt.trans (by decide))
  cases q with
  | small i =>
    have hi : i.val < 1024 := i.isLt
    have hindex : ((VirtAddr.mk (UInt32.ofNat page)).tableIndex.val = i.val) ↔
        page = (Page.small i).start.val.toNat := by
      rw [Page.start_small]
      change (UInt32.ofNat page).toNat / 0x1000 % 1024 = i.val ↔ _
      rw [hnat]
      omega
    simp only [writeSmall, entryAt, Fin.getElem_fin, Vector.getElem_set, hindex]
    split
    case isTrue he =>
      rw [mk_eq_start he, entry_self_start h0, Page.entry, PageFlags.writable_global_and]
    case isFalse => rfl
  | large i =>
    have hi := Page.large_ne_zero h0
    have hne : page ≠ (Page.large i).start.val.toNat := by
      rw [Page.start_large]
      omega
    rw [if_neg hne]
    rfl

theorem entryAt_writeLarge (hp : 4194304 ∣ page) (hle : 4194304 ≤ page) (hlt : page < 4294967296)
    (m : PageMap) (h0 : q ≠ .large 0) :
    (writeLarge ⟨UInt32.ofNat page⟩ m).entryAt q =
      if page = q.start.val.toNat then (Mapping.self q.start).entry else m.entryAt q := by
  have hnat : (UInt32.ofNat page).toNat = page := UInt32.toNat_ofNat_of_lt' hlt
  cases q with
  | small i =>
    have hi : i.val < 1024 := i.isLt
    have hne : page ≠ (Page.small i).start.val.toNat := by
      rw [Page.start_small]
      omega
    rw [if_neg hne]
    rfl
  | large i =>
    have hindex : ((VirtAddr.mk (UInt32.ofNat page)).dirIndex.val = i.val) ↔
        page = (Page.large i).start.val.toNat := by
      rw [Page.start_large]
      change (UInt32.ofNat page).toNat / 0x400000 = i.val ↔ _
      rw [hnat]
      omega
    simp only [writeLarge, entryAt, Fin.getElem_fin, Vector.getElem_set, hindex]
    split
    case isTrue he =>
      rw [mk_eq_start he, entry_self_start h0, Page.entry, PageFlags.writable_global_and]
    case isFalse => rfl

/-- What a loop leaves in an entry, if each of its passes writes one page of the given size. -/
theorem entryAt_sweep (hpage : size ∣ page) (hlow : low ≤ page) (hsize : 0 < size)
    (hwrite : ∀ page m, size ∣ page → low ≤ page → page < stop →
      (write ⟨UInt32.ofNat page⟩ m).entryAt q =
        if page = q.start.val.toNat then (Mapping.self q.start).entry else m.entryAt q) :
    (m.sweep write size stop page).entryAt q =
      if page ≤ q.start.val.toNat ∧ q.start.val.toNat < stop ∧ size ∣ q.start.val.toNat then
        (Mapping.self q.start).entry
      else m.entryAt q := by
  fun_induction sweep write size stop page m with
  | case1 page m hmore ih =>
    -- a page behind this one starts a whole page later
    have hnext : size ∣ q.start.val.toNat → page < q.start.val.toNat →
        page + size ≤ q.start.val.toNat := by
      intro hq hlt
      have := Nat.le_of_dvd (Nat.sub_pos_of_lt hlt) (Nat.dvd_sub hq hpage)
      omega
    rw [ih (Nat.dvd_add_self_right.mpr hpage) (by omega), hwrite page m hpage hlow hmore.2]
    by_cases hq : page = q.start.val.toNat
    · rw [if_pos hq, ite_self, if_pos ⟨hq.le, hq ▸ hmore.2, hq ▸ hpage⟩]
    · rw [if_neg hq]
      refine if_congr ?_ rfl rfl
      constructor
      · rintro ⟨hle, hlt, hd⟩
        exact ⟨by omega, hlt, hd⟩
      · rintro ⟨hle, hlt, hd⟩
        exact ⟨hnext hd (lt_of_le_of_ne hle hq), hlt, hd⟩
  | case2 page m hdone =>
    rw [if_neg]
    omega

theorem directory_zero_sweep (hlow : low ≤ page)
    (hwrite : ∀ page m, low ≤ page → page < stop →
      (write ⟨UInt32.ofNat page⟩ m).directory[0] = m.directory[0]) :
    (m.sweep write size stop page).directory[0] = m.directory[0] := by
  fun_induction sweep write size stop page m with
  | case1 page m hmore ih => rw [ih (by omega), hwrite page m hlow hmore.2]
  | case2 page m hdone => rfl

section

variable {start stop : PhysAddr}

theorem toNat_max (a b : UInt32) : (max a b).toNat = max a.toNat b.toNat := by
  change (if a ≤ b then b else a).toNat = _
  split
  case isTrue h => exact (Nat.max_eq_right h).symm
  case isFalse h => exact (Nat.max_eq_left (Nat.le_of_not_le h)).symm

theorem le_firstLarge (start : PhysAddr) :
    4194304 ≤ (PhysAddr.mk (max start.val largePageSize)).alignDownLarge.val.toNat := by
  rw [alignDownLarge_toNat, toNat_max]
  change 4194304 ≤ max _ 4194304 - max _ 4194304 % 4194304
  omega

theorem entryAt_sweepSmall (h0 : q ≠ .large 0) :
    (m.sweepSmall link start stop).entryAt q =
      if start.val.toNat < 4194304 ∧
          start.val.toNat - start.val.toNat % 4096 ≤ q.start.val.toNat ∧
            q.start.val.toNat < min stop.val.toNat 4194304 then
        (Mapping.self q.start).entry
      else m.entryAt q := by
  have hdvd : 0x1000 ∣ q.start.val.toNat := Nat.dvd_of_mod_eq_zero q.start_mod
  unfold sweepSmall
  by_cases hs : start.val < largePageSize
  · have hs' : start.val.toNat < 4194304 := hs
    rw [if_pos hs, entryAt_sweep (Nat.dvd_of_mod_eq_zero (Entry.alignDown_mod start))
      (Nat.zero_le _) (by omega) fun page m hd _ hlt => entryAt_writeSmall hd (by omega) m h0]
    simp only [hdvd, hs', and_true, true_and, alignDown_toNat, entryAt_link h0]
  · have hs' : ¬start.val.toNat < 4194304 := hs
    rw [if_neg hs, if_neg fun h => hs' h.1]

theorem entryAt_sweepLarge (h0 : q ≠ .large 0) {first : Nat}
    (hf : first = max start.val.toNat 4194304) :
    (m.sweepLarge start stop).entryAt q =
      if 4194304 < stop.val.toNat ∧ first - first % 4194304 ≤ q.start.val.toNat ∧
          q.start.val.toNat < stop.val.toNat then
        (Mapping.self q.start).entry
      else m.entryAt q := by
  have hlt : stop.val.toNat < 4294967296 := stop.val.toNat_lt
  have hfirst : (PhysAddr.mk (max start.val largePageSize)).alignDownLarge.val.toNat =
      first - first % 4194304 := by
    rw [alignDownLarge_toNat, toNat_max, hf]
    rfl
  unfold sweepLarge
  by_cases hs : largePageSize < stop.val
  · have hs' : 4194304 < stop.val.toNat := hs
    rw [if_pos hs, entryAt_sweep (Nat.dvd_of_mod_eq_zero (Entry.alignDownLarge_mod _))
      (le_firstLarge start) (by omega)
      fun page m hd hle hlt' => entryAt_writeLarge hd hle (by omega) m h0, hfirst]
    refine if_congr ⟨fun h => ⟨hs', h.1, h.2.1⟩, fun h => ⟨h.2.1, h.2.2, ?_⟩⟩ rfl rfl
    exact Nat.dvd_of_mod_eq_zero (Page.start_mod_of_le (by omega))
  · have hs' : ¬4194304 < stop.val.toNat := hs
    rw [if_neg hs, if_neg fun h => hs' h.1]

theorem meets_iff_swept (h0 : q ≠ .large 0) (hse : start.val.toNat < stop.val.toNat)
    {first : Nat} (hf : first = max start.val.toNat 4194304) :
    q.Meets start stop ↔
      4194304 < stop.val.toNat ∧ first - first % 4194304 ≤ q.start.val.toNat ∧
          q.start.val.toNat < stop.val.toNat ∨
        start.val.toNat < 4194304 ∧
          start.val.toNat - start.val.toNat % 4096 ≤ q.start.val.toNat ∧
            q.start.val.toNat < min stop.val.toNat 4194304 := by
  have hlt : stop.val.toNat < 4294967296 := stop.val.toNat_lt
  cases q with
  | small i =>
    have hi : i.val < 1024 := i.isLt
    have hsize : (Page.small i).size.toNat = 4096 := rfl
    rw [Page.Meets, Page.start_small, hsize]
    omega
  | large i =>
    have hi := Page.large_ne_zero h0
    have hsize : (Page.large i).size.toNat = 4194304 := rfl
    rw [Page.Meets, Page.start_large, hsize]
    omega

theorem entryAt_sweeps (h0 : q ≠ .large 0) :
    (m.sweeps link start stop).entryAt q =
      if q.Meets start stop then (Mapping.self q.start).entry else m.entryAt q := by
  unfold sweeps
  by_cases hle : stop.val ≤ start.val
  · have hno : ¬q.Meets start stop := fun hm => absurd hm.1 (Nat.not_lt.mpr hle)
    rw [if_pos hle, if_neg hno]
  · rw [if_neg hle, entryAt_sweepLarge h0 rfl, entryAt_sweepSmall h0, ← ite_or]
    exact if_congr (meets_iff_swept h0 (Nat.lt_of_not_le hle) rfl).symm rfl rfl

theorem directory_zero_writeLarge (hle : 4194304 ≤ page) (hlt : page < 4294967296) (m : PageMap) :
    (writeLarge ⟨UInt32.ofNat page⟩ m).directory[0] = m.directory[0] := by
  have hne : (VirtAddr.mk (UInt32.ofNat page)).dirIndex.val ≠ 0 := by
    change (UInt32.ofNat page).toNat / 0x400000 ≠ 0
    rw [UInt32.toNat_ofNat_of_lt' hlt]
    omega
  exact Vector.getElem_set_ne (Fin.isLt _) (by decide) hne

theorem directory_zero_sweepSmall :
    (m.sweepSmall link start stop).directory[0] =
      if start.val.toNat < largePageSize.toNat then (m.link link).directory[0]
      else m.directory[0] := by
  unfold sweepSmall
  by_cases hs : start.val < largePageSize
  · have hs' : start.val.toNat < largePageSize.toNat := hs
    rw [if_pos hs, if_pos hs']
    exact directory_zero_sweep (Nat.zero_le _) fun _ _ _ _ => rfl
  · have hs' : ¬start.val.toNat < largePageSize.toNat := hs
    rw [if_neg hs, if_neg hs']

theorem directory_zero_sweepLarge : (m.sweepLarge start stop).directory[0] = m.directory[0] := by
  have hlt : stop.val.toNat < 4294967296 := stop.val.toNat_lt
  unfold sweepLarge
  split
  · exact directory_zero_sweep (le_firstLarge start) fun page m hle hlt' =>
      directory_zero_writeLarge hle (by omega) m
  · rfl

theorem directory_zero_sweeps :
    (m.sweeps link start stop).directory[0] =
      if start.val.toNat < stop.val.toNat ∧ start.val.toNat < largePageSize.toNat then
        (m.link link).directory[0]
      else m.directory[0] := by
  unfold sweeps
  by_cases hle : stop.val ≤ start.val
  · rw [if_pos hle, if_neg fun h => absurd h.1 (Nat.not_lt.mpr hle)]
  · have hse : start.val.toNat < stop.val.toNat := Nat.lt_of_not_le hle
    rw [if_neg hle, directory_zero_sweepLarge, directory_zero_sweepSmall]
    simp only [hse, true_and]

end

/-- Mapping a range is what the two loops do. -/
theorem identify_eq_sweeps (m : PageMap) (link : Entry) (start stop : PhysAddr) :
    m.identify link start stop = m.sweeps link start stop := by
  apply ext_entryAt
  · rw [directory_zero_identify, directory_zero_sweeps]
  · intro q h0
    rw [entryAt_identify h0, entryAt_sweeps h0]

theorem entryAt_identify_of_touches {virt : VirtAddr} {start stop : PhysAddr}
    (h : virt.Touches start stop) :
    (m.identify link start stop).entryAt virt.page = (Mapping.self virt.page.start).entry := by
  rw [entryAt_identify virt.page_ne, if_pos (VirtAddr.touches_iff.mp h)]

theorem entryAt_identify_of_not_touches {virt : VirtAddr} {start stop : PhysAddr}
    (h : ¬virt.Touches start stop) :
    (m.identify link start stop).entryAt virt.page = m.entryAt virt.page := by
  rw [entryAt_identify virt.page_ne, if_neg fun hm => h (VirtAddr.touches_iff.mpr hm)]

theorem identify_of_le {start stop : PhysAddr} (h : stop.val ≤ start.val) :
    m.identify link start stop = m := if_pos h

theorem identify_identify (hp : link.isPresent = true) (start stop : PhysAddr) :
    (m.identify link start stop).identify link start stop = m.identify link start stop := by
  apply ext_entryAt
  · rw [directory_zero_identify]
    split
    case isTrue h =>
      -- the first time has linked the table
      have hzero : (m.identify link start stop).directory[0] = (m.link link).directory[0] := by
        rw [directory_zero_identify, if_pos h]
      rw [PageMap.link, if_pos (by rw [hzero, isPresent_link hp])]
    case isFalse => rfl
  · intro q h0
    rw [entryAt_identify h0]
    split
    case isTrue hq => rw [entryAt_identify h0, if_pos hq]
    case isFalse => rfl

end PageMap

/-- What can happen to the arena: a step, or it comes to lie elsewhere in physical memory. -/
inductive ArenaStep where
  | step (s : SpaceStep)
  | place (placement : PhysAddr)

namespace SpaceArena

variable {a b : SpaceArena} {start stop : PhysAddr}

def afterStep (a : SpaceArena) : ArenaStep → SpaceArena
  | .step s => a.after s
  | .place placement => { a with placement }

def history (a : SpaceArena) (steps : List ArenaStep) : SpaceArena := steps.foldl afterStep a

theorem IsTidy.place (h : a.IsTidy) (placement : PhysAddr) :
    ({ a with placement } : SpaceArena).IsTidy := by
  have hm (x : SpaceId) : ({ a with placement } : SpaceArena).mapAt x = a.mapAt x := by
    cases x <;> rfl
  refine ⟨fun x => ?_, fun x hx => ?_⟩
  · rw [hm]
    exact h.flat x
  · rw [hm]
    exact h.empty x hx

theorem IsTidy.history (h : a.IsTidy) (steps : List ArenaStep) : (a.history steps).IsTidy := by
  induction steps generalizing a with
  | nil => exact h
  | cons step steps ih =>
    cases step with
    | step s => exact ih (h.after s)
    | place placement => exact ih (h.place placement)

structure LinksForKernel (a : SpaceArena) : Prop where
  isSupervisor : a.kernel.directory[0].isPresent = true → a.kernel.directory[0].IsSupervisor

/-- The first entry of the kernel's directory stays, or it becomes the link of its table. -/
theorem LinksForKernel.of_link (h : a.LinksForKernel)
    (hb : b.kernel.directory[0] = a.kernel.directory[0] ∨
      b.kernel.directory[0] = (a.kernel.link (a.tableLink .kernel)).directory[0]) :
    b.LinksForKernel := by
  constructor
  obtain hb | hb := hb
  · rw [hb]
    exact h.isSupervisor
  · rw [hb, PageMap.link]
    split
    case isTrue => exact h.isSupervisor
    case isFalse =>
      intro _
      simpa using a.isSupervisor_tableLink

theorem kernel_call (h : a.IsTidy) {c : SpaceCall} (hc : a.call c = .ok b) :
    b.kernel = a.kernel ∨ ∃ page e, page ≠ .large 0 ∧
      b.kernel = a.kernel.put (a.tableLink .kernel) e page := by
  cases h.becomes hc with
  | claimed _ _ => exact Or.inl rfl
  | rewritten space virt phys flags _ =>
    cases space with
    | kernel => exact Or.inr ⟨virt.page, _, virt.page_ne, rfl⟩
    | process slot => exact Or.inl rfl
  | freed _ _ _ => exact Or.inl rfl
  | activated _ _ => exact Or.inl rfl

theorem directory_zero_identify (a : SpaceArena) (start stop : PhysAddr) :
    (a.identify start stop).kernel.directory[0] =
      if start.val.toNat < stop.val.toNat ∧ start.val.toNat < largePageSize.toNat then
        (a.kernel.link (a.tableLink .kernel)).directory[0]
      else a.kernel.directory[0] := PageMap.directory_zero_identify start stop

theorem LinksForKernel.identify (h : a.LinksForKernel) (start stop : PhysAddr) :
    (a.identify start stop).LinksForKernel := by
  have hzero := a.directory_zero_identify start stop
  refine h.of_link ?_
  split at hzero
  · exact Or.inr hzero
  · exact Or.inl hzero

theorem LinksForKernel.afterStep (h : a.LinksForKernel) (ht : a.IsTidy) (step : ArenaStep) :
    (a.afterStep step).LinksForKernel := by
  cases step with
  | place placement => exact ⟨h.isSupervisor⟩
  | step s =>
    cases s with
    | identify start stop => exact h.identify start stop
    | call c =>
      rw [SpaceArena.afterStep, after]
      cases hc : a.call c with
      | error e => exact h
      | ok b =>
        refine h.of_link ?_
        obtain hk | ⟨page, e, h0, hk⟩ := kernel_call ht hc
        · exact Or.inl (by rw [hk])
        · rw [hk]
          cases page with
          | small i => exact Or.inr rfl
          | large i =>
            exact Or.inl (Vector.getElem_set_ne i.isLt (by decide) (Page.large_ne_zero h0))

theorem LinksForKernel.history (h : a.LinksForKernel) (ht : a.IsTidy) (steps : List ArenaStep) :
    (a.history steps).LinksForKernel := by
  induction steps generalizing a with
  | nil => exact h
  | cons step steps ih => exact ih (h.afterStep ht step) (ht.history [step])

/-- What mapping a range to itself does to an arena. -/
structure Identifies (a : SpaceArena) (start stop : PhysAddr) : Prop where
  inside : ∀ virt : VirtAddr, virt.Touches start stop →
    (a.identify start stop).translate .kernel virt = some ⟨virt.val⟩ ∧
      ∃ e, (a.identify start stop).leaf .kernel virt = some e ∧ e.isPresent = true ∧
        e.flags.contains .global = true ∧ e.IsSupervisor
  /-- Small pages lie behind the link of a table, which is there for the kernel alone too. -/
  linked : ∀ virt : VirtAddr, virt.Touches start stop → virt.isLargeRegion = false →
    (a.identify start stop).kernel.directory[0].isPresent = true ∧
      (a.identify start stop).kernel.directory[0].IsSupervisor
  outside : ∀ virt : VirtAddr, ¬virt.Touches start stop →
    (a.identify start stop).translate .kernel virt = a.translate .kernel virt ∧
      (a.identify start stop).leaf .kernel virt = a.leaf .kernel virt
  others : (a.identify start stop).process = a.process ∧
    (a.identify start stop).owned = a.owned ∧ (a.identify start stop).active = a.active ∧
      (a.identify start stop).placement = a.placement
  empty : stop.val ≤ start.val → a.identify start stop = a
  again : (a.identify start stop).identify start stop = a.identify start stop
  /-- The pages are visited in order, first the small ones and then the large ones. -/
  swept : (a.identify start stop).kernel = a.kernel.sweeps (a.tableLink .kernel) start stop

theorem leaf_kernel (h : a.IsTidy) (virt : VirtAddr) :
    a.leaf .kernel virt = if (a.kernel.entryAt virt.page).isPresent then
      some (a.kernel.entryAt virt.page) else none :=
  (h.flat .kernel).toIsRegular.leaf virt

theorem translate_kernel (h : a.IsTidy) (virt : VirtAddr) :
    a.translate .kernel virt = if (a.kernel.entryAt virt.page).isPresent then
      some ((a.kernel.entryAt virt.page).base.offset (virt.offsetIn virt.page)) else none :=
  (h.flat .kernel).toIsRegular.translate virt

theorem isPresent_directory_zero_identify {virt : VirtAddr} (hv : virt.Touches start stop)
    (hlow : virt.isLargeRegion = false) :
    (a.identify start stop).kernel.directory[0].isPresent = true := by
  have hzero := a.directory_zero_identify start stop
  obtain ⟨hse, -, hsp⟩ := VirtAddr.touches_iff.mp hv
  have hstart : start.val.toNat < 4194304 := by
    have hlt := VirtAddr.lt_of_not_large hlow
    have hsize : virt.page.size.toNat = 4096 := by rw [VirtAddr.page_of_small hlow]; rfl
    rw [VirtAddr.toNat_start_small hlow, hsize] at hsp
    omega
  rw [if_pos ⟨hse, hstart⟩] at hzero
  exact (congrArg Entry.isPresent hzero).trans
    (PageMap.isPresent_link (isPresent_tableLink .kernel) a.kernel)

theorem IsTidy.identifies (h : a.IsTidy) (hl : a.LinksForKernel) (start stop : PhysAddr) :
    a.Identifies start stop where
  inside virt hv := by
    have he : (a.identify start stop).kernel.entryAt virt.page =
        (Mapping.self virt.page.start).entry := PageMap.entryAt_identify_of_touches hv
    have hp : (Mapping.self virt.page.start).entry.isPresent = true :=
      PageMap.isPresent_entry ..
    rw [translate_kernel (h.identify start stop), leaf_kernel (h.identify start stop), he, if_pos hp,
      if_pos hp]
    refine ⟨?_, _, rfl, hp, Mapping.global_self _, Mapping.isSupervisor_self _⟩
    rw [PageMap.entry_self_start virt.page_ne, Page.base_entry, virt.start_offset]
  linked virt hv hlow := by
    have hp : (a.identify start stop).kernel.directory[0].isPresent = true :=
      isPresent_directory_zero_identify hv hlow
    exact ⟨hp, (hl.identify start stop).isSupervisor hp⟩
  outside virt hv := by
    have he : (a.identify start stop).kernel.entryAt virt.page = a.kernel.entryAt virt.page :=
      PageMap.entryAt_identify_of_not_touches hv
    rw [translate_kernel (h.identify start stop), leaf_kernel (h.identify start stop), he,
      translate_kernel h, leaf_kernel h]
    exact ⟨rfl, rfl⟩
  others := ⟨rfl, rfl, rfl, rfl⟩
  empty hle := congrArg (fun m => { a with kernel := m }) (PageMap.identify_of_le hle)
  again := congrArg (fun m => { a with kernel := m })
    (PageMap.identify_identify (isPresent_tableLink .kernel) start stop)
  swept := PageMap.identify_eq_sweeps ..

theorem linksForKernel_new (placement : PhysAddr) :
    ({ placement } : SpaceArena).LinksForKernel := by
  refine ⟨fun hp => ?_⟩
  simp [PageMap.empty, PageTable.empty] at hp

/-- Whatever was done to the arena before, and wherever it lies. -/
theorem identifies_history (placement : PhysAddr) (steps : List ArenaStep) (start stop : PhysAddr) :
    (({ placement } : SpaceArena).history steps).Identifies start stop := by
  have ht := isTidy_new placement
  have hl := (linksForKernel_new placement).history ht steps
  exact (ht.history steps).identifies hl start stop

end SpaceArena

end TerminalKernel
