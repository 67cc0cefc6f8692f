import TerminalKernel.Proofs.Areas
import TerminalKernel.Proofs.Globals
import TerminalKernel.Proofs.RoundTrips

namespace TerminalKernel

namespace Layout

variable {l : Layout} {slot : Nat} {video : PhysAddr} {virt : VirtAddr} {phys phys' : PhysAddr}
  {flags flags' : PageFlags}

theorem Fits.maps_unique (h : l.Fits) (hs : slot < processCapacity)
    (hv : video.val.toNat % 4096 = 0) (hm : l.Maps slot video virt phys flags)
    (hm' : l.Maps slot video virt phys' flags') : phys = phys' ∧ flags = flags' := by
  have ha := h.aligned_mappings hs hv
  obtain ⟨x, hx, hsends⟩ := (h.sends_iff hs hv).mpr hm
  obtain ⟨y, hy, hsends'⟩ := (h.sends_iff hs hv).mpr hm'
  have hxp := (ha x hx).page_eq_iff.mpr ⟨phys, flags, hsends⟩
  have hyp := (ha y hy).page_eq_iff.mpr ⟨phys', flags', hsends'⟩
  obtain rfl := h.eq_of_page_eq hx hy (hxp.symm.trans hyp)
  refine ⟨(hsends.phys_eq (ha x hx)).trans (hsends'.phys_eq (ha x hx)).symm, ?_⟩
  obtain ⟨-, -, -, -, hf⟩ := hsends
  obtain ⟨-, -, -, -, hf'⟩ := hsends'
  exact hf.trans hf'.symm

theorem Valid.user_iff (h : l.Valid) (hs : slot < processCapacity)
    (hv : video.val.toNat % 4096 = 0) :
    (∃ virt flags, l.Maps slot video virt phys flags ∧ flags.contains .user = true) ↔
      phys ∈ Area.largePage (l.programPhys slot) ∨ phys ∈ Area.page video := by
  rw [Area.mem_largePage_iff_offset (h.isLarge_program hs).phys_mod, Area.mem_page_iff_offset hv]
  constructor
  · rintro ⟨virt, flags, hm, hu⟩
    cases hm with
    | program d hd => exact Or.inl ⟨d, hd, rfl⟩
    | kernel => exact absurd hu (by decide)
    | video d hd => exact Or.inr ⟨d, hd, rfl⟩
    | buffer => exact absurd hu (by decide)
  · rintro (⟨d, hd, rfl⟩ | ⟨d, hd, rfl⟩)
    · exact ⟨_, _, .program d hd, by decide⟩
    · exact ⟨_, _, .video d hd, by decide⟩

end Layout

namespace Kernel

variable {M D F : Type} [FileSystem F] {k : Kernel M D F} {σ : TerminalId → List ProcessId}
  {x y : ProcessId} {p q : ProcessRecord} {b : PhysAddr}

omit [FileSystem F] in
/-- User code of a process reaches a byte of physical memory. -/
def Reaches (k : Kernel M D F) (x : ProcessId) (b : PhysAddr) : Prop :=
  ∃ p space virt e, k.processes.get? x = some p ∧ p.space = some space ∧
    k.spaces.leaf space virt = some e ∧ e.flags.contains .user = true ∧
      k.spaces.translate space virt = some b

omit [FileSystem F] in
theorem Reaches.live (h : k.Reaches x b) : ∃ p, k.processes.get? x = some p := by
  obtain ⟨p, -, -, -, hp, -⟩ := h
  exact ⟨p, hp⟩

/-- No process reaches the kernel, and what two processes both reach is on the screen of their
terminal. -/
structure Isolated (k : Kernel M D F) : Prop where
  kernel : ∀ x b, k.Reaches x b → b ∉ Area.largePage k.layout.kernelRegion
  kernelStacks : ∀ x b, k.Reaches x b → ∀ slot : ProcessId, b ∉ k.layout.kernelStack slot
  shared : ∀ x y b, x ≠ y → k.Reaches x b → k.Reaches y b →
    ∃ p q, k.processes.get? x = some p ∧ k.processes.get? y = some q ∧
      p.terminal = q.terminal ∧ b ∈ Area.page (k.videoTarget p.terminal)

theorem Consistent.reaches_iff (h : k.Consistent σ) (hf : k.layout.Fits)
    (hp : k.processes.get? x = some p) :
    k.Reaches x b ↔ b ∈ Area.largePage (k.layout.programPhys x) ∨
      b ∈ Area.page (k.videoTarget p.terminal) := by
  have hv := videoTarget_mod hf.toValid p.terminal
  have hspace := (h.launched x p hp).space
  rw [← hf.user_iff x.isLt hv]
  constructor
  · rintro ⟨q, space, virt, e, hq, hs, he, hu, ht⟩
    rw [hp] at hq
    cases hq
    rw [hspace] at hs
    cases hs
    have hflags : (k.spaces.leaf (.process x) virt).map Entry.flags = some e.flags := by
      rw [he, Option.map_some]
    obtain ⟨flags, hm⟩ := (h.translate_iff hf hp virt b).mp ht
    obtain ⟨_, hm'⟩ := (h.flags_leaf_iff hf hp virt e.flags).mp hflags
    obtain ⟨-, rfl⟩ := hf.maps_unique x.isLt hv hm hm'
    exact ⟨virt, _, hm, hu⟩
  · rintro ⟨virt, flags, hm, hu⟩
    have hflags := (h.flags_leaf_iff hf hp virt flags).mpr ⟨b, hm⟩
    obtain ⟨e, he, rfl⟩ := Option.map_eq_some_iff.mp hflags
    exact ⟨p, _, virt, e, hp, hspace, he, hu, (h.translate_iff hf hp virt b).mpr ⟨_, hm⟩⟩

omit [FileSystem F] in
theorem videoTarget_injective (hf : k.layout.Fits) {t u : TerminalId}
    (he : k.videoTarget t = k.videoTarget u) : t = u := by
  unfold videoTarget at he
  split at he
  case isTrue ht =>
    split at he
    case isTrue hu => rw [ht, hu]
    case isFalse => exact absurd he.symm (hf.videoBuffer_ne u)
  case isFalse =>
    split at he
    case isTrue => exact absurd he (hf.videoBuffer_ne t)
    case isFalse =>
      have hval := congrArg (fun a : PhysAddr => a.val.toNat) he
      rw [hf.videoBuffer_toNat, hf.videoBuffer_toNat] at hval
      exact Fin.ext (by omega)

omit [FileSystem F] in
theorem videoTarget_displayed : k.videoTarget k.displayed = k.layout.video := if_pos rfl

omit [FileSystem F] in
theorem mem_screen (hv : k.layout.Valid) {t : TerminalId} (hb : b ∈ Area.page (k.videoTarget t)) :
    b ∈ Area.page k.layout.video ∨ b ∈ k.layout.buffers := by
  unfold videoTarget at hb
  split at hb
  · exact Or.inl hb
  · exact Or.inr (hv.mem_buffers.mpr ⟨t, hb⟩)

section

variable (h : k.Consistent σ) (hf : k.layout.Fits)
include h hf

theorem Consistent.area_of_reaches (hr : k.Reaches x b) :
    b ∈ k.layout.programs ∨ b ∈ Area.page k.layout.video ∨ b ∈ k.layout.buffers := by
  obtain ⟨p, hp⟩ := hr.live
  obtain hw | hs := (h.reaches_iff hf hp).mp hr
  · exact Or.inl (hf.mem_programs.mpr ⟨x, hw⟩)
  · exact Or.inr (mem_screen hf.toValid hs)

theorem Consistent.shared_of_reaches (hl : k.layout.Separated) (hxy : x ≠ y) (hx : k.Reaches x b)
    (hy : k.Reaches y b) :
    ∃ p q, k.processes.get? x = some p ∧ k.processes.get? y = some q ∧
      p.terminal = q.terminal ∧ b ∈ Area.page (k.videoTarget p.terminal) := by
  obtain ⟨p, hp⟩ := hx.live
  obtain ⟨q, hq⟩ := hy.live
  have hscreen {t : TerminalId} {z : ProcessId}
      (hz : b ∈ Area.largePage (k.layout.programPhys z)) : b ∉ Area.page (k.videoTarget t) := by
    intro ht
    have hb := hf.mem_programs.mpr ⟨z, hz⟩
    obtain hv | hs := mem_screen hf.toValid ht
    · exact hl.video.not_mem hb hv
    · exact (hf.buffers_apart_programs hl.video).not_mem hs hb
  refine ⟨p, q, hp, hq, ?_⟩
  obtain hxw | hxs := (h.reaches_iff hf hp).mp hx
  · obtain hyw | hys := (h.reaches_iff hf hq).mp hy
    · -- the windows of two slots are apart
      rw [Area.mem_largePage, hf.programPhys_toNat x.isLt] at hxw
      rw [Area.mem_largePage, hf.programPhys_toNat y.isLt] at hyw
      exact absurd (Fin.ext (by omega)) hxy
    · exact absurd hys (hscreen hxw)
  · obtain hyw | hys := (h.reaches_iff hf hq).mp hy
    · exact absurd hxs (hscreen hyw)
    · have hpage := Area.eq_of_mem_page (videoTarget_mod hf.toValid p.terminal)
        (videoTarget_mod hf.toValid q.terminal) hxs hys
      exact ⟨videoTarget_injective hf hpage, hxs⟩

theorem Consistent.isolated (hst : k.layout.ValidStacks) (hl : k.layout.Separated) :
    k.Isolated := by
  refine ⟨?_, ?_, fun x y b hxy hx hy => h.shared_of_reaches hf hl hxy hx hy⟩
  · intro x b hr
    obtain hb | hb | hb := h.area_of_reaches hf hr
    · exact hl.kernel.not_mem hb
    · exact hf.video_apart_kernel.not_mem hb
    · exact hf.buffers_apart_kernel.not_mem hb
  · intro x b hr slot hslot
    have hs := hst.mem_kernelStacks.mpr ⟨slot, hslot⟩
    obtain hb | hb | hb := h.area_of_reaches hf hr
    · exact hl.kernelStacks.not_mem hb hs
    · exact hl.kernelStacks_video.not_mem hs hb
    · exact hl.kernelStacks_buffers.not_mem hs hb

end

omit [FileSystem F] in
def freeSlots (k : Kernel M D F) : Finset ProcessId :=
  Finset.univ.filter fun x => k.processes.get? x = none

omit [FileSystem F] in
theorem mem_freeSlots : x ∈ k.freeSlots ↔ k.processes.get? x = none := by
  rw [freeSlots, Finset.mem_filter]
  exact and_iff_right (Finset.mem_univ x)

variable [Machine M] [Devices D]

theorem run_append (ops ops' : List Operation) :
    (k.run (ops ++ ops')).2 = ((k.run ops).2.run ops').2 := by
  induction ops generalizing k with
  | nil => rfl
  | cons op ops ih => exact ih

theorem Sound.fills_slot (h : k.Sound σ) {child : ProcessId}
    (hfree : k.processes.firstFree? = some child) :
    ∃ op σ', (k.operate op).2.Sound σ' ∧ (k.operate op).2.freeSlots ⊂ k.freeSlots := by
  obtain ⟨prog, hprog⟩ := h.shell
  let caller : SavedContext := ⟨0, 0, ⟨Selector.kernelData, 0⟩⟩
  have hrequest : (Operation.execute Kernel.shell caller).request =
      .execute Kernel.shell caller := rfl
  have hservices : ∀ op ∈ ([] : List Operation), op.request = .service := by simp
  obtain ⟨cur, p, prog, files, hc, hp, hnone, h₁, hcore⟩ :=
    h.working_run hrequest (h.execute_enters hprog hfree caller) hservices
  have hne : cur ≠ child := Records.ne_of_eq_none hp hnone
  have hget := (congrArg ProcessTable.get? hcore.processes).trans
    (get?_working (k := k.masked) h.layout hp hne)
  refine ⟨.execute Kernel.shell caller, _, h₁, ?_⟩
  rw [Finset.ssubset_iff_of_subset]
  · refine ⟨child, mem_freeSlots.mpr hnone, ?_⟩
    rw [mem_freeSlots]
    intro hchild
    have hsome := (congrFun hget child).symm.trans hchild
    rw [Function.update_self] at hsome
    cases hsome
  · intro x hx
    rw [mem_freeSlots] at hx ⊢
    have hx' := (congrFun hget x).symm.trans hx
    rw [Function.update_apply, Function.update_apply] at hx'
    split at hx'
    · cases hx'
    · split at hx'
      · cases hx'
      · exact hx'

theorem Sound.fills (h : k.Sound σ) :
    ∃ ops, ∀ x, ∃ p, (k.run ops).2.processes.get? x = some p := by
  induction hn : k.freeSlots using Finset.strongInduction generalizing k σ with
  | H free ih =>
    cases hfree : k.processes.firstFree? with
    | none =>
      refine ⟨[], fun x => Option.ne_none_iff_exists'.mp fun hx => ?_⟩
      obtain ⟨y, hy⟩ := ProcessTable.firstFree_isSome (t := k.processes) hx
      rw [hfree] at hy
      cases hy
    | some child =>
      obtain ⟨op, σ', h', hsub⟩ := h.fills_slot hfree
      rw [hn] at hsub
      obtain ⟨ops, hops⟩ := ih _ hsub h' rfl
      exact ⟨op :: ops, hops⟩

theorem Sound.displays (h : k.Sound σ) (t : TerminalId) :
    ∃ op, (k.operate op).2.displayed = t ∧ (k.operate op).2.processes = k.processes := by
  refine ⟨.switchTerminal t none, ?_⟩
  obtain ⟨k', σ', he, ha⟩ := operate_effect h (.switchTerminal t none)
  rw [ha.displayed, ha.processes]
  generalize (k.operate (.switchTerminal t none)).1.transfer = transfer at he
  cases he with
  | kept hd =>
    have hs := sameCore_leave k k.masked
    exact ⟨hs.displayed.trans hd, hs.processes⟩
  | @shown _ cur calls hc hne hcalls =>
    have hs := sameCore_leave k ((k.masked.shown t).performAll calls)
    exact ⟨hs.displayed, hs.processes⟩

omit [Machine M] [Devices D] in
theorem Sound.reaches_screen (h : k.Sound σ) {t : TerminalId}
    (hb : b ∈ Area.page (k.videoTarget t)) :
    ∃ x p, k.processes.get? x = some p ∧ p.terminal = t ∧ k.Reaches x b := by
  obtain ⟨x, hx⟩ := List.exists_mem_of_ne_nil _ (h.inhabited t)
  obtain ⟨p, hp, rfl⟩ := h.stacked.mem_iff.mp hx
  exact ⟨x, p, hp, rfl, (h.reaches_iff h.fits hp).mpr (Or.inr hb)⟩

/-- Processes come to reach all programs and all screens. -/
theorem Sound.exists_reaches (h : k.Sound σ)
    (hb : b ∈ k.layout.programs ∨ b ∈ Area.page k.layout.video ∨ b ∈ k.layout.buffers) :
    ∃ ops x, (k.run ops).2.Reaches x b := by
  obtain hb | hb | hb := hb
  · obtain ⟨slot, hslot⟩ := h.fits.mem_programs.mp hb
    obtain ⟨ops, hops⟩ := h.fills
    obtain ⟨p, hp⟩ := hops slot
    obtain ⟨σ', h'⟩ := h.run ops
    refine ⟨ops, slot, (h'.reaches_iff h'.fits hp).mpr (Or.inl ?_)⟩
    rwa [(h.run_fixed ops).2]
  · rw [← videoTarget_displayed] at hb
    obtain ⟨x, p, -, -, hr⟩ := h.reaches_screen hb
    exact ⟨[], x, hr⟩
  · obtain ⟨t, ht⟩ := h.fits.mem_buffers.mp hb
    obtain ⟨op, hd, -⟩ := h.displays t.next
    obtain ⟨σ', h'⟩ := h.operate op
    have hscreen : (k.operate op).2.videoTarget t = k.layout.videoBuffer t := by
      rw [videoTarget, hd, if_neg t.next_ne.symm]
      exact congrArg (Layout.videoBuffer · t) (h.run_fixed [op]).2
    rw [← hscreen] at ht
    obtain ⟨x, p, -, -, hr⟩ := h'.reaches_screen ht
    exact ⟨[op], x, hr⟩

theorem Sound.exists_hidden (h : k.Sound σ) (slot : ProcessId) :
    ∃ ops p, (k.run ops).2.processes.get? slot = some p ∧
      p.terminal ≠ (k.run ops).2.displayed := by
  obtain ⟨ops, hops⟩ := h.fills
  obtain ⟨p, hp⟩ := hops slot
  obtain ⟨σ', h'⟩ := h.run ops
  obtain ⟨op, hd, hprocesses⟩ := h'.displays p.terminal.next
  have hrun : (k.run (ops ++ [op])).2 = ((k.run ops).2.operate op).2 := run_append ops [op]
  refine ⟨ops ++ [op], p, ?_, ?_⟩
  · rw [hrun, hprocesses, hp]
  · rw [hrun, hd]
    exact p.terminal.next_ne.symm

theorem Sound.programs_apart_video (h : k.Sound σ) (hall : ∀ ops, (k.run ops).2.Isolated) :
    k.layout.programs.Apart (.page k.layout.video) := by
  refine h.fits.proper_programs.apart h.fits.proper_video ?_
  intro b hb hvideo
  obtain ⟨slot, hslot⟩ := h.fits.mem_programs.mp hb
  obtain ⟨ops, p, hp, hne⟩ := h.exists_hidden slot
  obtain ⟨σ', h'⟩ := h.run ops
  have hl : (k.run ops).2.layout = k.layout := (h.run_fixed ops).2
  rw [← hl] at hslot hvideo
  rw [← videoTarget_displayed] at hvideo
  have hx := (h'.reaches_iff h'.fits hp).mpr (Or.inl hslot)
  obtain ⟨y, q, hq, hqt, hy⟩ := h'.reaches_screen hvideo
  have hxy : slot ≠ y := by
    rintro rfl
    rw [hp, Option.some.injEq] at hq
    exact hne (hq ▸ hqt)
  obtain ⟨p', q', hp', hq', ht, -⟩ := (hall ops).shared slot y b hxy hx hy
  rw [hp, Option.some.injEq] at hp'
  rw [hq, Option.some.injEq] at hq'
  rw [← hp', ← hq', hqt] at ht
  exact hne ht

theorem Sound.isolated_iff (h : k.Sound σ) (hst : k.layout.ValidStacks) :
    (∀ ops, (k.run ops).2.Isolated) ↔ k.layout.Separated := by
  have hfixed (ops : List Operation) : (k.run ops).2.layout = k.layout := (h.run_fixed ops).2
  constructor
  · intro hall
    have hstacks {b : PhysAddr} (hb : b ∈ k.layout.kernelStacks) (hr : b ∈ k.layout.programs ∨
        b ∈ Area.page k.layout.video ∨ b ∈ k.layout.buffers) : False := by
      obtain ⟨ops, x, hx⟩ := h.exists_reaches hr
      obtain ⟨slot, hslot⟩ := hst.mem_kernelStacks.mp hb
      have hout := (hall ops).kernelStacks x b hx slot
      rw [hfixed] at hout
      exact hout hslot
    refine ⟨?_, ?_, h.programs_apart_video hall, ?_, ?_⟩
    · refine h.fits.proper_programs.apart h.fits.proper_kernel ?_
      intro b hb
      obtain ⟨ops, x, hx⟩ := h.exists_reaches (Or.inl hb)
      have hout := (hall ops).kernel x b hx
      rwa [hfixed] at hout
    · exact h.fits.proper_programs.apart hst.proper fun b hb hs => hstacks hs (Or.inl hb)
    · exact hst.proper.apart h.fits.proper_video fun b hs hb => hstacks hs (Or.inr (Or.inl hb))
    · exact hst.proper.apart h.fits.proper_buffers fun b hs hb => hstacks hs (Or.inr (Or.inr hb))
  · intro hl ops
    obtain ⟨σ', h'⟩ := h.run ops
    refine h'.isolated h'.fits ?_ ?_
    · rwa [hfixed]
    · rwa [hfixed]

/-- In every run over a layout processes stay isolated exactly if the layout keeps its areas
apart. -/
theorem isolated_run_iff {machine : M} {devices : D} {fs : F} {layout : Layout}
    {timer : TimerConfig} {first : Transfer}
    (hb : (fresh machine devices fs layout timer).boot = (.ok first, k)) :
    (∀ ops, (k.run ops).2.Isolated) ↔ layout.Separated := by
  have hu := unbooted_fresh machine devices fs layout timer
  obtain ⟨hvalid, -⟩ := boot_eq_ok hb
  obtain ⟨σ, h⟩ := sound_boot hu hb
  have hl : k.layout = layout := (boot_fixed hu hb).2
  have hst : k.layout.ValidStacks := by
    rw [hl]
    exact Layout.validStacks_of_validate hvalid
  rw [h.isolated_iff hst, hl]

theorem isolated_run_shellFiles :
    ∃ first k, (Sample.kernel Sample.shellFiles).boot = (.ok first, k) ∧
      ∀ ops, (k.run ops).2.Isolated := by
  obtain ⟨first, k, hb⟩ := Sample.boot_shellFiles
  exact ⟨first, k, hb, (isolated_run_iff hb).mpr (by decide)⟩

end Kernel

def Sample.overlaid : Layout := { programPhysBase := ⟨0x400000⟩ }

/-- Validation lets that layout through, and after the boot the shell in slot 0 reaches the
kernel. -/
theorem Kernel.reaches_kernel_overlaid :
    Sample.overlaid.validate = .ok () ∧ ∃ first k,
      (Sample.kernelIn Sample.overlaid).boot = (.ok first, k) ∧
        k.Reaches ⟨0, by decide⟩ ⟨0x400000⟩ ∧
          ⟨0x400000⟩ ∈ Area.largePage k.layout.kernelRegion := by
  have hv : Sample.overlaid.validate = .ok () := rfl
  obtain ⟨first, k, hb⟩ :=
    Sample.boot_kernelIn hv ⟨Layout.valid_of_validate hv, by decide⟩ rfl rfl
  have hu : (Sample.kernelIn Sample.overlaid).Unbooted := unbooted_fresh ..
  obtain ⟨σ, h⟩ := sound_boot hu hb
  have hl : k.layout = Sample.overlaid := (boot_fixed hu hb).2
  have hlowest : ∀ x : ProcessId, ⟨0, by decide⟩ ≤ x := fun x => Nat.zero_le x.val
  obtain ⟨p, hp⟩ := lowest_boot hu hb hlowest
  refine ⟨hv, first, k, hb, (h.reaches_iff h.fits hp).mpr (Or.inl ?_), ?_⟩
  · rw [hl, Area.mem_largePage]
    decide
  · rw [hl, Area.mem_largePage]
    decide

end TerminalKernel
