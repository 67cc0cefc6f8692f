import TerminalKernel.Proofs.Admission
import TerminalKernel.Proofs.Globals

namespace TerminalKernel

theorem VirtAddr.eq_of_page_eq {v w : VirtAddr} (hv : v.StartsPage) (hw : w.StartsPage)
    (h : v.page = w.page) : v = w := by
  have hs : PhysAddr.mk v.val = PhysAddr.mk w.val := calc
    PhysAddr.mk v.val = v.page.start := (Page.start_page (a := ⟨v.val⟩) hv).symm
    _ = w.page.start := congrArg Page.start h
    _ = PhysAddr.mk w.val := Page.start_page (a := ⟨w.val⟩) hw
  exact congrArg (fun a => VirtAddr.mk a.val) hs

namespace SpaceArena

variable {a b : SpaceArena} {space : SpaceId} {m : PageMap} {ms : List Mapping} {e : SpaceError}
  {pid : ProcessId}

theorem mapAll_error (h : a.lookup space = .ok m) (he : mapAll space ms a = (.error e, b)) :
    e = .mappingConflict ∧ ∃ n, b = a.store space n := by
  induction ms generalizing a m with
  | nil => cases he
  | cons x ms ih =>
    rw [mapAll, map_eq h] at he
    by_cases hp : (m.entryAt x.page).isPresent = true
    · rw [if_pos hp] at he
      cases he
      exact ⟨rfl, m, (store_self h).symm⟩
    · rw [if_neg hp] at he
      obtain ⟨rfl, n, rfl⟩ := ih (lookup_store h _) he
      exact ⟨rfl, n, store_store ..⟩

theorem give_give (m n : PageMap) : (a.give pid m).give pid n = a.give pid n := by
  simp only [give, Vector.set_set]

end SpaceArena

theorem TimerConfig.program_of_mem {t : TimerConfig} (h : minHz ≤ t.hz ∧ t.hz ≤ baseHz) :
    t.program = .ok ⟨channelCommand, (baseHz / t.hz).toUInt16⟩ := by
  rw [program, if_neg]
  rw [not_or, UInt32.not_lt, UInt32.not_lt]
  exact h

namespace Layout

variable {l : Layout} {slot : Nat} {video : PhysAddr}

/-- The regions that a process sees do not collide: its program is not in the kernel region, and
the video page is none of the hidden buffers. -/
structure Apart (l : Layout) : Prop where
  window : l.programWindow.val ≠ l.kernelRegion.val
  video : ∀ t : TerminalId, l.videoBuffer t ≠ l.video

theorem map_virt_mappings :
    (l.mappings slot video).map Mapping.virt =
      l.programWindow :: ⟨l.kernelRegion.val⟩ :: ⟨l.video.val⟩ ::
        TerminalId.all.map fun (b : TerminalId) => ⟨(l.videoBuffer b).val⟩ := by
  simp only [mappings, List.map_cons, List.map_map]
  rfl

theorem Apart.nodup_virt (h : l.Apart) (hv : l.Valid) :
    ((l.mappings slot video).map Mapping.virt).Nodup := by
  have hwindow := hv.window_pos
  have hkernel := hv.kernel_pos
  have hvideo := hv.video_lt
  have hbuffer (t : TerminalId) : (l.videoBuffer t).val.toNat < 4194304 :=
    (hv.isSmall_buffer t).virt_lt
  have hne {v w : VirtAddr} (hlt : v.val.toNat < w.val.toNat) : w ≠ v := by
    rintro rfl
    exact Nat.lt_irrefl _ hlt
  rw [map_virt_mappings]
  refine List.nodup_cons.mpr ⟨?_, List.nodup_cons.mpr ⟨?_, List.nodup_cons.mpr ⟨?_, ?_⟩⟩⟩
  · simp only [List.mem_cons, List.mem_map, not_or, not_exists, not_and]
    refine ⟨?_, hne (hvideo.trans_le hwindow), ?_⟩
    · intro he
      exact h.window (congrArg VirtAddr.val he)
    · intro t _
      exact (hne ((hbuffer t).trans_le hwindow)).symm
  · simp only [List.mem_cons, List.mem_map, not_or, not_exists, not_and]
    refine ⟨hne (hvideo.trans_le hkernel), ?_⟩
    intro t _
    exact (hne ((hbuffer t).trans_le hkernel)).symm
  · simp only [List.mem_map, not_exists, not_and]
    intro t _ he
    exact h.video t (congrArg (fun v => PhysAddr.mk v.val) he)
  · refine List.Nodup.map ?_ (by decide)
    intro t u he
    have hs : (l.videoBuffer t).val.toNat = (l.videoBuffer u).val.toNat :=
      congrArg (fun v => v.val.toNat) he
    rw [hv.videoBuffer_toNat, hv.videoBuffer_toNat] at hs
    apply Fin.ext
    omega

theorem Valid.fits_iff (h : l.Valid) : l.Fits ↔ l.Apart := by
  constructor
  · intro hf
    refine ⟨?_, hf.videoBuffer_ne⟩
    intro he
    exact hf.kernelRegion_ne_window (congrArg (fun w => (VirtAddr.mk w).page) he.symm)
  · intro ha
    have hal : ∀ x ∈ l.mappings 0 l.video, x.Aligned :=
      h.aligned_mappings (by decide) h.video_mod
    have hn : (l.mappings 0 l.video).Nodup := (ha.nodup_virt h).of_map
    refine ⟨h, hn.map_on ?_⟩
    intro x hx y hy he
    exact List.inj_on_of_nodup_map (ha.nodup_virt h) hx hy
      (VirtAddr.eq_of_page_eq (hal x hx).virt (hal y hy).virt he)

end Layout

namespace Kernel

section

variable {M D F : Type} [FileSystem F] {k k' : Kernel M D F} {σ : TerminalId → List ProcessId}
  {pid : ProcessId}

omit [FileSystem F] in
theorem buildSpace_conflict (hv : k.layout.Valid) (hn : ¬k.layout.Fits)
    (hg : k.spaces.isGiven pid = false) (hm : k.spaces.slotMap pid = .empty)
    (ha : k.spaces.active ≠ .process pid) (t : TerminalId) :
    k.buildSpace pid t = (.error .mappingConflict, k) := by
  have hgiven : (k.spaces.give pid .empty).isGiven pid = true := by simp
  have hl : (k.spaces.give pid .empty).lookup (.process pid) = .ok .empty := by
    rw [SpaceArena.lookup_process hgiven]
    simp
  cases hall : SpaceArena.mapAll (.process pid) (k.processMappings pid t)
      (k.spaces.give pid .empty) with
  | mk r spaces =>
    cases r with
    | ok =>
      have hb : k.buildSpace pid t = (.ok (.process pid), { k with spaces }) := by
        simp only [buildSpace, SpaceArena.claim_eq hg hm, hall]
      exact absurd (fits_of_buildSpace hv hg hm hb) hn
    | error e =>
      obtain ⟨rfl, n, rfl⟩ := SpaceArena.mapAll_error hl hall
      have hstore : (k.spaces.give pid .empty).store (.process pid) n = k.spaces.give pid n := by
        rw [SpaceArena.store_process hgiven, SpaceArena.give_give]
      have hgn : (k.spaces.give pid n).isGiven pid = true := by simp
      have hd : (k.spaces.give pid n).teardown (.process pid) = .ok k.spaces := by
        rw [SpaceArena.teardown_eq hgn ha, SpaceArena.free_give hg hm]
      simp only [buildSpace, SpaceArena.claim_eq hg hm, hall, hstore, discardSpace, hd]
      rfl

variable [Machine M]

/-- In a layout whose regions collide a launch fails and leaves the slot as it was. If a program
could be loaded, the collision is the reason. -/
theorem prepare_conflict (h : k.Consistent σ) (hv : k.layout.Valid) (hn : ¬k.layout.Fits)
    (hp : k.processes.get? pid = none) (line : Bytes) (t : TerminalId) :
    ∃ e k', { k with processes := k.processes.insert pid }.prepare pid t line = (.error e, k') ∧
      k'.releaseProcess pid = k ∧
        ∀ prog, k.program line = .ok prog → e = .mappingConflict := by
  have hcur := h.current_ne hp
  have hns := h.named
  have hnew (f : ProcessRecord → ProcessRecord) :
      ((k.processes.insert pid).modify pid f).get? pid =
        some (f (.fresh k.processes.layout pid)) := by simp
  have hother (f : ProcessRecord → ProcessRecord) (y : ProcessId) (hy : y ≠ pid) :
      ((k.processes.insert pid).modify pid f).get? y = k.processes.get? y := by simp [hy]
  cases hc : Command.parse line with
  | error e =>
    have hfresh : (k.processes.insert pid).get? pid = some (.fresh k.processes.layout pid) := by
      simp
    refine ⟨e, _, prepare_of_unparsed hc, ?_, ?_⟩
    · exact releaseProcess_new hns hp hcur k rfl rfl (by simp +contextual) hfresh rfl rfl
    · intro prog hprog
      obtain ⟨eip, hc', -⟩ := program_eq_ok hprog
      rw [hc] at hc'
      cases hc'
  | ok command =>
    have hrelease : ({ k with processes := k.processes.insert pid }.modifyProcess pid
        (named command t)).releaseProcess pid = k :=
      releaseProcess_new hns hp hcur k rfl rfl (hother _) (hnew _) rfl rfl
    cases he : k.findExecutable command.name.bytes with
    | error e =>
      refine ⟨e, _, prepare_of_unfound hc he, hrelease, ?_⟩
      intro prog hprog
      obtain ⟨eip, hc', he', -⟩ := program_eq_ok hprog
      rw [hc] at hc'
      cases hc'
      rw [he] at he'
      cases he'
    | ok found =>
      have hb := buildSpace_conflict (k := { k with processes := k.processes.insert pid
        }.modifyProcess pid (named command t)) hv hn (h.isGiven_free hp) (h.slotMap_free hp)
        (h.active_ne hp) t
      refine ⟨.mappingConflict, _, ?_, hrelease, fun _ _ => rfl⟩
      have he' : ({ k with processes := k.processes.insert pid }.modifyProcess pid
          (named command t)).findExecutable command.name.bytes = .ok found := he
      unfold named at he' hb
      simp only [prepare, hc, he', hb]
      rfl

theorem launchLocked_conflict (h : k.Consistent σ) (hv : k.layout.Valid) (hn : ¬k.layout.Fits)
    (line : Bytes) (origin : Origin) {t : TerminalId} (ho : k.originTerminal origin = .ok t) :
    ∃ e, k.launchLocked line origin = (.error e, k) ∧
      ∀ pid prog, k.processes.firstFree? = some pid → k.program line = .ok prog →
        e = .mappingConflict := by
  rw [launchLocked, ho]
  simp only [ProcessTable.allocate_eq]
  by_cases hl : Bytes.beforeNul line = []
  · rw [if_pos hl]
    refine ⟨_, rfl, ?_⟩
    intro pid prog _ hprog
    exact absurd hl (beforeNul_ne_nil hprog)
  · rw [if_neg hl]
    cases hfree : k.processes.firstFree? with
    | none =>
      refine ⟨_, rfl, ?_⟩
      intro pid prog hpid _
      cases hpid
    | some pid =>
      obtain ⟨e, k', hk', hr, he⟩ :=
        prepare_conflict h hv hn (ProcessTable.get?_firstFree hfree) line t
      simp only [hk', hr]
      exact ⟨e, rfl, fun _ prog _ => he prog⟩

theorem Consistent.sameCore_launch (h : k.Consistent σ) (hv : k.layout.Valid) {line : Bytes}
    {origin : Origin} {t : TerminalId} (ho : k.originTerminal origin = .ok t) {e : KernelError}
    (hl : k.launch line origin = (.error e, k')) : k'.SameCore k := by
  have hm : k.masked.Consistent σ := h.of_sameCore k.sameCore_masked
  have ho' : k.masked.originTerminal origin = .ok t := ho
  rw [launch, critical_eq, Prod.mk.injEq] at hl
  obtain ⟨he, rfl⟩ := hl
  refine (sameCore_unmasked ..).trans (SameCore.trans ?_ k.sameCore_masked)
  by_cases hf : k.layout.Fits
  · have heq := launchLocked_eq hm hf line origin ho'
    rw [heq] at he ⊢
    split
    case isTrue => exact .refl _
    case isFalse hnil =>
      rw [if_neg hnil] at he
      cases hfree : k.masked.processes.firstFree? with
      | none => exact .refl _
      | some pid =>
        simp only [hfree] at he
        cases hprog : k.masked.program line with
        | error e => exact sameCore_performAll ..
        | ok prog =>
          simp only [hprog] at he
          cases he
  · obtain ⟨e', heq, -⟩ := launchLocked_conflict hm hv hf line origin ho'
    rw [heq]
    exact .refl _

theorem boot_conflict (hu : k.Unbooted) (hv : k.layout.validate = .ok ()) (hn : ¬k.layout.Fits)
    {program : TimerProgram} (ht : k.timer.program = .ok program) {prog : Program}
    (hprog : k.program shell = .ok prog) :
    ∃ k', k.boot = (.error .mappingConflict, k') := by
  obtain ⟨hfs, hl⟩ := k.startMachine_fixed program
  have h₀ : (k.startMachine program).masked.Consistent fun _ => [] :=
    (hu.startMachine program).of_sameCore (sameCore_masked _)
  have hm := (k.startMachine program).sameCore_masked
  have hl₀ := hm.layout.trans hl
  have hprog₀ : (k.startMachine program).masked.program shell = .ok prog :=
    (program_congr (hm.fs.trans hfs) hl₀ shell).trans hprog
  obtain ⟨pid, hfree⟩ := h₀.firstFree_isSome (by simp)
  obtain ⟨t, ts, hall⟩ : ∃ t ts, TerminalId.all.reverse = t :: ts := ⟨_, _, rfl⟩
  obtain ⟨e, hlaunch, he⟩ := launchLocked_conflict h₀
    (by rw [hl₀]; exact Layout.valid_of_validate hv) (by rwa [hl₀]) shell (.kernel t none) rfl
  rw [he pid prog hfree hprog₀] at hlaunch
  have hfirst : (k.startMachine program).launch shell (.kernel t none) =
      (.error .mappingConflict,
        (k.startMachine program).leave (k.startMachine program).masked) := by
    rw [launch, critical_eq, hlaunch]
    rfl
  refine ⟨(k.startMachine program).leave (k.startMachine program).masked, ?_⟩
  simp only [boot, hv, ht, hall, launchShells, hfirst]

end

variable {M D : Type} {k : Kernel M D FileImage} {line : Bytes}

theorem exists_loadable (hv : k.layout.Valid) {free : ProcessId}
    (hfree : k.processes.get? free = none) {prog : Program} (hprog : k.program line = .ok prog) :
    ∃ eip, k.Loadable line eip := by
  have hline := beforeNul_ne_nil hprog
  obtain hl | ⟨e, ho⟩ := loadable_or_obstacle hline hfree
  · exact hl
  · rw [ho.program_eq hv hline hfree] at hprog
    cases hprog

theorem loadable_kernelIn {layout : Layout} (hv : layout.validate = .ok ())
    (hw : layout.programWindow = Layout.programWindow {})
    (hl : layout.loadAddress = Layout.loadAddress {}) :
    (∃ prog, (Sample.kernelIn layout).program shell = .ok prog) ∧
      ∃ eip, (Sample.kernelIn layout).Loadable shell eip := by
  obtain ⟨prog, hprog⟩ := Sample.program_shellFiles
  have hfs : (Sample.kernelIn layout).fs = (Sample.kernel Sample.shellFiles).fs := rfl
  rw [← program_congr_window hfs hw hl] at hprog
  have hfree : (Sample.kernelIn layout).processes.get? ⟨0, by decide⟩ = none :=
    ProcessTable.get?_empty ..
  exact ⟨⟨prog, hprog⟩, exists_loadable (k := Sample.kernelIn layout)
    (Layout.valid_of_validate hv) hfree hprog⟩

variable [Machine M]

/-- With a layout that passes validation, a timer rate in range and a shell that can be loaded, a
boot succeeds if the regions of the layout are apart. Otherwise it reports the conflict. -/
theorem boot_of_loadable (machine : M) (devices : D) (files : FileImage) {layout : Layout}
    {timer : TimerConfig} (hv : layout.validate = .ok ())
    (ht : TimerConfig.minHz ≤ timer.hz ∧ timer.hz ≤ TimerConfig.baseHz)
    (hs : ∃ eip, (fresh machine devices files layout timer).Loadable shell eip) :
    (layout.Apart → ∃ first k,
      (fresh machine devices files layout timer).boot = (.ok first, k)) ∧
    (¬layout.Apart → ∃ k,
      (fresh machine devices files layout timer).boot = (.error .mappingConflict, k)) := by
  have hu := unbooted_fresh machine devices files layout timer
  have hvalid := Layout.valid_of_validate hv
  have htimer := TimerConfig.program_of_mem ht
  obtain ⟨eip, hs⟩ := hs
  obtain ⟨prog, hprog, -⟩ :=
    program_of_loadable (k := fresh machine devices files layout timer) hvalid hs
  constructor
  · intro ha
    exact (boot_ok_iff hu).mpr ⟨hv, hvalid.fits_iff.mpr ha, ⟨_, htimer⟩, prog, hprog⟩
  · intro ha
    exact boot_conflict hu hv (fun hf => ha (hvalid.fits_iff.mp hf)) htimer hprog

theorem boot_of_loadable_shellFiles :
    Layout.Apart {} ∧ (∃ eip, (Sample.kernelIn {}).Loadable shell eip) ∧
      ∃ first k, (Sample.kernelIn {}).boot = (.ok first, k) := by
  have hv : Layout.validate {} = .ok () := rfl
  have ht : TimerConfig.minHz ≤ TimerConfig.hz {} ∧ TimerConfig.hz {} ≤ TimerConfig.baseHz := by
    decide
  have ha : Layout.Apart {} := ⟨by decide, by decide⟩
  have hs := (loadable_kernelIn hv rfl rfl).2
  exact ⟨ha, hs, (boot_of_loadable ({} : MachineRecorder) ({} : DeviceRecorder) _ hv ht hs).1 ha⟩

end Kernel

def Sample.crowded : Layout := { kernelRegion := ⟨0x8000000⟩ }

/-- Validation lets that layout through and the shell can be loaded, but the kernel does not boot. -/
theorem Kernel.conflict_crowded :
    Sample.crowded.validate = .ok () ∧
      TimerConfig.program {} = .ok ⟨0x36, 23863⟩ ∧
        (∃ eip, (Sample.kernelIn Sample.crowded).Loadable shell eip) ∧
          ∃ k, (Sample.kernelIn Sample.crowded).boot = (.error .mappingConflict, k) := by
  have hv : Sample.crowded.validate = .ok () := rfl
  have htimer : TimerConfig.program {} = .ok ⟨0x36, 23863⟩ := rfl
  have hu : (Sample.kernelIn Sample.crowded).Unbooted := unbooted_fresh ..
  have hn : ¬Sample.crowded.Fits :=
    fun hf => ((Layout.valid_of_validate hv).fits_iff.mp hf).window rfl
  obtain ⟨⟨prog, hprog⟩, hs⟩ := loadable_kernelIn hv rfl rfl
  exact ⟨hv, htimer, hs, boot_conflict hu hv hn htimer hprog⟩

end TerminalKernel
