import TerminalKernel.Kernel.Boot
import TerminalKernel.Proofs.Soundness

namespace TerminalKernel.Kernel

variable {M D F : Type} [FileSystem F] {k k' : Kernel M D F} {σ : TerminalId → List ProcessId}
  {t : TerminalId}

omit [FileSystem F] in
theorem fits_of_buildSpace (hv : k.layout.Valid) {pid : ProcessId}
    (hg : k.spaces.isGiven pid = false) (hm : k.spaces.slotMap pid = .empty) {space : SpaceId}
    (hb : k.buildSpace pid t = (.ok space, k')) : k.layout.Fits := by
  have hgiven : (k.spaces.give pid .empty).isGiven pid = true := by simp
  have hl : (k.spaces.give pid .empty).lookup (.process pid) = .ok .empty := by
    rw [SpaceArena.lookup_process hgiven]
    simp
  simp only [buildSpace, SpaceArena.claim_eq hg hm] at hb
  split at hb
  case h_1 a ha =>
    have hn := SpaceArena.nodup_of_mapAll hl (congrArg Prod.fst ha)
    exact ⟨hv, hn.1⟩
  case h_2 => cases hb

variable [Machine M]

theorem fits_of_prepare (hv : k.layout.Valid) {pid : ProcessId}
    (hg : k.spaces.isGiven pid = false) (hm : k.spaces.slotMap pid = .empty) {line : Bytes}
    {entry : UserEntry} (hp : k.prepare pid t line = (.ok entry, k')) : k.layout.Fits := by
  unfold prepare at hp
  split at hp
  case h_1 => cases hp
  case h_2 command hc =>
    dsimp only at hp
    split at hp
    case h_1 => cases hp
    case h_2 inode eip he =>
      split at hp
      case h_1 => cases hp
      case h_2 space k₁ hb => exact fits_of_buildSpace (k := k.modifyProcess pid _) hv hg hm hb

theorem fits_of_launchLocked (h : k.Consistent σ) (hv : k.layout.Valid) {line : Bytes}
    {interrupted : Option SavedContext} {transfer : Transfer}
    (hl : k.launchLocked line (.kernel t interrupted) = (.ok transfer, k')) : k.layout.Fits := by
  simp only [launchLocked, originTerminal] at hl
  split at hl
  case isTrue => cases hl
  case isFalse =>
    rw [ProcessTable.allocate_eq] at hl
    cases hfree : k.processes.firstFree? with
    | none =>
      rw [hfree] at hl
      cases hl
    | some pid =>
      have hnone := ProcessTable.get?_firstFree hfree
      simp only [hfree] at hl
      split at hl
      case h_1 => cases hl
      case h_2 entry k₁ hprep =>
        exact fits_of_prepare (k := { k with processes := k.processes.insert pid }) hv
          (h.isGiven_free hnone) (h.slotMap_free hnone) hprep

/-- What the launch of a shell does during the boot. -/
inductive Opens (k : Kernel M D F) (t : TerminalId) (pid : ProcessId) (prog : Program) :
    Kernel M D F → Prop
  | first (hc : k.current = none) :
      Opens k t pid prog (k.leave (k.masked.relaunched pid t prog))
  /-- The shell before becomes ready. -/
  | beside {cur : ProcessId} {p : ProcessRecord} {e : UserEntry} (hc : k.current = some cur)
      (hp : k.processes.get? cur = some p) (he : p.entry = some e) :
      Opens k t pid prog
        (k.leave (k.masked.started pid t prog (k.masked.besideTable cur pid t prog e)))

theorem launch_eq_ok (h : k.Consistent σ) (hv : k.layout.Valid) {transfer : Transfer}
    (hl : k.launch shell (.kernel t none) = (.ok transfer, k')) :
    ∃ pid prog k'', k.layout.Fits ∧ k.processes.firstFree? = some pid ∧
      k.program shell = .ok prog ∧ k.Opens t pid prog k'' ∧ transfer = .enterUser pid prog.entry ∧
        k' = k''.record (.processLaunched pid t none) := by
  have hm : k.masked.Consistent σ := h.of_sameCore k.sameCore_masked
  rw [launch, critical_eq, Prod.mk.injEq] at hl
  obtain ⟨hok, hk'⟩ := hl
  have hf : k.layout.Fits := fits_of_launchLocked (k := k.masked) hm hv (Prod.ext hok rfl)
  have heq := launchLocked_eq hm hf shell (.kernel t none) rfl
  rw [heq] at hok hk'
  split at hok
  case isTrue => cases hok
  case isFalse hnil =>
    rw [if_neg hnil] at hk'
    cases hfree : k.masked.processes.firstFree? with
    | none =>
      simp only [hfree] at hok
      cases hok
    | some pid =>
      have hnone : k.processes.get? pid = none := ProcessTable.get?_firstFree hfree
      simp only [hfree] at hok hk'
      cases hprog : k.masked.program shell with
      | error e =>
        simp only [hprog] at hok
        cases hok
      | ok prog =>
        simp only [hprog] at hok hk'
        cases hc : k.current with
        | none =>
          rw [start_root (k := k.masked) hc] at hok hk'
          cases hok
          exact ⟨pid, prog, _, hf, hfree, hprog, .first hc, rfl,
            hk'.symm.trans (leave_record ..)⟩
        | some cur =>
          obtain ⟨p, hp⟩ := h.current_live hc
          obtain ⟨_, _, _, he⟩ := (h.launched cur p hp).entry
          have hne : cur ≠ pid := Records.ne_of_eq_none hp hnone
          rw [start_beside (k := k.masked) hm.layout hc hp (h.current_running hc hp) he hne]
            at hok hk'
          cases hok
          exact ⟨pid, prog, _, hf, hfree, hprog, .beside hc hp he, rfl,
            hk'.symm.trans (leave_record ..)⟩

theorem launch_opens (h : k.Consistent σ) (hv : k.layout.Valid) {transfer : Transfer}
    (hl : k.launch shell (.kernel t none) = (.ok transfer, k')) :
    ∃ pid prog k'', k.layout.Fits ∧ k.processes.firstFree? = some pid ∧
      k.program shell = .ok prog ∧ k.Opens t pid prog k'' ∧ transfer = .enterUser pid prog.entry ∧
        k'.Agrees k'' := by
  obtain ⟨pid, prog, k'', hf, hfree, hprog, ho, htr, rfl⟩ := launch_eq_ok h hv hl
  exact ⟨pid, prog, k'', hf, hfree, hprog, ho, htr, agrees_record ..⟩

theorem Opens.consistent (h : k.Consistent σ) (ht : σ t = []) {pid : ProcessId} {prog : Program}
    (hp : k.processes.get? pid = none) (hprog : k.program shell = .ok prog)
    (ho : k.Opens t pid prog k') : k'.Consistent (Function.update σ t [pid]) := by
  have hm : k.masked.Consistent σ := h.of_sameCore k.sameCore_masked
  have hprog' : k.masked.program shell = .ok prog := hprog
  cases ho with
  | first hc =>
    have hcons := hm.start_root hc ht hp hprog'
    rw [ht] at hcons
    exact hcons.of_sameCore (sameCore_leave ..)
  | beside hc hcp he =>
    have hcons := hm.start_beside hc hcp he ht hp hprog'
    rw [ht] at hcons
    exact hcons.of_sameCore (sameCore_leave ..)

theorem Opens.current_eq {pid : ProcessId} {prog : Program} (ho : k.Opens t pid prog k') :
    k'.current = some pid := by
  cases ho with
  | first hc =>
    rw [current, (sameCore_leave ..).processes]
    rfl
  | beside hc hcp he =>
    rw [current, (sameCore_leave ..).processes]
    rfl

theorem Opens.fs_eq {pid : ProcessId} {prog : Program} (ho : k.Opens t pid prog k') :
    k'.fs = k.fs := by
  cases ho with
  | first hc => exact (sameCore_leave ..).fs
  | beside hc hcp he => exact (sameCore_leave ..).fs

theorem Opens.layout_eq {pid : ProcessId} {prog : Program} (ho : k.Opens t pid prog k') :
    k'.layout = k.layout := by
  cases ho with
  | first hc => exact (sameCore_leave ..).layout
  | beside hc hcp he => exact (sameCore_leave ..).layout

theorem Opens.next (h : k.Consistent σ) (ht : σ t = []) {pid : ProcessId} {prog : Program}
    (hp : k.processes.get? pid = none) (hprog : k.program shell = .ok prog)
    (ho : k.Opens t pid prog k') {k₂ : Kernel M D F} (ha : k₂.Agrees k') :
    k₂.Consistent (Function.update σ t [pid]) ∧ k₂.layout = k.layout ∧ k₂.fs = k.fs :=
  ⟨(ho.consistent h ht hp hprog).of_sameCore ha.toSameCore, ha.layout.trans ho.layout_eq,
    ha.fs.trans ho.fs_eq⟩

omit [Machine M] [FileSystem F] in
theorem update_eq_nil {ts : List TerminalId} (hn : t ∉ ts) (ht : ∀ u ∈ t :: ts, σ u = [])
    (l : List ProcessId) : ∀ u ∈ ts, Function.update σ t l u = [] := by
  intro u hu
  have hut : u ≠ t := fun he => hn (he ▸ hu)
  rw [Function.update_of_ne hut]
  exact ht u (List.mem_cons_of_mem t hu)

/-- What the launches of shells leave, and what they keep one by one. -/
theorem launchShells_induct {P : Kernel M D F → Prop}
    (step : ∀ {k k₁ k₂ : Kernel M D F} {σ : TerminalId → List ProcessId} {t : TerminalId}
      {pid : ProcessId} {prog : Program}, k.Consistent σ → σ t = [] →
      k.processes.firstFree? = some pid → k.program shell = .ok prog → k.Opens t pid prog k₁ →
      k₂ = k₁.record (.processLaunched pid t none) → P k → P k₂)
    {ts : List TerminalId} (hn : ts.Nodup) (h : k.Consistent σ) (hv : k.layout.Valid)
    (ht : ∀ t ∈ ts, σ t = []) (hp : P k) {last first : Transfer}
    (hl : k.launchShells ts last = (.ok first, k')) :
    P k' ∧ ∃ σ', k'.Consistent σ' ∧ (∀ t ∈ ts, σ' t ≠ []) ∧ (∀ t, t ∉ ts → σ' t = σ t) ∧
      (ts ≠ [] → k'.layout.Fits ∧ ∃ pid prog, k'.current = some pid ∧
        k'.program shell = .ok prog ∧ first = .enterUser pid prog.entry) := by
  induction ts generalizing k σ last with
  | nil =>
    cases hl
    exact ⟨hp, σ, h, by simp, by simp, by simp⟩
  | cons t ts ih =>
    rw [List.nodup_cons] at hn
    cases hlaunch : k.launch shell (.kernel t none) with
    | mk result k₂ =>
      cases result with
      | error e =>
        simp only [launchShells, hlaunch] at hl
        cases hl
      | ok transfer =>
        simp only [launchShells, hlaunch] at hl
        obtain ⟨pid, prog, k₁, hf, hfree, hprog, ho, htr, hk₂⟩ := launch_eq_ok h hv hlaunch
        have hnone := ProcessTable.get?_firstFree hfree
        have ha : k₂.Agrees k₁ := hk₂ ▸ agrees_record ..
        have hσt := ht t (List.mem_cons_self ..)
        obtain ⟨h₂, hlayout, hfs⟩ := ho.next h hσt hnone hprog ha
        obtain ⟨hp', σ', h', hin, hout, hlast⟩ := ih hn.2 h₂ (by rwa [hlayout])
          (update_eq_nil hn.1 ht [pid]) (step h hσt hfree hprog ho hk₂ hp) hl
        have hσ' : σ' t = [pid] := by rw [hout t hn.1, Function.update_self]
        refine ⟨hp', σ', h', ?_, ?_, ?_⟩
        · intro u hu
          cases List.mem_cons.mp hu with
          | inl he =>
            rw [he, hσ']
            simp
          | inr hu => exact hin u hu
        · intro u hu
          rw [List.mem_cons, not_or] at hu
          rw [hout u hu.2, Function.update_of_ne hu.1]
        · intro _
          cases ts with
          | nil =>
            cases hl
            refine ⟨by rwa [hlayout], pid, prog, ?_, ?_, htr⟩
            · rw [current, ha.processes]
              exact ho.current_eq
            · rwa [program_congr hfs hlayout]
          | cons u us => exact hlast (by simp)

structure Unbooted (k : Kernel M D F) : Prop where
  processes : k.processes = .empty k.layout
  spaces : k.spaces = { placement := k.spaces.placement }
  terminals : k.terminals = Vector.replicate _ {}

omit [FileSystem F] [Machine M] in
theorem unbooted_fresh (machine : M) (devices : D) (fs : F) (layout : Layout)
    (timer : TimerConfig) :
    (fresh machine devices fs layout timer).Unbooted := ⟨rfl, rfl, rfl⟩

omit [FileSystem F] [Machine M] in
theorem identifyKernel_eq (k : Kernel M D F) :
    ∃ m, k.identifyKernel = { k with spaces := { k.spaces with kernel := m } } := by
  have h (a : SpaceArena) (start stop : PhysAddr) :
      ∃ m, a.identify start stop = { a with kernel := m } := ⟨_, rfl⟩
  obtain ⟨m₁, h₁⟩ := h k.spaces k.layout.video (k.layout.video.offset pageSize)
  obtain ⟨m₂, h₂⟩ := h { k.spaces with kernel := m₁ } (k.layout.videoBuffer 0)
    (k.layout.videoBuffer terminalCount)
  obtain ⟨m₃, h₃⟩ := h { k.spaces with kernel := m₂ } k.layout.kernelRegion
    (k.layout.kernelRegion.offset largePageSize)
  refine ⟨m₃, ?_⟩
  simp only [identifyKernel, h₁, h₂, h₃]

omit [FileSystem F] in
theorem startMachine_eq (program : TimerProgram) (k : Kernel M D F) :
    ∃ m, k.startMachine program =
      { k with
        spaces := { k.spaces with kernel := m, active := .kernel }
        loaded := some (k.spaces.directoryAddress .kernel, m)
        machine := [.loadPageDirectory (k.spaces.directoryAddress .kernel),
          .setKernelStack ⟨Selector.kernelData, k.layout.globalKernelStack⟩,
          .programTimer program, .setIrqMask timerIrq false].foldl
            (fun m c => Machine.perform c m) k.machine } := by
  obtain ⟨m, hm⟩ := k.identifyKernel_eq
  have hl : ({ k with spaces := { k.spaces with kernel := m } } : Kernel M D F).spaces.lookup
      .kernel = .ok m := rfl
  refine ⟨m, ?_⟩
  rw [startMachine, hm, restoreSpace_eq hl]
  rfl

omit [FileSystem F] in
theorem startMachine_fixed (program : TimerProgram) (k : Kernel M D F) :
    (k.startMachine program).fs = k.fs ∧ (k.startMachine program).layout = k.layout := by
  obtain ⟨m, hm⟩ := k.startMachine_eq program
  rw [hm]
  exact ⟨rfl, rfl⟩

theorem Unbooted.startMachine (hu : k.Unbooted) (program : TimerProgram) :
    (k.startMachine program).Consistent fun _ => [] := by
  obtain ⟨m, hm⟩ := k.startMachine_eq program
  rw [hm]
  have hget (x : ProcessId) : k.processes.get? x = none := by
    rw [hu.processes]
    exact ProcessTable.get?_empty ..
  have hcur : k.processes.current = none := by
    rw [hu.processes]
    rfl
  refine ⟨?_, ?_, ?_, ?_, ?_, ?_, ?_, ⟨m, rfl, rfl⟩⟩
  · change k.processes.layout = k.layout
    rw [hu.processes]
    rfl
  · change Stacked k.processes.get? k.processes.current fun _ => []
    rw [hcur]
    refine ⟨fun _ => IsStack.nil, ?_, by simp⟩
    intro x p hx
    rw [hget] at hx
    cases hx
  · intro t
    change k.terminals.get t = _
    rw [hu.terminals, Vector.get_eq_getElem, Vector.getElem_replicate]
    rfl
  · intro x p hx
    have hx' : k.processes.get? x = some p := hx
    rw [hget] at hx'
    cases hx'
  · intro x
    change k.spaces.isGiven x = (k.processes.get? x).isSome
    rw [hget, hu.spaces, SpaceArena.isGiven, Vector.get_eq_getElem, Vector.getElem_replicate]
    rfl
  · intro x
    have hx : k.processes.get? x = none := hget x
    rw [homeMap, hx]
    change k.spaces.slotMap x = .empty
    rw [hu.spaces, SpaceArena.slotMap, Vector.get_eq_getElem, Vector.getElem_replicate]
  · change SpaceId.kernel = .ofCurrent k.processes.current
    rw [hcur]
    rfl

theorem boot_eq_ok {first : Transfer} (hb : k.boot = (.ok first, k')) :
    k.layout.validate = .ok () ∧ ∃ program, k.timer.program = .ok program ∧
      (k.startMachine program).launchShells TerminalId.all.reverse .idle = (.ok first, k') := by
  unfold boot at hb
  split at hb
  case h_1 => cases hb
  case h_2 => cases hb
  case h_3 program hv ht =>
    split at hb
    case h_1 => cases hb
    case h_2 first' k₁ hl =>
      unfold checkInvariants at hb
      split at hb
      case h_1 => cases hb
      case h_2 k₂ hc =>
        split at hc
        case h_1 =>
          cases hc
          cases hb
          exact ⟨hv, program, ht, hl⟩
        case h_2 => cases hc

theorem boot_induct {P : Kernel M D F → Prop}
    (step : ∀ {k k₁ k₂ : Kernel M D F} {σ : TerminalId → List ProcessId} {t : TerminalId}
      {pid : ProcessId} {prog : Program}, k.Consistent σ → σ t = [] →
      k.processes.firstFree? = some pid → k.program shell = .ok prog → k.Opens t pid prog k₁ →
      k₂ = k₁.record (.processLaunched pid t none) → P k → P k₂)
    (hu : k.Unbooted) (start : ∀ program, P (k.startMachine program)) {first : Transfer}
    (hb : k.boot = (.ok first, k')) :
    P k' ∧ ∃ σ pid prog, k'.Sound σ ∧ k'.current = some pid ∧ k'.program shell = .ok prog ∧
      first = .enterUser pid prog.entry := by
  obtain ⟨hv, program, -, hl⟩ := boot_eq_ok hb
  have hlayout := (k.startMachine_fixed program).2
  have hall : ∀ t : TerminalId, t ∈ TerminalId.all.reverse := by decide
  obtain ⟨hp, σ, hc, hin, -, hlast⟩ := launchShells_induct step (by decide)
    (hu.startMachine program) (by rw [hlayout]; exact Layout.valid_of_validate hv)
    (fun _ _ => rfl) (start program) hl
  obtain ⟨hf, pid, prog, hcur, hprog, hfirst⟩ := hlast (by decide)
  exact ⟨hp, σ, pid, prog, ⟨hc, hf, fun t => hin t (hall t), ⟨pid, hcur⟩, ⟨prog, hprog⟩⟩, hcur,
    hprog, hfirst⟩

theorem boot_fixed (hu : k.Unbooted) {first : Transfer} (hb : k.boot = (.ok first, k')) :
    k'.fs = k.fs ∧ k'.layout = k.layout := by
  refine (boot_induct (P := fun k₁ => k₁.fs = k.fs ∧ k₁.layout = k.layout) ?_ hu ?_ hb).1
  · intro k k₁ k₂ σ t pid prog _ _ _ _ ho hk₂ hp
    have ha : k₂.Agrees k₁ := hk₂ ▸ agrees_record ..
    exact ⟨(ha.fs.trans ho.fs_eq).trans hp.1, (ha.layout.trans ho.layout_eq).trans hp.2⟩
  · intro program
    exact startMachine_fixed ..

/-- A boot that succeeds leaves a sound kernel and enters the shell of its current process. -/
theorem boot_enters (hu : k.Unbooted) {first : Transfer} (hb : k.boot = (.ok first, k')) :
    ∃ σ pid prog, k'.Sound σ ∧ k'.current = some pid ∧ k'.program shell = .ok prog ∧
      first = .enterUser pid prog.entry :=
  (boot_induct (P := fun _ => True) (fun _ _ _ _ _ _ _ => trivial) hu (fun _ => trivial) hb).2

theorem sound_boot (hu : k.Unbooted) {first : Transfer} (hb : k.boot = (.ok first, k')) :
    ∃ σ, k'.Sound σ := by
  obtain ⟨σ, _, _, h, -⟩ := boot_enters hu hb
  exact ⟨σ, h⟩

end TerminalKernel.Kernel
