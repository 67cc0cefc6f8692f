import TerminalKernel.Proofs.Consistency

namespace TerminalKernel.Kernel

variable {M D F : Type} [FileSystem F] {k : Kernel M D F} {σ : TerminalId → List ProcessId}

def newMap (pid : ProcessId) (t : TerminalId) (k : Kernel M D F) : PageMap :=
  k.layout.processMap (k.spaces.tableLink (.process pid)) pid (k.videoTarget t)

omit [FileSystem F] in
/-- A slot without a process gets a space with the pages of its process. -/
theorem buildSpace_eq (hf : k.layout.Fits) {pid : ProcessId} (hg : k.spaces.isGiven pid = false)
    (hm : k.spaces.slotMap pid = .empty) (t : TerminalId) :
    k.buildSpace pid t =
      (.ok (.process pid), { k with spaces := k.spaces.give pid (k.newMap pid t) }) := by
  have hgiven : (k.spaces.give pid .empty).isGiven pid = true := by simp
  have hl : (k.spaces.give pid .empty).lookup (.process pid) = .ok .empty := by
    rw [SpaceArena.lookup_process hgiven]
    simp
  have hfresh : ∀ x ∈ k.layout.mappings pid (k.videoTarget t),
      (PageMap.empty.entryAt x.page).isPresent = false := by
    intro x _
    cases x.page <;> simp [PageMap.entryAt, PageMap.empty, PageTable.empty]
  have hall : SpaceArena.mapAll (.process pid) (k.processMappings pid t)
      (k.spaces.give pid .empty) = (.ok (), k.spaces.give pid (k.newMap pid t)) := by
    have he := SpaceArena.mapAll_eq hl (hf.nodup pid (k.videoTarget t)) hfresh
    rw [SpaceArena.store_process hgiven] at he
    refine he.trans (congrArg (Prod.mk _) ?_)
    apply SpaceArena.ext_slots
    · rfl
    · rfl
    · rfl
    · intro x
      by_cases hx : x = pid
      · simp only [SpaceArena.slotMap_give, if_pos hx]
        rfl
      · simp only [SpaceArena.slotMap_give, if_neg hx]
    · intro x
      by_cases hx : x = pid <;> simp [hx]
  simp only [buildSpace, SpaceArena.claim_eq hg hm, hall]

variable [Machine M]

def named (command : Command) (t : TerminalId) (p : ProcessRecord) : ProcessRecord :=
  { p with name := command.name, arguments := command.arguments, terminal := t }

section

variable {pid : ProcessId} {t : TerminalId} {line : Bytes} {command : Command} {inode : Nat}
  {eip : UInt32} {space : SpaceId} {e : KernelError} {k₁ k₂ : Kernel M D F}

theorem prepare_of_unparsed (hc : Command.parse line = .error e) :
    k.prepare pid t line = (.error e, k) := by
  rw [prepare, hc]

theorem prepare_of_unfound (hc : Command.parse line = .ok command)
    (he : k.findExecutable command.name.bytes = .error e) :
    k.prepare pid t line = (.error e, k.modifyProcess pid (named command t)) := by
  have he' : (k.modifyProcess pid (named command t)).findExecutable command.name.bytes =
      .error e := he
  unfold named at he' ⊢
  simp only [prepare, hc, he']

theorem prepare_of_built (hc : Command.parse line = .ok command)
    (he : k.findExecutable command.name.bytes = .ok (inode, eip))
    (hb : (k.modifyProcess pid (named command t)).buildSpace pid t = (.ok space, k₁)) :
    k.prepare pid t line =
      match k₁.enterAndLoad space inode with
      | (.error e, k) => (.error e, (k.restoreSpace k₁.spaces.active).discardSpace space)
      | (.ok (), k) =>
        (.ok (.start eip k.layout.userStackTop), k.modifyProcess pid fun p =>
          { p with space := some space, entry := some (.start eip k.layout.userStackTop) }) := by
  have he' : (k.modifyProcess pid (named command t)).findExecutable command.name.bytes =
      .ok (inode, eip) := he
  unfold named at he' hb
  cases hr : k₁.enterAndLoad space inode with
  | mk r k' => cases r <;> simp only [prepare, hc, he', hb, hr]

end

def prepared (pid : ProcessId) (t : TerminalId) (prog : Program) (k : Kernel M D F) :
    Kernel M D F :=
  { k with
    processes := ((k.processes.insert pid).modify pid (named prog.command t)).modify pid fun p =>
      { p with space := some (.process pid), entry := some prog.entry }
    spaces := { k.spaces.give pid (k.newMap pid t) with active := .process pid }
    loaded := some (k.spaces.directoryAddress (.process pid), k.newMap pid t)
    machine := (k.layout.copies pid (k.image prog.inode).1).foldl (fun m c => Machine.perform c m)
      (Machine.perform (.loadPageDirectory (k.spaces.directoryAddress (.process pid))) k.machine) }

/-- What a launch that fails makes the machine do. -/
def failureCalls (pid : ProcessId) (line : Bytes) (k : Kernel M D F) : List MachineCall :=
  match Command.parse line with
  | .error _ => []
  | .ok command =>
    match k.findExecutable command.name.bytes with
    | .error _ => []
    | .ok (inode, _) =>
      .loadPageDirectory (k.spaces.directoryAddress (.process pid)) ::
        (k.layout.copies pid (k.image inode).1 ++
          [.loadPageDirectory (k.spaces.directoryAddress k.spaces.active)])

omit [FileSystem F] [Machine M] in
theorem lookup_newSpace {pid : ProcessId} (m : PageMap) :
    (k.spaces.give pid m).lookup (.process pid) = .ok m := by
  have hg : (k.spaces.give pid m).isGiven pid = true := by simp
  rw [SpaceArena.lookup_process hg, SpaceArena.slotMap_give, if_pos rfl]

theorem enterAndLoad_eq (hf : k.layout.Fits) (processes : ProcessTable) (pid : ProcessId)
    (t : TerminalId) (inode : Nat) :
    { k with processes, spaces := k.spaces.give pid (k.newMap pid t) }.enterAndLoad
        (.process pid) inode =
      ((k.image inode).2,
        ({ k with processes, spaces := k.spaces.give pid (k.newMap pid t) }.enter (.process pid)
          (k.newMap pid t)).performAll (k.layout.copies pid (k.image inode).1)) := by
  let k' : Kernel M D F := { k with processes, spaces := k.spaces.give pid (k.newMap pid t) }
  have hl : k'.spaces.lookup (.process pid) = .ok (k.newMap pid t) := lookup_newSpace _
  have ht : ∀ a : VirtAddr, k.layout.inProgramWindow a.val = true →
      (k'.enter (.process pid) (k.newMap pid t)).spaces.translate (.process pid) a =
        some (k.layout.windowPhys pid a) := by
    intro a ha
    have hl' : (k'.enter (.process pid) (k.newMap pid t)).spaces.lookup (.process pid) =
        .ok (k.newMap pid t) := hl
    rw [SpaceArena.translate, hl']
    exact hf.translate_window (SpaceArena.isPresent_tableLink _) (SpaceArena.isLarge_tableLink _)
      pid.isLt _ ha
  have hi := (k'.enter (.process pid) (k.newMap pid t)).loadImage_eq hf.toValid (.process pid) pid
    ht inode
  change k'.enterAndLoad (.process pid) inode = _
  rw [enterAndLoad, activate_eq hl]
  exact hi

variable {pid : ProcessId}

omit [FileSystem F] [Machine M] in
theorem releaseProcess_new (hn : k.processes.Named) (hp : k.processes.get? pid = none)
    (hc : k.current ≠ some pid) (k' : Kernel M D F) {u : ProcessTable} {p : ProcessRecord}
    (hl : u.layout = k.processes.layout) (huc : u.current = k.processes.current)
    (hu : ∀ y, y ≠ pid → u.get? y = k.processes.get? y) (hup : u.get? pid = some p)
    (hpp : p.pid = pid) (hk : { k' with processes := k.processes } = k) :
    { k' with processes := u }.releaseProcess pid = k := by
  rw [releaseProcess, hn.destroy_new hp hc hl huc hu hup hpp]
  exact hk

omit [Machine M] in
theorem Consistent.active_ne (h : k.Consistent σ) (hp : k.processes.get? pid = none) :
    k.spaces.active ≠ .process pid := by
  intro ha
  rw [h.active] at ha
  cases hc : k.current with
  | none =>
    rw [hc] at ha
    cases ha
  | some x =>
    rw [hc] at ha
    obtain ⟨p, hx⟩ := h.current_live hc
    have hxp : x = pid := Fin.ext (SpaceId.process.inj ha)
    rw [hxp, hp] at hx
    cases hx

omit [Machine M] in
theorem Consistent.current_ne (h : k.Consistent σ) (hp : k.processes.get? pid = none) :
    k.current ≠ some pid := by
  intro hc
  obtain ⟨p, hx⟩ := h.current_live hc
  rw [hp] at hx
  cases hx

theorem Consistent.leave_new (h : k.Consistent σ) (hp : k.processes.get? pid = none)
    (processes : ProcessTable) (m : PageMap) (calls : List MachineCall) :
    ((({ k with processes, spaces := k.spaces.give pid m }.enter (.process pid) m).performAll
      calls).restoreSpace k.spaces.active).discardSpace (.process pid) =
      { k.performAll (.loadPageDirectory (k.spaces.directoryAddress (.process pid)) ::
        (calls ++ [.loadPageDirectory (k.spaces.directoryAddress k.spaces.active)])) with
        processes } := by
  obtain ⟨n, hn, hloaded⟩ := h.loaded
  have hne := h.active_ne hp
  let k' := ({ k with processes, spaces := k.spaces.give pid m }.enter (.process pid) m).performAll
    calls
  have hk' : k'.spaces.lookup k.spaces.active = .ok n := (SpaceArena.lookup_give hne).trans hn
  have hg : (k.spaces.give pid m).isGiven pid = true := by simp
  have ht : (k'.enter k.spaces.active n).spaces.teardown (.process pid) = .ok k.spaces := by
    refine (SpaceArena.teardown_eq (a := k.spaces.give pid m) hg hne).trans ?_
    rw [SpaceArena.free_give (h.isGiven_free hp) (h.slotMap_free hp)]
  change (k'.restoreSpace k.spaces.active).discardSpace (.process pid) = _
  rw [restoreSpace_eq hk', discardSpace, ht, performAll, List.foldl_cons, List.foldl_append,
    hloaded]
  rfl

theorem prepare_of_found (h : k.Consistent σ) (hf : k.layout.Fits)
    (hp : k.processes.get? pid = none) {line : Bytes} {command : Command} {inode : Nat}
    {eip : UInt32} (t : TerminalId) (hc : Command.parse line = .ok command)
    (he : k.findExecutable command.name.bytes = .ok (inode, eip)) :
    { k with processes := k.processes.insert pid }.prepare pid t line =
      match (k.image inode).2 with
      | .error e =>
        (.error e,
          { k.performAll (.loadPageDirectory (k.spaces.directoryAddress (.process pid)) ::
              (k.layout.copies pid (k.image inode).1 ++
                [.loadPageDirectory (k.spaces.directoryAddress k.spaces.active)])) with
            processes := (k.processes.insert pid).modify pid (named command t) })
      | .ok () =>
        (.ok (.start eip k.layout.userStackTop),
          k.prepared pid t ⟨command, inode, .start eip k.layout.userStackTop⟩) := by
  let k₀ : Kernel M D F := { k with processes := k.processes.insert pid }
  let k₁ : Kernel M D F :=
    { k with processes := (k.processes.insert pid).modify pid (named command t) }
  have hb : k₁.buildSpace pid t =
      (.ok (.process pid), { k₁ with spaces := k.spaces.give pid (k.newMap pid t) }) :=
    buildSpace_eq (k := k₁) hf (h.isGiven_free hp) (h.slotMap_free hp) t
  have hl : { k₁ with spaces := k.spaces.give pid (k.newMap pid t) }.enterAndLoad
      (.process pid) inode = _ := k.enterAndLoad_eq hf k₁.processes pid t inode
  refine (prepare_of_built (k := k₀) hc he hb).trans ?_
  rw [hl]
  cases hi : (k.image inode).2 with
  | error e => exact congrArg (Prod.mk _) (h.leave_new hp k₁.processes (k.newMap pid t) _)
  | ok u => rfl

theorem prepare_ok (h : k.Consistent σ) (hf : k.layout.Fits) (hp : k.processes.get? pid = none)
    {line : Bytes} {prog : Program} (hprog : k.program line = .ok prog) (t : TerminalId) :
    { k with processes := k.processes.insert pid }.prepare pid t line =
      (.ok prog.entry, k.prepared pid t prog) := by
  obtain ⟨eip, hc, he, hi, hentry⟩ := program_eq_ok hprog
  have hfound := prepare_of_found h hf hp t hc he
  rw [hi] at hfound
  cases prog
  cases hentry
  exact hfound

/-- A launch that fails leaves the slot as it was. -/
theorem prepare_error (h : k.Consistent σ) (hf : k.layout.Fits)
    (hp : k.processes.get? pid = none) {line : Bytes} {e : KernelError}
    (hprog : k.program line = .error e) (t : TerminalId) :
    ∃ k', { k with processes := k.processes.insert pid }.prepare pid t line = (.error e, k') ∧
      k'.releaseProcess pid = k.performAll (k.failureCalls pid line) := by
  have hcur := h.current_ne hp
  have hnew (f : ProcessRecord → ProcessRecord) :
      ((k.processes.insert pid).modify pid f).get? pid =
        some (f (.fresh k.processes.layout pid)) := by simp
  have hother (f : ProcessRecord → ProcessRecord) (y : ProcessId) (hy : y ≠ pid) :
      ((k.processes.insert pid).modify pid f).get? y = k.processes.get? y := by simp [hy]
  have hns := h.named
  unfold program at hprog
  unfold failureCalls
  cases hc : Command.parse line with
  | error e' =>
    rw [hc] at hprog
    cases hprog
    refine ⟨_, prepare_of_unparsed hc, ?_⟩
    have hfresh : (k.processes.insert pid).get? pid = some (.fresh k.processes.layout pid) := by
      simp
    exact releaseProcess_new hns hp hcur k rfl rfl (by simp +contextual) hfresh rfl rfl
  | ok command =>
    simp only [hc] at hprog
    cases he : k.findExecutable command.name.bytes with
    | error e' =>
      rw [he] at hprog
      cases hprog
      refine ⟨_, prepare_of_unfound hc he, ?_⟩
      simp only [he]
      exact releaseProcess_new hns hp hcur k rfl rfl (hother _) (hnew _) rfl rfl
    | ok found =>
      obtain ⟨inode, eip⟩ := found
      simp only [he] at hprog
      cases hi : (k.image inode).2 with
      | ok u =>
        rw [hi] at hprog
        cases hprog
      | error e' =>
        rw [hi] at hprog
        cases hprog
        have hfound := prepare_of_found h hf hp t hc he
        rw [hi] at hfound
        refine ⟨_, hfound, ?_⟩
        simp only [he]
        exact releaseProcess_new (k := k.performAll _) hns hp hcur (k.performAll _) rfl rfl
          (hother _) (hnew _) rfl rfl

omit [FileSystem F] [Machine M] in
theorem beforeNul_of_parse {line : Bytes} {command : Command}
    (hc : Command.parse line = .ok command) : Bytes.beforeNul line ≠ [] := by
  intro hnil
  rw [Command.parse, hnil] at hc
  cases hc

omit [Machine M] in
theorem beforeNul_ne_nil {line : Bytes} {prog : Program} (hprog : k.program line = .ok prog) :
    Bytes.beforeNul line ≠ [] := by
  obtain ⟨_, hc, _⟩ := program_eq_ok hprog
  exact beforeNul_of_parse hc

theorem launchLocked_eq (h : k.Consistent σ) (hf : k.layout.Fits) (line : Bytes) (origin : Origin)
    {t : TerminalId} (ho : k.originTerminal origin = .ok t) :
    k.launchLocked line origin =
      if Bytes.beforeNul line = [] then (.error .invalidCommand, k)
      else
        match k.processes.firstFree? with
        | none => (.error .registryExhausted, k)
        | some pid =>
          match k.program line with
          | .error e => (.error e, k.performAll (k.failureCalls pid line))
          | .ok prog =>
            let r := (k.prepared pid t prog).start pid t prog.entry origin
            (.ok r.1, r.2) := by
  rw [launchLocked, ho]
  simp only [ProcessTable.allocate_eq]
  by_cases hl : Bytes.beforeNul line = []
  · simp only [if_pos hl]
  · simp only [if_neg hl]
    cases hfree : k.processes.firstFree? with
    | none => rfl
    | some pid =>
      have hp := ProcessTable.get?_firstFree hfree
      cases hprog : k.program line with
      | error e =>
        obtain ⟨k', hk', hr⟩ := prepare_error h hf hp hprog t
        simp only [hk', hr]
      | ok prog => simp only [prepare_ok h hf hp hprog t]

end TerminalKernel.Kernel
