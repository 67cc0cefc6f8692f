import TerminalKernel.Kernel.Halt
import TerminalKernel.Proofs.Starting

namespace TerminalKernel

namespace FileTable

theorem get?_put (t : FileTable) (fd x : Nat) (file : Option OpenFile) :
    (t.put fd file).get? x = if x = fd ∧ fd < maxOpenFiles then file else t.get? x := by
  simp only [get?, put, Vector.getElem?_setIfInBounds]
  by_cases hx : x = fd
  · subst x
    by_cases hfd : fd < maxOpenFiles
    · simp [hfd]
    · simp [hfd]
  · simp [hx, Ne.symm hx]

theorem Closable.put {t : FileTable} (h : t.Closable) {fd : Nat} {file : Option OpenFile}
    (hf : ∀ f ∈ file, firstUserDescriptor ≤ fd → f.close = .ok ()) : (t.put fd file).Closable := by
  intro x f hx hget
  rw [get?_put] at hget
  split at hget
  case isTrue he => exact hf f hget (he.1 ▸ hx)
  case isFalse => exact h x f hx hget

def without (t : FileTable) (fds : List Nat) : FileTable := fds.foldl (fun t fd => t.put fd none) t

theorem Closable.without {t : FileTable} (h : t.Closable) (fds : List Nat) :
    (t.without fds).Closable := by
  induction fds generalizing t with
  | nil => exact h
  | cons fd fds ih => exact ih (h.put (by simp))

end FileTable

namespace Kernel

variable {M D F : Type} {k : Kernel M D F} {pid : ProcessId}

def withFiles (pid : ProcessId) (files : FileTable) (k : Kernel M D F) : Kernel M D F :=
  k.modifyProcess pid fun p => { p with files }

theorem withFiles_self {p : ProcessRecord} (hp : k.processes.get? pid = some p) :
    k.withFiles pid p.files = k := by
  rw [withFiles, modifyProcess, ProcessTable.modify_of_get? hp rfl]

theorem withFiles_withFiles (files files' : FileTable) :
    (k.withFiles pid files).withFiles pid files' = k.withFiles pid files' := by
  simp only [withFiles, modifyProcess, ProcessTable.modify_modify]
  rfl

theorem closeDescriptor_eq {p : ProcessRecord} (hp : k.processes.get? pid = some p)
    (hf : p.files.Closable) {fd : Nat} (hfd : firstUserDescriptor ≤ fd) :
    k.closeDescriptor pid fd = k.withFiles pid (p.files.put fd none) := by
  have htake : p.files.take fd = (p.files.get? fd, p.files.put fd none) := by
    rw [FileTable.take, if_neg (Nat.not_lt.mpr hfd)]
  simp only [closeDescriptor, hp, htake]
  cases hfile : p.files.get? fd with
  | none => rfl
  | some f =>
    simp only [hf fd f hfd hfile]
    rfl

theorem closeDescriptors_eq {p : ProcessRecord} (hp : k.processes.get? pid = some p)
    (hf : p.files.Closable) {fds : List Nat} (hfds : ∀ fd ∈ fds, firstUserDescriptor ≤ fd) :
    fds.foldl (fun k fd => k.closeDescriptor pid fd) k = k.withFiles pid (p.files.without fds) := by
  induction fds generalizing k p with
  | nil => exact (withFiles_self hp).symm
  | cons fd fds ih =>
    have hp' : (k.withFiles pid (p.files.put fd none)).processes.get? pid =
        some { p with files := p.files.put fd none } := by
      simp [withFiles, modifyProcess, hp]
    rw [List.foldl_cons, closeDescriptor_eq hp hf (hfds fd (List.mem_cons_self ..)),
      ih hp' (hf.put (by simp)) (fun x hx => hfds x (List.mem_cons_of_mem fd hx)),
      withFiles_withFiles]
    rfl

theorem closeAll_eq {p : ProcessRecord} (hp : k.processes.get? pid = some p)
    (hf : p.files.Closable) :
    k.closeAll pid = k.withFiles pid (p.files.without p.files.openDescriptors) := by
  rw [closeAll, hp]
  refine closeDescriptors_eq hp hf ?_
  intro fd hfd
  have hmem := (List.mem_filter.mp hfd).1
  exact (List.mem_range'_1.mp hmem).1

variable [FileSystem F] {σ : TerminalId → List ProcessId} {p : ProcessRecord} {t : TerminalId}

omit [FileSystem F] in
theorem get?_withFiles (hp : k.processes.get? pid = some p) (files : FileTable) :
    (k.withFiles pid files).processes.get? =
      Function.update k.processes.get? pid (some { p with files }) := by
  refine Records.eq_update ?_ ?_
  · simp [withFiles, modifyProcess, hp]
  · intro x hx
    simp [withFiles, modifyProcess, hx]

theorem Consistent.withFiles (h : k.Consistent σ) (hc : k.current = some pid)
    (hp : k.processes.get? pid = some p) {files : FileTable} (hf : files.Closable) :
    (k.withFiles pid files).Consistent σ := by
  have hget : (k.processes.modify pid fun q => { q with files }).get? = _ :=
    get?_withFiles hp files
  have hrun : p.state = .running := h.current_running hc hp
  have hst := h.stacked
  rw [hc] at hst
  have hcur : (k.processes.modify pid fun q => { q with files }).current = some pid := hc
  refine h.rerun k.spaces.active h.layout ?_ ?_ ?_ h.active h.loaded
  · rw [hcur, hget]
    refine hst.retop (hst.head_current hp) hp ⟨rfl, rfl, rfl⟩ (by simp) (by simp) ?_
    rw [if_pos rfl]
    exact hrun
  · rw [hget]
    intro x q hx
    obtain ⟨rfl, hq⟩ | ⟨-, hx⟩ := Records.update_eq_some_iff.mp hx
    · cases hq
      have hq := h.launched x p hp
      exact ⟨hq.space, hq.stackTop, hq.entry, hq.ready, hf⟩
    · exact h.launched x q hx
  · rw [hget]
    exact Records.map_terminal_update hp rfl

/-- A process leaves the stack of its terminal, and another space becomes the active one. -/
theorem Consistent.leave (h : k.Consistent σ) {t : TerminalId} {l : List ProcessId}
    {processes : ProcessTable} {space : SpaceId} {m : PageMap} {machine : M} {slot : TerminalSlot}
    (hl : processes.layout = k.layout)
    (hst : Stacked processes.get? processes.current (Function.update σ t l))
    (hgone : processes.get? pid = none)
    (hother : ∀ x, x ≠ pid →
      Option.Rel ProcessRecord.Restated (processes.get? x) (k.processes.get? x))
    (hspace : space = .ofCurrent processes.current) (hne : space ≠ .process pid)
    (hm : k.spaces.lookup space = .ok m) (hslot : slot = ⟨l.head?, l.length⟩) :
    { k with
      processes
      spaces := { k.spaces.free pid with active := space }
      loaded := some (k.spaces.directoryAddress space, m)
      terminals := k.terminals.set t slot t.isLt
      machine }.Consistent (Function.update σ t l) := by
  refine ⟨hl, hst, ?_, ?_, ?_, ?_, hspace, ⟨m, (SpaceArena.lookup_free hne).trans hm, rfl⟩⟩
  · exact h.get_terminals hslot
  · intro x q hx
    by_cases hxp : x = pid
    · rw [hxp] at hx
      have hx' : processes.get? pid = some q := hx
      rw [hgone] at hx'
      cases hx'
    · exact (h.launched_of_rel hx (hother x hxp)).of_eq rfl rfl
  · intro x
    refine (k.spaces.isGiven_free pid x).trans ?_
    by_cases hxp : x = pid
    · rw [if_pos hxp, hxp]
      exact (congrArg Option.isSome hgone).symm
    · rw [if_neg hxp, h.given]
      exact (isSome_of_map_terminal (map_terminal_of_rel (hother x hxp))).symm
  · intro x
    refine (k.spaces.slotMap_free pid x).trans ?_
    by_cases hxp : x = pid
    · rw [if_pos hxp, hxp]
      simp only [homeMap, hgone]
    · rw [if_neg hxp, h.maps]
      exact Eq.symm (homeMap_congr rfl rfl rfl (map_terminal_of_rel (hother x hxp)))

section

variable [Machine M]

def returned (pid parent : ProcessId) (t : TerminalId) (stack : KernelStack) (k : Kernel M D F) :
    Kernel M D F :=
  { k with
    processes := ((k.processes.erase pid).modify parent fun q =>
      { q with state := .running }).withCurrent (some parent)
    spaces := { k.spaces.free pid with active := .process parent }
    loaded := some (k.spaces.directoryAddress (.process parent), k.spaces.slotMap parent)
    terminals := k.terminals.set t ⟨some parent, (k.terminals.get t).live - 1⟩ t.isLt
    machine := Machine.perform (.loadPageDirectory (k.spaces.directoryAddress (.process parent)))
      (Machine.perform (.setKernelStack stack) k.machine) }

theorem Consistent.returnToParent_eq (h : k.Consistent σ) (hf : k.layout.Fits)
    (hp : k.processes.get? pid = some p) {parent : ProcessId} {q : ProcessRecord}
    (hq : k.processes.get? parent = some q) (hne : parent ≠ pid)
    (ht : q.terminal = p.terminal) (context : SavedContext) (status : Int) :
    k.returnToParent p pid parent q.space context status =
      (.resume parent context (some status),
        (k.returned pid parent p.terminal context.stack).record
          (.parentResumed parent status)) := by
  have hvideo : k.retargetVideo (some (.process parent)) p.terminal = k := by
    have hr := SpaceArena.remap_video hf (h.isGiven hq) (h.slotMap hq) (k.videoTarget q.terminal)
    rw [← h.slotMap hq, SpaceArena.give_slotMap (h.isGiven hq), ht] at hr
    simp only [retargetVideo, hr]
  have hl : (k.perform (.setKernelStack context.stack)).spaces.lookup (.process parent) =
      .ok (k.spaces.slotMap parent) := h.lookup hq
  have htear : ({ k.spaces with active := .process parent } : SpaceArena).teardown (.process pid) =
      .ok { k.spaces.free pid with active := .process parent } := by
    refine SpaceArena.teardown_eq (a := { k.spaces with active := .process parent }) (h.isGiven hp)
      ?_
    intro he
    exact hne (Fin.ext (SpaceId.process.inj he))
  have hd := h.destroy hp
  rw [returnToParent, (h.launched parent q hq).space, hvideo, Option.getD_some,
    restoreSpace_eq hl, (h.launched pid p hp).space]
  simp only [discardOwn, discardSpace, enter, perform, htear, modifyTerminal, releaseProcess, hd]
  rfl

def retired (pid : ProcessId) (t : TerminalId) (k : Kernel M D F) : Kernel M D F :=
  { k with
    processes := (k.processes.erase pid).withCurrent none
    spaces := { k.spaces.free pid with active := .kernel }
    loaded := some (k.spaces.directoryAddress .kernel, k.spaces.kernel)
    terminals := k.terminals.set t ⟨none, (k.terminals.get t).live - 1⟩ t.isLt
    machine := Machine.perform (.loadPageDirectory (k.spaces.directoryAddress .kernel))
      (Machine.perform (.setKernelStack ⟨Selector.kernelData, k.layout.globalKernelStack⟩)
        k.machine) }

theorem Consistent.retireLast_eq (h : k.Consistent σ) (hp : k.processes.get? pid = some p) :
    k.retireLast p pid =
      match ((k.retired pid p.terminal).record (.shellRelaunched p.terminal)).launchLocked shell
        (.kernel p.terminal none) with
      | (.ok transfer, k) => (transfer, k)
      | (.error e, k) => (.idle, k.logError.record (.launchFailed p.terminal e)) := by
  have hl : (k.perform (.setKernelStack
      ⟨Selector.kernelData, k.layout.globalKernelStack⟩)).spaces.lookup .kernel = .ok k.spaces.kernel := rfl
  have htear : ({ k.spaces with active := .kernel } : SpaceArena).teardown (.process pid) =
      .ok { k.spaces.free pid with active := .kernel } :=
    SpaceArena.teardown_eq (a := { k.spaces with active := .kernel }) (h.isGiven hp) (by simp)
  have hd := h.destroy hp
  rw [retireLast, restoreSpace_eq hl, (h.launched pid p hp).space]
  simp only [discardOwn, discardSpace, enter, perform, htear, modifyTerminal, releaseProcess, hd]
  rfl

omit [FileSystem F] in
theorem get?_returned {parent : ProcessId} {q : ProcessRecord}
    (hq : k.processes.get? parent = some q) (hne : parent ≠ pid) (t : TerminalId)
    (stack : KernelStack) :
    (k.returned pid parent t stack).processes.get? =
      Function.update (Function.update k.processes.get? pid none) parent
        (some { q with state := .running }) := by
  refine Records.eq_update_update ?_ ?_ ?_
  · simp [returned, hne, hq]
  · intro hx
    simp [returned, hx]
  · intro x hx hxp
    simp [returned, hx, hxp]

theorem Consistent.returned (h : k.Consistent σ) (hc : k.current = some pid) {parent : ProcessId}
    {q : ProcessRecord} (hq : k.processes.get? parent = some q) {l : List ProcessId}
    (hl : σ p.terminal = pid :: parent :: l) (stack : KernelStack) :
    (k.returned pid parent p.terminal stack).Consistent
      (Function.update σ p.terminal (parent :: l)) := by
  have hst := h.stacked
  rw [hc] at hst
  have hne : parent ≠ pid := hst.ne_below hl
  have hget : (((k.processes.erase pid).modify parent fun q =>
      { q with state := .running }).withCurrent (some parent)).get? = _ :=
    get?_returned hq hne p.terminal stack
  refine h.leave h.layout ?_ ?_ ?_ rfl ?_ (h.lookup hq) ?_
  · rw [hget]
    exact hst.pop hl hq ⟨rfl, rfl, rfl⟩ rfl
  · rw [hget, Function.update_of_ne (Ne.symm hne), Function.update_self]
  · intro x hx
    rw [hget]
    rw [Function.update_comm (Ne.symm hne), Function.update_of_ne hx]
    exact h.restated_update hq (.of_ne (by simp)) x
  · intro he
    exact hne (Fin.ext (SpaceId.process.inj he))
  · rw [h.terminals, hl]
    rfl

omit [FileSystem F] in
theorem get?_retired (t : TerminalId) :
    (k.retired pid t).processes.get? = Function.update k.processes.get? pid none := by
  refine Records.eq_update ?_ ?_
  · simp [retired]
  · intro x hx
    simp [retired, hx]

theorem Consistent.retired (h : k.Consistent σ) (hc : k.current = some pid)
    (hl : σ t = [pid]) : (k.retired pid t).Consistent (Function.update σ t []) := by
  have hst := h.stacked
  rw [hc] at hst
  have hget : ((k.processes.erase pid).withCurrent none).get? = _ := get?_retired t
  refine h.leave h.layout ?_ ?_ ?_ rfl (by simp) rfl ?_
  · rw [hget]
    exact hst.retire hl
  · rw [hget, Function.update_self]
  · intro x hx
    rw [hget, Function.update_of_ne hx]
    exact h.restated_self x
  · rw [h.terminals, hl]
    rfl

def ending (pid : ProcessId) (p : ProcessRecord) (status : Int) (k : Kernel M D F) :
    Kernel M D F :=
  (k.withFiles pid (p.files.without p.files.openDescriptors)).record (.processHalted pid status)

omit [Machine M] in
theorem Consistent.ending (h : k.Consistent σ) (hc : k.current = some pid)
    (hp : k.processes.get? pid = some p) (status : Int) :
    (k.ending pid p status).Consistent σ := by
  have hf : (p.files.without p.files.openDescriptors).Closable :=
    (h.launched pid p hp).files.without _
  exact (h.withFiles hc hp hf).of_sameCore (sameCore_record ..)

theorem Consistent.haltLocked_eq (h : k.Consistent σ) (hc : k.current = some pid)
    (hp : k.processes.get? pid = some p) (cause : HaltCause) :
    k.haltLocked cause = (k.ending pid p cause.status).finish
      { p with files := p.files.without p.files.openDescriptors } pid cause.status := by
  simp only [haltLocked, hc, hp, closeAll_eq hp (h.launched pid p hp).files]
  rfl

theorem Consistent.finish_returned (h : k.Consistent σ) (hf : k.layout.Fits)
    (hc : k.current = some pid) (hp : k.processes.get? pid = some p) {parent : ProcessId}
    (hparent : p.parent = some parent) (status : Int) :
    ∃ q context l, k.processes.get? parent = some q ∧ q.state = .awaitingChild pid context ∧
      σ p.terminal = pid :: parent :: l ∧
      k.finish p pid status =
        (.resume parent context (some status),
          (k.returned pid parent p.terminal context.stack).record
            (.parentResumed parent status)) := by
  have hst := h.stacked
  rw [hc] at hst
  obtain ⟨l, q, context, hl, hq, hs⟩ := hst.above_parent hp hparent
  have hlive : ¬(k.terminals.get p.terminal).live ≤ 1 := by
    rw [h.terminals, hl]
    simp
  have hne : parent ≠ pid := hst.ne_below hl
  have ht : q.terminal = p.terminal := by
    have hmem : parent ∈ σ p.terminal := by
      rw [hl]
      simp
    obtain ⟨r, hr, hrt⟩ := hst.mem_iff.mp hmem
    rw [hq] at hr
    cases hr
    exact hrt
  refine ⟨q, context, l, hq, hs, hl, ?_⟩
  simp only [finish, hparent, if_neg hlive, hq, hs]
  exact h.returnToParent_eq hf hp hq hne ht context status

/-- A process without a parent ends, and a shell starts in its place. -/
theorem Consistent.finish_relaunched (h : k.Consistent σ) (hf : k.layout.Fits)
    (hc : k.current = some pid) (hp : k.processes.get? pid = some p) (hparent : p.parent = none)
    {prog : Program} (hshell : k.program shell = .ok prog) (status : Int) :
    ∃ new, σ p.terminal = [pid] ∧
      (k.retired pid p.terminal).processes.firstFree? = some new ∧
      k.finish p pid status =
        (.enterUser new prog.entry,
          (((k.retired pid p.terminal).record (.shellRelaunched p.terminal)).relaunched new
            p.terminal prog).record (.processLaunched new p.terminal none)) := by
  have hst := h.stacked
  rw [hc] at hst
  have hl := hst.alone_of_root hp hparent
  have hfree : (k.retired pid p.terminal).processes.get? pid = none :=
    (ProcessTable.get?_erase ..).trans (if_pos rfl)
  obtain ⟨new, hnew⟩ := ProcessTable.firstFree_isSome hfree
  refine ⟨new, hl, hnew, ?_⟩
  let kr := (k.retired pid p.terminal).record (.shellRelaunched p.terminal)
  have hcore : kr.SameCore (k.retired pid p.terminal) := sameCore_record ..
  have hr : kr.Consistent (Function.update σ p.terminal []) :=
    (h.retired hc hl).of_sameCore hcore
  have hfits : kr.layout.Fits := by
    rw [hcore.layout]
    exact hf
  have hprog : kr.program shell = .ok prog := by
    rw [program_congr hcore.fs hcore.layout]
    exact hshell
  have hfirst : kr.processes.firstFree? = some new := by
    rw [hcore.processes]
    exact hnew
  have hcur : kr.current = none := by
    rw [current, hcore.processes]
    rfl
  have hlaunch := launchLocked_eq hr hfits shell (.kernel p.terminal none) rfl
  simp only [if_neg (beforeNul_ne_nil hprog), hfirst, hprog, Kernel.start_root hcur] at hlaunch
  have hlast : k.finish p pid status = k.retireLast p pid := by
    simp only [finish, hparent]
  rw [hlast, h.retireLast_eq hp, hlaunch]

end

end Kernel

end TerminalKernel
