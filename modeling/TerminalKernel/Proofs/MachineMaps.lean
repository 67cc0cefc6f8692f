import TerminalKernel.Kernel.Boot
import TerminalKernel.Kernel.Operation

namespace TerminalKernel

/-- The calls that kernels make: of the interrupt lines they serve that of the timer only. -/
def MachineCall.FromKernel : MachineCall → Prop
  | .endOfInterrupt irq => irq = timerIrq
  | .setIrqMask irq masked => irq = timerIrq ∧ masked = false
  | _ => True

instance : DecidablePred MachineCall.FromKernel
  | .endOfInterrupt irq => inferInstanceAs (Decidable (irq = timerIrq))
  | .setIrqMask irq masked => inferInstanceAs (Decidable (irq = timerIrq ∧ masked = false))
  | .disableInterrupts | .enableInterrupts | .loadPageDirectory _ | .setKernelStack _
  | .programTimer _ | .copyToUser .. => inferInstanceAs (Decidable True)

/-- A machine that does for a kernel what another one does. -/
structure MachineMap (M N : Type) [Machine M] [Machine N] where
  toFun : M → N
  interruptsEnabled : ∀ m, Machine.interruptsEnabled (toFun m) = Machine.interruptsEnabled m
  kernelStack : ∀ m, Machine.kernelStack (toFun m) = Machine.kernelStack m
  perform : ∀ call, call.FromKernel →
    ∀ m, toFun (Machine.perform call m) = Machine.perform call (toFun m)

namespace Kernel

variable {M N D F : Type}

def withMachine (machine : N) (k : Kernel M D F) : Kernel N D F where
  machine := machine
  devices := k.devices
  fs := k.fs
  layout := k.layout
  timer := k.timer
  spaces := k.spaces
  loaded := k.loaded
  processes := k.processes
  terminals := k.terminals
  displayed := k.displayed
  ticks := k.ticks
  events := k.events
  log := k.log

variable [Machine M] [Machine N] (φ : MachineMap M N) (k : Kernel M D F)

def mapMachine : Kernel N D F := k.withMachine (φ.toFun k.machine)

theorem setSpaces_mapMachine (spaces : SpaceArena) :
    { k.mapMachine φ with spaces } = mapMachine φ { k with spaces } := rfl

@[simp] theorem mapMachine_machine : (k.mapMachine φ).machine = φ.toFun k.machine := rfl

@[simp] theorem mapMachine_devices : (k.mapMachine φ).devices = k.devices := rfl

@[simp] theorem mapMachine_fs : (k.mapMachine φ).fs = k.fs := rfl

@[simp] theorem mapMachine_layout : (k.mapMachine φ).layout = k.layout := rfl

@[simp] theorem mapMachine_timer : (k.mapMachine φ).timer = k.timer := rfl

@[simp] theorem mapMachine_spaces : (k.mapMachine φ).spaces = k.spaces := rfl

@[simp] theorem mapMachine_processes : (k.mapMachine φ).processes = k.processes := rfl

@[simp] theorem mapMachine_terminals : (k.mapMachine φ).terminals = k.terminals := rfl

@[simp] theorem mapMachine_displayed : (k.mapMachine φ).displayed = k.displayed := rfl

@[simp] theorem mapMachine_events : (k.mapMachine φ).events = k.events := rfl

@[simp] theorem mapMachine_current : (k.mapMachine φ).current = k.current := rfl

@[simp] theorem record_mapMachine (e : Event) :
    (k.mapMachine φ).record e = (k.record e).mapMachine φ := by
  simp only [record, mapMachine_events, apply_ite (mapMachine φ)]
  rfl

@[simp] theorem logError_mapMachine : (k.mapMachine φ).logError = k.logError.mapMachine φ := rfl

@[simp] theorem modifyProcess_mapMachine (pid : ProcessId) (f : ProcessRecord → ProcessRecord) :
    (k.mapMachine φ).modifyProcess pid f = (k.modifyProcess pid f).mapMachine φ := rfl

@[simp] theorem modifyTerminal_mapMachine (t : TerminalId) (f : TerminalSlot → TerminalSlot) :
    (k.mapMachine φ).modifyTerminal t f = (k.modifyTerminal t f).mapMachine φ := rfl

@[simp] theorem setCurrent_mapMachine (pid : Option ProcessId) :
    (k.mapMachine φ).setCurrent pid = (k.setCurrent pid).mapMachine φ := rfl

@[simp] theorem discardSpace_mapMachine (space : SpaceId) :
    (k.mapMachine φ).discardSpace space = (k.discardSpace space).mapMachine φ := by
  simp only [discardSpace, mapMachine_spaces, logError_mapMachine, record_mapMachine]
  cases k.spaces.teardown space <;> rfl

@[simp] theorem releaseProcess_mapMachine (pid : ProcessId) :
    (k.mapMachine φ).releaseProcess pid = (k.releaseProcess pid).mapMachine φ := by
  simp only [releaseProcess, mapMachine_processes, logError_mapMachine]
  cases k.processes.destroy pid <;> rfl

theorem perform_mapMachine (call : MachineCall) (h : call.FromKernel) :
    (k.mapMachine φ).perform call = (k.perform call).mapMachine φ := by
  simp only [perform, mapMachine, withMachine, φ.perform call h]

@[simp] theorem loadPageDirectory_mapMachine (root : PhysAddr) :
    (k.mapMachine φ).perform (.loadPageDirectory root) =
      (k.perform (.loadPageDirectory root)).mapMachine φ := perform_mapMachine φ k _ trivial

@[simp] theorem setKernelStack_mapMachine (stack : KernelStack) :
    (k.mapMachine φ).perform (.setKernelStack stack) =
      (k.perform (.setKernelStack stack)).mapMachine φ := perform_mapMachine φ k _ trivial

@[simp] theorem copyToUser_mapMachine (target : VirtAddr) (phys : PhysAddr) (bytes : Bytes) :
    (k.mapMachine φ).perform (.copyToUser target phys bytes) =
      (k.perform (.copyToUser target phys bytes)).mapMachine φ := perform_mapMachine φ k _ trivial

theorem critical_mapMachine {α : Type} {body : Kernel N D F → α × Kernel N D F}
    {body' : Kernel M D F → α × Kernel M D F}
    (h : ∀ k : Kernel M D F, body (k.mapMachine φ) = (body' k).map id (mapMachine φ)) :
    (k.mapMachine φ).critical body = (k.critical body').map id (mapMachine φ) := by
  have hoff := perform_mapMachine φ k .disableInterrupts trivial
  simp only [critical, hoff, h, mapMachine_machine, φ.interruptsEnabled, Prod.map]
  split
  · exact congrArg (Prod.mk _) (perform_mapMachine φ _ .enableInterrupts trivial)
  · rfl

@[simp] theorem activate_mapMachine (space : SpaceId) :
    (k.mapMachine φ).activate space = (k.activate space).map (mapMachine φ) := by
  unfold activate
  simp only [mapMachine_spaces]
  cases k.spaces.lookup space with
  | error e => rfl
  | ok m =>
    cases k.spaces.activate space with
    | error e => rfl
    | ok r =>
      exact congrArg Except.ok
        (loadPageDirectory_mapMachine φ { k with spaces := r.2, loaded := some (r.1, m) } r.1)

@[simp] theorem buildSpace_mapMachine (slot : Nat) (t : TerminalId) :
    (k.mapMachine φ).buildSpace slot t = (k.buildSpace slot t).map id (mapMachine φ) := by
  simp only [buildSpace, mapMachine_spaces]
  cases k.spaces.claim slot with
  | error e => rfl
  | ok spaces =>
    have hm : (k.mapMachine φ).processMappings slot t = k.processMappings slot t := rfl
    simp only [hm]
    rcases spaces.mapAll (.process slot) (k.processMappings slot t) with ⟨_ | _, spaces⟩
    · exact congrArg (Prod.mk _) (discardSpace_mapMachine φ { k with spaces } _)
    · rfl

@[simp] theorem restoreSpace_mapMachine (space : SpaceId) :
    (k.mapMachine φ).restoreSpace space = (k.restoreSpace space).mapMachine φ := by
  simp only [restoreSpace, activate_mapMachine]
  cases k.activate space <;> rfl

@[simp] theorem parkCurrent_mapMachine (interrupted : Option SavedContext) :
    (k.mapMachine φ).parkCurrent interrupted = (k.parkCurrent interrupted).mapMachine φ := by
  simp only [parkCurrent, mapMachine_current, mapMachine_processes, mapMachine_machine,
    φ.kernelStack]
  cases k.current with
  | none => rfl
  | some pid =>
    dsimp only
    cases k.processes.get? pid with
    | none => rfl
    | some p =>
      dsimp only
      split
      · rfl
      · cases interrupted with
        | some context => rfl
        | none => cases p.entry <;> rfl

@[simp] theorem giveWay_mapMachine (origin : Origin) (child : ProcessId) :
    (k.mapMachine φ).giveWay origin child = (k.giveWay origin child).map id (mapMachine φ) := by
  cases origin with
  | process caller context =>
    simp only [giveWay, mapMachine_machine, φ.kernelStack]
    rfl
  | kernel t interrupted => exact congrArg (Prod.mk _) (parkCurrent_mapMachine φ k interrupted)

@[simp] theorem start_mapMachine (pid : ProcessId) (t : TerminalId) (entry : UserEntry)
    (origin : Origin) :
    (k.mapMachine φ).start pid t entry origin =
      (k.start pid t entry origin).map id (mapMachine φ) := by
  simp only [start, giveWay_mapMachine, Prod.map, id_eq, modifyProcess_mapMachine,
    mapMachine_layout, setKernelStack_mapMachine, modifyTerminal_mapMachine, setCurrent_mapMachine,
    record_mapMachine]

section

variable [FileSystem F]

@[simp] theorem findExecutable_mapMachine (name : Bytes) :
    (k.mapMachine φ).findExecutable name = k.findExecutable name := rfl

theorem loadFrom_mapMachine (space : SpaceId) (inode length offset : Nat) :
    (k.mapMachine φ).loadFrom space inode length offset =
      (k.loadFrom space inode length offset).map id (mapMachine φ) := by
  -- by the number of bytes that are left
  induction hd : length - offset using Nat.strongRecOn generalizing k offset with
  | ind d ih =>
    rw [loadFrom, loadFrom]
    simp only [mapMachine_fs, mapMachine_layout, mapMachine_spaces]
    split
    case isFalse => rfl
    case isTrue hlt =>
      rcases FileSystem.readData k.fs inode offset (List.replicate loaderChunk 0) with
        ⟨_ | n, chunk⟩
      · rfl
      · dsimp only
        split
        · rfl
        · cases k.spaces.translate space (k.layout.loadAddress.offset (UInt32.ofNat offset)) with
          | none => rfl
          | some phys =>
            dsimp only
            rw [copyToUser_mapMachine]
            exact ih _ (by omega) _ _ rfl

@[simp] theorem loadImage_mapMachine (space : SpaceId) (inode : Nat) :
    (k.mapMachine φ).loadImage space inode = (k.loadImage space inode).map id (mapMachine φ) := by
  simp only [loadImage, mapMachine_fs, mapMachine_layout]
  cases FileSystem.fileLength k.fs inode with
  | error e => rfl
  | ok length =>
    simp only [loadFrom_mapMachine, apply_ite (Prod.map id (mapMachine φ))]
    rfl

@[simp] theorem enterAndLoad_mapMachine (space : SpaceId) (inode : Nat) :
    (k.mapMachine φ).enterAndLoad space inode =
      (k.enterAndLoad space inode).map id (mapMachine φ) := by
  simp only [enterAndLoad, activate_mapMachine]
  cases k.activate space with
  | error e => rfl
  | ok k => exact loadImage_mapMachine φ k space inode

@[simp] theorem prepare_mapMachine (pid : ProcessId) (t : TerminalId) (line : Bytes) :
    (k.mapMachine φ).prepare pid t line = (k.prepare pid t line).map id (mapMachine φ) := by
  unfold prepare
  cases Command.parse line with
  | error e => rfl
  | ok command =>
    simp only [modifyProcess_mapMachine, findExecutable_mapMachine]
    generalize k.modifyProcess pid _ = k
    rcases k.findExecutable command.name.bytes with _ | ⟨inode, eip⟩
    · rfl
    · simp only [buildSpace_mapMachine]
      rcases k.buildSpace pid t with ⟨_ | space, k⟩
      · rfl
      · simp only [Prod.map, id_eq, enterAndLoad_mapMachine]
        rcases k.enterAndLoad space inode with ⟨_ | _, k'⟩
        · simp only [mapMachine_spaces, restoreSpace_mapMachine, discardSpace_mapMachine]
        · rfl

@[simp] theorem launchLocked_mapMachine (line : Bytes) (origin : Origin) :
    (k.mapMachine φ).launchLocked line origin =
      (k.launchLocked line origin).map id (mapMachine φ) := by
  have ho : (k.mapMachine φ).originTerminal origin = k.originTerminal origin := by
    cases origin <;> rfl
  simp only [launchLocked, ho, mapMachine_processes]
  cases k.originTerminal origin with
  | error e => rfl
  | ok t =>
    dsimp only
    split
    · rfl
    · rcases k.processes.allocate with _ | ⟨pid, processes⟩
      · rfl
      · have hp : prepare pid t line { k.mapMachine φ with processes } = _ :=
          prepare_mapMachine φ { k with processes } pid t line
        simp only [hp]
        rcases prepare pid t line { k with processes } with ⟨_ | entry, k⟩
        · exact congrArg (Prod.mk _) (releaseProcess_mapMachine φ k pid)
        · simp only [Prod.map, id_eq, start_mapMachine]

@[simp] theorem launch_mapMachine (line : Bytes) (origin : Origin) :
    (k.mapMachine φ).launch line origin = (k.launch line origin).map id (mapMachine φ) :=
  critical_mapMachine φ k fun k => launchLocked_mapMachine φ k line origin

@[simp] theorem execute_mapMachine (line : Bytes) (caller : SavedContext) :
    (k.mapMachine φ).execute line caller = (k.execute line caller).map id (mapMachine φ) := by
  simp only [execute, mapMachine_current]
  cases k.current with
  | none => rfl
  | some pid =>
    simp only [launch_mapMachine]
    rcases k.launch line (.process pid caller) with ⟨e | transfer, k⟩
    · simp only [Prod.map, id_eq, logError_mapMachine, mapMachine_processes]
      cases k.logError.processes.get? pid with
      | none => rfl
      | some p => exact congrArg (Prod.mk _) (record_mapMachine φ _ _)
    · rfl

end

@[simp] theorem closeDescriptor_mapMachine (pid : ProcessId) (fd : Nat) :
    (k.mapMachine φ).closeDescriptor pid fd = (k.closeDescriptor pid fd).mapMachine φ := by
  simp only [closeDescriptor, mapMachine_processes]
  cases k.processes.get? pid with
  | none => rfl
  | some p =>
    dsimp only
    cases (p.files.take fd).1 with
    | none => rfl
    | some f =>
      dsimp only
      cases f.close <;> rfl

@[simp] theorem closeAll_mapMachine (pid : ProcessId) :
    (k.mapMachine φ).closeAll pid = (k.closeAll pid).mapMachine φ := by
  simp only [closeAll, mapMachine_processes]
  cases k.processes.get? pid with
  | none => rfl
  | some p =>
    exact List.foldl_hom (mapMachine φ) fun k fd => closeDescriptor_mapMachine φ k pid fd

@[simp] theorem discardOwn_mapMachine (space : Option SpaceId) :
    (k.mapMachine φ).discardOwn space = (k.discardOwn space).mapMachine φ := by
  cases space with
  | none => rfl
  | some space => exact discardSpace_mapMachine φ k space

@[simp] theorem retargetVideo_mapMachine (space : Option SpaceId) (t : TerminalId) :
    (k.mapMachine φ).retargetVideo space t = (k.retargetVideo space t).mapMachine φ := by
  have hv : (k.mapMachine φ).videoTarget t = k.videoTarget t := rfl
  cases space with
  | none => rfl
  | some space =>
    simp only [retargetVideo, mapMachine_spaces, mapMachine_layout, hv]
    cases k.spaces.remap space ⟨k.layout.video.val⟩ (k.videoTarget t) videoFlags <;> rfl

@[simp] theorem returnToParent_mapMachine (p : ProcessRecord) (pid parent : ProcessId)
    (parentSpace : Option SpaceId) (context : SavedContext) (status : Int) :
    (k.mapMachine φ).returnToParent p pid parent parentSpace context status =
      (k.returnToParent p pid parent parentSpace context status).map id (mapMachine φ) := by
  simp only [returnToParent, retargetVideo_mapMachine, setKernelStack_mapMachine,
    restoreSpace_mapMachine, discardOwn_mapMachine, modifyTerminal_mapMachine,
    releaseProcess_mapMachine, modifyProcess_mapMachine, setCurrent_mapMachine,
    record_mapMachine, Prod.map, id_eq]

section

variable [FileSystem F]

@[simp] theorem retireLast_mapMachine (p : ProcessRecord) (pid : ProcessId) :
    (k.mapMachine φ).retireLast p pid = (k.retireLast p pid).map id (mapMachine φ) := by
  simp only [retireLast, mapMachine_layout, setKernelStack_mapMachine, restoreSpace_mapMachine,
    discardOwn_mapMachine, releaseProcess_mapMachine, modifyTerminal_mapMachine,
    setCurrent_mapMachine, record_mapMachine, launchLocked_mapMachine]
  generalize record _ _ = k
  rcases k.launchLocked shell (.kernel p.terminal none) with ⟨e | transfer, k⟩
  · simp only [Prod.map, id_eq, logError_mapMachine, record_mapMachine]
  · rfl

@[simp] theorem finish_mapMachine (p : ProcessRecord) (pid : ProcessId) (status : Int) :
    (k.mapMachine φ).finish p pid status = (k.finish p pid status).map id (mapMachine φ) := by
  simp only [finish, mapMachine_terminals, mapMachine_processes, logError_mapMachine,
    retireLast_mapMachine, returnToParent_mapMachine]
  cases p.parent with
  | none => rfl
  | some parent =>
    dsimp only
    split
    · rfl
    · cases k.processes.get? parent with
      | none => rfl
      | some q =>
        dsimp only
        cases q.state with
        | awaitingChild child context => simp only [apply_ite (Prod.map id (mapMachine φ))]
        | launching | ready | running | preempted => rfl

@[simp] theorem haltLocked_mapMachine (cause : HaltCause) :
    (k.mapMachine φ).haltLocked cause = (k.haltLocked cause).map id (mapMachine φ) := by
  simp only [haltLocked, mapMachine_current, mapMachine_processes]
  cases k.current with
  | none => rfl
  | some pid =>
    dsimp only
    cases k.processes.get? pid with
    | none => rfl
    | some p => simp only [closeAll_mapMachine, record_mapMachine, finish_mapMachine]

@[simp] theorem halt_mapMachine (cause : HaltCause) :
    (k.mapMachine φ).halt cause = (k.halt cause).map id (mapMachine φ) :=
  critical_mapMachine φ k fun k => haltLocked_mapMachine φ k cause

@[simp] theorem exception_mapMachine (vector : UInt8) :
    (k.mapMachine φ).exception vector = (k.exception vector).map id (mapMachine φ) := by
  simp only [exception, logError_mapMachine, mapMachine_current]
  cases k.logError.current with
  | none => rfl
  | some pid => simp only [record_mapMachine, halt_mapMachine]

end

@[simp] theorem switchTo_mapMachine (target : ProcessId) (interrupted : SavedContext) :
    (k.mapMachine φ).switchTo target interrupted =
      (k.switchTo target interrupted).map (Prod.map id (mapMachine φ)) := by
  simp only [switchTo, mapMachine_processes, activate_mapMachine]
  cases k.processes.get target with
  | error e => rfl
  | ok p =>
    simp only [bind, Except.bind, pure, Except.pure]
    cases p.space with
    | none => rfl
    | some space =>
      cases p.state with
      | launching | running | awaitingChild => rfl
      | preempted | ready =>
        dsimp only
        cases k.activate space with
        | error e => rfl
        | ok k =>
          refine congrArg Except.ok (congrArg (Prod.mk _) ?_)
          simp only [mapMachine_current, parkCurrent_mapMachine, setKernelStack_mapMachine,
            modifyProcess_mapMachine, setCurrent_mapMachine, record_mapMachine]

@[simp] theorem takeTurn_mapMachine (interrupted : SavedContext) :
    (k.mapMachine φ).takeTurn interrupted = (k.takeTurn interrupted).map id (mapMachine φ) := by
  have hn : (k.mapMachine φ).nextProcess = k.nextProcess := rfl
  simp only [takeTurn, hn, switchTo_mapMachine]
  cases k.nextProcess with
  | none => rfl
  | some target =>
    dsimp only
    cases k.switchTo target interrupted <;> rfl

@[simp] theorem timerTick_mapMachine (interrupted : SavedContext) :
    (k.mapMachine φ).timerTick interrupted = (k.timerTick interrupted).map id (mapMachine φ) := by
  refine critical_mapMachine φ k fun k => ?_
  have ht : takeTurn interrupted { k.mapMachine φ with ticks := (k.mapMachine φ).ticks + 1 } = _ :=
    takeTurn_mapMachine φ { k with ticks := k.ticks + 1 } interrupted
  simp only [timerTickLocked, ht]
  exact congrArg (Prod.mk _) (perform_mapMachine φ _ (.endOfInterrupt timerIrq) rfl)

@[simp] theorem moveVideo_mapMachine (left entered : TerminalId) (p : ProcessRecord) :
    (k.mapMachine φ).moveVideo left entered p =
      (k.moveVideo left entered p).map id (mapMachine φ) := by
  have hm : (k.mapMachine φ).movedVideo left entered p = k.movedVideo left entered p := rfl
  simp only [moveVideo, hm, mapMachine_layout, mapMachine_spaces]
  split
  case h_2 => rfl
  case h_1 slot target _ _ =>
    cases k.spaces.remap (.process slot) ⟨k.layout.video.val⟩ target videoFlags <;> rfl

@[simp] theorem moveVideos_mapMachine (left entered : TerminalId) (ps : List ProcessRecord) :
    (k.mapMachine φ).moveVideos left entered ps =
      (k.moveVideos left entered ps).map id (mapMachine φ) := by
  induction ps generalizing k with
  | nil => rfl
  | cons p ps ih => simp only [moveVideos, moveVideo_mapMachine, Prod.map, id_eq, ih]

section

variable [FileSystem F] [Devices D]

@[simp] theorem switchTerminal_mapMachine (entered : TerminalId)
    (interrupted : Option SavedContext) :
    (k.mapMachine φ).switchTerminal entered interrupted =
      (k.switchTerminal entered interrupted).map id (mapMachine φ) := by
  refine critical_mapMachine φ k fun k => ?_
  generalize hk : k.mapMachine φ = k'
  -- the kernels agree again once both show the terminal, and then move the same video pages
  have hshow : { k' with
      devices := Devices.showTerminal k'.displayed entered k'.devices
      displayed := entered } = mapMachine φ
        { k with
          devices := Devices.showTerminal k.displayed entered k.devices
          displayed := entered } := by
    rw [← hk]
    rfl
  have hd : k'.displayed = k.displayed := by rw [← hk, mapMachine_displayed]
  have hp : k'.processes = k.processes := by rw [← hk, mapMachine_processes]
  dsimp only [switchTerminalLocked]
  by_cases he : k.displayed = entered
  · rw [if_pos he, if_pos (hd.trans he), ← hk]
    rfl
  · have he' : ¬k'.displayed = entered := hd ▸ he
    rw [if_neg he, if_neg he']
    simp only [hshow]
    simp only [hp, hd, moveVideos_mapMachine]
    generalize moveVideos k.displayed entered k.processes.live
      { k with
        devices := Devices.showTerminal k.displayed entered k.devices
        displayed := entered } = r
    rcases r with ⟨changed, k₁⟩
    simp only [Prod.map, id_eq, mapMachine_spaces, restoreSpace_mapMachine,
      ← apply_ite (mapMachine φ), record_mapMachine, mapMachine_terminals, launchLocked_mapMachine]
    generalize record (.terminalSwitched k.displayed entered)
      (if changed = true then k₁.restoreSpace k₁.spaces.active else k₁) = k₂
    by_cases hl : 0 < (k₂.terminals.get entered).live
    · simp only [if_pos hl]
    · simp only [if_neg hl]
      rcases k₂.launchLocked shell (.kernel entered interrupted) with ⟨e | transfer, k₃⟩
      · simp only [logError_mapMachine, record_mapMachine]
      · rfl

end

section

@[simp] theorem requireFile_mapMachine (fd : Nat) :
    (k.mapMachine φ).requireFile fd = k.requireFile fd := rfl

@[simp] theorem closeFile_mapMachine (fd : Int) :
    (k.mapMachine φ).closeFile fd = (k.closeFile fd).map id (mapMachine φ) := by
  have hc (fd : Nat) (k : Kernel M D F) :
      (k.mapMachine φ).closeLocked fd = (k.closeLocked fd).map id (mapMachine φ) := by
    simp only [closeLocked, requireFile_mapMachine]
    rcases k.requireFile fd with _ | ⟨pid, t, file⟩
    · rfl
    · dsimp only
      cases file.close <;> rfl
  unfold closeFile
  cases descriptorIndex fd with
  | error e => rfl
  | ok fd =>
    simp only [apply_ite (Prod.map id (mapMachine φ)), critical_mapMachine φ k (hc fd)]
    rfl

variable [Devices D]

@[simp] theorem writeDescriptor_mapMachine (fd : Int) (bytes : Bytes) :
    (k.mapMachine φ).writeDescriptor fd bytes =
      (k.writeDescriptor fd bytes).map id (mapMachine φ) := by
  unfold writeDescriptor
  cases descriptorIndex fd with
  | error e => rfl
  | ok fd =>
    simp only [requireFile_mapMachine]
    rcases k.requireFile fd with _ | ⟨pid, t, file⟩ <;> rfl

variable [FileSystem F]

@[simp] theorem readDescriptor_mapMachine (fd : Int) (buffer : Bytes) :
    (k.mapMachine φ).readDescriptor fd buffer =
      (k.readDescriptor fd buffer).map id (Prod.map id (mapMachine φ)) := by
  unfold readDescriptor
  cases descriptorIndex fd with
  | error e => rfl
  | ok fd =>
    simp only [requireFile_mapMachine]
    rcases k.requireFile fd with _ | ⟨pid, t, file⟩ <;> rfl

@[simp] theorem openFile_mapMachine (name : Bytes) :
    (k.mapMachine φ).openFile name = (k.openFile name).map id (mapMachine φ) := by
  refine critical_mapMachine φ k fun k => ?_
  have hr : (k.mapMachine φ).requireCurrent = k.requireCurrent := rfl
  simp only [openLocked, hr, mapMachine_fs, mapMachine_processes, mapMachine_devices]
  split
  · rfl
  · split <;> rfl

@[simp] theorem syscall_mapMachine (call : SystemCall) (caller : SavedContext) :
    (k.mapMachine φ).syscall call caller = (k.syscall call caller).map id (mapMachine φ) := by
  cases call with
  | halt | execute | read | write | «open» | close =>
    simp only [syscall, halt_mapMachine, execute_mapMachine, readDescriptor_mapMachine,
      writeDescriptor_mapMachine, openFile_mapMachine, closeFile_mapMachine, Prod.map, id_eq]
  | getArguments | videoMap | setHandler | signalReturn => rfl

@[simp] theorem syscallRaw_mapMachine (number argument : UInt32) (bytes : Bytes)
    (caller : SavedContext) :
    (k.mapMachine φ).syscallRaw number argument bytes caller =
      (k.syscallRaw number argument bytes caller).map id (mapMachine φ) := by
  unfold syscallRaw
  cases SystemCall.decode? number argument bytes with
  | none => rfl
  | some call => exact syscall_mapMachine φ k call caller

/-- One operation does the same on both machines. -/
theorem operate_mapMachine (op : Operation) :
    (k.mapMachine φ).operate op = (k.operate op).map id (mapMachine φ) := by
  cases op <;> simp only [operate, execute_mapMachine, halt_mapMachine, exception_mapMachine,
    timerTick_mapMachine, switchTerminal_mapMachine, syscall_mapMachine, syscallRaw_mapMachine,
    Prod.map, id_eq]

end

section

variable [FileSystem F]

@[simp] theorem launchShells_mapMachine (ts : List TerminalId) (last : Transfer) :
    launchShells ts last (k.mapMachine φ) =
      (launchShells ts last k).map id (mapMachine φ) := by
  induction ts generalizing k last with
  | nil => rfl
  | cons t ts ih =>
    simp only [launchShells, launch_mapMachine]
    rcases k.launch shell (.kernel t none) with ⟨_ | transfer, k⟩
    · rfl
    · exact ih k transfer

omit [FileSystem F] in
@[simp] theorem checkInvariants_mapMachine :
    (k.mapMachine φ).checkInvariants = k.checkInvariants.map id (mapMachine φ) := by
  have hf : (k.mapMachine φ).findViolation = k.findViolation := rfl
  simp only [checkInvariants, hf]
  cases k.findViolation <;> rfl

omit [FileSystem F] in
@[simp] theorem startMachine_mapMachine (program : TimerProgram) :
    (k.mapMachine φ).startMachine program = (k.startMachine program).mapMachine φ := by
  have hi : (k.mapMachine φ).identifyKernel = k.identifyKernel.mapMachine φ := by
    simp only [identifyKernel, mapMachine_layout, mapMachine_spaces]
    -- not by `rfl`, which would compute the map
    exact setSpaces_mapMachine φ k _
  simp only [startMachine, hi, restoreSpace_mapMachine, mapMachine_layout,
    setKernelStack_mapMachine]
  rw [perform_mapMachine φ _ (.programTimer program) trivial,
    perform_mapMachine φ _ (.setIrqMask timerIrq false) ⟨rfl, rfl⟩]

/-- Booting does the same on both machines. -/
theorem boot_mapMachine : (k.mapMachine φ).boot = k.boot.map id (mapMachine φ) := by
  simp only [boot, mapMachine_layout, mapMachine_timer]
  cases k.layout.validate with
  | error e => rfl
  | ok =>
    cases k.timer.program with
    | error e => rfl
    | ok program =>
      simp only [startMachine_mapMachine, launchShells_mapMachine]
      rcases launchShells TerminalId.all.reverse .idle (k.startMachine program) with
        ⟨_ | first, k⟩
      · rfl
      · simp only [Prod.map, id_eq, checkInvariants_mapMachine]
        rcases k.checkInvariants with ⟨_ | _, k⟩ <;> rfl

end

end Kernel

end TerminalKernel
