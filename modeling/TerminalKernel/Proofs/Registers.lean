import TerminalKernel.Machine.Processor
import TerminalKernel.Proofs.Bootable

namespace TerminalKernel

/-- A machine in which the directory register and the kernel stack hold what was put there last. -/
class LawfulMachine (M : Type) [Machine M] where
  directory : M → Option PhysAddr
  directory_perform : ∀ call m, directory (Machine.perform call m) =
    match call with
    | .loadPageDirectory root => some root
    | _ => directory m
  kernelStack_perform : ∀ call (m : M), Machine.kernelStack (Machine.perform call m) =
    match call with
    | .setKernelStack stack => stack
    | _ => Machine.kernelStack m

instance : LawfulMachine MachineRecorder where
  directory m := m.cr3
  directory_perform call m := by cases call <;> rfl
  kernelStack_perform call m := by cases call <;> rfl

instance : LawfulMachine Processor where
  directory p := p.cr3
  directory_perform call p := by
    cases call with
    | endOfInterrupt irq =>
      change (p.endOfInterrupt irq).cr3 = p.cr3
      unfold Processor.endOfInterrupt
      split <;> rfl
    | disableInterrupts | enableInterrupts | loadPageDirectory | setKernelStack | setIrqMask
      | programTimer | copyToUser => rfl
  kernelStack_perform call p := by
    cases call with
    | endOfInterrupt irq =>
      change (p.endOfInterrupt irq).taskStack = p.taskStack
      unfold Processor.endOfInterrupt
      split <;> rfl
    | disableInterrupts | enableInterrupts | loadPageDirectory | setKernelStack | setIrqMask
      | programTimer | copyToUser => rfl

instance {M : Type} [Machine M] [LawfulMachine M] : LawfulMachine (Traced M) where
  directory t := LawfulMachine.directory t.machine
  directory_perform call t := LawfulMachine.directory_perform call t.machine
  kernelStack_perform call t := LawfulMachine.kernelStack_perform call t.machine

section

variable {M : Type} [Machine M] [LawfulMachine M] {m : M} {call : MachineCall}

open LawfulMachine

theorem directory_load (root : PhysAddr) (m : M) :
    directory (Machine.perform (.loadPageDirectory root) m) = some root :=
  directory_perform (.loadPageDirectory root) m

theorem directory_of_ne (h : ∀ root, call ≠ .loadPageDirectory root) (m : M) :
    directory (Machine.perform call m) = directory m := by
  rw [directory_perform]
  cases call with
  | loadPageDirectory root => exact absurd rfl (h root)
  | disableInterrupts | enableInterrupts | setKernelStack | endOfInterrupt | setIrqMask
    | programTimer | copyToUser => rfl

theorem kernelStack_setKernelStack (stack : KernelStack) (m : M) :
    Machine.kernelStack (Machine.perform (.setKernelStack stack) m) = stack :=
  kernelStack_perform (.setKernelStack stack) m

theorem kernelStack_of_ne (h : ∀ stack, call ≠ .setKernelStack stack) (m : M) :
    Machine.kernelStack (Machine.perform call m) = Machine.kernelStack m := by
  rw [kernelStack_perform]
  cases call with
  | setKernelStack stack => exact absurd rfl (h stack)
  | disableInterrupts | enableInterrupts | loadPageDirectory | endOfInterrupt | setIrqMask
    | programTimer | copyToUser => rfl

theorem directory_setKernelStack (stack : KernelStack) (m : M) :
    directory (Machine.perform (.setKernelStack stack) m) = directory m :=
  directory_perform (.setKernelStack stack) m

theorem kernelStack_load (root : PhysAddr) (m : M) :
    Machine.kernelStack (Machine.perform (.loadPageDirectory root) m) = Machine.kernelStack m :=
  kernelStack_perform (.loadPageDirectory root) m

theorem directory_foldl {calls : List MachineCall}
    (h : ∀ c ∈ calls, ∀ root, c ≠ .loadPageDirectory root) (m : M) :
    directory (calls.foldl (fun m c => Machine.perform c m) m) = directory m := by
  induction calls generalizing m with
  | nil => rfl
  | cons c cs ih =>
    rw [List.forall_mem_cons] at h
    exact (ih h.2 (Machine.perform c m)).trans (directory_of_ne h.1 m)

theorem kernelStack_foldl {calls : List MachineCall}
    (h : ∀ c ∈ calls, ∀ stack, c ≠ .setKernelStack stack) (m : M) :
    Machine.kernelStack (calls.foldl (fun m c => Machine.perform c m) m) =
      Machine.kernelStack m := by
  induction calls generalizing m with
  | nil => rfl
  | cons c cs ih =>
    rw [List.forall_mem_cons] at h
    exact (ih h.2 (Machine.perform c m)).trans (kernelStack_of_ne h.1 m)

end

def Transfer.target? : Transfer → Option ProcessId
  | .enterUser pid _ | .resume pid _ _ => some pid
  | _ => none

theorem ProcessRecord.target?_of_resumption {p : ProcessRecord} {pid : ProcessId}
    {stack : KernelStack} {transfer : Transfer} (h : p.resumption pid = some (stack, transfer)) :
    transfer.target? = some pid := by
  unfold resumption at h
  split at h
  · cases h
    rfl
  · cases h
    rfl
  · cases h

def RunState.context? : RunState → Option SavedContext
  | .preempted context | .awaitingChild _ context => some context
  | _ => none

namespace Layout

def stackOf (l : Layout) : Option ProcessId → KernelStack
  | some pid => ⟨Selector.kernelData, l.kernelStackTop pid⟩
  | none => ⟨Selector.kernelData, l.globalKernelStack⟩

theorem eq_copyToUser_of_mem_copies {l : Layout} {slot : Nat} {chunks : List (Nat × Bytes)}
    {c : MachineCall} (hc : c ∈ l.copies slot chunks) :
    ∃ target phys bytes, c = .copyToUser target phys bytes := by
  obtain ⟨_, _, rfl⟩ := List.mem_map.mp hc
  exact ⟨_, _, _, rfl⟩

end Layout

/-- Every saved context has the kernel stack of its process. -/
def Records.Saved (g : Records) (l : Layout) : Prop :=
  ∀ x p context, g x = some p → p.state.context? = some context → context.stack = l.stackOf (some x)

theorem Records.Saved.update {g : Records} {l : Layout} (h : g.Saved l) {x : ProcessId}
    {r : Option ProcessRecord}
    (hr : ∀ p context, r = some p → p.state.context? = some context →
      context.stack = l.stackOf (some x)) : Records.Saved (Function.update g x r) l := by
  intro y p context hy hp
  obtain ⟨rfl, he⟩ | ⟨-, he⟩ := Records.update_eq_some_iff.mp hy
  · exact hr p context he hp
  · exact h y p context he hp

theorem Records.Saved.updateOther {g : Records} {l : Layout} (h : g.Saved l) (x : ProcessId)
    {r : ProcessRecord} (hr : r.state.context? = none) :
    Records.Saved (Function.update g x (some r)) l := by
  refine h.update ?_
  intro p context hp hc
  cases hp
  rw [hr] at hc
  cases hc

namespace Kernel

variable {M D F : Type} [Machine M] [LawfulMachine M] [FileSystem F] {k k' : Kernel M D F}
  {σ σ' : TerminalId → List ProcessId}

open LawfulMachine

/-- The machine works for the current process, and so it did when a context was saved. -/
structure Registered (k : Kernel M D F) : Prop where
  directory : directory k.machine = some (k.spaces.directoryAddress k.spaces.active)
  stack : Machine.kernelStack k.machine = k.layout.stackOf k.current
  saved : Records.Saved k.processes.get? k.layout

omit [FileSystem F] in
theorem Registered.of_agrees (h : k.Registered) (hk : k'.Agrees k) : k'.Registered := by
  obtain ⟨⟨hfs, hl, hs, hlo, hp, ht, hd⟩, hm⟩ := hk
  cases k
  cases k'
  subst hfs hl hs hlo hp ht hd hm
  exact ⟨h.directory, h.stack, h.saved⟩

omit [FileSystem F] in
theorem Registered.perform (h : k.Registered) {call : MachineCall}
    (hd : ∀ root, call ≠ .loadPageDirectory root) (hs : ∀ stack, call ≠ .setKernelStack stack) :
    (k.perform call).Registered :=
  ⟨(directory_of_ne hd _).trans h.directory, (kernelStack_of_ne hs _).trans h.stack, h.saved⟩

omit [FileSystem F] in
theorem Registered.masked (h : k.Registered) : k.masked.Registered := h.perform nofun nofun

omit [FileSystem F] in
theorem registers_leave (k k' : Kernel M D F) :
    directory (k.leave k').machine = directory k'.machine ∧
      Machine.kernelStack (k.leave k').machine = Machine.kernelStack k'.machine := by
  unfold Kernel.leave unmasked
  split
  · exact ⟨directory_of_ne (by simp) _, kernelStack_of_ne (by simp) _⟩
  · exact ⟨rfl, rfl⟩

omit [FileSystem F] in
theorem Registered.leave (h : k'.Registered) : (k.leave k').Registered := by
  unfold Kernel.leave unmasked
  split
  · exact h.perform nofun nofun
  · exact h

omit [FileSystem F] in
theorem Registered.reload (h : k.Registered) (calls : List MachineCall)
    (hcalls : ∀ c ∈ calls, ∀ stack, c ≠ .setKernelStack stack) :
    (k.performAll (calls ++
      [.loadPageDirectory (k.spaces.directoryAddress k.spaces.active)])).Registered := by
  refine ⟨?_, ?_, h.saved⟩
  · rw [performAll, List.foldl_append]
    exact directory_load ..
  · refine (kernelStack_foldl ?_ k.machine).trans h.stack
    rw [List.forall_mem_append]
    exact ⟨hcalls, by simp⟩

/-- A launch that fails leaves the machine as it was. -/
theorem Registered.failed (h : k.Registered) (pid : ProcessId) (line : Bytes) :
    (k.performAll (k.failureCalls pid line)).Registered := by
  unfold failureCalls
  split
  · exact h
  · split
    · exact h
    · rename_i command _ inode _ _
      refine h.reload (.loadPageDirectory _ :: k.layout.copies pid (k.image inode).1) ?_
      rw [List.forall_mem_cons]
      refine ⟨nofun, ?_⟩
      intro c hc stack
      obtain ⟨_, _, _, rfl⟩ := Layout.eq_copyToUser_of_mem_copies hc
      simp

variable {pid : ProcessId} {t : TerminalId} {prog : Program}

theorem directory_prepared : directory (k.prepared pid t prog).machine =
    some (k.spaces.directoryAddress (.process pid)) := by
  refine (directory_foldl ?_ _).trans (directory_load ..)
  intro c hc root
  obtain ⟨_, _, _, rfl⟩ := Layout.eq_copyToUser_of_mem_copies hc
  simp

theorem kernelStack_prepared :
    Machine.kernelStack (k.prepared pid t prog).machine = Machine.kernelStack k.machine := by
  refine (kernelStack_foldl ?_ _).trans (kernelStack_load ..)
  intro c hc root
  obtain ⟨_, _, _, rfl⟩ := Layout.eq_copyToUser_of_mem_copies hc
  simp

theorem registered_started {processes : ProcessTable} (hc : processes.current = some pid)
    (hs : Records.Saved processes.get? k.layout) :
    (k.started pid t prog processes).Registered := by
  refine ⟨?_, ?_, hs⟩
  · exact (directory_setKernelStack ..).trans directory_prepared
  · have hcur : (k.started pid t prog processes).current = some pid := hc
    rw [hcur]
    exact kernelStack_setKernelStack ..

theorem Registered.started_child (h : k.Registered) (hl : k.processes.layout = k.layout)
    {cur : ProcessId} {p : ProcessRecord} (hc : k.current = some cur)
    (hp : k.processes.get? cur = some p) (hne : cur ≠ pid) (prog : Program)
    (caller : SavedContext) :
    (k.started pid t prog (k.childTable cur pid t prog caller)).Registered := by
  refine registered_started rfl ?_
  rw [get?_childTable hl hp hne]
  refine Records.Saved.updateOther (h.saved.update ?_) pid rfl
  intro q context hq hcontext
  cases hq
  cases hcontext
  rw [leftContext, kernelStack_prepared, h.stack, hc]

theorem Registered.relaunched (h : k.Registered) (hl : k.processes.layout = k.layout)
    (pid : ProcessId) (t : TerminalId) (prog : Program) : (k.relaunched pid t prog).Registered := by
  refine registered_started rfl ?_
  rw [get?_rootTable hl]
  exact h.saved.updateOther pid rfl

theorem Registered.started_beside (h : k.Registered) (hl : k.processes.layout = k.layout)
    {cur : ProcessId} {p : ProcessRecord} {e : UserEntry} (hp : k.processes.get? cur = some p)
    (hne : cur ≠ pid) (prog : Program) :
    (k.started pid t prog (k.besideTable cur pid t prog e)).Registered := by
  refine registered_started rfl ?_
  rw [get?_besideTable hl hp hne]
  exact Records.Saved.updateOther (h.saved.updateOther cur rfl) pid rfl

omit [FileSystem F] in
theorem Registered.returned (h : k.Registered) {parent : ProcessId} {q : ProcessRecord}
    {context : SavedContext} (hq : k.processes.get? parent = some q)
    (hs : q.state = .awaitingChild pid context) (hne : parent ≠ pid) :
    (k.returned pid parent t context.stack).Registered := by
  refine ⟨directory_load .., ?_, ?_⟩
  · refine (kernelStack_load ..).trans ((kernelStack_setKernelStack ..).trans ?_)
    exact h.saved parent q context hq (by rw [hs]; rfl)
  · rw [get?_returned hq hne]
    refine Records.Saved.updateOther (h.saved.update ?_) parent rfl
    intro p context hp
    cases hp

omit [FileSystem F] in
theorem Registered.retired (h : k.Registered) : (k.retired pid t).Registered := by
  refine ⟨directory_load .., ?_, ?_⟩
  · exact (kernelStack_load ..).trans (kernelStack_setKernelStack ..)
  · rw [get?_retired]
    refine h.saved.update ?_
    intro p context hp
    cases hp

theorem Registered.turned (h : k.Registered) {cur target : ProcessId} {p q : ProcessRecord}
    {stack : KernelStack} {transfer : Transfer} (hc : k.current = some cur)
    (hp : k.processes.get? cur = some p) (hq : k.processes.get? target = some q)
    (hl : k.Launched target q) (hne : target ≠ cur)
    (hr : q.resumption target = some (stack, transfer)) (interrupted : SavedContext) :
    (k.turned cur target interrupted stack).Registered := by
  refine ⟨?_, ?_, ?_⟩
  · exact (directory_setKernelStack ..).trans (directory_load ..)
  · refine (kernelStack_setKernelStack ..).trans ?_
    change stack = k.layout.stackOf (some target)
    unfold ProcessRecord.resumption at hr
    split at hr
    · rename_i context hs
      cases hr
      exact h.saved target q context hq (by rw [hs]; rfl)
    · cases hr
      rw [hl.stackTop]
      rfl
    · cases hr
  · rw [get?_turned interrupted stack hp hq hne]
    refine Records.Saved.updateOther (h.saved.update ?_) target rfl
    intro r context hr hcontext
    cases hr
    cases hcontext
    rw [interruptedContext, kernelStack_load, h.stack, hc]

variable [Devices D]

theorem Effect.registered {request : Request} {transfer : Transfer} (h : k.Sound σ)
    (hr : k.Registered) (he : k.Effect σ request transfer k' σ') : k'.Registered := by
  have hm : k.masked.Sound σ := h.of_sameCore k.sameCore_masked
  have hrm : k.masked.Registered := hr.masked
  cases he with
  | refused hcalls =>
    refine Registered.leave ?_
    obtain rfl | ⟨pid, _, rfl⟩ := hcalls
    · exact hrm
    · exact hrm.failed pid _
  | launched hc hp hfree hprog =>
    refine Registered.leave (hrm.started_child hm.layout hc hp ?_ _ _)
    intro he
    rw [he, ProcessTable.get?_firstFree hfree] at hp
    cases hp
  | returned hc hp hq hs hl =>
    exact Registered.leave (hrm.returned hq hs (h.stacked.ne_below hl))
  | relaunched hc hp hl hfree hprog =>
    exact Registered.leave (hrm.retired.relaunched hm.layout _ _ _)
  | turned hc hp hq ht htop hne hres =>
    refine Registered.leave (Registered.perform ?_ nofun nofun)
    exact hrm.turned hc hp hq (hm.launched _ _ hq) hne hres _
  | kept hd => exact Registered.leave hrm
  | @shown entered cur calls hc hne hcalls =>
    have hs : (k.masked.shown entered).Registered := ⟨hrm.directory, hrm.stack, hrm.saved⟩
    have hact : (k.masked.shown entered).spaces.active = .process cur := by
      refine hm.active.trans ?_
      rw [show k.masked.current = some cur from hc]
      rfl
    refine Registered.leave ?_
    obtain rfl | rfl := hcalls
    · exact hs
    · have hload := hs.reload [] (by simp)
      rw [hact] at hload
      exact hload
  | @served cur value m k' hc hsm hk =>
    obtain ⟨p, hp⟩ := h.current_live hc
    obtain ⟨files, d, -, rfl⟩ := hk
    have hmachine : directory m = directory k.machine ∧
        Machine.kernelStack m = Machine.kernelStack k.machine := by
      obtain rfl | rfl := hsm
      · exact ⟨rfl, rfl⟩
      · obtain ⟨hd, hs⟩ := registers_leave k k.masked
        exact ⟨hd.trans (directory_of_ne (by simp) _), hs.trans (kernelStack_of_ne (by simp) _)⟩
    refine ⟨hmachine.1.trans hr.directory, hmachine.2.trans hr.stack, ?_⟩
    change Records.Saved (k.withFiles cur files).processes.get? k.layout
    rw [get?_withFiles hp]
    refine hr.saved.updateOther cur ?_
    change p.state.context? = none
    rw [h.current_running hc hp]
    rfl

omit [LawfulMachine M] [FileSystem F] [Devices D] in
theorem current_leave (k k' : Kernel M D F) : (k.leave k').current = k'.current := by
  rw [current, (sameCore_leave k k').processes]
  rfl

omit [LawfulMachine M] in
theorem Effect.current_eq {request : Request} {transfer : Transfer}
    (he : k.Effect σ request transfer k' σ') {x : ProcessId} (hx : transfer.target? = some x) :
    k'.current = some x := by
  cases he with
  | refused | kept | shown | served => cases hx
  | launched | returned | relaunched =>
    cases hx
    rw [current_leave]
    rfl
  | turned hc hp hq ht htop hne hr =>
    rw [ProcessRecord.target?_of_resumption hr] at hx
    cases hx
    rw [current_leave]
    rfl

omit [Devices D] in
theorem registered_boot {first : Transfer} (hu : k.Unbooted) (hb : k.boot = (.ok first, k')) :
    k'.Registered := by
  refine (boot_induct (P := Registered) ?_ hu ?_ hb).1
  · intro k k₁ k₂ σ t pid prog h _ hfree _ ho hk₂ hr
    have ha : k₂.Agrees k₁ := hk₂ ▸ agrees_record ..
    refine Registered.of_agrees ?_ ha
    have hrm : k.masked.Registered := hr.masked
    cases ho with
    | first hc => exact Registered.leave (hrm.relaunched h.layout ..)
    | beside hc hp he =>
      refine Registered.leave (hrm.started_beside h.layout hp ?_ _)
      intro he
      rw [he, ProcessTable.get?_firstFree hfree] at hp
      cases hp
  · intro program
    obtain ⟨m, hm⟩ := k.startMachine_eq program
    have hcur : k.processes.current = none := by
      rw [hu.processes]
      rfl
    rw [hm]
    refine ⟨?_, ?_, ?_⟩
    · refine (directory_of_ne (by simp) _).trans ((directory_of_ne (by simp) _).trans ?_)
      exact (directory_setKernelStack ..).trans (directory_load ..)
    · refine (kernelStack_of_ne (by simp) _).trans ((kernelStack_of_ne (by simp) _).trans ?_)
      refine (kernelStack_setKernelStack ..).trans ?_
      change _ = k.layout.stackOf k.processes.current
      rw [hcur]
      rfl
    · intro x p context hx
      have hx' : k.processes.get? x = some p := hx
      rw [hu.processes, ProcessTable.get?_empty] at hx'
      cases hx'

theorem Registered.run (h : k.Sound σ) (hr : k.Registered) (ops : List Operation) :
    (k.run ops).2.Registered := by
  induction ops generalizing k σ with
  | nil => exact hr
  | cons op ops ih =>
    obtain ⟨k', σ', he, ha⟩ := operate_effect h op
    rw [run_cons]
    exact ih ((he.sound h).of_sameCore ha.toSameCore) ((he.registered h hr).of_agrees ha)

theorem registered_run {machine : M} {devices : D} {fs : F} {layout : Layout} {timer : TimerConfig}
    {first : Transfer} (hb : (fresh machine devices fs layout timer).boot = (.ok first, k))
    (ops : List Operation) : ∃ σ, (k.run ops).2.Sound σ ∧ (k.run ops).2.Registered := by
  have hu := unbooted_fresh machine devices fs layout timer
  obtain ⟨_, h₀⟩ := sound_boot hu hb
  obtain ⟨σ, h⟩ := h₀.run ops
  exact ⟨σ, h, (registered_boot hu hb).run h₀ ops⟩

/-- The machine works for a process: its space, which it owns, is the active one and was loaded
last, and its kernel stack is the one that is entered. -/
structure WorksFor (k : Kernel M D F) (pid : ProcessId) : Prop where
  current : k.current = some pid
  active : k.spaces.active = .process pid
  owned : ∃ p, k.processes.get? pid = some p ∧ k.ownsSpace p = true
  directory : ∃ root, k.spaces.rootOf k.spaces.active = .ok root ∧
    LawfulMachine.directory k.machine = some root
  stack : Machine.kernelStack k.machine = ⟨Selector.kernelData, k.layout.kernelStackTop pid⟩

omit [Devices D] in
theorem Sound.worksFor (h : k.Sound σ) (hr : k.Registered) {pid : ProcessId}
    (hc : k.current = some pid) : k.WorksFor pid := by
  obtain ⟨p, hp⟩ := h.current_live hc
  obtain ⟨m, hm, -⟩ := h.loaded
  refine ⟨hc, ?_, ⟨p, hp, h.ownsSpace hp⟩, ⟨_, ?_, hr.directory⟩, ?_⟩
  · rw [h.active, hc]
    rfl
  · rw [SpaceArena.rootOf, hm]
    rfl
  · rw [hr.stack, hc]
    rfl

/-- After every operation the machine works for a process, the one that the operation entered or
resumed if it did. -/
theorem worksFor_run {machine : M} {devices : D} {fs : F} {layout : Layout} {timer : TimerConfig}
    {first : Transfer} (hb : (fresh machine devices fs layout timer).boot = (.ok first, k))
    (ops : List Operation) :
    (∃ pid, (k.run ops).2.WorksFor pid) ∧
      ∀ op pid, ((k.run ops).2.operate op).1.transfer.target? = some pid →
        ((k.run ops).2.operate op).2.WorksFor pid := by
  have hu := unbooted_fresh machine devices fs layout timer
  obtain ⟨_, h₀⟩ := sound_boot hu hb
  obtain ⟨σ, h⟩ := h₀.run ops
  have hr := (registered_boot hu hb).run h₀ ops
  obtain ⟨cur, hc⟩ := h.runs
  refine ⟨⟨cur, h.worksFor hr hc⟩, ?_⟩
  intro op pid hpid
  obtain ⟨k', σ', he, ha⟩ := operate_effect h op
  have h' := (he.sound h).of_sameCore ha.toSameCore
  refine h'.worksFor ((he.registered h hr).of_agrees ha) ?_
  rw [current, ha.processes]
  exact he.current_eq hpid

theorem worksFor_run_shellFiles :
    ∃ first k, (Sample.kernel Sample.shellFiles).boot = (.ok first, k) ∧
      ∀ ops, (∃ pid, (k.run ops).2.WorksFor pid) ∧
        ∀ op pid, ((k.run ops).2.operate op).1.transfer.target? = some pid →
          ((k.run ops).2.operate op).2.WorksFor pid := by
  obtain ⟨first, k, hb⟩ := Sample.boot_shellFiles
  exact ⟨first, k, hb, worksFor_run hb⟩

end Kernel

end TerminalKernel
