import TerminalKernel.Kernel.Schedule
import TerminalKernel.Proofs.Halting

namespace TerminalKernel

/-- How a stopped process goes on: the kernel stack that it needs, and where the processor goes. -/
def ProcessRecord.resumption (p : ProcessRecord) (pid : ProcessId) :
    Option (KernelStack × Transfer) :=
  match p.state with
  | .preempted context => some (context.stack, .resume pid context none)
  | .ready entry => some (⟨Selector.kernelData, p.kernelStackTop⟩, .enterUser pid entry)
  | _ => none

theorem ProcessRecord.resumption_of_isStopped {p : ProcessRecord} (h : p.state.IsStopped)
    (pid : ProcessId) : ∃ r, p.resumption pid = some r := by
  unfold resumption
  cases hs : p.state with
  | ready e => exact ⟨_, rfl⟩
  | preempted c => exact ⟨_, rfl⟩
  | launching | running | awaitingChild =>
    rw [hs] at h
    cases h

theorem TerminalId.next_ne (t : TerminalId) : t.next ≠ t := by
  revert t
  decide

namespace Kernel

variable {M D F : Type} [Machine M] {k : Kernel M D F} {cur target : ProcessId}
  {interrupted : SavedContext} {stack : KernelStack}

def interruptedContext (target : ProcessId) (interrupted : SavedContext) (k : Kernel M D F) :
    SavedContext :=
  { interrupted with
    stack := Machine.kernelStack
      (Machine.perform (.loadPageDirectory (k.spaces.directoryAddress (.process target))) k.machine) }

def turned (cur target : ProcessId) (interrupted : SavedContext) (stack : KernelStack)
    (k : Kernel M D F) : Kernel M D F :=
  let machine :=
    Machine.perform (.loadPageDirectory (k.spaces.directoryAddress (.process target))) k.machine
  { k with
    processes := ((k.processes.modify cur fun p =>
      { p with state := .preempted (k.interruptedContext target interrupted) }).modify target fun p =>
      { p with state := .running }).withCurrent (some target)
    spaces := { k.spaces with active := .process target }
    loaded := some (k.spaces.directoryAddress (.process target), k.spaces.slotMap target)
    machine := Machine.perform (.setKernelStack stack) machine }

theorem switchTo_eq {p q : ProcessRecord} {transfer : Transfer} (hc : k.current = some cur)
    (hp : k.processes.get? cur = some p) (hrun : p.state = .running)
    (hq : k.processes.get? target = some q) (hs : q.space = some (.process target))
    (hl : k.spaces.lookup (.process target) = .ok (k.spaces.slotMap target))
    (hr : q.resumption target = some (stack, transfer)) :
    k.switchTo target interrupted =
      .ok (transfer,
        (k.turned cur target interrupted stack).record (.taskSwitched (some cur) target)) := by
  have hget : k.processes.get target = .ok q := by rw [ProcessTable.get, hq]
  have ha := activate_eq hl
  have hcur : (k.enter (.process target) (k.spaces.slotMap target)).current = some cur := hc
  have hpcur :
      (k.enter (.process target) (k.spaces.slotMap target)).processes.get? cur = some p := hp
  have hpark :
      (k.enter (.process target) (k.spaces.slotMap target)).parkCurrent (some interrupted) =
      ((k.enter (.process target) (k.spaces.slotMap target)).modifyProcess cur fun p =>
        { p with state := .preempted { interrupted with
          stack := Machine.kernelStack
            (k.enter (.process target) (k.spaces.slotMap target)).machine } }).setCurrent none := by
    simp only [parkCurrent, hcur, hpcur, hrun]
    rfl
  unfold ProcessRecord.resumption at hr
  cases hst : q.state with
  | preempted context =>
    rw [hst] at hr
    cases hr
    simp only [switchTo, hget, hs, hst, ha, bind, Except.bind, pure, Except.pure, Except.mapError,
      hpark, hcur]
    rfl
  | ready entry =>
    rw [hst] at hr
    cases hr
    simp only [switchTo, hget, hs, hst, ha, bind, Except.bind, pure, Except.pure, Except.mapError,
      hpark, hcur]
    rfl
  | launching | running | awaitingChild =>
    rw [hst] at hr
    cases hr

variable [FileSystem F] {σ : TerminalId → List ProcessId} {p q : ProcessRecord}

omit [Machine M] in
theorem Consistent.nextProcess_eq (h : k.Consistent σ) (hn : ∀ t, σ t ≠ [])
    (hc : k.current = some cur) (hp : k.processes.get? cur = some p) :
    k.nextProcess = (σ p.terminal.next).head? := by
  have ht : k.turnOf = p.terminal := by
    rw [turnOf, hc, Option.bind_some, hp]
  have hlive : 0 < k.liveCounts.get p.terminal.next := by
    have hpos := List.length_pos_of_ne_nil (hn p.terminal.next)
    have hterm := h.terminals p.terminal.next
    rw [Vector.get_eq_getElem] at hterm
    rw [liveCounts, Vector.get_eq_getElem, Vector.getElem_map, hterm]
    exact hpos
  have hnext : nextTerminal k.liveCounts p.terminal = some p.terminal.next := by
    simp only [nextTerminal, List.find?_cons, hlive, decide_true]
  have hnone : ¬(k.current = none ∧ 0 < k.liveCounts.get p.terminal) := by
    rw [hc]
    simp
  simp only [nextProcess, ht, if_neg hnone, hnext, Option.bind_some, h.terminals]

theorem Consistent.switchTo_eq (h : k.Consistent σ) (interrupted : SavedContext)
    (hc : k.current = some cur)
    (hp : k.processes.get? cur = some p) (hq : k.processes.get? target = some q)
    (htop : (σ q.terminal).head? = some target) (hne : target ≠ cur) :
    ∃ stack transfer, q.resumption target = some (stack, transfer) ∧
      k.switchTo target interrupted =
        .ok (transfer,
          (k.turned cur target interrupted stack).record (.taskSwitched (some cur) target)) := by
  have hs := (h.stacked.stack q.terminal).top target htop q hq
  rw [if_neg] at hs
  · obtain ⟨⟨stack, transfer⟩, hr⟩ := q.resumption_of_isStopped hs target
    exact ⟨stack, transfer, hr, Kernel.switchTo_eq hc hp (h.current_running hc hp) hq
      (h.launched target q hq).space (h.lookup hq) hr⟩
  · rw [hc, Option.some.injEq]
    exact Ne.symm hne

omit [FileSystem F] in
theorem get?_turned (interrupted : SavedContext) (stack : KernelStack)
    (hp : k.processes.get? cur = some p) (hq : k.processes.get? target = some q)
    (hne : target ≠ cur) :
    (k.turned cur target interrupted stack).processes.get? =
      Function.update (Function.update k.processes.get? cur
        (some { p with state := .preempted (k.interruptedContext target interrupted) })) target
        (some { q with state := .running }) := by
  refine Records.eq_update_update ?_ ?_ ?_
  · simp [turned, hne, hq]
  · intro hx
    simp [turned, hx, hp]
  · intro x hx hxc
    simp [turned, hx, hxc]

theorem Consistent.turned (h : k.Consistent σ) (interrupted : SavedContext) (stack : KernelStack)
    (hc : k.current = some cur)
    (hp : k.processes.get? cur = some p) (hq : k.processes.get? target = some q)
    (htop : (σ q.terminal).head? = some target) (hne : target ≠ cur) :
    (k.turned cur target interrupted stack).Consistent σ := by
  let left : RunState := .preempted (k.interruptedContext target interrupted)
  have hget : (((k.processes.modify cur fun p => { p with state := left }).modify target fun p =>
      { p with state := .running }).withCurrent (some target)).get? = _ :=
    get?_turned interrupted stack hp hq hne
  have hst := h.stacked
  rw [hc] at hst
  have hleft :
      Stacked (Function.update k.processes.get? cur (some { p with state := left })) none σ :=
    hst.retop (hst.head_current hp) hp ⟨rfl, rfl, rfl⟩ (by simp) (by simp)
      (by simp [RunState.IsStopped, left])
  have hqt :
      Function.update k.processes.get? cur (some { p with state := left }) target = some q := by
    rwa [Function.update_of_ne hne]
  have hentered : Stacked
      (Function.update (Function.update k.processes.get? cur (some { p with state := left })) target
        (some { q with state := .running })) (some target) σ :=
    hleft.retop htop hqt ⟨rfl, rfl, rfl⟩ (by simp) (by simp) (by simp)
  refine h.rerun _ h.layout ?_ ?_ ?_ rfl ⟨_, h.lookup hq, rfl⟩
  · change Stacked _ (some target) σ
    rw [hget]
    exact hentered
  · rw [hget]
    intro x r hx
    obtain ⟨rfl, hr⟩ | ⟨-, hx⟩ := Records.update_eq_some_iff.mp hx
    · cases hr
      exact (h.launched x q hq).restated (.of_ne (by simp))
    · obtain ⟨rfl, hr⟩ | ⟨-, hx⟩ := Records.update_eq_some_iff.mp hx
      · cases hr
        exact (h.launched x p hp).restated (.of_ne (by simp))
      · exact h.launched x r hx
  · rw [hget]
    intro x
    rw [Records.map_terminal_update hqt, Records.map_terminal_update hp]
    · rfl
    · rfl

end Kernel

end TerminalKernel
