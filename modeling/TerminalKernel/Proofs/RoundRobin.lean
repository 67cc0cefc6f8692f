import TerminalKernel.Proofs.Chronicles
import TerminalKernel.Proofs.Registers

namespace TerminalKernel

/-- The terminal whose turn it is after a request, if it was that of `t` before. -/
def Request.turnAfter : Request → TerminalId → TerminalId
  | .turn _, t => t.next
  | _, t => t

theorem Operation.turnAfter_request (op : Operation) (t : TerminalId) :
    op.request.turnAfter t = if op.isTick then t.next else t := by
  have hcall (call : SystemCall) (caller : SavedContext) :
      (call.request caller).turnAfter t = t := by cases call <;> rfl
  cases op with
  | execute | halt | exception | timerTick | switchTerminal => rfl
  | syscall call caller => exact hcall call caller
  | syscallRaw number argument bytes caller =>
    simp only [request]
    split
    · exact hcall _ caller
    · rfl

namespace Kernel

variable {M D F : Type} {k k' : Kernel M D F} {σ σ' : TerminalId → List ProcessId}
  {x : ProcessId} {t : TerminalId}

theorem SameCore.turnOf (h : k'.SameCore k) : k'.turnOf = k.turnOf := by
  rw [Kernel.turnOf, Kernel.turnOf, current, current, h.processes, h.displayed]

section

variable [FileSystem F]

theorem Consistent.turnOf_eq (h : k.Consistent σ) (hc : k.current = some x) (hx : x ∈ σ t) :
    k.turnOf = t := by
  obtain ⟨p, hp, ht⟩ := h.stacked.mem_iff.mp hx
  rw [turnOf, hc, Option.bind_some, hp]
  exact ht

theorem Consistent.mem_turnOf (h : k.Consistent σ) (hc : k.current = some x) :
    x ∈ σ k.turnOf := by
  obtain ⟨p, hp⟩ := h.current_live hc
  have hhead := h.head_current hc hp
  rw [h.turnOf_eq hc (List.mem_of_mem_head? hhead)]
  exact List.mem_of_mem_head? hhead

variable [Machine M]

theorem Effect.turnOf_eq [Devices D] {request : Request} {transfer : Transfer} (h : k.Sound σ)
    (he : k.Effect σ request transfer k' σ') : k'.turnOf = request.turnAfter k.turnOf := by
  have h' := he.sound h
  obtain ⟨cur, hcur⟩ := h.runs
  have hmem := h.mem_turnOf hcur
  have hturn {p : ProcessRecord} {y : ProcessId} (hy : k.current = some y)
      (hp : k.processes.get? y = some p) : k.turnOf = p.terminal := by
    rw [Kernel.turnOf, hy, Option.bind_some, hp]
  have hsame (hk : k'.current = k.current) (hσ : σ' = σ) : k'.turnOf = k.turnOf :=
    h'.turnOf_eq (hk.trans hcur) (hσ ▸ hmem)
  -- a process that was put on the stack of the current one runs
  have hon {p : ProcessRecord} {y z : ProcessId} {l : List ProcessId} (hy : k.current = some y)
      (hp : k.processes.get? y = some p) (hz : k'.current = some z)
      (hσ : σ' = Function.update σ p.terminal (z :: l)) : k'.turnOf = k.turnOf := by
    rw [hturn hy hp]
    refine h'.turnOf_eq hz ?_
    rw [hσ, Function.update_self]
    exact List.mem_cons_self ..
  cases he with
  | refused | kept | shown => exact hsame (current_leave ..) rfl
  | launched hc hp hfree hprog => exact hon hc hp (current_leave ..) rfl
  | returned hc hp hq hs hl => exact hon hc hp (current_leave ..) rfl
  | relaunched hc hp hl hfree hprog => exact hon hc hp (current_leave ..) rfl
  | turned hc hp hq ht htop hne hr =>
    refine (h'.turnOf_eq (current_leave ..) (List.mem_of_mem_head? htop)).trans ?_
    rw [Request.turnAfter, hturn hc hp, ht]
  | served hc hm hk =>
    obtain ⟨files, d, -, rfl⟩ := hk
    exact hsame rfl rfl

theorem val_next (t : TerminalId) (n : Nat) :
    (t.next.val + n) % terminalCount = (t.val + (n + 1)) % terminalCount := by
  change ((t.val + 1) % 3 + n) % 3 = (t.val + (n + 1)) % 3
  omega

theorem Sound.turnOf_run [Devices D] (h : k.Sound σ) (ops : List Operation) :
    (k.run ops).2.turnOf.val =
      (k.turnOf.val + ops.countP Operation.isTick) % terminalCount := by
  induction ops generalizing k σ with
  | nil => exact (Nat.mod_eq_of_lt k.turnOf.isLt).symm
  | cons op ops ih =>
    obtain ⟨k', σ', he, ha⟩ := operate_effect h op
    have hturn : (k.operate op).2.turnOf = if op.isTick then k.turnOf.next else k.turnOf := by
      rw [ha.toSameCore.turnOf, he.turnOf_eq h, op.turnAfter_request]
    rw [run_cons, ih ((he.sound h).of_sameCore ha.toSameCore), hturn, List.countP_cons]
    cases op.isTick with
    | false => rfl
    | true => exact val_next ..

theorem Sound.ticks_run [Devices D] (h : k.Sound σ) (ops : List Operation) :
    (k.run ops).2.ticks = k.ticks + UInt64.ofNat (ops.countP Operation.isTick) := by
  induction ops generalizing k σ with
  | nil => exact (UInt64.add_zero k.ticks).symm
  | cons op ops ih =>
    obtain ⟨σ', h'⟩ := h.operate op
    rw [run_cons, ih h', (h.orderly_operate op).2.ticks, List.countP_cons, UInt64.add_assoc]
    cases op.isTick with
    | false => simp
    | true =>
      rw [if_pos rfl, if_pos rfl, Nat.add_comm, UInt64.ofNat_add]
      rfl

end

def turnCalls [Machine M] (target : ProcessId) (stack : KernelStack) (k : Kernel M D F) :
    List MachineCall :=
  [.disableInterrupts, .loadPageDirectory (k.spaces.directoryAddress (.process target)),
    .setKernelStack stack, .endOfInterrupt timerIrq] ++
    if Machine.interruptsEnabled k.machine then [.enableInterrupts] else []

/-- What a timer tick does: the current process is preempted, the one on top of the next terminal
runs, the interrupt is acknowledged once, and everything else in the records and in the address
spaces stays. -/
structure HandsOver [Machine M] (k : Kernel M D F) (interrupted : SavedContext)
    (cur target : ProcessId) (p q : ProcessRecord) (stack : KernelStack) : Prop where
  current : k.current = some cur
  record : k.processes.get? cur = some p
  top : (k.terminals.get p.terminal.next).top = some target
  entered : k.processes.get? target = some q
  resumption : q.resumption target = some (stack, (k.timerTick interrupted).1)
  current' : (k.timerTick interrupted).2.current = some target
  records : (k.timerTick interrupted).2.processes.get? =
    Function.update (Function.update k.processes.get? cur
      (some { p with state := .preempted (k.masked.interruptedContext target interrupted) })) target
      (some { q with state := .running })
  spaces : (k.timerTick interrupted).2.spaces = { k.spaces with active := .process target }
  machine : (k.timerTick interrupted).2.machine =
    (k.performAll (k.turnCalls target stack)).machine

theorem Sound.handsOver [Machine M] [FileSystem F] (h : k.Sound σ) (interrupted : SavedContext) :
    ∃ cur target p q stack, k.HandsOver interrupted cur target p q stack := by
  obtain ⟨cur, hc⟩ := h.runs
  obtain ⟨p, hp⟩ := h.current_live hc
  obtain ⟨target, q, stack, transfer, hq, ht, htop, hne, hr, htick⟩ :=
    h.timerTick_eq hc hp interrupted
  have hcore : (k.timerTick interrupted).2.SameCore
      (k.masked.ticked.turned cur target interrupted stack) := by
    rw [htick]
    exact (sameCore_leave ..).trans ((sameCore_perform ..).trans (sameCore_record ..))
  refine ⟨cur, target, p, q, stack, hc, hp, ?_, hq, ?_, ?_, ?_, hcore.spaces, ?_⟩
  · rw [h.terminals, ← ht]
    exact htop
  · rw [htick]
    exact hr
  · rw [Kernel.current, hcore.processes]
    rfl
  · rw [hcore.processes]
    exact get?_turned (k := k.masked.ticked) interrupted stack hp hq hne
  · rw [htick, Kernel.leave, unmasked, record_eq, turnCalls]
    split <;> rfl

/-- Every terminal has a process, and it is the turn of the one that the ticks count to. -/
structure InTurn (k : Kernel M D F) : Prop where
  inhabited : ∀ t, ∃ x p, k.processes.get? x = some p ∧ p.terminal = t
  turn : ∃ x p, k.current = some x ∧ k.processes.get? x = some p ∧
    p.terminal.val = k.ticks.toNat % terminalCount

section

variable [Machine M] [FileSystem F]

omit [Machine M] in
theorem Consistent.live_of_ne_nil (h : k.Consistent σ) (hn : σ t ≠ []) :
    ∃ x p, k.processes.get? x = some p ∧ p.terminal = t := by
  obtain ⟨x, hx⟩ := List.exists_mem_of_ne_nil _ hn
  obtain ⟨p, hp, ht⟩ := h.stacked.mem_iff.mp hx
  exact ⟨x, p, hp, ht⟩

omit [Machine M] in
theorem Sound.inTurn (h : k.Sound σ) (ht : k.turnOf.val = k.ticks.toNat % terminalCount) :
    k.InTurn := by
  obtain ⟨x, hc⟩ := h.runs
  obtain ⟨p, hp⟩ := h.current_live hc
  refine ⟨fun t => h.live_of_ne_nil (h.inhabited t), x, p, hc, hp, ?_⟩
  rw [turnOf, hc, Option.bind_some, hp] at ht
  exact ht

theorem launchShells_concat {ts : List TerminalId} {last first : Transfer}
    (hl : k.launchShells (ts ++ [t]) last = (.ok first, k')) :
    ∃ mid k₁, k.launchShells ts last = (.ok mid, k₁) ∧
      k₁.launch shell (.kernel t none) = (.ok first, k') := by
  induction ts generalizing last k with
  | nil =>
    refine ⟨last, k, rfl, ?_⟩
    rw [List.nil_append, launchShells] at hl
    cases hk : k.launch shell (.kernel t none) with
    | mk r k₁ => cases r <;> simpa only [hk, launchShells] using hl
  | cons u ts ih =>
    rw [List.cons_append, launchShells] at hl
    cases hk : k.launch shell (.kernel u none) with
    | mk r k₁ =>
      rw [hk] at hl
      cases r with
      | ok transfer => simpa only [launchShells, hk] using ih hl
      | error e => cases hl

theorem turnOf_boot (hu : k.Unbooted) {first : Transfer} (hb : k.boot = (.ok first, k')) :
    k'.turnOf = .first := by
  obtain ⟨hv, program, -, hl⟩ := boot_eq_ok hb
  have hvalid : (k.startMachine program).layout.Valid := by
    rw [(k.startMachine_fixed program).2]
    exact Layout.valid_of_validate hv
  have hsplit : TerminalId.all.reverse = TerminalId.all.tail.reverse ++ [.first] := by decide
  rw [hsplit] at hl
  obtain ⟨mid, k₁, hk₁, hlaunch⟩ := launchShells_concat hl
  obtain ⟨-, σ, h, -, hout, hlast⟩ := launchShells_induct (P := fun _ => True)
    (fun _ _ _ _ _ _ _ => trivial) (by decide) (hu.startMachine program) hvalid
    (fun _ _ => rfl) trivial hk₁
  have hf := (hlast (by decide)).1
  obtain ⟨x, prog, k₂, -, hfree, hprog, ho, -, ha⟩ := launch_opens h hf.toValid hlaunch
  have h₂ := ho.consistent h (hout .first (by decide)) (ProcessTable.get?_firstFree hfree) hprog
  rw [ha.toSameCore.turnOf]
  refine h₂.turnOf_eq ho.current_eq ?_
  rw [Function.update_self]
  exact List.mem_cons_self ..

theorem ticks_boot (hu : k.Unbooted) {first : Transfer} (hb : k.boot = (.ok first, k')) :
    k'.ticks = k.ticks := by
  refine (boot_induct (P := fun k₁ => k₁.ticks = k.ticks) ?_ hu ?_ hb).1
  · intro k₀ k₁ k₂ σ t pid prog _ _ _ _ ho hk₂ ht
    have hstarted (processes : ProcessTable) :
        (k₀.masked.started pid t prog processes).Orderly k₀ 0 0 false := .of_eq rfl rfl rfl
    have hopened : k₁.Orderly k₀ 0 0 false := by
      cases ho with
      | first | beside => exact (hstarted _).leave k₀
    rw [hk₂, (hopened.record (.processLaunched pid t none) trivial).ticks, ht]
    exact UInt64.add_zero _
  · intro program
    obtain ⟨m, hm⟩ := k.startMachine_eq program
    rw [hm]

variable [Devices D]

/-- The round robin neither skips a terminal nor sticks to one, whatever happens between ticks. -/
theorem inTurn_run {machine : M} {devices : D} {fs : F} {layout : Layout} {timer : TimerConfig}
    {first : Transfer} (hb : (fresh machine devices fs layout timer).boot = (.ok first, k))
    (ops : List Operation) (hops : ops.countP Operation.isTick < UInt64.size) :
    (k.run ops).2.InTurn ∧
      ∀ interrupted, ∃ cur target p q stack,
        (k.run ops).2.HandsOver interrupted cur target p q stack := by
  have hu := unbooted_fresh machine devices fs layout timer
  obtain ⟨σ, h⟩ := sound_boot hu hb
  obtain ⟨σ', h'⟩ := h.run ops
  refine ⟨h'.inTurn ?_, h'.handsOver⟩
  have hticks : (k.run ops).2.ticks = UInt64.ofNat (ops.countP Operation.isTick) := by
    rw [h.ticks_run ops, ticks_boot hu hb]
    exact UInt64.zero_add _
  rw [h.turnOf_run ops, turnOf_boot hu hb, hticks, UInt64.toNat_ofNat_of_lt' hops]
  exact congrArg (· % terminalCount) (Nat.zero_add _)

theorem inTurn_run_shellFiles :
    ∃ first k, (Sample.kernel Sample.shellFiles).boot = (.ok first, k) ∧
      ∀ c : SavedContext,
        (k.run [.timerTick c, .execute shell c, .timerTick c]).2.InTurn ∧
          ∃ cur target p q stack, (k.run [.timerTick c, .execute shell c, .timerTick c]).2.HandsOver
            c cur target p q stack := by
  obtain ⟨first, k, hb⟩ := Sample.boot_shellFiles
  refine ⟨first, k, hb, ?_⟩
  intro c
  have hticks : [.timerTick c, .execute shell c, .timerTick c].countP Operation.isTick <
      UInt64.size := by
    change 2 < UInt64.size
    decide
  obtain ⟨hturn, hover⟩ := inTurn_run hb _ hticks
  exact ⟨hturn, hover c⟩

end

end Kernel

end TerminalKernel
