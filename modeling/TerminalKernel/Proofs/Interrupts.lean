import TerminalKernel.Proofs.Registers

namespace TerminalKernel

/-- A machine on which interrupts are on or off as it was told last. -/
class LawfulInterrupts (M : Type) [Machine M] : Prop where
  interruptsEnabled_perform : ∀ call (m : M), Machine.interruptsEnabled (Machine.perform call m) =
    match call with
    | .disableInterrupts => false
    | .enableInterrupts => true
    | _ => Machine.interruptsEnabled m

instance : LawfulInterrupts MachineRecorder where
  interruptsEnabled_perform call m := by cases call <;> rfl

instance : LawfulInterrupts Processor where
  interruptsEnabled_perform call p := by
    cases call with
    | endOfInterrupt irq =>
      change (p.endOfInterrupt irq).interrupts = p.interrupts
      unfold Processor.endOfInterrupt
      split <;> rfl
    | disableInterrupts | enableInterrupts | loadPageDirectory | setKernelStack | setIrqMask
      | programTimer | copyToUser => rfl

instance {M : Type} [Machine M] [LawfulInterrupts M] : LawfulInterrupts (Traced M) where
  interruptsEnabled_perform call t := LawfulInterrupts.interruptsEnabled_perform call t.machine

attribute [simp] LawfulInterrupts.interruptsEnabled_perform

def MachineCall.KeepsFlag (call : MachineCall) : Prop :=
  call ≠ .disableInterrupts ∧ call ≠ .enableInterrupts

def MachineCall.IsLoading : MachineCall → Prop
  | .loadPageDirectory _ | .copyToUser .. => True
  | _ => False

theorem MachineCall.IsLoading.keepsFlag {call : MachineCall} (h : call.IsLoading) :
    call.KeepsFlag := by
  cases call with
  | loadPageDirectory | copyToUser => exact ⟨nofun, nofun⟩
  | disableInterrupts | enableInterrupts | setKernelStack | endOfInterrupt | setIrqMask
    | programTimer => cases h

section

variable {M : Type} [Machine M] [LawfulInterrupts M]

theorem interruptsEnabled_of_keepsFlag {call : MachineCall} (h : call.KeepsFlag) (m : M) :
    Machine.interruptsEnabled (Machine.perform call m) = Machine.interruptsEnabled m := by
  rw [LawfulInterrupts.interruptsEnabled_perform]
  cases call with
  | disableInterrupts => exact absurd rfl h.1
  | enableInterrupts => exact absurd rfl h.2
  | loadPageDirectory | setKernelStack | endOfInterrupt | setIrqMask | programTimer
    | copyToUser => rfl

theorem interruptsEnabled_foldl {calls : List MachineCall} (h : ∀ c ∈ calls, c.IsLoading) (m : M) :
    Machine.interruptsEnabled (calls.foldl (fun m c => Machine.perform c m) m) =
      Machine.interruptsEnabled m := by
  induction calls generalizing m with
  | nil => rfl
  | cons c cs ih =>
    rw [List.forall_mem_cons] at h
    exact (ih h.2 (Machine.perform c m)).trans (interruptsEnabled_of_keepsFlag h.1.keepsFlag m)

end

theorem Layout.isLoading_of_mem_copies {l : Layout} {slot : Nat} {chunks : List (Nat × Bytes)} :
    ∀ c ∈ l.copies slot chunks, c.IsLoading := by
  intro c hc
  obtain ⟨_, _, _, rfl⟩ := eq_copyToUser_of_mem_copies hc
  trivial

namespace Kernel

variable {M D F : Type} [Machine M] [LawfulInterrupts M] [FileSystem F] {k k' : Kernel M D F}
  {σ σ' : TerminalId → List ProcessId} {pid : ProcessId} {t : TerminalId}

def Masked (k : Kernel M D F) : Prop := Machine.interruptsEnabled k.machine = false

omit [FileSystem F] in
theorem masked_masked (k : Kernel M D F) : k.masked.Masked := by
  simp [Masked, masked, perform]

omit [FileSystem F] in
theorem Masked.performAll (h : k.Masked) {calls : List MachineCall}
    (hcalls : ∀ c ∈ calls, c.IsLoading) : (k.performAll calls).Masked :=
  (interruptsEnabled_foldl hcalls k.machine).trans h

omit [Machine M] [LawfulInterrupts M] in
theorem isLoading_of_mem_failureCalls {line : Bytes} :
    ∀ c ∈ k.failureCalls pid line, c.IsLoading := by
  unfold failureCalls
  split
  · simp
  · split
    · simp
    · rw [List.forall_mem_cons, List.forall_mem_append, List.forall_mem_singleton]
      exact ⟨trivial, Layout.isLoading_of_mem_copies, trivial⟩

theorem Masked.started (h : k.Masked) (prog : Program) (processes : ProcessTable) :
    (k.started pid t prog processes).Masked := by
  simp only [Masked, Kernel.started, prepared, LawfulInterrupts.interruptsEnabled_perform,
    interruptsEnabled_foldl Layout.isLoading_of_mem_copies]
  exact h

omit [FileSystem F] in
theorem Masked.interruptsEnabled_leave (h : k'.Masked) :
    Machine.interruptsEnabled (k.leave k').machine = Machine.interruptsEnabled k.machine := by
  unfold leave unmasked
  cases hk : Machine.interruptsEnabled k.machine with
  | true => simp [perform]
  | false => exact h

variable [Devices D]

/-- Every effect leaves interrupts on or off as they were. -/
theorem Effect.interrupts {request : Request} {transfer : Transfer}
    (he : k.Effect σ request transfer k' σ') :
    Machine.interruptsEnabled k'.machine = Machine.interruptsEnabled k.machine := by
  have hm := k.masked_masked
  cases he with
  | refused hcalls =>
    refine Masked.interruptsEnabled_leave (hm.performAll ?_)
    obtain rfl | ⟨pid, -, rfl⟩ := hcalls
    · simp
    · exact isLoading_of_mem_failureCalls
  | launched => exact (hm.started ..).interruptsEnabled_leave
  | returned => exact Masked.interruptsEnabled_leave (by simpa [Masked, Kernel.returned] using hm)
  | @relaunched cause pid new p =>
    have hr : (k.masked.retired pid p.terminal).Masked := by simpa [Masked, retired] using hm
    exact (hr.started ..).interruptsEnabled_leave
  | turned =>
    exact Masked.interruptsEnabled_leave (by simpa [Masked, Kernel.turned, perform] using hm)
  | kept => exact hm.interruptsEnabled_leave
  | @shown entered cur calls hc hne hcalls =>
    have hs : (k.masked.shown entered).Masked := hm
    refine (hs.performAll ?_).interruptsEnabled_leave
    obtain rfl | rfl := hcalls
    · simp
    · rw [List.forall_mem_singleton]
      trivial
  | served hc hsm hk =>
    obtain ⟨files, d, -, rfl⟩ := hk
    obtain rfl | rfl := hsm
    · rfl
    · exact hm.interruptsEnabled_leave (k := k)

theorem Sound.interrupts_run (h : k.Sound σ) (ops : List Operation) :
    Machine.interruptsEnabled (k.run ops).2.machine = Machine.interruptsEnabled k.machine := by
  induction ops generalizing k σ with
  | nil => rfl
  | cons op ops ih =>
    obtain ⟨k', σ', he, ha⟩ := operate_effect h op
    rw [run_cons, ih ((he.sound h).of_sameCore ha.toSameCore), ha.machine, he.interrupts]

end Kernel

end TerminalKernel
