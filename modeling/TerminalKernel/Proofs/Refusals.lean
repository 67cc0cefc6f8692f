import TerminalKernel.Proofs.Interrupts

namespace TerminalKernel

namespace Kernel

variable {M D F : Type} [Machine M] {k k' : Kernel M D F}

/-- Two kernels with the same processes, spaces and terminals, whose machines have the same
registers. -/
structure SameState [LawfulMachine M] (k' k : Kernel M D F) : Prop extends k'.SameCore k where
  directory : LawfulMachine.directory k'.machine = LawfulMachine.directory k.machine
  kernelStack : Machine.kernelStack k'.machine = Machine.kernelStack k.machine
  interrupts : Machine.interruptsEnabled k'.machine = Machine.interruptsEnabled k.machine

/-- Nothing happened but that programs were loaded and that something was logged. -/
structure Untouched [LawfulMachine M] (k' k : Kernel M D F) : Prop extends k'.SameState k where
  devices : k'.devices = k.devices
  timer : k'.timer = k.timer
  ticks : k'.ticks = k.ticks
  calls : ∃ calls : List MachineCall, (∀ c ∈ calls, c.IsLoading ∨ ¬c.KeepsFlag) ∧
    k'.machine = calls.foldl (fun m c => Machine.perform c m) k.machine

section

variable {k k' : Kernel MachineRecorder D F}

theorem foldl_recorder {calls : List MachineCall} (h : ∀ c ∈ calls, c.IsLoading ∨ ¬c.KeepsFlag)
    (m : MachineRecorder) :
    ∃ interrupts cr3 cr3Loads copies bytesCopied,
      calls.foldl (fun m c => Machine.perform c m) m =
        { m with interrupts, cr3, cr3Loads, copies, bytesCopied } := by
  induction calls generalizing m with
  | nil => exact ⟨m.interrupts, m.cr3, m.cr3Loads, m.copies, m.bytesCopied, rfl⟩
  | cons c cs ih =>
    rw [List.forall_mem_cons] at h
    obtain ⟨interrupts, cr3, cr3Loads, copies, bytesCopied, hm⟩ := ih h.2 (Machine.perform c m)
    refine ⟨interrupts, cr3, cr3Loads, copies, bytesCopied, hm.trans ?_⟩
    cases c with
    | disableInterrupts | enableInterrupts | loadPageDirectory | copyToUser => rfl
    | setKernelStack | endOfInterrupt | setIrqMask | programTimer =>
      obtain hl | hf := h.1
      · cases hl
      · exact absurd ⟨nofun, nofun⟩ hf

theorem Untouched.recorder (h : k'.Untouched k) :
    ∃ cr3Loads copies bytesCopied,
      k'.machine = { k.machine with cr3Loads, copies, bytesCopied } := by
  obtain ⟨calls, hcalls, hm⟩ := h.calls
  obtain ⟨interrupts, cr3, cr3Loads, copies, bytesCopied, hf⟩ := foldl_recorder hcalls k.machine
  rw [hf] at hm
  have hi : interrupts = k.machine.interrupts := by
    have he : k'.machine.interrupts = k.machine.interrupts := h.interrupts
    rwa [hm] at he
  have hc : cr3 = k.machine.cr3 := by
    have he : k'.machine.cr3 = k.machine.cr3 := h.directory
    rwa [hm] at he
  subst hi hc
  exact ⟨cr3Loads, copies, bytesCopied, hm⟩

end

variable [LawfulMachine M]

theorem Registered.sameState (hr : k.Registered) (hr' : k'.Registered) (h : k'.SameCore k)
    (hi : Machine.interruptsEnabled k'.machine = Machine.interruptsEnabled k.machine) :
    k'.SameState k := by
  refine ⟨h, ?_, ?_, hi⟩
  · rw [hr'.directory, hr.directory, h.spaces]
  · rw [hr'.stack, hr.stack, h.layout, current, current, h.processes]

variable [LawfulInterrupts M]

theorem untouched_refused (hr : k.Registered) {t : TerminalId} {e : KernelError}
    {calls : List MachineCall} (hload : ∀ c ∈ calls, c.IsLoading)
    (hr' : (k.masked.performAll calls).Registered) : (k.refused t e calls).Untouched k := by
  have hcore := (k.sameCore_leave (k.masked.performAll calls)).trans
    ((sameCore_performAll calls k.masked).trans k.sameCore_masked)
  have ha : (k.refused t e calls).Agrees _ := agrees_refused t e calls
  have hmask := k.masked_masked.performAll hload
  have hi := (congrArg Machine.interruptsEnabled ha.machine).trans hmask.interruptsEnabled_leave
  have hstate := hr.sameState (hr'.leave.of_agrees ha) (ha.toSameCore.trans hcore) hi
  have hkept : (k.refused t e calls).devices = k.devices ∧ (k.refused t e calls).timer = k.timer ∧
      (k.refused t e calls).ticks = k.ticks := by
    rw [refused, record_eq, leave, unmasked]
    split <;> exact ⟨rfl, rfl, rfl⟩
  refine ⟨hstate, hkept.1, hkept.2.1, hkept.2.2, ?_⟩
  have hloads : ∀ c ∈ calls, c.IsLoading ∨ ¬c.KeepsFlag := fun c hc => Or.inl (hload c hc)
  have hoff : MachineCall.IsLoading .disableInterrupts ∨
      ¬MachineCall.KeepsFlag .disableInterrupts := Or.inr fun h => h.1 rfl
  have hon : MachineCall.IsLoading .enableInterrupts ∨
      ¬MachineCall.KeepsFlag .enableInterrupts := Or.inr fun h => h.2 rfl
  rw [ha.machine, leave, unmasked]
  split
  · refine ⟨.disableInterrupts :: (calls ++ [.enableInterrupts]), ?_, ?_⟩
    · rw [List.forall_mem_cons, List.forall_mem_append, List.forall_mem_singleton]
      exact ⟨hoff, hloads, hon⟩
    · rw [List.foldl_cons, List.foldl_append]
      rfl
  · exact ⟨.disableInterrupts :: calls, List.forall_mem_cons.mpr ⟨hoff, hloads⟩, rfl⟩

variable [FileSystem F] {σ : TerminalId → List ProcessId}

theorem Sound.untouched (h : k.Sound σ) (hr : k.Registered) {line : Bytes} {caller : SavedContext}
    (ha : (k.execute line caller).1 = .answer KernelError.sentinel) :
    (k.execute line caller).2.Untouched k := by
  obtain ⟨cur, hc⟩ := h.runs
  obtain ⟨p, hp⟩ := h.current_live hc
  rw [h.execute_eq hc hp] at ha ⊢
  by_cases hnil : Bytes.beforeNul line = []
  · rw [if_pos hnil]
    exact untouched_refused hr (by simp) hr.masked
  · rw [if_neg hnil] at ha ⊢
    cases hfree : k.processes.firstFree? with
    | none => exact untouched_refused hr (by simp) hr.masked
    | some pid =>
      simp only [hfree] at ha ⊢
      cases hprog : k.program line with
      | error e =>
        exact untouched_refused hr isLoading_of_mem_failureCalls (hr.masked.failed pid line)
      | ok prog =>
        simp only [hprog] at ha
        cases ha

omit [LawfulMachine M] [LawfulInterrupts M] in
theorem Sound.execute_refuses (h : k.Sound σ) {line : Bytes} {e : KernelError}
    (hprog : k.program line = .error e) (caller : SavedContext) :
    (k.execute line caller).1 = .answer KernelError.sentinel := by
  obtain ⟨cur, hc⟩ := h.runs
  obtain ⟨p, hp⟩ := h.current_live hc
  rw [h.execute_eq hc hp, hprog]
  split
  · rfl
  · split <;> rfl

variable [Devices D]

/-- When the kernel answers that a program cannot be launched, it is as it was before. -/
theorem untouched_run {machine : M} {devices : D} {fs : F} {layout : Layout} {timer : TimerConfig}
    {first : Transfer} (hb : (fresh machine devices fs layout timer).boot = (.ok first, k))
    (ops : List Operation) (line : Bytes) (caller : SavedContext)
    (ha : ((k.run ops).2.execute line caller).1 = .answer KernelError.sentinel) :
    ((k.run ops).2.execute line caller).2.Untouched (k.run ops).2 := by
  obtain ⟨σ, h, hr⟩ := registered_run hb ops
  exact h.untouched hr ha

end Kernel

namespace Sample

open Kernel

theorem lookup_of_ne {name : Bytes} (hn : name ≠ shell) :
    FileSystem.lookup shellFiles name = .error .notFound := by
  change shellFiles.lookup name = _
  rw [FileImage.lookup]
  split
  · rfl
  · have hlt : 0 < shellFiles.dentries := Nat.one_pos
    have hend : ¬0 + 1 < shellFiles.dentries := Nat.lt_irrefl 1
    rw [FileImage.search, if_pos hlt, dentry_shell]
    dsimp only
    rw [if_neg (Ne.symm hn), FileImage.search, if_neg hend]

theorem program_of_ne {line : Bytes} {command : Command} (hc : Command.parse line = .ok command)
    (hn : command.name.bytes ≠ shell) :
    (kernel shellFiles).program line = .error .executableNotFound := by
  have hf : (kernel shellFiles).findExecutable command.name.bytes = .error .executableNotFound := by
    have hl : FileSystem.lookup (kernel shellFiles).fs command.name.bytes = .error .notFound :=
      lookup_of_ne hn
    rw [findExecutable, hl]
  simp only [Kernel.program, hc, hf]

end Sample

namespace Kernel

theorem untouched_run_shellFiles :
    ∃ first k, (Sample.kernel Sample.shellFiles).boot = (.ok first, k) ∧
      ∀ ops caller,
        ((k.run ops).2.execute [108, 115] caller).1 = .answer KernelError.sentinel ∧
          ((k.run ops).2.execute [108, 115] caller).2.Untouched (k.run ops).2 := by
  obtain ⟨first, k, hb⟩ := Sample.boot_shellFiles
  have hu : (Sample.kernel Sample.shellFiles).Unbooted := unbooted_fresh ..
  obtain ⟨_, h₀⟩ := sound_boot hu hb
  obtain ⟨command, hc, hname⟩ : ∃ c, Command.parse [108, 115] = .ok c ∧ c.name.bytes = [108, 115] :=
    ⟨_, rfl, rfl⟩
  have hn : command.name.bytes ≠ shell := by
    rw [hname, Sample.shell_eq]
    decide
  refine ⟨first, k, hb, ?_⟩
  intro ops caller
  obtain ⟨σ, h⟩ := h₀.run ops
  have hfs := (h₀.run_fixed ops).1.trans (boot_fixed hu hb).1
  have hl := (h₀.run_fixed ops).2.trans (boot_fixed hu hb).2
  have hprog := (program_congr hfs hl _).trans (Sample.program_of_ne hc hn)
  have ha := h.execute_refuses hprog caller
  exact ⟨ha, untouched_run hb ops _ caller ha⟩

end Kernel

end TerminalKernel
