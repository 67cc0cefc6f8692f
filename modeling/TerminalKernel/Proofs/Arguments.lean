import TerminalKernel.Proofs.RoundTrips
import TerminalKernel.Proofs.Survivors

namespace TerminalKernel

/-- The reply to a process that asks for its arguments: they and a zero byte, over the front of the
buffer, if there are any and the buffer has the room. -/
def argumentReply (arguments buffer : Bytes) : Reply :=
  if arguments ≠ [] ∧ arguments.length + 1 ≤ buffer.length then
    ⟨.answer 0, some (arguments ++ 0 :: buffer.drop (arguments.length + 1))⟩
  else ⟨.answer (-1), some buffer⟩

theorem Command.arguments_shell {command : Command} (h : parse Kernel.shell = .ok command) :
    command.arguments.bytes = [] := by
  rw [Sample.shell_eq] at h
  cases h
  rfl

namespace Kernel

variable {M D F : Type} {k : Kernel M D F} {σ : TerminalId → List ProcessId} {x : ProcessId}
  {arguments : Bytes} {op : Operation}

def HasArguments (k : Kernel M D F) (x : ProcessId) (arguments : Bytes) : Prop :=
  ∃ p, k.processes.get? x = some p ∧ p.arguments.bytes = arguments

variable [Machine M] [Devices D] [FileSystem F]

def LivesOn (x : ProcessId) (ops : List Operation) (k : Kernel M D F) : Prop :=
  ∀ s ∈ k.steps ops, ¬s.Ends x

/-- Until it ends, a process gets these arguments whenever it asks, and nothing else happens. -/
def Recalls (k : Kernel M D F) (x : ProcessId) (arguments : Bytes) : Prop :=
  ∀ later, k.LivesOn x later → ∀ op buffer,
    Step.Calls ⟨(k.run later).2, op⟩ x (.getArguments buffer) →
      (k.run later).2.operate op = (argumentReply arguments buffer, (k.run later).2)

omit [Machine M] [Devices D] [FileSystem F] in
theorem getArguments_eq (hc : k.current = some x) (ha : k.HasArguments x arguments)
    (buffer : Bytes) :
    (⟨answerUnit (k.getArguments buffer).1, some (k.getArguments buffer).2⟩ : Reply) =
      argumentReply arguments buffer := by
  obtain ⟨p, hp, rfl⟩ := ha
  have hr : k.requireCurrent = .ok x := by rw [requireCurrent, hc]
  have hg : k.processes.get x = .ok p := by rw [ProcessTable.get, hp]
  simp only [getArguments, hr, Except.bind, hg]
  by_cases hfits : p.arguments.bytes ≠ [] ∧ p.arguments.bytes.length + 1 ≤ buffer.length
  · have hroom : ¬(p.arguments.bytes = [] ∨ buffer.length < p.arguments.bytes.length + 1) :=
      not_or.mpr ⟨hfits.1, Nat.not_lt.mpr hfits.2⟩
    rw [if_neg hroom, argumentReply, if_pos hfits, Bytes.fill, List.append_assoc,
      List.length_append]
    rfl
  · have hroom : p.arguments.bytes = [] ∨ buffer.length < p.arguments.bytes.length + 1 := by
      rwa [not_and_or, not_not, Nat.not_le] at hfits
    rw [if_pos hroom, argumentReply, if_neg hfits]
    rfl

theorem operate_getArguments (hc : k.current = some x) (ha : k.HasArguments x arguments)
    {buffer : Bytes} (hcall : op.call? = some (.getArguments buffer)) :
    k.operate op = (argumentReply arguments buffer, k) := by
  obtain ⟨caller, -, hk⟩ := operate_call hcall k
  rw [hk, ← getArguments_eq hc ha buffer]
  rfl

theorem Sound.hasArguments_operate (h : k.Sound σ) (ha : k.HasArguments x arguments)
    (hend : ¬Step.Ends ⟨k, op⟩ x) : (k.operate op).2.HasArguments x arguments := by
  obtain ⟨p, hp, rfl⟩ := ha
  obtain ⟨state, files, hx⟩ := h.keeps hp hend
  exact ⟨_, hx, rfl⟩

theorem Sound.hasArguments_run (h : k.Sound σ) (ha : k.HasArguments x arguments)
    {ops : List Operation} (hl : k.LivesOn x ops) : (k.run ops).2.HasArguments x arguments := by
  induction ops generalizing k σ with
  | nil => exact ha
  | cons op ops ih =>
    obtain ⟨hstep, hlater⟩ := List.forall_mem_cons.mp hl
    obtain ⟨σ', h'⟩ := h.operate op
    exact ih h' (h.hasArguments_operate ha hstep) hlater

theorem Sound.recalls (h : k.Sound σ) (ha : k.HasArguments x arguments) :
    k.Recalls x arguments := by
  intro later hl op buffer hcall
  exact operate_getArguments hcall.1 (h.hasArguments_run ha hl) hcall.2

theorem Sound.launches (h : k.Sound σ) {line : Bytes} {caller : SavedContext} {entry : UserEntry}
    (hop : op.request = .execute line caller)
    (ht : (k.operate op).1.transfer = .enterUser x entry) :
    Step.Launches ⟨k, op⟩ x ∧ (k.operate op).2.current = some x := by
  obtain ⟨k', σ', he, ha⟩ := operate_effect h op
  have hd : Step.Did ⟨k, op⟩ op.request (k.operate op).1.transfer k' := ⟨rfl, rfl, ha.processes⟩
  have htarget := congrArg Transfer.target? ht
  have hfree : k.processes.get? x = none := by
    rw [hop, ht] at he
    cases he with
    | launched _ _ hfree _ => exact ProcessTable.get?_firstFree hfree
  refine ⟨he.launches h hd htarget (Or.inl hfree), ?_⟩
  rw [current, ha.processes]
  exact he.current_eq htarget

theorem Sound.hasArguments_launched (h : k.Sound σ) (hl : Step.Launches ⟨k, op⟩ x) :
    ∃ command, Command.parse op.request.program = .ok command ∧
      (k.operate op).2.HasArguments x command.arguments.bytes := by
  obtain ⟨t, prog, parent, hprog, hx⟩ := h.newcomer hl
  obtain ⟨_, hparse, -⟩ := program_eq_ok hprog
  exact ⟨prog.command, hparse, _, hx, rfl⟩

omit [Devices D] in
theorem hasArguments_boot {first : Transfer} {k₀ : Kernel M D F} (hu : k₀.Unbooted)
    (hb : k₀.boot = (.ok first, k)) {p : ProcessRecord} (hp : k.processes.get? x = some p) :
    k.HasArguments x [] := by
  refine ⟨p, hp, records_boot (P := fun p => p.arguments.bytes = []) ?_ ?_ hu hb x p hp⟩
  · intro k pid t prog hprog
    obtain ⟨_, hparse, -⟩ := program_eq_ok hprog
    exact Command.arguments_shell hparse
  · exact fun _ ha => ha

/-- A process that was launched by a command line gets the arguments of that line whenever it asks,
until it ends. A shell that the boot or the end of another process launched never gets any. -/
theorem recalls_run {machine : M} {devices : D} {fs : F} {layout : Layout} {timer : TimerConfig}
    {first : Transfer} (hb : (fresh machine devices fs layout timer).boot = (.ok first, k)) :
    (∀ x p, k.processes.get? x = some p → k.Recalls x []) ∧
    ∀ ops op x, Step.Launches ⟨(k.run ops).2, op⟩ x →
      (∀ line caller, op.request = .execute line caller →
        ∃ command, Command.parse line = .ok command ∧
          ((k.run ops).2.operate op).2.Recalls x command.arguments.bytes) ∧
      ((∀ line caller, op.request ≠ .execute line caller) →
        ((k.run ops).2.operate op).2.Recalls x []) := by
  have hu := unbooted_fresh machine devices fs layout timer
  obtain ⟨σ₀, h₀⟩ := sound_boot hu hb
  refine ⟨fun x p hp => h₀.recalls (hasArguments_boot hu hb hp), fun ops op x hl => ?_⟩
  obtain ⟨σ, h⟩ := h₀.run ops
  obtain ⟨σ', h'⟩ := h.operate op
  obtain ⟨command, hparse, ha⟩ := h.hasArguments_launched hl
  constructor
  · intro line caller hrequest
    rw [hrequest] at hparse
    exact ⟨command, hparse, h'.recalls ha⟩
  · intro hrequest
    have hshell : op.request.program = shell := by
      cases hr : op.request with
      | execute line caller => exact absurd hr (hrequest line caller)
      | finish | turn | display | service => rfl
    rw [hshell] at hparse
    rw [Command.arguments_shell hparse] at ha
    exact h'.recalls ha

theorem recalls_run_shellFiles :
    ∃ first k, (Sample.kernel Sample.shellFiles).boot = (.ok first, k) ∧
      ∀ caller, ∃ child, Step.Launches ⟨k, .execute (shell ++ [Command.blank, 97]) caller⟩ child ∧
        (((k.operate (.execute (shell ++ [Command.blank, 97]) caller)).2.operate
          (.syscall (.getArguments [1, 2, 3]) caller)).1 = ⟨.answer 0, some [97, 0, 3]⟩) := by
  obtain ⟨first, k, hb⟩ := Sample.boot_shellFiles
  have hu : (Sample.kernel Sample.shellFiles).Unbooted := unbooted_fresh ..
  obtain ⟨σ, h⟩ := sound_boot hu hb
  refine ⟨first, k, hb, fun caller => ?_⟩
  obtain ⟨command, hparse, hname, harguments⟩ : ∃ command : Command,
      Command.parse (shell ++ [Command.blank, 97]) = .ok command ∧ command.name.bytes = shell ∧
        command.arguments.bytes = [97] := by
    rw [Sample.shell_eq]
    exact ⟨_, rfl, rfl, rfl⟩
  have hprog := program_of hparse (hname ▸ Sample.findExecutable_shell) Sample.image_shell
  rw [← program_congr (boot_fixed hu hb).1 (boot_fixed hu hb).2] at hprog
  obtain ⟨child, hfree⟩ := firstFree_boot hu hb
  have hop : (Operation.execute (shell ++ [Command.blank, 97]) caller).request =
    .execute (shell ++ [Command.blank, 97]) caller := rfl
  obtain ⟨hl, hc⟩ := h.launches hop (h.execute_enters hprog hfree caller)
  refine ⟨child, hl, ?_⟩
  obtain ⟨command', hparse', hrecalls⟩ := ((recalls_run hb).2 [] _ child hl).1 _ caller hop
  obtain rfl : command = command' := Except.ok.inj (hparse.symm.trans hparse')
  have hreply := hrecalls [] (List.forall_mem_nil _) (.syscall (.getArguments [1, 2, 3]) caller)
    [1, 2, 3] ⟨hc, rfl⟩
  rw [harguments] at hreply
  exact congrArg Prod.fst hreply

end Kernel

end TerminalKernel
