import TerminalKernel.Proofs.Registers

namespace TerminalKernel

def Request.isFinish : Request → Bool
  | .finish _ => true
  | _ => false

def SavedContext.Continues (c i : SavedContext) : Prop := c.esp = i.esp ∧ c.ebp = i.ebp

structure Step (M D F : Type) where
  before : Kernel M D F
  op : Operation

/-- Steps of a run, newest first. -/
abbrev History (M D F : Type) := List (Step M D F)

variable {M D F : Type} [Machine M] [Devices D] [FileSystem F]

namespace Step

variable (s : Step M D F) (x : ProcessId)

def after : Kernel M D F := (s.before.operate s.op).2

def transfer : Transfer := (s.before.operate s.op).1.transfer

def Ends : Prop := s.before.current = some x ∧ s.op.request.isFinish

/-- A process is launched in a slot that was free or becomes free. -/
def Launches : Prop :=
  (s.after.processes.get? x).isSome ∧ ((s.before.processes.get? x).isNone ∨ s.Ends x)

def Suspends : Prop := s.before.current = some x ∧ s.after.current ≠ some x ∧ ¬s.Ends x

instance : Decidable (s.Ends x) := inferInstanceAs (Decidable (_ ∧ _))

instance : Decidable (s.Launches x) := inferInstanceAs (Decidable (_ ∧ _))

instance : Decidable (s.Suspends x) := inferInstanceAs (Decidable (_ ∧ _))

end Step

namespace History

variable (first : Transfer) (x : ProcessId)

/-- The history up to the launch of the process in a slot; empty if it was launched by the boot. -/
def launch : History M D F → History M D F
  | [] => []
  | s :: past => if s.Launches x then s :: past else launch past

def line (past : History M D F) : Bytes :=
  match launch x past with
  | [] => Kernel.shell
  | s :: _ =>
    match s.op.request with
    | .execute line _ => line
    | _ => Kernel.shell

def Named : History M D F → Prop
  | [] => first.target? = some x
  | s :: past => s.transfer.target? = some x ∨ ¬s.Launches x ∧ Named past

/-- The history up to the step that stopped the process in a slot last; empty if none did. -/
def suspension : History M D F → History M D F
  | [] => []
  | s :: past =>
    if s.Launches x then [] else if s.Suspends x then s :: past else suspension past

variable {first x} {s : Step M D F} {past : History M D F}

theorem launch_cons_of_launches (h : s.Launches x) : launch x (s :: past) = s :: past := if_pos h

theorem launch_cons (h : ¬s.Launches x) : launch x (s :: past) = launch x past := if_neg h

theorem line_cons (h : ¬s.Launches x) : line x (s :: past) = line x past := by
  rw [line, launch_cons h]
  rfl

theorem line_cons_of_launches (h : s.Launches x) :
    line x (s :: past) =
      match s.op.request with
      | .execute line _ => line
      | _ => Kernel.shell := by
  rw [line, launch_cons_of_launches h]

theorem suspension_cons_of_suspends (h : ¬s.Launches x) (hs : s.Suspends x) :
    suspension x (s :: past) = s :: past := by
  rw [suspension, if_neg h, if_pos hs]

theorem suspension_cons (h : ¬s.Launches x) (hs : ¬s.Suspends x) :
    suspension x (s :: past) = suspension x past := by
  rw [suspension, if_neg h, if_neg hs]

theorem named_cons (h : ¬s.Launches x) (ht : s.transfer.target? ≠ some x) :
    Named first x (s :: past) ↔ Named first x past := by
  rw [Named]
  simp [h, ht]

variable (first past x)

def Tells : RunState → Prop
  | .launching => False
  | .ready _ => ¬Named first x past
  | .running => Named first x past
  | .preempted context => Named first x past ∧ ∃ u older i, suspension x past = u :: older ∧
      u.op.request = .turn i ∧ context.Continues i
  | .awaitingChild child context => Named first x past ∧ ∃ u older line i,
      suspension x past = u :: older ∧ u.op.request = .execute line i ∧ context.Continues i ∧
      launch child past = u :: older

/-- The record of a process agrees with a history. -/
structure Tracks (p : ProcessRecord) : Prop where
  program : ∃ command, Command.parse (line x past) = .ok command ∧ p.name = command.name
  state : Tells first x past p.state

variable {first past x}

theorem Tracks.cons {p : ProcessRecord} (h : Tracks first x past p) (hl : ¬s.Launches x)
    (hs : ¬s.Suspends x) (ht : s.transfer.target? ≠ some x)
    (hc : ∀ child context, p.state = .awaitingChild child context → ¬s.Launches child) :
    Tracks first x (s :: past) p := by
  obtain ⟨hp, hstate⟩ := h
  refine ⟨by rwa [line_cons hl], ?_⟩
  cases hst : p.state with
  | launching =>
    rw [hst] at hstate
    exact hstate
  | ready e =>
    rw [hst] at hstate
    rw [Tells, named_cons hl ht]
    exact hstate
  | running =>
    rw [hst] at hstate
    rw [Tells, named_cons hl ht]
    exact hstate
  | preempted c =>
    rw [hst] at hstate
    rw [Tells, named_cons hl ht, suspension_cons hl hs]
    exact hstate
  | awaitingChild child c =>
    rw [hst] at hstate
    rw [Tells, named_cons hl ht, suspension_cons hl hs, launch_cons (hc child c hst)]
    exact hstate

end History

end TerminalKernel
