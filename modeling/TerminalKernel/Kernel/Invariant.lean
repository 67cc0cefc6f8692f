import TerminalKernel.Kernel.State

namespace TerminalKernel.Kernel

variable {M D F : Type}

def ownsSpace (k : Kernel M D F) (p : ProcessRecord) : Bool :=
  match p.space with
  | some (.process slot) => slot == p.pid.val && k.spaces.isOwned (.process slot)
  | _ => false

def parentViolation (k : Kernel M D F) (p : ProcessRecord) : Option Violation :=
  match p.parent with
  | none => none
  | some parent =>
    match k.processes.get? parent with
    | none => some ⟨"parent is not live"⟩
    | some q =>
      match q.state with
      | .awaitingChild child _ =>
        if child = p.pid then none else some ⟨"parent is not waiting for its child"⟩
      | _ => some ⟨"parent is not waiting for its child"⟩

def processViolation (k : Kernel M D F) (p : ProcessRecord) : Option Violation :=
  if !k.ownsSpace p then some ⟨"process does not own its address space"⟩
  else if p.state = .launching then some ⟨"process left half launched"⟩
  else k.parentViolation p

def slotViolation (k : Kernel M D F) (slot : Nat) : Option Violation :=
  if k.spaces.isOwned (.process slot) = k.processes.live.any (·.pid.val == slot) then none
  else some ⟨"address space ownership does not match registry"⟩

def terminalViolation (k : Kernel M D F) (t : TerminalId) : Option Violation :=
  let slot := k.terminals.get t
  if slot.live ≠ k.processes.live.countP (·.terminal = t) then
    some ⟨"live count does not match processes on terminal"⟩
  else
    match slot.top with
    | none => if 0 < slot.live then some ⟨"terminal has processes but no top"⟩ else none
    | some top =>
      match k.processes.get? top with
      | none => some ⟨"top process is not live"⟩
      | some p =>
        if p.terminal ≠ t then some ⟨"top process is on another terminal"⟩
        else
          match p.state with
          | .awaitingChild .. => some ⟨"top process is waiting for a child"⟩
          | _ => none

/-- The current process is the only one that runs; without one, the kernel's space is active. -/
def currentViolation (k : Kernel M D F) : Option Violation :=
  let running := k.processes.live.countP (·.state = .running)
  match k.current with
  | some pid =>
    match k.processes.get? pid with
    | none => some ⟨"current process is not live"⟩
    | some p =>
      if p.state ≠ .running ∨ running ≠ 1 then
        some ⟨"current process is not the one running"⟩
      else none
  | none =>
    if running ≠ 0 then some ⟨"running process is not current"⟩
    else if k.spaces.active ≠ .kernel then
      some ⟨"process space active with no current process"⟩
    else none

def findViolation (k : Kernel M D F) : Option Violation :=
  k.processes.live.findSome? k.processViolation <|>
    (List.range processCapacity).findSome? k.slotViolation <|>
    TerminalId.all.findSome? k.terminalViolation <|>
    k.currentViolation

def checkInvariants (k : Kernel M D F) : Except Violation Unit × Kernel M D F :=
  match k.findViolation with
  | none => (.ok (), k)
  | some v => (.error v, k.logError)

end TerminalKernel.Kernel
