import TerminalKernel.Kernel.Launch

namespace TerminalKernel

inductive HaltCause where
  | exit (code : UInt8)
  | exception (vector : UInt8)
  deriving DecidableEq

namespace HaltCause

/-- The status for an exception, which no exit code equals. -/
def exceptionStatus : Int := 256

def status : HaltCause → Int
  | exit code => code.toNat
  | exception _ => exceptionStatus

end HaltCause

namespace Kernel

variable {M D F : Type}

def closeDescriptor (pid : ProcessId) (fd : Nat) (k : Kernel M D F) : Kernel M D F :=
  match k.processes.get? pid with
  | none => k
  | some p =>
    let (file, files) := p.files.take fd
    let k := k.modifyProcess pid fun p => { p with files }
    match file with
    | none => k
    | some f =>
      match f.close with
      | .ok () => k
      | .error _ => k.logError

def closeAll (pid : ProcessId) (k : Kernel M D F) : Kernel M D F :=
  match k.processes.get? pid with
  | none => k
  | some p => p.files.openDescriptors.foldl (fun k fd => k.closeDescriptor pid fd) k

def discardOwn (space : Option SpaceId) (k : Kernel M D F) : Kernel M D F :=
  match space with
  | some space => k.discardSpace space
  | none => k

def retargetVideo (space : Option SpaceId) (t : TerminalId) (k : Kernel M D F) : Kernel M D F :=
  match space with
  | none => k
  | some space =>
    match k.spaces.remap space ⟨k.layout.video.val⟩ (k.videoTarget t) videoFlags with
    | .ok spaces => { k with spaces }
    | .error _ => k.logError

variable [Machine M]

def returnToParent (p : ProcessRecord) (pid parent : ProcessId) (parentSpace : Option SpaceId)
    (context : SavedContext) (status : Int) (k : Kernel M D F) : Transfer × Kernel M D F :=
  let k := k.retargetVideo parentSpace p.terminal
  let k := k.perform (.setKernelStack context.stack)
  let k := k.restoreSpace (parentSpace.getD .kernel)
  let k := k.discardOwn p.space
  let k := k.modifyTerminal p.terminal fun slot => { top := some parent, live := slot.live - 1 }
  let k := k.releaseProcess pid
  let k := (k.modifyProcess parent fun q => { q with state := .running }).setCurrent (some parent)
  (.resume parent context (some status), k.record (.parentResumed parent status))

variable [FileSystem F]

def retireLast (p : ProcessRecord) (pid : ProcessId) (k : Kernel M D F) : Transfer × Kernel M D F :=
  let k := k.perform (.setKernelStack ⟨Selector.kernelData, k.layout.globalKernelStack⟩)
  let k := (k.restoreSpace .kernel).discardOwn p.space
  let k := k.releaseProcess pid
  let k := k.modifyTerminal p.terminal fun slot => { top := none, live := slot.live - 1 }
  let k := (k.setCurrent none).record (.shellRelaunched p.terminal)
  match k.launchLocked shell (.kernel p.terminal none) with
  | (.ok transfer, k) => (transfer, k)
  | (.error e, k) => (.idle, k.logError.record (.launchFailed p.terminal e))

/-- End a process. A parent continues only if it waits for this child. -/
def finish (p : ProcessRecord) (pid : ProcessId) (status : Int) (k : Kernel M D F) :
    Transfer × Kernel M D F :=
  match p.parent with
  | none => k.retireLast p pid
  | some parent =>
    if (k.terminals.get p.terminal).live ≤ 1 then k.retireLast p pid
    else
      match k.processes.get? parent with
      | none => k.logError.retireLast p pid
      | some q =>
        match q.state with
        | .awaitingChild child context =>
          if child = pid then k.returnToParent p pid parent q.space context status
          else k.logError.retireLast p pid
        | _ => k.logError.retireLast p pid

def haltLocked (cause : HaltCause) (k : Kernel M D F) : Transfer × Kernel M D F :=
  match k.current with
  | none => (.idle, k.logError)
  | some pid =>
    match k.processes.get? pid with
    | none => (.idle, k.logError)
    | some p =>
      let k := (k.closeAll pid).record (.processHalted pid cause.status)
      k.finish p pid cause.status

def halt (cause : HaltCause) (k : Kernel M D F) : Transfer × Kernel M D F :=
  k.critical (haltLocked cause)

def exception (vector : UInt8) (k : Kernel M D F) : Transfer × Kernel M D F :=
  let k := k.logError
  match k.current with
  | none => (.idle, k.logError)
  | some pid => (k.record (.exceptionRaised pid vector)).halt (.exception vector)

end Kernel

end TerminalKernel
