import TerminalKernel.Kernel.Launch

namespace TerminalKernel.Kernel

variable {M D F : Type}

def movedVideo (left entered : TerminalId) (k : Kernel M D F) (p : ProcessRecord) :
    Option PhysAddr :=
  if p.terminal = entered then some k.layout.video
  else if p.terminal = left then some (k.layout.videoBuffer left)
  else none

def moveVideo (left entered : TerminalId) (p : ProcessRecord) (k : Kernel M D F) :
    Bool × Kernel M D F :=
  match p.space, k.movedVideo left entered p with
  | some (.process slot), some target =>
    match k.spaces.remap (.process slot) ⟨k.layout.video.val⟩ target videoFlags with
    | .ok spaces => (k.spaces.active = .process slot, { k with spaces })
    | .error _ => (false, k.logError)
  | _, _ => (false, k)

def moveVideos (left entered : TerminalId) : List ProcessRecord → Kernel M D F → Bool × Kernel M D F
  | [], k => (false, k)
  | p :: ps, k =>
    let (changed, k) := k.moveVideo left entered p
    let (more, k) := moveVideos left entered ps k
    (changed || more, k)

variable [Machine M] [Devices D] [FileSystem F]

def switchTerminalLocked (entered : TerminalId) (interrupted : Option SavedContext)
    (k : Kernel M D F) : Transfer × Kernel M D F :=
  let left := k.displayed
  if left = entered then (.proceed, k)
  else
    let k := { k with devices := Devices.showTerminal left entered k.devices, displayed := entered }
    let (changed, k) := k.moveVideos left entered k.processes.live
    -- a load of the directory drops the cached entries
    let k := if changed then k.restoreSpace k.spaces.active else k
    let k := k.record (.terminalSwitched left entered)
    if 0 < (k.terminals.get entered).live then (.proceed, k)
    else
      match k.launchLocked shell (.kernel entered interrupted) with
      | (.ok transfer, k) => (transfer, k)
      | (.error e, k) => (.proceed, k.logError.record (.launchFailed entered e))

/-- Bring a terminal on screen. A terminal without processes gets a shell. -/
def switchTerminal (entered : TerminalId) (interrupted : Option SavedContext) (k : Kernel M D F) :
    Transfer × Kernel M D F :=
  k.critical (switchTerminalLocked entered interrupted)

end TerminalKernel.Kernel
