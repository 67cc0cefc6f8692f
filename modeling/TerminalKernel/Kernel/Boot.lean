import TerminalKernel.Kernel.Invariant
import TerminalKernel.Kernel.Launch

namespace TerminalKernel.Kernel

variable {M D F : Type}

def identifyKernel (k : Kernel M D F) : Kernel M D F :=
  let l := k.layout
  let spaces := k.spaces.identify l.video (l.video.offset pageSize)
  let spaces := spaces.identify (l.videoBuffer 0) (l.videoBuffer terminalCount)
  { k with spaces := spaces.identify l.kernelRegion (l.kernelRegion.offset largePageSize) }

variable [Machine M] [FileSystem F]

def launchShells : List TerminalId → Transfer → Kernel M D F →
    Except KernelError Transfer × Kernel M D F
  | [], last, k => (.ok last, k)
  | t :: ts, _, k =>
    match k.launch shell (.kernel t none) with
    | (.ok transfer, k) => launchShells ts transfer k
    | (.error e, k) => (.error e, k)

def startMachine (program : TimerProgram) (k : Kernel M D F) : Kernel M D F :=
  let k := k.identifyKernel.restoreSpace .kernel
  let k := k.perform (.setKernelStack ⟨Selector.kernelData, k.layout.globalKernelStack⟩)
  (k.perform (.programTimer program)).perform (.setIrqMask timerIrq false)

/-- Check the configuration, set up the machine and launch the shells, that of terminal 0 last. -/
def boot (k : Kernel M D F) : Except KernelError Transfer × Kernel M D F :=
  match k.layout.validate, k.timer.program with
  | .error e, _ => (.error (.config e), k)
  | .ok (), .error e => (.error (.config e), k)
  | .ok (), .ok program =>
    match (k.startMachine program).launchShells TerminalId.all.reverse .idle with
    | (.error e, k) => (.error e, k)
    | (.ok first, k) =>
      match k.checkInvariants with
      | (.error v, k) => (.error (.ofViolation v), k)
      | (.ok (), k) => (.ok first, k)

end TerminalKernel.Kernel
