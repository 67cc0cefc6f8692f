import TerminalKernel.Kernel.State

namespace TerminalKernel.Executable

abbrev headerLength : Nat := 40

def magic : Bytes := [0x7F, 0x45, 0x4C, 0x46]

abbrev entryOffset : Nat := 24

def entry (layout : Layout) (header : Bytes) : Except KernelError UInt32 :=
  if header.length < headerLength ∨ header.take 4 ≠ magic then .error .executableMalformed
  else
    let address := Bytes.toWord (header.drop entryOffset)
    if layout.inProgramWindow address then .ok address else .error .executableMalformed

end TerminalKernel.Executable

namespace TerminalKernel

abbrev loaderChunk : Nat := 1024

inductive Origin where
  | process (pid : ProcessId) (context : SavedContext)
  | kernel (terminal : TerminalId) (interrupted : Option SavedContext)

structure Mapping where
  virt : VirtAddr
  phys : PhysAddr
  flags : PageFlags
  deriving DecidableEq

def videoFlags : PageFlags := .user ||| .writable

namespace SpaceArena

def mapAll (space : SpaceId) : List Mapping → SpaceArena → Except SpaceError Unit × SpaceArena
  | [], a => (.ok (), a)
  | m :: ms, a =>
    match a.map space m.virt m.phys m.flags with
    | .ok a => mapAll space ms a
    | .error e => (.error e, a)

end SpaceArena

namespace Kernel

variable {M D F : Type}

def processMappings (slot : Nat) (t : TerminalId) (k : Kernel M D F) : List Mapping :=
  let l := k.layout
  ⟨l.programWindow, l.programPhys slot, .user ||| .writable⟩ ::
    ⟨⟨l.kernelRegion.val⟩, l.kernelRegion, .writable ||| .global⟩ ::
    ⟨⟨l.video.val⟩, k.videoTarget t, videoFlags⟩ ::
    TerminalId.all.map fun (b : TerminalId) => ⟨⟨(l.videoBuffer b).val⟩, l.videoBuffer b, .writable⟩

/-- Claim and fill the space of a slot. A space that cannot be filled is discarded. -/
def buildSpace (slot : Nat) (t : TerminalId) (k : Kernel M D F) :
    Except KernelError SpaceId × Kernel M D F :=
  match k.spaces.claim slot with
  | .error e => (.error (.ofSpace e), k)
  | .ok spaces =>
    match spaces.mapAll (.process slot) (k.processMappings slot t) with
    | (.ok (), spaces) => (.ok (.process slot), { k with spaces })
    | (.error e, spaces) => (.error (.ofSpace e), { k with spaces }.discardSpace (.process slot))

def originTerminal (k : Kernel M D F) : Origin → Except KernelError TerminalId
  | .process pid _ => (k.processes.get pid).map ProcessRecord.terminal
  | .kernel t _ => .ok t

def findExecutable [FileSystem F] (name : Bytes) (k : Kernel M D F) :
    Except KernelError (Nat × UInt32) :=
  match FileSystem.lookup k.fs name with
  | .error _ => .error .executableNotFound
  | .ok d =>
    if d.fileType ≠ .regular then .error .executableMalformed
    else
      match FileSystem.readData k.fs d.inode 0 (List.replicate Executable.headerLength 0) with
      | (.error _, _) => .error .executableMalformed
      | (.ok n, header) => (Executable.entry k.layout (header.take n)).map fun eip => (d.inode, eip)

variable [Machine M]

def restoreSpace (space : SpaceId) (k : Kernel M D F) : Kernel M D F :=
  match k.activate space with
  | .ok k => k
  | .error _ => k.logError

/-- Stop the current process in favour of another. One that was never in user mode waits for its
first entry; without an interrupted context and an entry nothing happens. -/
def parkCurrent (interrupted : Option SavedContext) (k : Kernel M D F) : Kernel M D F :=
  match k.current with
  | none => k
  | some pid =>
    match k.processes.get? pid with
    | none => k
    | some p =>
      if p.state ≠ .running then k
      else
        let stop (s : RunState) := (k.modifyProcess pid fun p => { p with state := s }).setCurrent none
        match interrupted, p.entry with
        | some context, _ =>
          stop (.preempted { context with stack := Machine.kernelStack k.machine })
        | none, some entry => stop (.ready entry)
        | none, none => k

def giveWay (origin : Origin) (child : ProcessId) (k : Kernel M D F) :
    Option ProcessId × Kernel M D F :=
  match origin with
  | .process caller context =>
    let context := { context with stack := Machine.kernelStack k.machine }
    (some caller, k.modifyProcess caller fun p => { p with state := .awaitingChild child context })
  | .kernel _ interrupted => (none, k.parkCurrent interrupted)

def start (pid : ProcessId) (t : TerminalId) (entry : UserEntry) (origin : Origin)
    (k : Kernel M D F) : Transfer × Kernel M D F :=
  let (parent, k) := k.giveWay origin pid
  let k := k.modifyProcess pid fun p => { p with parent, state := .running }
  let k := k.perform (.setKernelStack ⟨Selector.kernelData, k.layout.kernelStackTop pid⟩)
  let k := k.modifyTerminal t fun slot => { top := some pid, live := slot.live + 1 }
  let k := (k.setCurrent (some pid)).record (.processLaunched pid t parent)
  (.enterUser pid entry, k)

variable [FileSystem F]

def loadFrom (space : SpaceId) (inode length offset : Nat) (k : Kernel M D F) :
    Except KernelError Unit × Kernel M D F :=
  if offset < length then
    match FileSystem.readData k.fs inode offset (List.replicate loaderChunk 0) with
    | (.error e, _) => (.error (.fs e), k)
    | (.ok n, chunk) =>
      if n = 0 then (.error (.fs .corrupt), k)
      else
        let target := k.layout.loadAddress.offset (UInt32.ofNat offset)
        match k.spaces.translate space target with
        | none => (.error .mappingAbsent, k)
        | some phys =>
          loadFrom space inode length (offset + n)
            (k.perform (.copyToUser target phys (chunk.take n)))
  else (.ok (), k)
termination_by length - offset

def loadImage (space : SpaceId) (inode : Nat) (k : Kernel M D F) :
    Except KernelError Unit × Kernel M D F :=
  match FileSystem.fileLength k.fs inode with
  | .error e => (.error (.fs e), k)
  | .ok length =>
    if (k.layout.programWindowEnd - k.layout.loadAddress.val).toNat < length then
      (.error .executableMalformed, k)
    else k.loadFrom space inode length 0

def enterAndLoad (space : SpaceId) (inode : Nat) (k : Kernel M D F) :
    Except KernelError Unit × Kernel M D F :=
  match k.activate space with
  | .error e => (.error (.ofSpace e), k)
  | .ok k => k.loadImage space inode

def prepare (pid : ProcessId) (t : TerminalId) (line : Bytes) (k : Kernel M D F) :
    Except KernelError UserEntry × Kernel M D F :=
  match Command.parse line with
  | .error e => (.error e, k)
  | .ok command =>
    let k := k.modifyProcess pid fun p =>
      { p with name := command.name, arguments := command.arguments, terminal := t }
    match k.findExecutable command.name.bytes with
    | .error e => (.error e, k)
    | .ok (inode, eip) =>
      match k.buildSpace pid t with
      | (.error e, k) => (.error e, k)
      | (.ok space, k) =>
        let previous := k.spaces.active
        match k.enterAndLoad space inode with
        | (.error e, k) => (.error e, (k.restoreSpace previous).discardSpace space)
        | (.ok (), k) =>
          let entry := UserEntry.start eip k.layout.userStackTop
          (.ok entry, k.modifyProcess pid fun p =>
            { p with space := some space, entry := some entry })

def launchLocked (line : Bytes) (origin : Origin) (k : Kernel M D F) :
    Except KernelError Transfer × Kernel M D F :=
  match k.originTerminal origin with
  | .error e => (.error e, k)
  | .ok t =>
    if Bytes.beforeNul line = [] then (.error .invalidCommand, k)
    else
      match k.processes.allocate with
      | .error e => (.error e, k)
      | .ok (pid, processes) =>
        match { k with processes }.prepare pid t line with
        | (.error e, k) => (.error e, k.releaseProcess pid)
        | (.ok entry, k) =>
          let (transfer, k) := k.start pid t entry origin
          (.ok transfer, k)

def launch (line : Bytes) (origin : Origin) (k : Kernel M D F) :
    Except KernelError Transfer × Kernel M D F :=
  k.critical (launchLocked line origin)

def shell : Bytes := Bytes.ofText "shell"

def execute (line : Bytes) (caller : SavedContext) (k : Kernel M D F) : Transfer × Kernel M D F :=
  match k.current with
  | none => (.answer KernelError.sentinel, k.logError)
  | some pid =>
    match k.launch line (.process pid caller) with
    | (.ok transfer, k) => (transfer, k)
    | (.error e, k) =>
      let k := k.logError
      let k :=
        match k.processes.get? pid with
        | some p => k.record (.launchFailed p.terminal e)
        | none => k
      (.answer KernelError.sentinel, k)

end Kernel

end TerminalKernel
