import TerminalKernel.Kernel.Halt

namespace TerminalKernel

inductive SystemCall where
  | halt (code : UInt8)
  | execute (line : Bytes)
  | read (fd : Int) (buffer : Bytes)
  | write (fd : Int) (bytes : Bytes)
  | «open» (name : Bytes)
  | close (fd : Int)
  | getArguments (buffer : Bytes)
  /-- The caller stores the address of the video page at `dest`. -/
  | videoMap (dest : UInt32)
  | setHandler
  | signalReturn
  deriving DecidableEq

namespace SystemCall

def decode? (number argument : UInt32) (bytes : Bytes) : Option SystemCall :=
  match number with
  | 1 => some (halt argument.toUInt8)
  | 2 => some (execute bytes)
  | 3 => some (read argument.toInt32.toInt bytes)
  | 4 => some (write argument.toInt32.toInt bytes)
  | 5 => some («open» bytes)
  | 6 => some (close argument.toInt32.toInt)
  | 7 => some (getArguments bytes)
  | 8 => some (videoMap argument)
  | 9 => some setHandler
  | 10 => some signalReturn
  | _ => none

def number : SystemCall → UInt32
  | halt _ => 1
  | execute _ => 2
  | read .. => 3
  | write .. => 4
  | «open» _ => 5
  | close _ => 6
  | getArguments _ => 7
  | videoMap _ => 8
  | setHandler => 9
  | signalReturn => 10

end SystemCall

structure Reply where
  transfer : Transfer
  buffer : Option Bytes := none
  deriving DecidableEq

def descriptorIndex (fd : Int) : Except KernelError Nat :=
  if 0 ≤ fd ∧ fd < maxOpenFiles then .ok fd.toNat else .error .invalidDescriptor

namespace Kernel

variable {M D F : Type}

def requireCurrent (k : Kernel M D F) : Except KernelError ProcessId :=
  match k.current with
  | some pid => .ok pid
  | none => .error .noCurrentProcess

def requireFile (fd : Nat) (k : Kernel M D F) :
    Except KernelError (ProcessId × TerminalId × OpenFile) := do
  let pid ← k.requireCurrent
  let p ← k.processes.get pid
  match p.files.get? fd with
  | some file => return (pid, p.terminal, file)
  | none => .error .invalidDescriptor

def putFile (pid : ProcessId) (fd : Nat) (file : Option OpenFile) (k : Kernel M D F) :
    Kernel M D F :=
  k.modifyProcess pid fun p => { p with files := p.files.put fd file }

def closeLocked (fd : Nat) (k : Kernel M D F) : Except KernelError Unit × Kernel M D F :=
  match k.requireFile fd with
  | .error e => (.error e, k)
  | .ok (pid, _, file) =>
    match file.close with
    | .error e => (.error e, k)
    | .ok () => (.ok (), k.putFile pid fd none)

/-- Copy the arguments of the current process and a zero byte into a buffer. -/
def getArguments (buffer : Bytes) (k : Kernel M D F) : Except KernelError Unit × Bytes :=
  match k.requireCurrent.bind k.processes.get with
  | .error e => (.error e, buffer)
  | .ok p =>
    let arguments := p.arguments.bytes
    if arguments = [] ∨ buffer.length < arguments.length + 1 then (.error .badArgument, buffer)
    else (.ok (), Bytes.fill buffer (arguments ++ [0]))

def videoMap (dest : UInt32) (k : Kernel M D F) : Except KernelError Nat := do
  let _ ← k.requireCurrent
  if k.layout.inProgramWindow dest then return k.layout.video.val.toNat
  else .error .badArgument

section

variable [Devices D] [FileSystem F]

def readDescriptor (fd : Int) (buffer : Bytes) (k : Kernel M D F) :
    Except KernelError Nat × Bytes × Kernel M D F :=
  match descriptorIndex fd with
  | .error e => (.error e, buffer, k)
  | .ok fd =>
    match k.requireFile fd with
    | .error e => (.error e, buffer, k)
    | .ok (pid, t, file) =>
      let r := file.read k.fs t buffer k.devices
      (r.result, r.buffer, { k with devices := r.devices }.putFile pid fd (some r.file))

omit [FileSystem F] in
def writeDescriptor (fd : Int) (bytes : Bytes) (k : Kernel M D F) :
    Except KernelError Nat × Kernel M D F :=
  match descriptorIndex fd with
  | .error e => (.error e, k)
  | .ok fd =>
    match k.requireFile fd with
    | .error e => (.error e, k)
    | .ok (_, t, file) =>
      let (result, devices) := file.write t bytes k.devices
      (result, { k with devices })

def openLocked (name : Bytes) (k : Kernel M D F) : Except KernelError Nat × Kernel M D F :=
  let found : Except KernelError (ProcessId × Dentry × Nat) := do
    let pid ← k.requireCurrent
    let d ← (FileSystem.lookup k.fs (Bytes.beforeNul name)).mapError .fs
    return (pid, d, ← k.processes.findFreeDescriptor pid)
  match found with
  | .error e => (.error e, k)
  | .ok (pid, d, fd) =>
    let kind := FileKind.ofType d.fileType
    let (opened, devices) := kind.open k.devices
    let k := { k with devices }
    match opened with
    | .error e => (.error e, k)
    | .ok () => (.ok fd, k.putFile pid fd (some { kind, inode := d.inode }))

end

variable [Machine M]

def closeFile (fd : Int) (k : Kernel M D F) : Except KernelError Unit × Kernel M D F :=
  match descriptorIndex fd with
  | .error e => (.error e, k)
  | .ok fd =>
    if fd < firstUserDescriptor then (.error .invalidDescriptor, k)
    else k.critical (closeLocked fd)

variable [Devices D] [FileSystem F]

def openFile (name : Bytes) (k : Kernel M D F) : Except KernelError Nat × Kernel M D F :=
  k.critical (openLocked name)

def answerNat (r : Except KernelError Nat) : Transfer :=
  .answer (KernelError.syscallValue (r.map Int.ofNat))

def answerUnit (r : Except KernelError Unit) : Transfer :=
  .answer (KernelError.syscallValue (r.map fun _ => 0))

def syscall (call : SystemCall) (caller : SavedContext) (k : Kernel M D F) :
    Reply × Kernel M D F :=
  match call with
  | .halt code =>
    let (transfer, k) := k.halt (.exit code)
    ({ transfer }, k)
  | .execute line =>
    let (transfer, k) := k.execute line caller
    ({ transfer }, k)
  | .read fd buffer =>
    let (r, buffer, k) := k.readDescriptor fd buffer
    ({ transfer := answerNat r, buffer := some buffer }, k)
  | .write fd bytes =>
    let (r, k) := k.writeDescriptor fd bytes
    ({ transfer := answerNat r }, k)
  | .open name =>
    let (r, k) := k.openFile name
    ({ transfer := answerNat r }, k)
  | .close fd =>
    let (r, k) := k.closeFile fd
    ({ transfer := answerUnit r }, k)
  | .getArguments buffer =>
    let (r, buffer) := k.getArguments buffer
    ({ transfer := answerUnit r, buffer := some buffer }, k)
  | .videoMap dest => ({ transfer := answerNat (k.videoMap dest) }, k)
  | .setHandler | .signalReturn => ({ transfer := .answer KernelError.sentinel }, k)

def syscallRaw (number argument : UInt32) (bytes : Bytes) (caller : SavedContext)
    (k : Kernel M D F) : Reply × Kernel M D F :=
  match SystemCall.decode? number argument bytes with
  | some call => k.syscall call caller
  | none => ({ transfer := .answer KernelError.sentinel }, k)

end Kernel

end TerminalKernel
