import TerminalKernel.Devices.Basic

namespace TerminalKernel

inductive FileKind where
  | stdin
  | stdout
  | rtc
  | directory
  | regular
  deriving DecidableEq

namespace FileKind

def ofType : FileType → FileKind
  | .rtc => rtc
  | .directory => directory
  | .regular => regular

instance : ToString FileKind where
  toString
    | stdin => "Stdin"
    | stdout => "Stdout"
    | rtc => "Rtc"
    | directory => "Directory"
    | regular => "Regular"

def «open» {D : Type} [Devices D] (kind : FileKind) (d : D) : Except KernelError Unit × D :=
  match kind with
  | rtc => Devices.rtcOpen d
  | _ => (.ok (), d)

end FileKind

structure OpenFile where
  kind : FileKind
  position : Nat := 0
  inode : Nat
  deriving DecidableEq

namespace OpenFile

instance : ToString OpenFile where
  toString f :=
    "OpenFile \x7b kind: " ++ toString f.kind ++ ", position: " ++ toString f.position ++
      ", inode: " ++ toString f.inode ++ " \x7d"

structure ReadOutcome (D : Type) where
  result : Except KernelError Nat
  buffer : Bytes
  file : OpenFile
  devices : D

variable {D F : Type} [Devices D] [FileSystem F]

/-- One directory entry's name, cut to the buffer, per read; 0 after the last. -/
def readDirectory (f : OpenFile) (fs : F) (buffer : Bytes) (d : D) : ReadOutcome D :=
  if FileSystem.dentryCount fs ≤ f.position then ⟨.ok 0, buffer, f, d⟩
  else
    match FileSystem.dentryAt fs f.position with
    | .error e => ⟨.error (.fs e), buffer, f, d⟩
    | .ok entry =>
      let part := entry.name.take buffer.length
      ⟨.ok part.length, Bytes.fill buffer part, { f with position := f.position + 1 }, d⟩

def readRegular (f : OpenFile) (fs : F) (buffer : Bytes) (d : D) : ReadOutcome D :=
  match FileSystem.readData fs f.inode f.position buffer with
  | (.error e, buffer) => ⟨.error (.fs e), buffer, f, d⟩
  | (.ok n, buffer) => ⟨.ok n, buffer, { f with position := f.position + n }, d⟩

def read (f : OpenFile) (fs : F) (t : TerminalId) (buffer : Bytes) (d : D) : ReadOutcome D :=
  match f.kind with
  | .stdin =>
    let r := Devices.terminalRead t buffer d
    ⟨r.1, r.2.1, f, r.2.2⟩
  | .stdout => ⟨.error .unsupported, buffer, f, d⟩
  | .rtc =>
    let r := Devices.rtcWait d
    ⟨r.1.map fun _ => 0, buffer, f, r.2⟩
  | .directory => f.readDirectory fs buffer d
  | .regular => f.readRegular fs buffer d

/-- The tick rates that the clock takes: powers of two from 2 to 1024. -/
def isClockRate (hz : UInt32) : Bool := Layout.isPowerOfTwo hz && 2 ≤ hz && hz ≤ 1024

def writeClock (bs : Bytes) (d : D) : Except KernelError Nat × D :=
  if bs.length = 4 ∧ isClockRate (Bytes.toWord bs) then
    let r := Devices.rtcSetFrequency (Bytes.toWord bs) d
    (r.1.map fun _ => bs.length, r.2)
  else (.error .badArgument, d)

def write (f : OpenFile) (t : TerminalId) (bs : Bytes) (d : D) : Except KernelError Nat × D :=
  match f.kind with
  | .stdout => Devices.terminalWrite t bs d
  | .rtc => writeClock bs d
  | _ => (.error .unsupported, d)

def close (f : OpenFile) : Except KernelError Unit :=
  match f.kind with
  | .stdin | .stdout => .error .invalidDescriptor
  | _ => .ok ()

end OpenFile

end TerminalKernel
