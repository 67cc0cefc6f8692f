import TerminalKernel.Devices.Recorder
import TerminalKernel.FileSystem.Builder
import TerminalKernel.Kernel.Boot
import TerminalKernel.Machine.Recorder

namespace TerminalKernel.Sample

/-- A program of the given length. Only the magic number and the entry address mean something. -/
def program (entry : UInt32) (length : Nat) : Bytes :=
  let body := (List.range (max length Executable.headerLength)).map fun i => UInt8.ofNat (i % 253)
  let header := Executable.magic ++ (body.take Executable.entryOffset).drop 4 ++ Bytes.ofWord entry
  (Bytes.fill body header).take length

def context (esp : UInt32) : SavedContext := ⟨esp, esp + 8, ⟨Selector.kernelData, 0⟩⟩

def shellEntry : UInt32 := 0x80480E8

def frame : String := "<\"((((((((((o>< fish swims\n"

def entries : List ImageEntry :=
  let file (name : String) (data : Bytes) : ImageEntry := .file (Bytes.ofText name) data none
  [.directory (Bytes.ofText "."),
    .rtc (Bytes.ofText "rtc"),
    file "shell" (program shellEntry 3000),
    file "ls" (program 0x8048100 800),
    file "cat" (program 0x8048200 900),
    file "counter" (program 0x8048300 5000),
    file "frame0.txt" (Bytes.ofText frame),
    file "badmagic" (0 :: (program shellEntry 200).drop 1),
    file "farentry" (program 0x9000000 200),
    file "short" (program shellEntry 10),
    .file (Bytes.ofText "huge") (program shellEntry 200) (some 0x400000)]

def image : Array UInt8 := ImageBuilder.build entries

def kernel {F : Type} (fs : F) : Kernel MachineRecorder DeviceRecorder F := .fresh {} {} fs {} {}

end TerminalKernel.Sample
