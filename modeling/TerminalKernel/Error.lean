import TerminalKernel.AddressSpace.Basic
import TerminalKernel.FileSystem.Basic
import TerminalKernel.Layout

namespace TerminalKernel

structure Violation where
  what : String
  deriving DecidableEq

inductive KernelError where
  | registryExhausted
  | mappingConflict
  | mappingAbsent
  | invalidCommand
  | executableNotFound
  | executableMalformed
  | descriptorExhausted
  | invalidDescriptor
  | unknownProcess
  | noCurrentProcess
  | addressSpace (e : SpaceError)
  | fs (e : FsError)
  | config (e : ConfigError)
  | unsupported
  | badArgument
  | device
  | invariantBroken (what : String)
  deriving DecidableEq

namespace KernelError

/-- The failure of an address space. A page that is mapped or not mapped has a cause of its own. -/
def ofSpace : SpaceError → KernelError
  | .mappingConflict => mappingConflict
  | .mappingAbsent => mappingAbsent
  | e => addressSpace e

def ofViolation (v : Violation) : KernelError := invariantBroken v.what

def label : KernelError → String
  | registryExhausted => "registry exhausted"
  | mappingConflict => "mapping conflict"
  | mappingAbsent => "mapping absent"
  | invalidCommand => "invalid command"
  | executableNotFound => "executable not found"
  | executableMalformed => "executable malformed"
  | descriptorExhausted => "descriptor table full"
  | invalidDescriptor => "invalid descriptor"
  | unknownProcess => "unknown process"
  | noCurrentProcess => "no current process"
  | addressSpace _ => "address space error"
  | fs _ => "file system error"
  | config _ => "bad configuration"
  | unsupported => "unsupported operation"
  | badArgument => "bad argument"
  | device => "device error"
  | invariantBroken _ => "kernel invariant broken"

def message (e : KernelError) : String :=
  match e with
  | addressSpace d => e.label ++ ": " ++ d.message
  | fs d => e.label ++ ": " ++ d.message
  | config d => e.label ++ ": " ++ d.message
  | invariantBroken what => e.label ++ ": " ++ what
  | _ => e.label

instance : ToString KernelError where
  toString
    | registryExhausted => "RegistryExhausted"
    | mappingConflict => "MappingConflict"
    | mappingAbsent => "MappingAbsent"
    | invalidCommand => "InvalidCommand"
    | executableNotFound => "ExecutableNotFound"
    | executableMalformed => "ExecutableMalformed"
    | descriptorExhausted => "DescriptorExhausted"
    | invalidDescriptor => "InvalidDescriptor"
    | unknownProcess => "UnknownProcess"
    | noCurrentProcess => "NoCurrentProcess"
    | addressSpace e => "AddressSpace(" ++ toString e ++ ")"
    | fs e => "Fs(" ++ toString e ++ ")"
    | config e => "Config(" ++ toString e ++ ")"
    | unsupported => "Unsupported"
    | badArgument => "BadArgument"
    | device => "Device"
    | invariantBroken what => "InvariantBroken(" ++ Quoted.text what ++ ")"

def sentinel : Int := -1

/-- What a system call returns: its value when a signed 32-bit word holds it, else the sentinel. -/
def syscallValue : Except KernelError Int → Int
  | .ok v => if -0x80000000 ≤ v ∧ v < 0x80000000 then v else sentinel
  | .error _ => sentinel

end KernelError

end TerminalKernel
