import TerminalKernel.Command
import TerminalKernel.Descriptor.FileTable
import TerminalKernel.Machine.Context

namespace TerminalKernel

abbrev ProcessId := Fin processCapacity

def ProcessId.label (pid : ProcessId) : String := "pid" ++ toString pid.val

/-- What a process is doing. The context of a process exists only while it is stopped. -/
inductive RunState where
  | launching
  | ready (entry : UserEntry)
  | running
  | preempted (context : SavedContext)
  | awaitingChild (child : ProcessId) (context : SavedContext)
  deriving DecidableEq

structure ProcessRecord where
  pid : ProcessId
  parent : Option ProcessId := none
  space : Option SpaceId := none
  state : RunState := .launching
  files : FileTable := .standard
  terminal : TerminalId := .first
  name : CommandName := .empty
  arguments : CommandArguments := .empty
  entry : Option UserEntry := none
  address : UInt32
  kernelStackTop : UInt32
  deriving DecidableEq

namespace ProcessRecord

def fresh (layout : Layout) (pid : ProcessId) : ProcessRecord :=
  { pid
    address := layout.recordAddress pid
    kernelStackTop := layout.kernelStackTop pid }

end ProcessRecord

end TerminalKernel
