import TerminalKernel.Kernel.Display
import TerminalKernel.Kernel.Schedule
import TerminalKernel.Kernel.SystemCall

namespace TerminalKernel

inductive Operation where
  | execute (line : Bytes) (caller : SavedContext)
  | halt (cause : HaltCause)
  | exception (vector : UInt8)
  | timerTick (interrupted : SavedContext)
  | switchTerminal (entered : TerminalId) (interrupted : Option SavedContext)
  | syscall (call : SystemCall) (caller : SavedContext)
  | syscallRaw (number argument : UInt32) (bytes : Bytes) (caller : SavedContext)
  deriving DecidableEq

namespace Kernel

variable {M D F : Type} [Machine M] [Devices D] [FileSystem F]

def operate (op : Operation) (k : Kernel M D F) : Reply × Kernel M D F :=
  let plain (r : Transfer × Kernel M D F) : Reply × Kernel M D F := ({ transfer := r.1 }, r.2)
  match op with
  | .execute line caller => plain (k.execute line caller)
  | .halt cause => plain (k.halt cause)
  | .exception vector => plain (k.exception vector)
  | .timerTick interrupted => plain (k.timerTick interrupted)
  | .switchTerminal entered interrupted => plain (k.switchTerminal entered interrupted)
  | .syscall call caller => k.syscall call caller
  | .syscallRaw number argument bytes caller => k.syscallRaw number argument bytes caller

def run : List Operation → Kernel M D F → List Reply × Kernel M D F
  | [], k => ([], k)
  | op :: ops, k =>
    let (reply, k) := k.operate op
    let (replies, k) := run ops k
    (reply :: replies, k)

end Kernel

end TerminalKernel
