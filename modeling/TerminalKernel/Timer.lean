import TerminalKernel.Layout

namespace TerminalKernel

structure TimerProgram where
  command : UInt8
  divisor : UInt16
  deriving DecidableEq

structure TimerConfig where
  hz : UInt32 := 50
  deriving DecidableEq

namespace TimerConfig

def baseHz : UInt32 := 1193182

/-- The slowest rate whose divisor has 16 bits. -/
def minHz : UInt32 := 19

def channelCommand : UInt8 := 0x36

def program (t : TimerConfig) : Except ConfigError TimerProgram :=
  if t.hz < minHz ∨ baseHz < t.hz then .error (.outOfRange "timer hz")
  else .ok ⟨channelCommand, (baseHz / t.hz).toUInt16⟩

end TimerConfig

end TerminalKernel
