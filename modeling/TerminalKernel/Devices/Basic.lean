import TerminalKernel.Error

namespace TerminalKernel

abbrev TerminalId := Fin terminalCount

namespace TerminalId

def ofNat? (n : Nat) : Option TerminalId := if h : n < terminalCount then some ⟨n, h⟩ else none

def first : TerminalId := ⟨0, by decide⟩

def next (t : TerminalId) : TerminalId := ⟨(t.val + 1) % terminalCount, Nat.mod_lt _ (by decide)⟩

def all : List TerminalId := List.finRange terminalCount

end TerminalId

class Devices (D : Type) where
  /-- Read input of a terminal into a buffer: the number of bytes read, and the buffer. -/
  terminalRead : TerminalId → (buffer : Bytes) → D → Except KernelError Nat × Bytes × D
  terminalWrite : TerminalId → Bytes → D → Except KernelError Nat × D
  rtcOpen : D → Except KernelError Unit × D
  rtcWait : D → Except KernelError Unit × D
  rtcSetFrequency : UInt32 → D → Except KernelError Unit × D
  showTerminal : (shown now : TerminalId) → D → D

end TerminalKernel
