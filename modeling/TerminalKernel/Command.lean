import TerminalKernel.Error

namespace TerminalKernel

structure BoundedBytes (n : Nat) where
  bytes : Bytes
  length_le : bytes.length ≤ n
  deriving DecidableEq

namespace BoundedBytes

def empty {n : Nat} : BoundedBytes n := ⟨[], Nat.zero_le n⟩

def ofBytes? (n : Nat) (bs : Bytes) : Option (BoundedBytes n) :=
  if h : bs.length ≤ n then some ⟨bs, h⟩ else none

instance {n : Nat} : ToString (BoundedBytes n) := ⟨fun t => Quoted.bytes t.bytes⟩

end BoundedBytes

abbrev maxArguments : Nat := 128

abbrev CommandName := BoundedBytes maxFileName

abbrev CommandArguments := BoundedBytes maxArguments

structure Command where
  name : CommandName
  arguments : CommandArguments
  deriving DecidableEq

namespace Command

def blank : UInt8 := 32

/-- Split a line. A line without a name, and one whose name or arguments are too long, is refused. -/
def parse (line : Bytes) : Except KernelError Command :=
  let line := Bytes.beforeNul line
  let name := line.takeWhile (· != blank)
  let arguments := (line.dropWhile (· != blank)).dropWhile (· == blank)
  if name = [] then .error .invalidCommand
  else
    match BoundedBytes.ofBytes? maxFileName name, BoundedBytes.ofBytes? maxArguments arguments with
    | some name, some arguments => .ok ⟨name, arguments⟩
    | _, _ => .error .invalidCommand

end Command

end TerminalKernel
