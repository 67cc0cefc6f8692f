import TerminalKernel.Bytes

namespace TerminalKernel.Hexadecimal

def digits (n : Nat) : String := String.ofList (Nat.toDigits 16 n)

def padded (width n : Nat) : String :=
  let cs := Nat.toDigits 16 n
  String.ofList (List.replicate (width - cs.length) '0' ++ cs)

end TerminalKernel.Hexadecimal

namespace TerminalKernel.Quoted

def isControl (c : Char) : Bool := c.val < 32 || (127 ≤ c.val && c.val < 160)

def encodeChar (c : Char) : List Char :=
  if c = '"' then ['\\', '"']
  else if c = '\\' then ['\\', '\\']
  else if c = '\t' then ['\\', 't']
  else if c = '\r' then ['\\', 'r']
  else if c = '\n' then ['\\', 'n']
  else if c.val = 0 then ['\\', '0']
  else if isControl c then
    ['\\', 'u', '\x7b'] ++ (Hexadecimal.digits c.toNat).toList ++ ['\x7d']
  else [c]

def text (s : String) : String :=
  String.ofList ('"' :: s.toList.flatMap encodeChar ++ ['"'])

def decode? (bs : Bytes) : Option String := String.fromUTF8? bs.toByteArray

/-- Bytes as quoted text, or as a list of numbers when they are not UTF-8. -/
def bytes (bs : Bytes) : String :=
  match decode? bs with
  | some s => text s
  | none => "[" ++ ", ".intercalate (bs.map fun b => toString b.toNat) ++ "]"

end TerminalKernel.Quoted
