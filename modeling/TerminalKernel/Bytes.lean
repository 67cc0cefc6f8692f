namespace TerminalKernel

abbrev wordCount : Nat := 0x100000000

abbrev Bytes := List UInt8

namespace Bytes

def toNat : Bytes → Nat
  | [] => 0
  | b :: bs => b.toNat + 256 * toNat bs

def ofNat : (width : Nat) → Nat → Bytes
  | 0, _ => []
  | width + 1, n => UInt8.ofNat n :: ofNat width (n / 256)

def ofWord (w : UInt32) : Bytes := ofNat 4 w.toNat

def toWord (bs : Bytes) : UInt32 := UInt32.ofNat (toNat (bs.take 4))

def ofText (s : String) : Bytes := s.toUTF8.toList

def beforeNul (bs : Bytes) : Bytes := bs.takeWhile (· != 0)

def fill (buffer data : Bytes) : Bytes := data ++ buffer.drop data.length

/-- Store bytes in an array from a position on. Bytes past its end are dropped. -/
def storeAt (memory : Array UInt8) (pos : Nat) (bs : Bytes) : Array UInt8 :=
  (bs.foldl (fun s b => (s.1.setIfInBounds s.2 b, s.2 + 1)) (memory, pos)).1

def checksum (bs : Bytes) : UInt32 := bs.foldl (fun sum b => sum + b.toUInt32) 0

theorem length_ofNat (width n : Nat) : (ofNat width n).length = width := by
  induction width generalizing n with
  | zero => rfl
  | succ width ih => simp [ofNat, ih]

theorem shiftLeft_byte (n : Nat) : 1 <<< (8 * (n + 1)) = 256 * 1 <<< (8 * n) := by
  rw [Nat.mul_succ, Nat.shiftLeft_add, Nat.shiftLeft_eq _ 8, Nat.mul_comm]

theorem toNat_ofNat (width n : Nat) : toNat (ofNat width n) = n % 1 <<< (8 * width) := by
  induction width generalizing n with
  | zero => simp [ofNat, toNat, Nat.mod_one]
  | succ width ih =>
    rw [ofNat, toNat, ih, shiftLeft_byte, Nat.mod_mul]
    simp

theorem toWord_ofWord (w : UInt32) : toWord (ofWord w) = w := by
  rw [toWord, ofWord, List.take_of_length_le (Nat.le_of_eq (length_ofNat ..)), toNat_ofNat,
    Nat.mod_eq_of_lt (by have := w.toNat_lt; omega), UInt32.ofNat_toNat]

end Bytes

end TerminalKernel
