import TerminalKernel.FileSystem.Builder
import TerminalKernel.Proofs.FileContents

namespace TerminalKernel

variable {m : Array UInt8} {pos n : Nat} {b : UInt8} {bs cs : Bytes}

namespace Bytes

theorem storeAt_cons (m : Array UInt8) (pos : Nat) (b : UInt8) (bs : Bytes) :
    storeAt m pos (b :: bs) = storeAt (m.setIfInBounds pos b) (pos + 1) bs := rfl

theorem size_storeAt (m : Array UInt8) (pos : Nat) (bs : Bytes) :
    (storeAt m pos bs).size = m.size := by
  induction bs generalizing m pos with
  | nil => rfl
  | cons b bs ih => rw [storeAt_cons, ih, Array.size_setIfInBounds]

theorem getElem?_storeAt_of_outside {a : Nat} (h : a < pos ∨ pos + bs.length ≤ a) :
    (storeAt m pos bs)[a]? = m[a]? := by
  induction bs generalizing m pos with
  | nil => rfl
  | cons b bs ih =>
    rw [List.length_cons] at h
    rw [storeAt_cons, ih (by omega), Array.getElem?_setIfInBounds_ne (by omega)]

theorem getElem?_storeAt {i : Nat} (hb : bs[i]? = some b) (hsize : pos + i < m.size) :
    (storeAt m pos bs)[pos + i]? = some b := by
  induction bs generalizing m pos i with
  | nil => cases hb
  | cons c bs ih =>
    rw [storeAt_cons]
    cases i with
    | zero =>
      cases hb
      rw [getElem?_storeAt_of_outside (Or.inl (by omega)), Nat.add_zero,
        Array.getElem?_setIfInBounds_self_of_lt (by omega)]
    | succ i =>
      have hpos : pos + (i + 1) = pos + 1 + i := by omega
      rw [hpos]
      exact ih hb (by rw [Array.size_setIfInBounds]; omega)

end Bytes

def Shows (m : Array UInt8) (pos : Nat) (bs : Bytes) : Prop :=
  ∀ i b, bs[i]? = some b → m[pos + i]? = some b

theorem shows_append : Shows m pos (bs ++ cs) ↔ Shows m pos bs ∧ Shows m (pos + bs.length) cs := by
  simp only [Shows, Nat.add_assoc]
  exact FileImage.forall_getElem?_append (P := fun i b => m[pos + i]? = some b)

theorem Shows.le_size (h : Shows m pos bs) (hbs : bs ≠ []) : pos + bs.length ≤ m.size := by
  have hpos : 0 < bs.length := List.length_pos_of_ne_nil hbs
  have hlast := h (bs.length - 1) _ (List.getElem?_eq_getElem (by omega))
  have := (Array.getElem?_eq_some_iff.mp hlast).1
  omega

theorem Shows.slice? (h : Shows m pos bs) (hn : 0 < bs.length) :
    FileImage.slice? m pos bs.length = some bs := (FileImage.slice?_eq_some_iff hn).mpr ⟨rfl, h⟩

theorem Shows.word {w : UInt32} (h : Shows m pos (Bytes.ofWord w)) :
    FileImage.word m pos = .ok w := by
  have hlength : (Bytes.ofWord w).length = 4 := Bytes.length_ofNat ..
  have hslice := h.slice? (by rw [hlength]; decide)
  rw [hlength] at hslice
  rw [FileImage.word, hslice]
  simp only [Bytes.toWord_ofWord]

theorem shows_storeAt (h : pos + bs.length ≤ m.size) : Shows (Bytes.storeAt m pos bs) pos bs := by
  intro i b hb
  have hi := (List.getElem?_eq_some_iff.mp hb).1
  exact Bytes.getElem?_storeAt hb (by omega)

theorem Shows.storeAt (h : Shows m pos bs) {pos' : Nat}
    (ha : pos' + cs.length ≤ pos ∨ pos + bs.length ≤ pos') : Shows (Bytes.storeAt m pos' cs) pos bs := by
  intro i b hb
  have hi := (List.getElem?_eq_some_iff.mp hb).1
  rw [Bytes.getElem?_storeAt_of_outside (by omega)]
  exact h i b hb

namespace Piece

def Within (p : Piece) (start stop : Nat) : Prop := start ≤ p.pos ∧ p.pos + p.bytes.length ≤ stop

/-- A piece does not touch the `n` bytes at a position. -/
def Avoids (p : Piece) (pos n : Nat) : Prop := p.pos + p.bytes.length ≤ pos ∨ pos + n ≤ p.pos

def lay (ps : List Piece) (m : Array UInt8) : Array UInt8 :=
  ps.foldl (fun m p => Bytes.storeAt m p.pos p.bytes) m

variable {p : Piece} {ps qs : List Piece}

theorem lay_cons : lay (p :: ps) m = lay ps (Bytes.storeAt m p.pos p.bytes) := rfl

theorem lay_append : lay (ps ++ qs) m = lay qs (lay ps m) := List.foldl_append

theorem size_lay : (lay ps m).size = m.size := by
  induction ps generalizing m with
  | nil => rfl
  | cons p ps ih => rw [lay_cons, ih, Bytes.size_storeAt]

end Piece

theorem Shows.lay (h : Shows m pos bs) {ps : List Piece}
    (hp : ∀ p ∈ ps, p.Avoids pos bs.length) : Shows (Piece.lay ps m) pos bs := by
  induction ps generalizing m with
  | nil => exact h
  | cons p ps ih =>
    obtain ⟨hp, hps⟩ := List.forall_mem_cons.mp hp
    exact ih (h.storeAt hp) hps

/-- A piece is there unless a later one lies over it. -/
theorem shows_lay_cons {p : Piece} {ps : List Piece} (hsize : p.pos + p.bytes.length ≤ m.size)
    (hps : ∀ q ∈ ps, q.Avoids p.pos p.bytes.length) :
    Shows (Piece.lay (p :: ps) m) p.pos p.bytes := (shows_storeAt hsize).lay hps

theorem Shows.nth_word {g : Nat → UInt32}
    (h : Shows m pos ((List.range n).flatMap fun k => Bytes.ofWord (g k))) {k : Nat} (hk : k < n) :
    Shows m (pos + 4 * k) (Bytes.ofWord (g k)) := by
  induction n with
  | zero => cases hk
  | succ n ih =>
    rw [List.range_succ, List.flatMap_append, shows_append] at h
    obtain hlt | rfl := Nat.lt_succ_iff_lt_or_eq.mp hk
    · exact ih h.1 hlt
    · have hlength : ((List.range k).flatMap fun k => Bytes.ofWord (g k)).length = 4 * k := by
        simp [List.length_flatMap, Bytes.ofWord, Bytes.length_ofNat, Nat.mul_comm]
      have hword := h.2
      rw [hlength, List.flatMap_singleton] at hword
      exact hword

end TerminalKernel
