import TerminalKernel.Console.Screen
import Mathlib.Logic.Function.Basic

namespace TerminalKernel

theorem update_lt {α : Type} {m n : Nat} (hn : n < m) (f g : Fin m → α) :
    Function.update (fun i => if i.val < n then f i else g i) ⟨n, hn⟩ (f ⟨n, hn⟩) =
      fun i => if i.val < n + 1 then f i else g i := by
  funext i
  by_cases hi : i = ⟨n, hn⟩
  · rw [hi, Function.update_self, if_pos (Nat.lt_succ_self n)]
  · have hne : i.val ≠ n := fun h => hi (Fin.ext h)
    have hlt : i.val < n + 1 ↔ i.val < n := by omega
    rw [Function.update_of_ne hi]
    simp only [hlt]

namespace Screen

def cell? (s : Screen) (row column : Nat) : Option Cell := do
  let cells ← s.rows[row]?
  cells[column]?

def setCell? (s : Screen) (row column : Nat) (c : Cell) : Option Screen :=
  if h : row < screenHeight ∧ column < screenWidth then
    some { s with rows := s.rows.set row (s.rows[row].set column c h.2) h.1 }
  else none

def copyCell? (row : Nat) (s : Screen) (column : Nat) : Option Screen := do
  let c ← s.cell? row column
  s.setCell? (row - 1) column c

def copyRow? (s : Screen) (row : Nat) : Option Screen :=
  (List.range screenWidth).foldlM (copyCell? row) s

def clearRow? (s : Screen) (row : Nat) (c : Cell) : Option Screen :=
  (List.range screenWidth).foldlM (fun s column => s.setCell? row column c) s

def newLine? (s : Screen) : Option Screen := do
  let s ← (List.range' 1 (screenHeight - 1)).foldlM copyRow? s
  let s ← s.clearRow? (screenHeight - 1) ⟨32, s.color⟩
  some { s with column := 0, color := textColor }

def put? (s : Screen) (b : UInt8) : Option Screen := do
  let s ← s.setCell? (screenHeight - 1) s.column ⟨b, s.color⟩
  some { s with column := s.column + 1 }

def writeByte? (s : Screen) (b : UInt8) : Option Screen :=
  if b = 10 then s.newLine?
  else if screenWidth ≤ s.column then do
    let s ← s.newLine?
    s.put? b
  else s.put? b

def write? (s : Screen) (bs : Bytes) : Option Screen := bs.foldlM writeByte? s

def lastRow : Fin screenHeight := Fin.last 24

def cell (s : Screen) (i : Fin screenHeight) (j : Fin screenWidth) : Cell := s.rows[i][j]

def redrawn (s : Screen) (f : Fin screenHeight → Fin screenWidth → Cell) : Screen :=
  { s with rows := Vector.ofFn fun i => Vector.ofFn (f i) }

variable {s : Screen} {f g : Fin screenHeight → Fin screenWidth → Cell} {i : Fin screenHeight}
  {row n : Nat}

@[simp] theorem cell_redrawn : (s.redrawn f).cell = f := by
  funext i j
  simp [cell, redrawn]

@[simp] theorem column_redrawn : (s.redrawn f).column = s.column := by simp only [redrawn]

@[simp] theorem color_redrawn : (s.redrawn f).color = s.color := by simp only [redrawn]

@[simp] theorem redrawn_redrawn : (s.redrawn f).redrawn g = s.redrawn g := by simp only [redrawn]

theorem rows_ext {t : Screen} (h : s.cell = t.cell) : s.rows = t.rows :=
  Vector.ext fun i hi => Vector.ext fun j hj => congrFun (congrFun h ⟨i, hi⟩) ⟨j, hj⟩

theorem ext_cell {t : Screen} (h : s.cell = t.cell) (hcolumn : s.column = t.column)
    (hcolor : s.color = t.color) : s = t := by
  have hrows := rows_ext h
  cases s
  cases t
  exact congr (congr (congrArg Screen.mk hrows) hcolumn) hcolor

theorem redrawn_cell (s : Screen) : s.redrawn s.cell = s :=
  ext_cell cell_redrawn column_redrawn color_redrawn

theorem cell?_eq (s : Screen) (i : Fin screenHeight) (j : Fin screenWidth) :
    s.cell? i j = some (s.cell i j) := by
  simp [cell?, cell]

theorem cell_set (s : Screen) (i : Fin screenHeight) (j : Fin screenWidth) (c : Cell) :
    ({ s with rows := s.rows.set i (s.rows[i].set j c) } : Screen).cell =
      Function.update s.cell i (Function.update (s.cell i) j c) := by
  funext x y
  by_cases hx : x = i
  · subst hx
    by_cases hy : y = j
    · simp [cell, hy]
    · have hne : j.val ≠ y.val := fun h => hy (Fin.ext h.symm)
      simp [cell, hy, hne]
  · have hne : i.val ≠ x.val := fun h => hx (Fin.ext h.symm)
    simp [cell, hx, hne]

theorem setCell?_eq (s : Screen) (i : Fin screenHeight) (j : Fin screenWidth) (c : Cell) :
    s.setCell? i j c =
      some (s.redrawn (Function.update s.cell i (Function.update (s.cell i) j c))) := by
  rw [setCell?, dif_pos ⟨i.isLt, j.isLt⟩]
  refine congrArg some (ext_cell ?_ column_redrawn.symm color_redrawn.symm)
  rw [cell_redrawn]
  exact s.cell_set i j c

/-- A loop over the cells of one row that writes a cell in each pass. What it writes may depend on
the other rows. -/
theorem foldlM_row {step : Screen → Nat → Option Screen} {w : Fin screenWidth → Cell}
    (hstep : ∀ (t : Screen) (j : Fin screenWidth), (∀ x, x ≠ i → t.cell x = s.cell x) →
      step t j = t.setCell? i j (w j)) (hn : n ≤ screenWidth) :
    (List.range n).foldlM step s =
      some (s.redrawn (Function.update s.cell i fun y =>
        if y.val < n then w y else s.cell i y)) := by
  induction n with
  | zero => simp [redrawn_cell]
  | succ n ih =>
    let j : Fin screenWidth := ⟨n, hn⟩
    have hrest (x : Fin screenHeight) (hx : x ≠ i) :
        (s.redrawn (Function.update s.cell i fun y =>
          if y.val < n then w y else s.cell i y)).cell x = s.cell x := by
      rw [cell_redrawn, Function.update_of_ne hx]
    rw [List.range_succ, List.foldlM_append, ih (Nat.le_of_succ_le hn)]
    refine (congrArg (· >>= pure) ((hstep _ j hrest).trans (setCell?_eq ..))).trans ?_
    rw [cell_redrawn, redrawn_redrawn, Function.update_idem, Function.update_self]
    exact congrArg (fun r => some (s.redrawn (Function.update s.cell i r)))
      (update_lt hn w (s.cell i))

theorem foldlM_range {step : Screen → Nat → Option Screen} {w : Fin screenWidth → Cell}
    (hstep : ∀ (t : Screen) (j : Fin screenWidth), (∀ x, x ≠ i → t.cell x = s.cell x) →
      step t j = t.setCell? i j (w j)) :
    (List.range screenWidth).foldlM step s = some (s.redrawn (Function.update s.cell i w)) := by
  rw [foldlM_row hstep (Nat.le_refl _)]
  simp only [Fin.is_lt, if_true]

theorem copyRow?_eq (s : Screen) (h : row + 1 < screenHeight) :
    s.copyRow? (row + 1) =
      some (s.redrawn (Function.update s.cell ⟨row, Nat.lt_of_succ_lt h⟩
        (s.cell ⟨row + 1, h⟩))) := by
  -- the row that is read is below the one that the loop writes
  refine foldlM_range fun t j hrest => ?_
  have hne : (⟨row + 1, h⟩ : Fin screenHeight) ≠ ⟨row, Nat.lt_of_succ_lt h⟩ := by simp
  have hread := t.cell?_eq ⟨row + 1, h⟩ j
  rw [hrest _ hne] at hread
  rw [copyCell?, hread]
  rfl

theorem clearRow?_eq (s : Screen) (i : Fin screenHeight) (c : Cell) :
    s.clearRow? i c = some (s.redrawn (Function.update s.cell i fun _ => c)) :=
  foldlM_range fun _ _ _ => rfl

theorem cell_newLine (s : Screen) : s.newLine.cell = fun x =>
    if h : x.val + 1 < screenHeight then s.cell ⟨x.val + 1, h⟩ else fun _ => ⟨32, s.color⟩ := by
  funext x y
  simp only [cell, newLine, Fin.getElem_fin, Vector.getElem_ofFn]
  split
  · rfl
  · simp [blank]

/-- Rows that a row was copied to are those of the new line, the others what they were. -/
theorem foldlM_copyRow? (hn : n + 1 ≤ screenHeight) :
    (List.range' 1 n).foldlM copyRow? s =
      some (s.redrawn fun x => if x.val < n then s.newLine.cell x else s.cell x) := by
  -- from the top down, so that no row is overwritten before it was copied
  induction n with
  | zero => simp [redrawn_cell]
  | succ n ih =>
    have hbelow : s.newLine.cell ⟨n, Nat.lt_of_succ_lt hn⟩ = s.cell ⟨n + 1, hn⟩ := by
      rw [cell_newLine]
      exact dif_pos hn
    have hno : ¬n + 1 < n := by omega
    rw [List.range'_1_concat, List.foldlM_append, ih (Nat.le_of_succ_le hn), Nat.add_comm 1 n]
    refine (congrArg (· >>= pure) (copyRow?_eq _ hn)).trans ?_
    rw [cell_redrawn, redrawn_redrawn, if_neg hno, ← hbelow]
    exact congrArg (fun r => some (s.redrawn r))
      (update_lt (Nat.lt_of_succ_lt hn) s.newLine.cell s.cell)

theorem rows_newLine (s : Screen) : s.newLine.rows =
    (s.redrawn (Function.update (fun x =>
      if x.val < screenHeight - 1 then s.newLine.cell x else s.cell x)
      lastRow fun _ => ⟨32, s.color⟩)).rows := by
  have hlast : s.newLine.cell lastRow = fun _ => ⟨32, s.color⟩ := by
    rw [cell_newLine]
    exact dif_neg (Nat.lt_irrefl screenHeight)
  apply rows_ext
  rw [cell_redrawn, ← hlast]
  refine (Eq.trans (update_lt lastRow.isLt s.newLine.cell s.cell) ?_).symm
  funext x
  exact if_pos x.isLt

theorem newLine?_eq (s : Screen) : s.newLine? = some s.newLine := by
  have hcopy := foldlM_copyRow? (s := s) (n := screenHeight - 1) (Nat.le_refl _)
  have hclear (t : Screen) : t.clearRow? (screenHeight - 1) ⟨32, t.color⟩ = _ :=
    t.clearRow?_eq lastRow ⟨32, t.color⟩
  rw [newLine?, hcopy, Option.bind_eq_bind, Option.bind_some, hclear, Option.bind_some,
    redrawn_redrawn, cell_redrawn, color_redrawn, ← rows_newLine]
  rfl

theorem rows_put (h : s.column < screenWidth) (b : UInt8) : (s.put b).rows =
    s.rows.set (screenHeight - 1) (s.rows[screenHeight - 1].set s.column ⟨b, s.color⟩ h) := by
  refine congrArg (s.rows.set (screenHeight - 1) · (by decide)) (Vector.ext fun j hj => ?_)
  rw [Vector.getElem_set, Vector.getElem_setIfInBounds]

theorem put?_eq (h : s.column < screenWidth) (b : UInt8) : s.put? b = some (s.put b) := by
  rw [put?, setCell?, dif_pos ⟨by decide, h⟩, ← rows_put h b]
  rfl

/-- Whatever the column is, no access to a cell fails. -/
theorem writeByte?_eq (s : Screen) (b : UInt8) : s.writeByte? b = some (s.writeByte b) := by
  unfold writeByte? writeByte
  split
  · exact newLine?_eq s
  · split
    case isTrue =>
      have hcolumn : s.newLine.column < screenWidth := Nat.zero_lt_succ 79
      rw [newLine?_eq, Option.bind_eq_bind, Option.bind_some, put?_eq hcolumn]
    case isFalse hfull => exact put?_eq (Nat.lt_of_not_le hfull) b

theorem column_writeByte_le (s : Screen) (b : UInt8) : (s.writeByte b).column ≤ screenWidth := by
  unfold writeByte
  split
  · exact Nat.zero_le _
  · split
    case isTrue =>
      change 1 ≤ screenWidth
      decide
    case isFalse hfull => exact Nat.lt_of_not_le hfull

theorem write?_eq (s : Screen) (bs : Bytes) : s.write? bs = some (s.write bs) := by
  induction bs generalizing s with
  | nil => rfl
  | cons b bs ih =>
    rw [write?, List.foldlM_cons, writeByte?_eq]
    exact ih (s.writeByte b)

theorem column_write_le (h : s.column ≤ screenWidth) (bs : Bytes) :
    (s.write bs).column ≤ screenWidth := by
  induction bs generalizing s with
  | nil => exact h
  | cons b bs ih => exact ih (s.column_writeByte_le b)

end Screen

end TerminalKernel
