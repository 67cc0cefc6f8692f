import TerminalKernel.Proofs.Scrolling
import Mathlib.Data.List.DropRight
import Mathlib.Data.List.OfFn

namespace TerminalKernel

namespace Bytes

/-- A line as the rows that it takes. A row ends when a byte comes for which it has no cell. -/
def wrap (line : Bytes) : List Bytes :=
  if line.length ≤ screenWidth then [line]
  else line.take screenWidth :: wrap (line.drop screenWidth)
termination_by line.length
decreasing_by
  rw [List.length_drop]
  have hwidth : screenWidth = 80 := rfl
  omega

def screenRows (bs : Bytes) : List Bytes := (bs.splitOn 10).flatMap wrap

def extend (b : UInt8) : List Bytes → List Bytes
  | [] => [[b]]
  | [row] => if row.length < screenWidth then [row ++ [b]] else [row, [b]]
  | row :: next :: rows => row :: extend b (next :: rows)

variable {line bs : Bytes} {b : UInt8} {rows : List Bytes}

theorem wrap_of_le (h : line.length ≤ screenWidth) : line.wrap = [line] := by
  rw [wrap, if_pos h]

theorem wrap_of_lt (h : screenWidth < line.length) :
    line.wrap = line.take screenWidth :: wrap (line.drop screenWidth) := by
  rw [wrap, if_neg (Nat.not_le.mpr h)]

theorem wrap_ne_nil (line : Bytes) : line.wrap ≠ [] := by
  rw [wrap]
  split <;> simp

theorem extend_cons (row : Bytes) (h : rows ≠ []) :
    extend b (row :: rows) = row :: extend b rows := by
  cases rows with
  | nil => exact absurd rfl h
  | cons next rows => rfl

theorem extend_append (front : List Bytes) (h : rows ≠ []) :
    extend b (front ++ rows) = front ++ extend b rows := by
  induction front with
  | nil => rfl
  | cons row front ih =>
    rw [List.cons_append, extend_cons row (List.append_ne_nil_of_right_ne_nil front h), ih,
      List.cons_append]

theorem wrap_concat (line : Bytes) (b : UInt8) :
    Bytes.wrap (line ++ [b]) = extend b line.wrap := by
  fun_induction wrap line with
  | case1 line h =>
    by_cases hlt : line.length < screenWidth
    · have hle : (line ++ [b]).length ≤ screenWidth := by
        rw [List.length_append]
        exact hlt
      rw [wrap_of_le hle, extend, if_pos hlt]
    · have hlen : line.length = screenWidth := Nat.le_antisymm h (Nat.not_lt.mp hlt)
      have hfull : screenWidth < (line ++ [b]).length := by
        rw [List.length_append, hlen]
        exact Nat.lt_succ_self _
      have hone : [b].length ≤ screenWidth := Nat.le_add_left 1 79
      rw [wrap_of_lt hfull, extend, if_neg hlt, ← hlen, List.take_left, List.drop_left,
        wrap_of_le hone]
  | case2 line h ih =>
    have hlt : screenWidth < line.length := Nat.lt_of_not_le h
    have hlong : screenWidth < (line ++ [b]).length := by
      rw [List.length_append]
      exact Nat.lt_add_right 1 hlt
    rw [wrap_of_lt hlong, List.take_append_of_le_length hlt.le,
      List.drop_append_of_le_length hlt.le, ih, extend_cons _ (wrap_ne_nil _)]

/-- A byte that is no line break goes to the last line. -/
theorem splitOn_concat (h : b ≠ 10) (bs : Bytes) : ∃ front last,
    bs.splitOn 10 = front ++ [last] ∧ (bs ++ [b]).splitOn 10 = front ++ [last ++ [b]] := by
  simp only [List.splitOn]
  induction bs with
  | nil =>
    refine ⟨[], [], rfl, ?_⟩
    simp [List.splitOnP_cons_eq_if_modifyHead, h]
  | cons x bs ih =>
    obtain ⟨front, last, hb, hc⟩ := ih
    rw [List.cons_append, List.splitOnP_cons_eq_if_modifyHead,
      List.splitOnP_cons_eq_if_modifyHead, hb, hc]
    split
    · exact ⟨[] :: front, last, rfl, rfl⟩
    · cases front with
      | nil => exact ⟨[], x :: last, rfl, rfl⟩
      | cons row front => exact ⟨(x :: row) :: front, last, rfl, rfl⟩

theorem screenRows_nil : Bytes.screenRows [] = [[]] := by
  rw [screenRows, List.splitOn_nil, List.flatMap_singleton, wrap_of_le (Nat.zero_le _)]

theorem screenRows_concat (bs : Bytes) (b : UInt8) :
    Bytes.screenRows (bs ++ [b]) =
      if b = 10 then bs.screenRows ++ [[]] else extend b bs.screenRows := by
  split
  case isTrue h =>
    have hsplit : (bs ++ [b]).splitOn 10 = bs.splitOn 10 ++ [[]] := by
      subst h
      exact List.splitOnP_append_cons bs [] rfl
    rw [screenRows, hsplit, List.flatMap_append, List.flatMap_singleton,
      wrap_of_le (Nat.zero_le _)]
    rfl
  case isFalse h =>
    obtain ⟨front, last, hb, hc⟩ := splitOn_concat h bs
    rw [screenRows, screenRows, hb, hc, List.flatMap_append, List.flatMap_append,
      List.flatMap_singleton, List.flatMap_singleton, wrap_concat,
      extend_append _ (wrap_ne_nil last)]

end Bytes

theorem ofFn_update {α : Type} {n : Nat} (f : Fin n → α) (i : Fin n) (x : α) :
    List.ofFn (Function.update f i x) = (List.ofFn f).set i x := by
  refine List.ext_getElem (by simp) fun j hj _ => ?_
  rw [List.getElem_ofFn, List.getElem_set]
  by_cases hij : i.val = j
  · subst hij
    rw [if_pos rfl, Function.update_self]
  · have hne : (⟨j, by simpa using hj⟩ : Fin n) ≠ i := fun he => hij (congrArg Fin.val he).symm
    rw [if_neg hij, List.getElem_ofFn, Function.update_of_ne hne]

namespace Screen

def rowText (s : Screen) (i : Fin screenHeight) : Bytes := List.ofFn fun j => (s.cell i j).char

def text (s : Screen) : List Bytes := List.ofFn s.rowText

def bottom (s : Screen) : Bytes := s.rowText lastRow

def above (s : Screen) : List Bytes :=
  List.ofFn fun i : Fin (screenHeight - 1) => s.rowText ⟨i.val, Nat.lt_of_lt_pred i.isLt⟩

def blankText : Bytes := List.replicate screenWidth 32

/-- What a row is written over, counted from the first one: that one finds what was in the bottom
row, and those that follow find blank rows. -/
def ground (s : Screen) (i : Nat) : Bytes := if i = 0 then s.bottom else blankText

/-- All rows of a terminal that forgets none: those that were above the bottom row, and then those
that were written. -/
def tape (s : Screen) (rows : List Bytes) : List Bytes :=
  s.above ++ rows.mapIdx fun i row => (s.ground i).fill row

variable {s s₀ : Screen} {rows front : List Bytes} {last : Bytes} {b : UInt8}

theorem length_ground (s : Screen) (i : Nat) : (s.ground i).length = screenWidth := by
  rw [ground]
  split
  · exact List.length_ofFn
  · exact List.length_replicate

theorem text_eq (s : Screen) : s.text = s.above ++ [s.bottom] :=
  (List.ofFn_succ' s.rowText).trans List.concat_eq_append

theorem tail_text (s : Screen) : s.text.tail =
    List.ofFn fun i : Fin (screenHeight - 1) => s.rowText ⟨i.val + 1, Nat.succ_lt_succ i.isLt⟩ :=
  congrArg List.tail List.ofFn_succ

theorem rowText_newLine (s : Screen) (i : Fin screenHeight) : s.newLine.rowText i =
    if h : i.val + 1 < screenHeight then s.rowText ⟨i.val + 1, h⟩ else blankText := by
  simp only [rowText, cell_newLine]
  split
  · rfl
  · exact List.ofFn_const ..

theorem text_newLine (s : Screen) : s.newLine.text = s.text.tail ++ [blankText] := by
  have habove : s.newLine.above = s.text.tail := by
    rw [tail_text, above]
    refine congrArg List.ofFn (funext fun i => ?_)
    have h : i.val + 1 < screenHeight := Nat.succ_lt_succ i.isLt
    rw [rowText_newLine, dif_pos h]
  have hbottom : s.newLine.bottom = blankText := by
    rw [bottom, rowText_newLine, dif_neg (by decide)]
  rw [text_eq, habove, hbottom]

theorem cell_put (h : s.column < screenWidth) (b : UInt8) : (s.put b).cell =
    Function.update s.cell lastRow
      (Function.update (s.cell lastRow) ⟨s.column, h⟩ ⟨b, s.color⟩) := by
  rw [← cell_set]
  funext i j
  rw [cell, cell, rows_put h b]
  rfl

theorem text_put (h : s.column < screenWidth) (b : UInt8) :
    (s.put b).text = s.above ++ [s.bottom.set s.column b] := by
  have habove : (s.put b).above = s.above := by
    refine congrArg List.ofFn (funext fun i => ?_)
    have hne : i.val ≠ screenHeight - 1 := i.isLt.ne
    rw [rowText, rowText, cell_put h, Function.update_of_ne fun he => hne (congrArg Fin.val he)]
  have hbottom : (s.put b).bottom = s.bottom.set s.column b := by
    rw [bottom, rowText, cell_put h, Function.update_self]
    exact (congrArg List.ofFn (Function.comp_update Cell.char _ _ _)).trans (ofFn_update ..)
  rw [text_eq, habove, hbottom]

theorem set_fill {ground : Bytes} (h : last.length < ground.length) (b : UInt8) :
    (Bytes.fill ground last).set last.length b = Bytes.fill ground (last ++ [b]) := by
  rw [Bytes.fill, Bytes.fill, List.set_append_right _ _ (Nat.le_refl _), Nat.sub_self,
    List.drop_eq_getElem_cons h, List.set_cons_zero, List.append_assoc, List.length_append]
  rfl

theorem tape_concat (s : Screen) (front : List Bytes) (last : Bytes) :
    s.tape (front ++ [last]) = s.tape front ++ [(s.ground front.length).fill last] := by
  rw [tape, tape, List.mapIdx_concat, List.append_assoc]

theorem length_tape (s : Screen) (rows : List Bytes) :
    (s.tape rows).length = screenHeight - 1 + rows.length := by
  rw [tape, List.length_append, List.length_mapIdx, above, List.length_ofFn]

/-- The screen `s` shows the last of the rows that were written on the screen `s₀`, and its column
is where the last row ends. -/
structure Holds (s₀ : Screen) (rows : List Bytes) (s : Screen) : Prop where
  text : s.text = (s₀.tape rows).rtake screenHeight
  cursor : rows.getLast?.map List.length = some s.column

namespace Holds

theorem start (s : Screen) : Holds s (Bytes.screenRows []) s.start := by
  rw [Bytes.screenRows_nil]
  refine ⟨?_, rfl⟩
  have htape : s.tape [[]] = s.text := s.text_eq.symm
  have hlen : s.text.length = screenHeight := List.length_ofFn
  rw [htape, List.rtake, hlen, Nat.sub_self]
  rfl

theorem column_eq (h : Holds s₀ (front ++ [last]) s) : s.column = last.length := by
  have hcursor := h.cursor
  rw [List.getLast?_concat] at hcursor
  exact (Option.some.inj hcursor).symm

theorem exists_concat (h : Holds s₀ rows s) : ∃ front last, rows = front ++ [last] := by
  obtain ⟨last, hlast, -⟩ := Option.map_eq_some_iff.mp h.cursor
  obtain ⟨front, hrows⟩ := List.getLast?_eq_some_iff.mp hlast
  exact ⟨front, last, hrows⟩

theorem text_concat (h : Holds s₀ (front ++ [last]) s) :
    s.text = (s₀.tape front).rtake (screenHeight - 1) ++ [(s₀.ground front.length).fill last] := by
  rw [h.text, tape_concat]
  exact List.rtake_concat_succ ..

theorem newLine (h : Holds s₀ rows s) : Holds s₀ (rows ++ [[]]) s.newLine := by
  obtain ⟨front, last, hrows⟩ := h.exists_concat
  -- there is a row already, so the new one finds blank ground
  have hpos : rows.length = front.length + 1 := by rw [hrows, List.length_append]; rfl
  have htail : s.text.tail = (s₀.tape rows).rtake (screenHeight - 1) := by
    have hlen : (s₀.tape rows).length - screenHeight + 1 =
        (s₀.tape rows).length - (screenHeight - 1) := by
      rw [length_tape, hpos]
      change 24 + (front.length + 1) - 25 + 1 = 24 + (front.length + 1) - 24
      omega
    rw [h.text, List.rtake, List.tail_drop, hlen, List.rtake]
  have hground : (s₀.ground rows.length).fill [] = blankText := by
    rw [ground, if_neg (by omega)]
    rfl
  constructor
  · rw [text_newLine, htail, tape_concat, hground]
    exact (List.rtake_concat_succ ..).symm
  · rw [List.getLast?_concat]
    rfl

theorem put (h : Holds s₀ (front ++ [last]) s) (hlt : last.length < screenWidth) (b : UInt8) :
    Holds s₀ (front ++ [last ++ [b]]) (s.put b) := by
  have hcolumn := h.column_eq
  have hrow := s.text_eq.symm.trans h.text_concat
  obtain ⟨habove, hbottom⟩ := List.append_inj' hrow rfl
  have hbottom : s.bottom = (s₀.ground front.length).fill last := List.singleton_inj.mp hbottom
  have hground : last.length < (s₀.ground front.length).length := by rwa [length_ground]
  constructor
  · rw [text_put (hcolumn ▸ hlt), habove, hbottom, hcolumn, set_fill hground, tape_concat]
    exact (List.rtake_concat_succ ..).symm
  · rw [List.getLast?_concat, Option.map_some, List.length_append, ← hcolumn]
    rfl

/-- The row that a byte goes to is the last one, or a new one when that one is full. -/
theorem writeByte (h : Holds s₀ rows s) (b : UInt8) :
    Holds s₀ (if b = 10 then rows ++ [[]] else Bytes.extend b rows) (s.writeByte b) := by
  unfold Screen.writeByte
  split
  case isTrue => exact h.newLine
  case isFalse =>
    obtain ⟨front, last, rfl⟩ := h.exists_concat
    rw [Bytes.extend_append front (List.cons_ne_nil last []), Bytes.extend, ← h.column_eq]
    by_cases hfull : screenWidth ≤ s.column
    · rw [if_pos hfull, if_neg (Nat.not_lt.mpr hfull)]
      have hput := h.newLine.put (Nat.zero_lt_succ 79) b
      rwa [List.append_assoc] at hput
    · have hlt : s.column < screenWidth := Nat.lt_of_not_le hfull
      rw [if_neg hfull, if_pos hlt]
      exact h.put (h.column_eq ▸ hlt) b

theorem write {text : Bytes} (h : Holds s₀ text.screenRows s) (bs : Bytes) :
    Holds s₀ (Bytes.screenRows (text ++ bs)) (s.write bs) := by
  induction bs generalizing s text with
  | nil => rwa [List.append_nil]
  | cons b bs ih =>
    have hb := h.writeByte b
    rw [← Bytes.screenRows_concat] at hb
    have hbs := ih hb
    rwa [List.append_assoc] at hbs

end Holds

end Screen

inductive ScreenCall where
  | write (bs : Bytes)
  | setErrorColor
  | endLine

def ScreenCall.bytes : ScreenCall → Bytes
  | .write bs => bs
  | .setErrorColor => []
  | .endLine => [10]

namespace Screen

def perform (s : Screen) : ScreenCall → Screen
  | .write bs => s.write bs
  | .setErrorColor => s.setErrorColor
  | .endLine => s.endLine

def perform? (s : Screen) : ScreenCall → Option Screen
  | .write bs => s.write? bs
  | .setErrorColor => some s.setErrorColor
  | .endLine => s.write? [10]

def performAll (s : Screen) (calls : List ScreenCall) : Screen := calls.foldl perform s

def performAll? (s : Screen) (calls : List ScreenCall) : Option Screen := calls.foldlM perform? s

variable {s s₀ : Screen}

theorem perform?_eq (s : Screen) (c : ScreenCall) : s.perform? c = some (s.perform c) := by
  cases c with
  | write bs => exact s.write?_eq bs
  | setErrorColor => rfl
  | endLine => exact s.write?_eq [10]

theorem performAll?_eq (s : Screen) (calls : List ScreenCall) :
    s.performAll? calls = some (s.performAll calls) := by
  induction calls generalizing s with
  | nil => rfl
  | cons c calls ih =>
    rw [performAll?, List.foldlM_cons, perform?_eq]
    exact ih (s.perform c)

theorem column_performAll_le (h : s.column ≤ screenWidth) (calls : List ScreenCall) :
    (s.performAll calls).column ≤ screenWidth := by
  induction calls generalizing s with
  | nil => exact h
  | cons c calls ih =>
    refine ih ?_
    cases c with
    | write bs => exact column_write_le h bs
    | setErrorColor => exact h
    | endLine => exact column_write_le h [10]

theorem Holds.performAll {text : Bytes} (h : Holds s₀ text.screenRows s)
    (calls : List ScreenCall) :
    Holds s₀ (Bytes.screenRows (text ++ calls.flatMap ScreenCall.bytes)) (s.performAll calls) := by
  induction calls generalizing s text with
  | nil => rwa [List.flatMap_nil, List.append_nil]
  | cons c calls ih =>
    rw [List.flatMap_cons, ← List.append_assoc]
    refine ih ?_
    cases c with
    | write bs => exact h.write bs
    | setErrorColor =>
      rw [ScreenCall.bytes, List.append_nil]
      exact ⟨h.text, h.cursor⟩
    | endLine => exact h.write [10]

/-- Calls to a screen that was started, whatever it showed. -/
structure Shows (s : Screen) (calls : List ScreenCall) : Prop where
  inside : s.start.performAll? calls = some (s.start.performAll calls)
  column : (s.start.performAll calls).column ≤ screenWidth
  holds : Holds s (Bytes.screenRows (calls.flatMap ScreenCall.bytes)) (s.start.performAll calls)

theorem shows_calls (s : Screen) (calls : List ScreenCall) : s.Shows calls where
  inside := s.start.performAll?_eq calls
  column := column_performAll_le (Nat.zero_le _) calls
  holds := (Holds.start s).performAll calls

end Screen

end TerminalKernel
