import Mathlib.Data.List.TakeWhile
import TerminalKernel.Proofs.Admission

namespace TerminalKernel

theorem Bytes.beforeNul_append_zero {bs : Bytes} (h : 0 ∉ bs) (rest : Bytes) :
    beforeNul (bs ++ 0 :: rest) = bs := by
  have hne : ∀ b ∈ bs, (b != 0) = true := by
    intro b hb
    exact bne_iff_ne.mpr (ne_of_mem_of_not_mem hb h)
  rw [beforeNul, List.takeWhile_append_of_pos hne, List.takeWhile_cons_of_neg (by decide),
    List.append_nil]

namespace Command

def spell (name : Bytes) (blanks : Nat) (arguments : Bytes) : Bytes :=
  name ++ (List.replicate blanks blank ++ arguments)

/-- A name, blanks and arguments that a line may consist of. -/
structure WellFormed (name : Bytes) (blanks : Nat) (arguments : Bytes) : Prop where
  name_ne : name ≠ []
  blank_not_mem : blank ∉ name
  name_le : name.length ≤ maxFileName
  arguments_le : arguments.length ≤ maxArguments
  arguments_head : arguments.head? ≠ some blank
  separated : arguments ≠ [] → 1 ≤ blanks

def Yields (line name arguments : Bytes) : Prop :=
  ∃ command, parse line = .ok command ∧ command.name.bytes = name ∧
    command.arguments.bytes = arguments

variable {line name name' arguments arguments' rest : Bytes} {blanks blanks' : Nat}

theorem takeWhile_name (hname : blank ∉ name) (hrest : rest ≠ [] → rest.head? = some blank) :
    (name ++ rest).takeWhile (· != blank) = name := by
  have hne : ∀ b ∈ name, (b != blank) = true := by
    intro b hb
    exact bne_iff_ne.mpr (ne_of_mem_of_not_mem hb hname)
  rw [List.takeWhile_append_of_pos hne]
  cases rest with
  | nil => exact List.append_nil name
  | cons b rest =>
    obtain rfl : b = blank := Option.some.inj (hrest (List.cons_ne_nil b rest))
    rw [List.takeWhile_cons_of_neg (by decide), List.append_nil]

theorem dropWhile_blanks (h : arguments.head? ≠ some blank) (blanks : Nat) :
    (List.replicate blanks blank ++ arguments).dropWhile (· == blank) = arguments := by
  have hblank : ∀ b ∈ List.replicate blanks blank, (b == blank) = true := by
    intro b hb
    exact beq_iff_eq.mpr (List.eq_of_mem_replicate hb)
  rw [List.dropWhile_append_of_pos hblank]
  cases arguments with
  | nil => rfl
  | cons b arguments =>
    have hb : b ≠ blank := fun hb => h (congrArg some hb)
    exact List.dropWhile_cons_of_neg (by simpa using hb)

theorem WellFormed.takeWhile_spell (h : WellFormed name blanks arguments) :
    (spell name blanks arguments).takeWhile (· != blank) = name := by
  refine takeWhile_name h.blank_not_mem fun hne => ?_
  cases blanks with
  | zero =>
    have harguments : arguments ≠ [] := hne
    exact absurd (h.separated harguments) (Nat.not_succ_le_zero 0)
  | succ blanks => rfl

theorem WellFormed.dropWhile_spell (h : WellFormed name blanks arguments) :
    (spell name blanks arguments).dropWhile (· != blank) =
      List.replicate blanks blank ++ arguments := by
  have hsplit := List.takeWhile_append_dropWhile (p := (· != blank))
    (l := spell name blanks arguments)
  rw [h.takeWhile_spell] at hsplit
  exact List.append_cancel_left hsplit

theorem WellFormed.unique (h : WellFormed name blanks arguments)
    (h' : WellFormed name' blanks' arguments')
    (heq : spell name blanks arguments = spell name' blanks' arguments') :
    name = name' ∧ blanks = blanks' ∧ arguments = arguments' := by
  have hname : name = name' := by rw [← h.takeWhile_spell, heq, h'.takeWhile_spell]
  have hrest : List.replicate blanks blank ++ arguments =
      List.replicate blanks' blank ++ arguments' := by
    rw [← h.dropWhile_spell, heq, h'.dropWhile_spell]
  have harguments : arguments = arguments' := by
    rw [← dropWhile_blanks h.arguments_head blanks, hrest,
      dropWhile_blanks h'.arguments_head blanks']
  refine ⟨hname, ?_, harguments⟩
  have hlength := congrArg List.length (List.append_cancel_right (harguments ▸ hrest))
  simpa only [List.length_replicate] using hlength

theorem exists_replicate (text : Bytes) :
    ∃ blanks, text = List.replicate blanks blank ++ text.dropWhile (· == blank) := by
  induction text with
  | nil => exact ⟨0, rfl⟩
  | cons b text ih =>
    by_cases hb : b = blank
    · obtain ⟨blanks, ih⟩ := ih
      refine ⟨blanks + 1, ?_⟩
      rw [hb, List.dropWhile_cons_of_pos (p := (· == blank)) rfl, List.replicate_succ,
        List.cons_append, ← ih]
    · refine ⟨0, ?_⟩
      rw [List.dropWhile_cons_of_neg (by simpa using hb)]
      rfl

theorem head?_dropWhile_name {text : Bytes} {b : UInt8}
    (h : (text.dropWhile (· != blank)).head? = some b) : b = blank := by
  have hnot := List.head?_dropWhile_not (· != blank) text
  rw [h] at hnot
  simpa using hnot

theorem exists_spell (text : Bytes) :
    ∃ blanks, text = spell (text.takeWhile (· != blank)) blanks
        ((text.dropWhile (· != blank)).dropWhile (· == blank)) ∧
      ((text.dropWhile (· != blank)).dropWhile (· == blank) ≠ [] → 1 ≤ blanks) := by
  obtain ⟨blanks, hblanks⟩ := exists_replicate (text.dropWhile (· != blank))
  refine ⟨blanks, ?_, fun hne => ?_⟩
  · rw [spell, ← hblanks, List.takeWhile_append_dropWhile]
  · by_contra hzero
    obtain rfl : blanks = 0 := by omega
    obtain ⟨b, arguments, harguments⟩ := List.exists_cons_of_ne_nil hne
    rw [harguments] at hblanks
    have hb := head?_dropWhile_name (congrArg List.head? hblanks)
    have hnot := List.head?_dropWhile_not (· == blank) (text.dropWhile (· != blank))
    rw [harguments, hb] at hnot
    cases hnot

/-- The name and the arguments of an accepted line, as they are cut out of it. -/
theorem yields_iff_cut (line name arguments : Bytes) : Yields line name arguments ↔
    (Bytes.beforeNul line).takeWhile (· != blank) = name ∧
      ((Bytes.beforeNul line).dropWhile (· != blank)).dropWhile (· == blank) = arguments ∧
        name ≠ [] ∧ name.length ≤ maxFileName ∧ arguments.length ≤ maxArguments := by
  unfold Yields parse BoundedBytes.ofBytes?
  dsimp only
  generalize (Bytes.beforeNul line).takeWhile (· != blank) = cutName
  generalize ((Bytes.beforeNul line).dropWhile (· != blank)).dropWhile (· == blank) = cutArguments
  by_cases hnil : cutName = []
  · rw [if_pos hnil]
    constructor
    · rintro ⟨_, h, -⟩
      cases h
    · rintro ⟨rfl, -, hne, -⟩
      exact absurd hnil hne
  · rw [if_neg hnil]
    by_cases hlength : cutName.length ≤ maxFileName ∧ cutArguments.length ≤ maxArguments
    · rw [dif_pos hlength.1, dif_pos hlength.2]
      constructor
      · rintro ⟨_, h, rfl, rfl⟩
        cases h
        exact ⟨rfl, rfl, hnil, hlength⟩
      · rintro ⟨rfl, rfl, -⟩
        exact ⟨_, rfl, rfl, rfl⟩
    · constructor
      · rintro ⟨_, h, -⟩
        split at h
        · rename_i hn ha
          have hn' := (Option.dite_none_right_eq_some.mp hn).1
          have ha' := (Option.dite_none_right_eq_some.mp ha).1
          exact absurd ⟨hn', ha'⟩ hlength
        · cases h
      · rintro ⟨rfl, rfl, -, hn, ha⟩
        exact absurd ⟨hn, ha⟩ hlength

theorem yields_iff (line name arguments : Bytes) : Yields line name arguments ↔
    ∃ blanks, WellFormed name blanks arguments ∧
      Bytes.beforeNul line = spell name blanks arguments := by
  rw [yields_iff_cut]
  constructor
  · rintro ⟨rfl, rfl, hne, hname, harguments⟩
    obtain ⟨blanks, hspell, hseparated⟩ := exists_spell (Bytes.beforeNul line)
    refine ⟨blanks, ⟨hne, ?_, hname, harguments, ?_, hseparated⟩, hspell⟩
    · intro hmem
      exact absurd (List.mem_takeWhile_imp hmem) (by decide)
    · intro hhead
      have hnot := List.head?_dropWhile_not (· == blank)
        ((Bytes.beforeNul line).dropWhile (· != blank))
      rw [hhead] at hnot
      exact absurd hnot (by decide)
  · rintro ⟨blanks, h, hline⟩
    rw [hline, h.takeWhile_spell, h.dropWhile_spell, dropWhile_blanks h.arguments_head]
    exact ⟨rfl, rfl, h.name_ne, h.name_le, h.arguments_le⟩

theorem zero_not_mem_spell (hname : 0 ∉ name) (harguments : 0 ∉ arguments) (blanks : Nat) :
    0 ∉ spell name blanks arguments := by
  rw [spell, List.mem_append, List.mem_append, List.mem_replicate]
  rintro (h | ⟨-, h⟩ | h)
  · exact hname h
  · exact absurd h (by decide)
  · exact harguments h

/-- Reading command lines. A line is accepted exactly if what stands before its first zero byte is a
name, blanks and arguments, and gives these two. It is so in one way only. Any other line is an
invalid command. A name and arguments come back from the line that spells them, whatever follows the
zero byte. -/
theorem parse_exact :
    (∀ line name arguments, Yields line name arguments ↔
      ∃ blanks, WellFormed name blanks arguments ∧
        Bytes.beforeNul line = spell name blanks arguments) ∧
    (∀ name blanks arguments name' blanks' arguments',
      WellFormed name blanks arguments → WellFormed name' blanks' arguments' →
        spell name blanks arguments = spell name' blanks' arguments' →
          name = name' ∧ blanks = blanks' ∧ arguments = arguments') ∧
    (∀ line, (¬∃ name blanks arguments, WellFormed name blanks arguments ∧
        Bytes.beforeNul line = spell name blanks arguments) →
      parse line = .error .invalidCommand) ∧
    ∀ name blanks arguments rest, WellFormed name blanks arguments → 0 ∉ name → 0 ∉ arguments →
      Yields (spell name blanks arguments ++ 0 :: rest) name arguments := by
  refine ⟨yields_iff, fun _ _ _ _ _ _ h h' => h.unique h', fun line hnone => ?_,
    fun name blanks arguments rest h hname harguments => ?_⟩
  · cases hp : parse line with
    | error e => rw [parse_error hp]
    | ok command =>
      obtain ⟨blanks, h⟩ := (yields_iff ..).mp ⟨command, hp, rfl, rfl⟩
      exact absurd ⟨_, blanks, _, h⟩ hnone
  · refine (yields_iff ..).mpr ⟨blanks, h, ?_⟩
    exact Bytes.beforeNul_append_zero (zero_not_mem_spell hname harguments blanks) rest

theorem parse_exact_padded :
    WellFormed [99, 97, 116] 2 [97, blank, 98] ∧
      Yields (spell [99, 97, 116] 2 [97, blank, 98] ++ 0 :: [120]) [99, 97, 116] [97, blank, 98] ∧
        parse [blank, 97] = .error .invalidCommand := by
  have h : WellFormed [99, 97, 116] 2 [97, blank, 98] := by
    constructor <;> decide
  refine ⟨h, parse_exact.2.2.2 _ _ _ _ h (by decide) (by decide), parse_exact.2.2.1 _ ?_⟩
  rintro ⟨name, blanks, arguments, hw, hline⟩
  cases name with
  | nil => exact hw.name_ne rfl
  | cons b name =>
    have hb : blank = b := (List.cons.inj hline).1
    exact hw.blank_not_mem (hb ▸ List.mem_cons_self)

end Command

end TerminalKernel
