import Mathlib.Tactic.Lemma
import Marktex.Token.Lexer

/-!
# Progress of reading

Every piece takes at least one character (`Piece.read_raw_ne_nil`), so reading all of a source needs
no more steps than there are characters. The count of steps that `Reading.all` passes down is
therefore never what ends it: `Reading.all_ending` and `Reading.all_piece` are the equations of a
loop without a bound, and `Cursor.pieces_rec` is the induction that goes with them, over the pieces
of a source in the order in which lenient reading meets them.
-/

namespace Marktex

/-- A list marker has characters. -/
lemma ListMarker.raw_ne_nil {s : Text} {m : ListMarker} (h : at? s = some m) : m.raw ≠ [] := by
  rw [at?, Option.bind_eq_some_iff] at h
  obtain ⟨bare, -, h⟩ := h
  split at h
  · cases h
  · cases h
    simp

/-- A block of marked lines is not empty if the mark stands at its front. -/
lemma Taken.markedLines_raw_ne_nil (mark : Char) (r : Text) :
    (markedLines mark true (mark :: r)).raw ≠ [] := by
  simp [markedLines]

namespace Piece

/-- Every piece takes at least one character. -/
lemma read_raw_ne_nil (lineStart : Bool) (c : Char) (r : Text) :
    (read lineStart c r).raw ≠ [] := by
  have fits := Opening.fits lineStart c r
  unfold read
  split <;> rename_i h <;> rw [h] at fits
  case h_1 =>
    obtain ⟨-, rfl⟩ := fits
    simp [header, single, raw]
  case h_2 m =>
    have front := ListMarker.raw_ne_nil fits.2
    simp [list, raw, front]
  case h_3 mark =>
    unfold emphasis
    split <;> simp [enclosed, raw]
  case h_4 =>
    unfold code
    split <;> simp [codeBlock, enclosed, raw]
  case h_5 => simp [targeted, raw]
  case h_6 => simp [targeted, raw]
  case h_7 =>
    obtain ⟨-, rfl⟩ := fits
    simp [quote, single, raw, Taken.markedLines_raw_ne_nil]
  case h_8 =>
    obtain ⟨-, rfl⟩ := fits
    simp [table, single, raw, Taken.markedLines_raw_ne_nil]
  case h_9 =>
    unfold math
    split <;> simp [enclosed, raw]
  case h_10 => simp [lineBreak, single, raw]
  case h_11 =>
    unfold text
    dsimp only
    split <;> simp [single, raw]

/-- What a piece leaves is shorter than what it was read from. -/
lemma length_rest_lt (lineStart : Bool) (c : Char) (r : Text) :
    (read lineStart c r).rest.length < (c :: r).length := by
  have covers : (read lineStart c r).raw ++ (read lineStart c r).rest = c :: r :=
    read_covers lineStart c r
  have taken := List.length_pos_iff.2 (read_raw_ne_nil lineStart c r)
  rw [← covers, List.length_append]
  omega

end Piece

/-- Induction over the pieces of a source: what holds at the end of the input, and at the front of a
piece if it holds after it, holds at every place. -/
lemma Cursor.pieces_rec {motive : Cursor → Prop}
    (ending : ∀ cursor, cursor.rest = [] → motive cursor)
    (piece : ∀ cursor c r, cursor.rest = c :: r →
      motive (cursor.past (Piece.read cursor.lineStart c r)) → motive cursor)
    (cursor : Cursor) : motive cursor := by
  generalize size : cursor.rest.length = n
  induction n using Nat.strongRecOn generalizing cursor with
  | ind n ih =>
    cases front : cursor.rest with
    | nil => exact ending cursor front
    | cons c r =>
      have shorter := Piece.length_rest_lt cursor.lineStart c r
      rw [← front, size] at shorter
      exact piece cursor c r front (ih _ shorter _ rfl)

namespace Reading

/-- A step at the end of the input makes a token of nothing. -/
lemma step_ending {cursor : Cursor} (strict : Bool) (h : cursor.rest = []) :
    step strict cursor = hollow cursor := by
  simp [step, h]

/-- Lenient reading takes every piece, and warns of what is not closed. -/
lemma step_lenient {cursor : Cursor} {c : Char} {r : Text} (h : cursor.rest = c :: r) :
    step false cursor =
      ⟨Lexeme.place cursor.position (Piece.read cursor.lineStart c r).lexemes,
        (Piece.read cursor.lineStart c r).openEnds.map (OpenEnd.place cursor.position), none,
        cursor.past (Piece.read cursor.lineStart c r)⟩ := by
  simp [step, h]

/-- What a step can do before the end of the input. Strict reading can fail, and then it is at the end.
Otherwise the step is the one of lenient reading, and if reading is strict, nothing stays open in the piece. -/
lemma step_cases (strict : Bool) {cursor : Cursor} {c : Char} {r : Text} (h : cursor.rest = c :: r) :
    (strict = true ∧ ∃ u, step strict cursor = ⟨[], [], some u, cursor.atEnd⟩) ∨
    ((strict = true → (Piece.read cursor.lineStart c r).openEnds = []) ∧
      step strict cursor = step false cursor) := by
  cases strict with
  | false => exact .inr ⟨nofun, rfl⟩
  | true =>
    cases ends : (Piece.read cursor.lineStart c r).openEnds with
    | nil => exact .inr ⟨fun _ => rfl, by simp [step, h, ends]⟩
    | cons e more => exact .inl ⟨rfl, e.place cursor.position, by simp [step, h, ends]⟩

/-- Each step that is not at the end of the source passes some of it. -/
lemma length_step_lt {cursor : Cursor} (strict : Bool) (h : cursor.rest ≠ []) :
    (step strict cursor).cursor.rest.length < cursor.rest.length := by
  unfold step
  split
  case h_1 front => exact absurd front h
  case h_2 c r front =>
    dsimp only
    split
    · simp [Cursor.atEnd, front]
    · rw [front]
      exact Piece.length_rest_lt cursor.lineStart c r

/-- The bound on the number of steps does not matter once it is the number of characters. -/
lemma steps_eq_all {strict : Bool} {n : Nat} {cursor : Cursor} (h : cursor.rest.length ≤ n) :
    steps strict n cursor = all strict cursor := by
  -- both sides are compared at any two bounds that suffice
  suffices same : ∀ m, cursor.rest.length ≤ m → steps strict n cursor = steps strict m cursor from
    same _ (Nat.le_refl _)
  induction n generalizing cursor with
  | zero =>
    intro m _
    have front : cursor.rest = [] := List.length_eq_zero_iff.1 (by omega)
    cases m <;> simp [steps, front]
  | succ n ih =>
    intro m hm
    by_cases front : cursor.rest = []
    · cases m <;> simp [steps, front]
    · have shorter := length_step_lt strict front
      have taken := List.length_pos_iff.2 front
      obtain ⟨m, rfl⟩ : ∃ k, m = k + 1 := ⟨m - 1, by omega⟩
      simp only [steps, List.isEmpty_iff, front, if_false, andThen]
      rw [ih (by omega) m (by omega)]

/-- At the end of the source nothing is left to read. -/
lemma all_ending {cursor : Cursor} (strict : Bool) (h : cursor.rest = []) :
    all strict cursor = idle cursor := by
  simp [all, steps, h]

/-- Before the end of the input, to read all that is left is to read a piece and then all that is
left, unless reading the piece failed. -/
lemma all_piece {cursor : Cursor} (strict : Bool) (h : cursor.rest ≠ []) :
    all strict cursor = (step strict cursor).andThen (all strict) := by
  have shorter := length_step_lt strict h
  rw [← steps_eq_all (n := cursor.rest.length + 1) (by omega)]
  simp only [steps, List.isEmpty_iff, h, if_false, andThen]
  rw [steps_eq_all (by omega)]

/-- Lenient reading of all that is left ends with the input. -/
lemma all_lenient (cursor : Cursor) :
    (all false cursor).failure = none ∧ (all false cursor).cursor.rest = [] ∧
      (all false cursor).cursor.position = cursor.position.after cursor.rest := by
  induction cursor using Cursor.pieces_rec with
  | ending cursor h => simp [all_ending false h, idle, h]
  | piece cursor c r h ih =>
    have covers : (Piece.read cursor.lineStart c r).Covers (c :: r) := Piece.read_covers _ c r
    obtain ⟨failure, rest, position⟩ := ih
    have front : cursor.rest ≠ [] := by simp [h]
    rw [all_piece false front, step_lenient h]
    refine ⟨failure, rest, position.trans ?_⟩
    rw [h, ← covers, Position.after_append]
    rfl

end Reading

/-- Lenient reading does not fail. -/
lemma tokenize_lenient (source : Text) : (tokenize false source).failure = none := by
  obtain ⟨failure, -, -⟩ := Reading.all_lenient (Cursor.start source)
  simp only [tokenize, Lexer.finish, Lexer.start, Reading.andThen, failure]

end Marktex
