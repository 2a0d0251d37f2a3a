import Marktex.Proofs.Token.Strictness

/-!
# What is reported as not closed

A construct that is not closed stands somewhere in the source and reaches to its end
(`Reading.all_unclosed`). Lenient reading of a source reports what strict reading fails at, and nothing
else (`tokenize_strict_cases`), so that it is enough to look at either of them.
-/

namespace Marktex

/-- A report about a source: it covers all from some place on to the end, which is not nothing. -/
def Unclosed.Reaches (p : Position) (source : Text) (u : Unclosed) : Prop :=
  ∃ before raw, raw ≠ [] ∧ source = before ++ raw ∧ u.span = Span.along (p.after before) raw

/-- No piece that stays open begins where a displayed line ends. -/
lemma Piece.isBreak_of_openEnds {lineStart : Bool} {c : Char} {r : Text}
    (h : (read lineStart c r).openEnds ≠ []) : Text.isBreak c = false := by
  have fits := Opening.fits lineStart c r
  unfold read at h
  cases opening : Opening.of lineStart c r <;> rw [opening] at fits h
  case header | list | quote | table | lineBreak => exact absurd rfl h
  case text =>
    dsimp only at h
    unfold text at h
    dsimp only at h
    split at h <;> exact absurd rfl h
  case emphasis => rcases fits.2 with rfl | rfl <;> rfl
  case code | math =>
    obtain rfl := fits
    rfl
  case link =>
    obtain ⟨label, after, front, -⟩ := Source.exists_of_opensTarget fits
    obtain ⟨rfl, -⟩ := List.cons.inj front
    rfl
  case image =>
    obtain ⟨rfl, -⟩ := fits
    rfl

namespace Reading

/-- All that lenient reading reports of what is left opens with a character that ends no displayed line, and
reaches to the end. -/
lemma all_opens (cursor : Cursor) :
    ∀ u ∈ (all false cursor).warnings, ∃ before c r, cursor.rest = before ++ c :: r ∧
      Text.isBreak c = false ∧ u.span = Span.along (cursor.position.after before) (c :: r) := by
  induction cursor using Cursor.pieces_rec with
  | ending cursor h => simp [all_ending false h, idle]
  | piece cursor c r h ih =>
    have covers : (Piece.read cursor.lineStart c r).Covers (c :: r) := Piece.read_covers _ c r
    have ends := Piece.read_ends cursor.lineStart c r
    have opens := @Piece.isBreak_of_openEnds cursor.lineStart c r
    have front : cursor.rest ≠ [] := by simp [h]
    rw [all_piece false front, step_lenient h]
    generalize Piece.read cursor.lineStart c r = piece at *
    intro u member
    obtain here | later := List.mem_append.1 member
    · -- what is reported of the piece is all of it, up to the end
      cases ends with
      | closed => simp at here
      | @cut lexeme construct =>
        have whole : lexeme.raw = c :: r := by simpa [Piece.Covers, Piece.raw] using covers
        obtain rfl : u = OpenEnd.place cursor.position ⟨construct, lexeme.raw⟩ := by simpa using here
        exact ⟨[], c, r, h, opens (List.cons_ne_nil _ _), by rw [← whole]; rfl⟩
    · obtain ⟨before, d, r', rest, opens, span⟩ := ih u later
      refine ⟨piece.raw ++ before, d, r', ?_, opens, ?_⟩
      · rw [h, ← covers, List.append_assoc, ← rest]
        rfl
      · rw [span, Position.after_append]
        rfl

/-- All that lenient reading reports of what is left reaches to its end. -/
lemma all_unclosed (cursor : Cursor) :
    ∀ u ∈ (all false cursor).warnings, u.Reaches cursor.position cursor.rest := by
  intro u member
  obtain ⟨before, c, r, whole, -, span⟩ := all_opens cursor u member
  exact ⟨before, c :: r, List.cons_ne_nil c r, whole, span⟩

end Reading

/-- Lenient reading of a source reports nothing and strict reading is the same, or it reports the one
construct at which strict reading fails. -/
lemma tokenize_strict_cases (source : Text) :
    (tokenize false source).warnings = [] ∧ tokenize true source = tokenize false source ∨
    ∃ u, (tokenize false source).warnings = [u] ∧ (tokenize true source).failure = some u ∧
      u.Reaches Position.origin source := by
  have agree := Reading.all_agree (Cursor.start source)
  have reaches := Reading.all_unclosed (Cursor.start source)
  simp only [tokenize, Lexer.finish, Lexer.start]
  generalize Reading.all true (Cursor.start source) = s at *
  generalize Reading.all false (Cursor.start source) = l at *
  cases agree with
  | clean => exact .inl ⟨rfl, rfl⟩
  | @cut tokens t u cursor => exact .inr ⟨u, rfl, rfl, reaches u (by simp)⟩

end Marktex
