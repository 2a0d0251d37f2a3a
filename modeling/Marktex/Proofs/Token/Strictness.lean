import Mathlib.Tactic.Lemma
import Marktex.Latex.Render
import Marktex.Proofs.Source.Lookahead
import Marktex.Proofs.Token.Progress

/-!
# Strict and lenient reading

Lenient reading warns of a construct that is not closed and strict reading fails at it. That is the
only difference, and it can show only once: what is not closed reaches to the end of the input
(`Piece.read_ends`), so no piece follows it. `Reading.all_agree` relates the two ways to read all that
is left of a source, and `tokenize_strict_agrees` compares them for whole sources and for what is made
of these.
-/

namespace Marktex

namespace Segment

/-- Where a link target can be read, the label is closed. -/
lemma closed_of_opensTarget {r : Text} (h : Source.opensTarget ('[' :: r) = true) :
    (upTo [']'] r).closed = true := by
  obtain ⟨label, after, front, plain⟩ := Source.exists_of_opensTarget h
  obtain rfl : r = label ++ ']' :: '(' :: after := by simpa using front
  rw [upTo_of_not_mem _ fun member => (plain _ member).1 rfl]

end Segment

/-- What is closed has no open end. -/
lemma OpenEnd.of_closed {segment : Segment} (construct : Construct) (raw : Text)
    (h : segment.closed = true) : OpenEnd.of segment construct raw = [] :=
  if_pos h

/-- The empty text has no blank rest. -/
lemma Taken.blankRest_nil : blankRest [] = ⟨[], []⟩ := rfl

namespace Piece

/-- How a piece ends: everything in it is closed, or it is one lexeme up to the end of the input that
is reported with all of its text, and once. -/
inductive Ends : Piece → Prop where
  | closed {lexemes rest} :
    Ends ⟨lexemes, rest, []⟩
  | cut {lexeme construct} :
    Ends ⟨[lexeme], [], [⟨construct, lexeme.raw⟩]⟩

/-- A piece of one lexeme ends if the segment that should close it reaches to its end wherever it is
not closed itself. -/
lemma Ends.of_segment {lexeme : Lexeme} {rest raw : Text} {segment : Segment}
    {construct : Construct} (h : segment.closed = false → rest = [] ∧ raw = lexeme.raw) :
    Ends ⟨[lexeme], rest, OpenEnd.of segment construct raw⟩ := by
  unfold OpenEnd.of
  split
  · exact .closed
  · rename_i still
    obtain ⟨rfl, rfl⟩ := h (by simpa using still)
    exact .cut

/-- Text between delimiters that is left open goes on to the end of the source. -/
lemma enclosed_ends (style : Style) (construct : Construct) (delimiter s : Text) :
    Ends (enclosed style construct delimiter s) :=
  .of_segment fun still => ⟨Segment.rest_of_not_closed still, rfl⟩

/-- A code block ends: where its fence is missing, no blanks are left to skip after it. -/
lemma codeBlock_ends (s : Text) : Ends (codeBlock s) := by
  refine .of_segment fun still => ?_
  have rest := Segment.rest_of_not_closed still
  simp only [rest, Taken.blankRest_nil, List.append_nil, and_self]

/-- Math ends: where the signs are missing, no blanks are left to skip after them. -/
lemma math_ends (r : Text) : Ends (math r) := by
  unfold math
  split
  · refine .of_segment fun still => ?_
    have rest := Segment.rest_of_not_closed still
    simp only [rest, Taken.blankRest_nil, List.append_nil, and_self]
  · exact enclosed_ends _ _ _ _

/-- A label with a target ends, since only the target can stay open. -/
lemma targeted_ends (kind : Kind) (construct : Construct) (payload : Text → Text → Payload)
    (lead : Text) {r : Text} (h : Source.opensTarget ('[' :: r) = true) :
    Ends (targeted kind construct payload lead r) := by
  have label := Segment.closed_of_opensTarget h
  simp only [targeted, OpenEnd.of_closed _ _ label, List.nil_append]
  exact .of_segment fun still => ⟨Segment.rest_of_not_closed still, rfl⟩

/-- Every piece ends. -/
theorem read_ends (lineStart : Bool) (c : Char) (r : Text) : Ends (read lineStart c r) := by
  have fits := Opening.fits lineStart c r
  unfold read
  split <;> rename_i h <;> rw [h] at fits
  case h_1 => exact .closed
  case h_2 => exact .closed
  case h_3 =>
    unfold emphasis
    split <;> exact enclosed_ends _ _ _ _
  case h_4 =>
    unfold code
    split
    · exact codeBlock_ends _
    · exact enclosed_ends _ _ _ _
  case h_5 =>
    obtain ⟨label, after, front, -⟩ := Source.exists_of_opensTarget fits
    obtain ⟨rfl, -⟩ := List.cons.inj front
    exact targeted_ends _ _ _ _ fits
  case h_6 =>
    obtain ⟨label, after, rfl, -⟩ := Source.exists_of_opensTarget fits.2
    exact targeted_ends _ _ _ _ fits.2
  case h_7 => exact .closed
  case h_8 => exact .closed
  case h_9 => exact math_ends r
  case h_10 => exact .closed
  case h_11 =>
    unfold text
    dsimp only
    split <;> exact .closed

end Piece

namespace Reading

/-- How strict reading of a stretch goes where lenient reading goes as given: the same if nothing stays
open, and otherwise up to the last token, which is what is reported and ends with the input. -/
inductive Agree : Reading → Reading → Prop where
  | clean {tokens cursor} :
    Agree ⟨tokens, [], none, cursor⟩ ⟨tokens, [], none, cursor⟩
  | cut {tokens t u cursor} :
    u.span = t.span →
    u.span.stop = cursor.position →
    cursor.rest = [] →
    Agree ⟨tokens, [], some u, cursor⟩ ⟨tokens ++ [t], [u], none, cursor⟩

/-- Strict and lenient reading of a piece agree. -/
lemma step_agree {cursor : Cursor} {c : Char} {r : Text} (h : cursor.rest = c :: r) :
    Agree (step true cursor) (step false cursor) := by
  have covers : (Piece.read cursor.lineStart c r).Covers (c :: r) := Piece.read_covers _ c r
  have ends := Piece.read_ends cursor.lineStart c r
  rw [step_lenient h]
  simp only [step, h]
  generalize Piece.read cursor.lineStart c r = piece at *
  cases ends with
  | closed => exact .clean
  | @cut lexeme construct =>
    have whole : lexeme.raw = c :: r := by simpa [Piece.Covers, Piece.raw] using covers
    have past : cursor.past ⟨[lexeme], [], [⟨construct, lexeme.raw⟩]⟩ = cursor.atEnd := by
      simp [Cursor.past, Cursor.atEnd, Piece.raw, whole, h]
    rw [past]
    refine @Agree.cut [] _ _ _ rfl ?_ rfl
    simp [OpenEnd.place, Span.along, Cursor.atEnd, whole, h]

/-- If strict and lenient reading of a stretch agree, and then of what follows it, they agree of both
together: after what stays open nothing follows. -/
lemma Agree.andThen {strict lenient : Reading} (h : Agree strict lenient)
    (next : Agree (all true lenient.cursor) (all false lenient.cursor)) :
    Agree (strict.andThen (all true)) (lenient.andThen (all false)) := by
  cases h with
  | clean =>
    simp only [Reading.andThen, List.nil_append] at next ⊢
    generalize all true _ = s at *
    generalize all false _ = l at *
    cases next with
    | clean => exact .clean
    | cut span stop ending =>
      rw [← List.append_assoc]
      exact .cut span stop ending
  | cut span stop ending =>
    simp only [Reading.andThen, all_ending false ending, idle, List.append_nil]
    exact .cut span stop ending

/-- Strict and lenient reading of all that is left agree. -/
theorem all_agree (cursor : Cursor) : Agree (all true cursor) (all false cursor) := by
  induction cursor using Cursor.pieces_rec with
  | ending cursor h =>
    rw [all_ending true h, all_ending false h]
    exact .clean
  | piece cursor c r h ih =>
    have front : cursor.rest ≠ [] := by simp [h]
    rw [all_piece true front, all_piece false front]
    apply (step_agree h).andThen
    rw [step_lenient h]
    exact ih

/-- Where strict reading does not fail, it is lenient reading. -/
lemma Agree.eq_of_success {strict lenient : Reading} (h : Agree strict lenient)
    (success : strict.failure = none) : strict = lenient := by
  cases h with
  | clean => rfl
  | cut => cases success

/-- Strict reading of a piece either fails or is lenient reading. -/
lemma step_strict_eq_lenient {strict : Bool} {cursor : Cursor}
    (h : (step strict cursor).failure = none) : step strict cursor = step false cursor := by
  cases strict with
  | false => rfl
  | true =>
    cases front : cursor.rest with
    | nil => rw [step_ending true front, step_ending false front]
    | cons c r => exact (step_agree front).eq_of_success h

/-- Strict reading from a place on that does not fail is lenient reading. -/
lemma all_strict_eq_lenient {strict : Bool} {cursor : Cursor}
    (h : (all strict cursor).failure = none) : all strict cursor = all false cursor := by
  cases strict with
  | false => rfl
  | true => exact (all_agree cursor).eq_of_success h

end Reading

/-- Strict reading of a source that does not fail is lenient reading. -/
lemma tokenize_strict_eq_lenient {strict : Bool} {source : Text}
    (h : (tokenize strict source).failure = none) : tokenize strict source = tokenize false source := by
  simp only [tokenize, Lexer.finish, Lexer.start] at h ⊢
  cases failure : (Reading.all strict (Cursor.start source)).failure with
  | some u => simp [Reading.andThen, failure] at h
  | none => rw [Reading.all_strict_eq_lenient failure]

/-- Strict reading of a source agrees with lenient reading. Lenient reading warns at most once. Where it
does not warn, strict reading yields the same tokens and the same LaTeX text. Where it does, the
warning is about the last token before the ending one and ends with the input, and strict reading
fails at it after all tokens before that one. -/
theorem tokenize_strict_agrees (source : Text) :
    (tokenize false source).failure = none ∧
    ((tokenize false source).warnings = [] ∧
        (tokenize true source).failure = none ∧
        (tokenize true source).tokens = (tokenize false source).tokens ∧
        Latex.convert true source = Latex.convert false source ∨
      ∃ u before t,
        (tokenize false source).warnings = [u] ∧
        (tokenize false source).tokens = before ++ [t, Token.ending u.span.stop] ∧
        u.span = t.span ∧
        u.span.stop.offset = source.length ∧
        (tokenize true source).failure = some u ∧
        (tokenize true source).tokens = before ∧
        Latex.convert true source = .error (.unclosed u)) := by
  obtain ⟨-, -, position⟩ := Reading.all_lenient (Cursor.start source)
  have agree := Reading.all_agree (Cursor.start source)
  simp only [Latex.convert, Document.ofSource]
  simp only [tokenize, Lexer.finish, Lexer.start]
  generalize Reading.all true (Cursor.start source) = s at *
  generalize Reading.all false (Cursor.start source) = l at *
  cases agree with
  | clean => exact ⟨rfl, .inl ⟨rfl, rfl, rfl, rfl⟩⟩
  | @cut tokens t u cursor span stop ending =>
    refine ⟨rfl, .inr ⟨u, tokens, t, rfl, ?_, span, ?_, rfl, rfl, rfl⟩⟩
    · simp [Reading.andThen, stop]
    · rw [stop, position]
      simp [Cursor.start, Position.offset_after, Position.origin]

end Marktex
