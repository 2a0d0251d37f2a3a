import Marktex.Proofs.Source.LineEnds
import Marktex.Proofs.Token.Lexemes
import Marktex.Proofs.Token.Openings
import Marktex.Proofs.Token.Strictness

/-!
# Steps of lexing

Lexing is a loop over pieces, and four readers are loops themselves: over the number signs of a header, the
lines of a quotation, the rows of a table and the characters of a run. A `Loop` whose rounds make something
smaller ends (`Loop.ends`). For the loops inside of a piece that is the text ahead, for the loop over pieces
what is left of the source: whatever calls a lexer has answered, it stands in its source, and a step takes it
on over a text that is not empty and has no fewer characters than the step has tokens (`Reading.step_moves`).
`lexing_progresses` puts this in terms of offsets and counts.
-/

namespace Marktex

/-- A loop that ends: so many rounds take one state to another, in which there is no further round. -/
inductive Loop {σ : Type} (body : σ → Option σ) : Nat → σ → σ → Prop where
  | stop {s} :
    body s = none →
    Loop body 0 s s
  | again {n s next last} :
    body s = some next →
    Loop body n next last →
    Loop body (n + 1) s last

/-- A loop whose rounds make the state smaller ends, after no more rounds than the state is large. It ends in
`last` of the state if a round does not change what that is and the loop does not stop before. -/
lemma Loop.ends {σ : Type} {body : σ → Option σ} (size : σ → Nat) (last : σ → σ)
    (stops : ∀ s, body s = none → last s = s)
    (shrinks : ∀ s next, body s = some next → size next < size s ∧ last next = last s) (s : σ) :
    ∃ n ≤ size s, Loop body n s (last s) := by
  -- on the size, since a round can make the state smaller by more than one
  generalize bound : size s = k
  induction k using Nat.strongRecOn generalizing s with
  | ind k ih =>
    cases go : body s with
    | none =>
      rw [stops s go]
      exact ⟨0, Nat.zero_le k, .stop go⟩
    | some next =>
      obtain ⟨smaller, same⟩ := shrinks s next go
      obtain ⟨n, few, rounds⟩ := ih (size next) (bound ▸ smaller) next rfl
      rw [same] at rounds
      exact ⟨n + 1, by omega, .again go rounds⟩

namespace Segment

/-- What is behind the first line is not longer than the text. -/
lemma length_line_rest_le (s : Text) : (line s).rest.length ≤ s.length := by
  have whole : (line s).raw ++ (line s).rest = s := raw_append_rest ['\n'] s
  have sum := congrArg List.length whole
  rw [List.length_append] at sum
  omega

/-- A first character that does not end the line is passed with the line or before it. -/
lemma line_rest_cons {c : Char} (s : Text) (other : c ≠ '\n') : (line (c :: s)).rest = (line s).rest := by
  rw [line_cons, if_neg other]

end Segment

/-- A block of marked lines goes on behind the line in which it stands. -/
lemma Taken.markedLines_rest (mark : Char) (s : Text) :
    (markedLines mark false s).rest = (markedLines mark true (Segment.line s).rest).rest := by
  induction s with
  | nil => rfl
  | cons c s ih =>
    rw [markedLines, rest_push, Segment.line_cons]
    by_cases feed : c = '\n'
    · simp [feed]
    · simp only [feed, if_false, beq_eq_false_iff_ne.2 feed, ih]

namespace Source

/-- A round of a loop that goes on while `mark` stands ahead: `pass` says what is left of the text behind
it. -/
def markRound (mark : Char) (pass : Text → Text) : Text → Option Text
  | [] => none
  | c :: r => if c = mark then some (pass r) else none

/-- A round over the number signs of a header. -/
def signRound : Text → Option Text :=
  markRound '#' id

/-- A round over the lines of a quotation: the sign is passed, and then the line. -/
def quoteRound : Text → Option Text :=
  markRound '>' fun r => (Segment.line r).rest

/-- A round over the rows of a table: the line is passed with its bar. -/
def rowRound : Text → Option Text :=
  markRound '|' fun r => (Segment.line ('|' :: r)).rest

/-- A round over the characters of a run, each with the character before it. -/
def runRound : Char × Text → Option (Char × Text)
  | (_, []) => none
  | (before, c :: r) => if c = '\n' ∨ interrupts before c r then none else some (c, r)

/-- Where a run ends that goes on behind a character: the last character passed, and what is left. -/
def runEnd (state : Char × Text) : Char × Text :=
  ((textRun state.1 state.2).raw.getLastD state.1, (textRun state.1 state.2).rest)

/-- Every loop inside of a piece ends where its reader says, after no more rounds than there are characters
ahead; `c` is the character before a run. -/
structure LoopsEnd (c : Char) (s : Text) : Prop where
  signs : ∃ n ≤ s.length, Loop signRound n s (s.dropWhile (· == '#'))
  quotation : ∃ n ≤ s.length, Loop quoteRound n s (Taken.markedLines '>' true s).rest
  rows : ∃ n ≤ s.length, Loop rowRound n s (Taken.markedLines '|' true s).rest
  run : ∃ n ≤ s.length, Loop runRound n (c, s) (runEnd (c, s))

/-- A loop that passes a mark in every round ends, since no round gives back what it has passed. -/
lemma markRound_ends {mark : Char} {pass : Text → Text} (last : Text → Text) (nil : last [] = [])
    (other : ∀ c r, c ≠ mark → last (c :: r) = c :: r) (same : ∀ r, last (mark :: r) = last (pass r))
    (passes : ∀ r, (pass r).length ≤ r.length) (s : Text) :
    ∃ n ≤ s.length, Loop (markRound mark pass) n s (last s) := by
  refine Loop.ends List.length last (fun s stopped => ?_) (fun s next go => ?_) s
  · cases s with
    | nil => exact nil
    | cons c r =>
      refine other c r fun front => ?_
      rw [markRound, if_pos front] at stopped
      cases stopped
  · cases s with
    | nil => cases go
    | cons c r =>
      by_cases front : c = mark
      · subst front
        rw [markRound, if_pos rfl] at go
        cases go
        exact ⟨Nat.lt_succ_of_le (passes r), (same r).symm⟩
      · rw [markRound, if_neg front] at go
        cases go

/-- A loop over marked lines ends behind their block. -/
lemma lineRound_ends {mark : Char} {pass : Text → Text} (line : ∀ r, pass r = (Segment.line r).rest) (s : Text) :
    ∃ n ≤ s.length, Loop (markRound mark pass) n s (Taken.markedLines mark true s).rest := by
  refine markRound_ends (fun s => (Taken.markedLines mark true s).rest) rfl (fun c r other => ?_) (fun r => ?_)
    (fun r => ?_) s
  · simp [Taken.markedLines, other]
  · rw [line, ← Taken.markedLines_rest]
    simp [Taken.markedLines]
  · rw [line]
    exact Segment.length_line_rest_le r

/-- The loop over running text ends, with a round for each character at most. -/
lemma runRound_ends (before : Char) (s : Text) :
    ∃ n ≤ s.length, Loop runRound n (before, s) (runEnd (before, s)) := by
  refine Loop.ends (fun state : Char × Text => state.2.length) runEnd ?_ ?_ (before, s)
  · rintro ⟨before, s⟩ stopped
    cases s with
    | nil => rfl
    | cons c r =>
      have stop : c = '\n' ∨ interrupts before c r = true := by
        by_contra go
        rw [runRound, if_neg go] at stopped
        cases stopped
      simp [runEnd, textRun, stop]
  · rintro ⟨before, s⟩ next go
    cases s with
    | nil => cases go
    | cons c r =>
      by_cases stop : c = '\n' ∨ interrupts before c r = true
      · rw [runRound, if_pos stop] at go
        cases go
      · rw [runRound, if_neg stop] at go
        cases go
        refine ⟨Nat.lt_succ_self _, ?_⟩
        simp only [runEnd, textRun, if_neg stop, Taken.raw_push, Taken.rest_push, List.getLastD_cons]

/-- All loops of a step end, with a round for each character at most. -/
theorem loopsEnd (c : Char) (s : Text) : LoopsEnd c s where
  signs := by
    refine markRound_ends (fun s => s.dropWhile (· == '#')) rfl (fun c r other => ?_) (fun r => ?_)
      (fun r => Nat.le_refl _) s
    · simp [other]
    · simp
  quotation := lineRound_ends (fun _ => rfl) s
  rows := lineRound_ends (fun r => Segment.line_rest_cons r (by decide)) s
  run := runRound_ends c s

end Source

/-- The text between two places of a source: it leads from the one to the other. -/
structure Cursor.Passes (cursor : Cursor) (passed : Text) (next : Cursor) : Prop where
  rest : cursor.rest = passed ++ next.rest
  position : next.position = cursor.position.after passed

namespace Cursor

variable {cursor next last : Cursor} {s t : Text}

/-- A cursor passes nothing where it stays. -/
lemma Passes.refl (cursor : Cursor) : cursor.Passes [] cursor :=
  ⟨rfl, rfl⟩

/-- What is passed in two moves is passed in turn. -/
lemma Passes.trans (h : cursor.Passes s next) (h' : next.Passes t last) : cursor.Passes (s ++ t) last := by
  constructor
  · rw [h.rest, h'.rest, List.append_assoc]
  · rw [h'.position, h.position, Position.after_append]

/-- The cursor at the end has passed all that was left. -/
lemma atEnd_passes (cursor : Cursor) : cursor.Passes cursor.rest cursor.atEnd :=
  ⟨(List.append_nil _).symm, rfl⟩

/-- The cursor behind a piece has passed the piece. -/
lemma past_passes {c : Char} {r : Text} (h : cursor.rest = c :: r) :
    cursor.Passes (Piece.read cursor.lineStart c r).raw (cursor.past (Piece.read cursor.lineStart c r)) := by
  have covers : (Piece.read cursor.lineStart c r).Covers (c :: r) := Piece.read_covers _ c r
  exact ⟨h.trans covers.symm, rfl⟩

/-- Places are counted by the characters before them. -/
lemma Passes.offset (h : cursor.Passes s next) : next.position.offset = cursor.position.offset + s.length := by
  rw [h.position, Position.offset_after]

/-- What is passed and what is left are together as long as what was left before. -/
lemma Passes.length (h : cursor.Passes s next) : cursor.rest.length = s.length + next.rest.length := by
  rw [h.rest, List.length_append]

end Cursor

/-- A list marker has two characters at least: the mark and a blank. -/
lemma ListMarker.two_le_length_raw {s : Text} {m : ListMarker} (h : at? s = some m) : 2 ≤ m.raw.length := by
  rw [at?, Option.bind_eq_some_iff] at h
  obtain ⟨bare, found, h⟩ := h
  split at h
  case h_1 => cases h
  case h_2 b blanks front =>
    cases h
    obtain ⟨c, r, -, -, rfl⟩ | ⟨c, digits, d, r, -, -, -, rfl⟩ := bare?_cases found
    · simp
    · simp
      omega

namespace Piece

/-- Only a list marker and its item are more than one lexeme. -/
lemma length_lexemes (lineStart : Bool) (c : Char) (r : Text) :
    (read lineStart c r).lexemes.length = 1 ∨
      ∃ m, ListMarker.at? (c :: r) = some m ∧ read lineStart c r = list m := by
  have fits := Opening.fits lineStart c r
  unfold read
  cases opening : Opening.of lineStart c r with
  | list m =>
    rw [opening] at fits
    exact .inr ⟨m, fits.2, rfl⟩
  | emphasis mark =>
    left
    dsimp only [emphasis]
    split <;> rfl
  | code =>
    left
    dsimp only [code]
    split <;> rfl
  | math =>
    left
    dsimp only [math]
    split <;> rfl
  | text =>
    left
    dsimp only [text]
    split <;> rfl
  | _ => exact .inl rfl

/-- A piece has no more lexemes than characters: the item behind a list marker can be empty, but not the
marker, which is two characters at least. -/
lemma length_lexemes_le (lineStart : Bool) (c : Char) (r : Text) :
    (read lineStart c r).lexemes.length ≤ (read lineStart c r).raw.length := by
  rcases length_lexemes lineStart c r with one | ⟨m, found, whole⟩
  · rw [one]
    exact List.length_pos_iff.2 (read_raw_ne_nil lineStart c r)
  · have marker := ListMarker.two_le_length_raw found
    rw [whole]
    simp only [list, raw, List.flatMap_cons, List.length_append, List.length_cons, List.length_nil]
    omega

end Piece

/-- A reading goes on from `cursor` over a text, and has no more tokens than the text has characters. -/
structure Reading.Moves (cursor : Cursor) (passed : Text) (reading : Reading) : Prop where
  passes : cursor.Passes passed reading.cursor
  tokens : reading.tokens.length ≤ passed.length

namespace Reading

/-- A reading that does nothing passes nothing. -/
lemma idle_moves (cursor : Cursor) : Moves cursor [] (idle cursor) :=
  ⟨.refl cursor, Nat.le_refl 0⟩

/-- A step goes on over a text that is not empty. -/
lemma step_moves {cursor : Cursor} {c : Char} {r : Text} (strict : Bool) (front : cursor.rest = c :: r) :
    ∃ passed, passed ≠ [] ∧ Moves cursor passed (step strict cursor) := by
  rcases step_cases strict front with ⟨-, u, failed⟩ | ⟨-, lenient⟩
  · refine ⟨cursor.rest, by simp [front], ?_⟩
    rw [failed]
    exact ⟨cursor.atEnd_passes, Nat.zero_le _⟩
  · refine ⟨_, Piece.read_raw_ne_nil cursor.lineStart c r, ?_⟩
    rw [lenient, step_lenient front]
    refine ⟨Cursor.past_passes front, ?_⟩
    have few := Piece.length_lexemes_le cursor.lineStart c r
    have same := congrArg List.length
      (Lexeme.lexeme_place cursor.position (Piece.read cursor.lineStart c r).lexemes)
    rw [List.length_map] at same
    exact same ▸ few

/-- Readings one after the other pass what each of them passes. -/
lemma Moves.andThen {cursor : Cursor} {s : Text} {first : Reading} {next : Cursor → Reading}
    (h : Moves cursor s first) (h' : first.failure = none → ∃ t, Moves first.cursor t (next first.cursor)) :
    ∃ passed, Moves cursor passed (first.andThen next) := by
  cases failure : first.failure with
  | some u =>
    simp only [Reading.andThen, failure]
    exact ⟨s, h⟩
  | none =>
    obtain ⟨t, moves⟩ := h' failure
    simp only [Reading.andThen, failure]
    refine ⟨s ++ t, h.passes.trans moves.passes, ?_⟩
    rw [List.length_append, List.length_append]
    exact Nat.add_le_add h.tokens moves.tokens

/-- Reading to the end goes on over what is left, with a token for each character at most. -/
lemma all_moves (strict : Bool) (cursor : Cursor) : ∃ passed, Moves cursor passed (all strict cursor) := by
  induction cursor using Cursor.pieces_rec with
  | ending cursor ends =>
    rw [all_ending strict ends]
    exact ⟨[], idle_moves cursor⟩
  | piece cursor c r front ih =>
    obtain ⟨passed, -, moves⟩ := step_moves strict front
    rw [all_piece strict (by simp [front])]
    refine moves.andThen fun success => ?_
    rw [step_strict_eq_lenient success, step_lenient front]
    exact ih

/-- What a step does in a source: it moves forward and not out of the source, or strict reading fails at its
end. -/
inductive Advances (strict : Bool) (source : Text) (cursor : Cursor) : Reading → Prop where
  | forward {reading : Reading} :
    reading.failure = none →
    cursor.position.offset < reading.cursor.position.offset →
    reading.cursor.position.offset ≤ source.length →
    Advances strict source cursor reading
  | failing {reading : Reading} {u} :
    strict = true →
    reading.failure = some u →
    reading.cursor.position.offset = source.length →
    Advances strict source cursor reading

end Reading

namespace Lexer

/-- The lexers that calls lead to from the front of a source, also those in which strict reading has failed. -/
inductive Reachable (strict : Bool) (source : Text) : Lexer → Prop where
  | start :
    Reachable strict source (start strict source)
  | call {lexer} (call : Call) :
    Reachable strict source lexer →
    Reachable strict source (lexer.add (lexer.reading call))

/-- The loop over pieces: a round reads the next one. -/
def round (lexer : Lexer) : Option Lexer :=
  lexer.next?.map lexer.add

/-- To read all that is left and to end the stream takes one token more than there are characters at most. -/
lemma finish_passes (lexer : Lexer) :
    ∃ passed, lexer.cursor.Passes passed lexer.finish.cursor ∧
      lexer.finish.tokens.length ≤ passed.length + 1 := by
  obtain ⟨passed, moves⟩ := Reading.all_moves lexer.strict lexer.cursor
  refine ⟨passed, ?_⟩
  unfold finish Reading.andThen
  split
  case h_1 => exact ⟨moves.passes, Nat.le_succ_of_le moves.tokens⟩
  case h_2 =>
    refine ⟨moves.passes, ?_⟩
    rw [List.length_append]
    exact Nat.add_le_add_right moves.tokens 1

/-- Each call passes characters and never moves back. -/
lemma reading_passes (lexer : Lexer) (call : Call) :
    ∃ passed, lexer.cursor.Passes passed (lexer.reading call).cursor := by
  cases call with
  | next =>
    rw [reading]
    cases front : lexer.cursor.rest with
    | nil =>
      rw [Reading.step_ending lexer.strict front]
      exact ⟨[], .refl lexer.cursor⟩
    | cons c r =>
      obtain ⟨passed, -, moves⟩ := Reading.step_moves lexer.strict front
      exact ⟨passed, moves.passes⟩
  | finish =>
    obtain ⟨passed, passes, -⟩ := lexer.finish_passes
    exact ⟨passed, passes⟩

section Reached

variable {strict : Bool} {source : Text} {lexer : Lexer}

/-- A lexer that was reached stands in its source, behind what it has passed. -/
lemma Reachable.passes (h : Reachable strict source lexer) :
    lexer.strict = strict ∧ ∃ passed, (Cursor.start source).Passes passed lexer.cursor := by
  induction h with
  | start => exact ⟨rfl, [], .refl _⟩
  | @call lexer call _ ih =>
    obtain ⟨same, passed, before⟩ := ih
    obtain ⟨more, passes⟩ := lexer.reading_passes call
    exact ⟨same, passed ++ more, before.trans passes⟩

/-- The offset of a lexer that was reached counts what is not left of its source. -/
lemma Reachable.length (h : Reachable strict source lexer) :
    (source.length : Int) = lexer.cursor.position.offset + lexer.cursor.rest.length := by
  obtain ⟨-, passed, passes⟩ := h.passes
  have offset : lexer.cursor.position.offset = 0 + passed.length := passes.offset
  have sum : source.length = passed.length + lexer.cursor.rest.length := passes.length
  omega

/-- A step of a lexer that was reached moves forward, or strict reading fails. -/
theorem Reachable.advances (h : Reachable strict source lexer)
    (inside : lexer.cursor.position.offset < source.length) :
    ∃ reading, lexer.next? = some reading ∧ reading.Advances strict source lexer.cursor := by
  have length := h.length
  obtain ⟨same, -⟩ := h.passes
  cases front : lexer.cursor.rest with
  | nil =>
    rw [front, List.length_nil] at length
    omega
  | cons c r =>
    refine ⟨Reading.step lexer.strict lexer.cursor, by simp [next?, front], ?_⟩
    rw [same]
    obtain ⟨passed, nonempty, moves⟩ := Reading.step_moves strict front
    have offset := moves.passes.offset
    have sum := moves.passes.length
    have positive := List.length_pos_iff.2 nonempty
    rcases Reading.step_cases strict front with ⟨isStrict, u, failed⟩ | ⟨-, lenient⟩
    · -- nothing is left, so that the offset is the length of the source
      refine .failing isStrict (u := u) (by rw [failed]) ?_
      have ending : (Reading.step strict lexer.cursor).cursor.rest = [] := by
        rw [failed]
        rfl
      rw [ending, List.length_nil] at sum
      omega
    · refine .forward ?_ (by omega) (by omega)
      rw [lenient, Reading.step_lenient front]

/-- Ending the stream takes one token more than there are characters left at most. -/
lemma Reachable.length_finish (h : Reachable strict source lexer) :
    lexer.cursor.position.offset + lexer.finish.tokens.length ≤ source.length + 1 := by
  have length := h.length
  obtain ⟨passed, passes, few⟩ := lexer.finish_passes
  have sum := passes.length
  omega

end Reached

/-- The loop over pieces ends with all that is left, after no more rounds than there are characters left. -/
lemma rounds_end (lexer : Lexer) :
    ∃ n ≤ lexer.cursor.rest.length,
      Loop round n lexer (lexer.add (Reading.all lexer.strict lexer.cursor)) := by
  refine Loop.ends (fun lexer => lexer.cursor.rest.length)
    (fun lexer => lexer.add (Reading.all lexer.strict lexer.cursor)) (fun lexer stopped => ?_)
    (fun lexer next go => ?_) lexer
  · have ending : lexer.cursor.rest = [] := by
      rw [round, Option.map_eq_none_iff] at stopped
      simpa [next?] using stopped
    rw [Reading.all_ending lexer.strict ending]
    simp [add, Reading.idle]
  · rw [round, Option.map_eq_some_iff] at go
    obtain ⟨reading, go, rfl⟩ := go
    cases front : lexer.cursor.rest with
    | nil => simp [next?, front] at go
    | cons c r =>
      have nonempty : lexer.cursor.rest ≠ [] := by simp [front]
      obtain rfl : Reading.step lexer.strict lexer.cursor = reading := by simpa [next?, front] using go
      refine ⟨front ▸ Reading.length_step_lt lexer.strict nonempty, ?_⟩
      rw [Reading.all_piece lexer.strict nonempty]
      rcases Reading.step_cases lexer.strict front with ⟨-, u, failed⟩ | ⟨-, lenient⟩
      · -- a step that fails leaves nothing to read
        simp [add, Reading.andThen, failed, Reading.all_ending, Cursor.atEnd, Reading.idle]
      · have success : (Reading.step lexer.strict lexer.cursor).failure = none := by
          rw [lenient, Reading.step_lenient front]
        simp [add, Reading.andThen, success]

end Lexer

/-- Lexing makes progress and ends. Whatever calls a lexer has answered, strict or not, a step before the end of
its source moves it forward within the source, or strict reading fails at the end. To read all that is left
takes no more steps than there are characters left, and to end the stream then no more tokens than that and
one. The loops inside of a step end as well. -/
theorem lexing_progresses (strict : Bool) (source : Text) :
    (∀ lexer, Lexer.Reachable strict source lexer →
      (lexer.cursor.position.offset < source.length →
        ∃ reading, lexer.next? = some reading ∧ reading.Advances strict source lexer.cursor) ∧
      (∃ n : Nat, lexer.cursor.position.offset + n ≤ source.length ∧
        Loop Lexer.round n lexer (lexer.add (Reading.all lexer.strict lexer.cursor))) ∧
      lexer.cursor.position.offset + lexer.finish.tokens.length ≤ source.length + 1) ∧
    (∀ c s, Source.LoopsEnd c s) ∧
    (tokenize strict source).tokens.length ≤ source.length + 1 := by
  refine ⟨fun lexer reached => ⟨reached.advances, ?_, reached.length_finish⟩, Source.loopsEnd, ?_⟩
  · obtain ⟨n, few, rounds⟩ := lexer.rounds_end
    have length := reached.length
    exact ⟨n, by omega, rounds⟩
  · have few : (0 : Int) + (tokenize strict source).tokens.length ≤ source.length + 1 :=
      (show Lexer.Reachable strict source _ from .start).length_finish
    omega

/-- A strict lexer behind a task, in front of code that is not closed. -/
theorem lexing_progresses_behind_task :
    ∃ lexer, Lexer.Reachable true "- [x] a\n`b".toList lexer ∧
      lexer.cursor.position.offset = 8 ∧
      lexer.cursor.position.offset < "- [x] a\n`b".toList.length ∧
      ∃ reading, lexer.next? = some reading ∧ reading.Advances true "- [x] a\n`b".toList lexer.cursor :=
  have reached := Lexer.Reachable.call .next .start
  have place := by decide
  have inside := by decide
  ⟨_, reached, place, inside, ((lexing_progresses true _).1 _ reached).1 inside⟩

end Marktex
