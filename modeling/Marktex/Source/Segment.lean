import Marktex.Text.Digit

/-!
# Segments of a source

How a source is taken apart from its front: up to a delimiter, through the blanks after a closing
fence, through the lines that start with a given character, through a run of text. Each reader
returns what it took and what is left, and its `append` law says that the two make up the input.
-/

namespace Marktex

/-- A source taken apart at a delimiter. -/
structure Segment where
  /-- The text before the delimiter. -/
  text : Text
  /-- The text with the delimiter. -/
  raw : Text
  /-- What follows. -/
  rest : Text
  /-- Whether the delimiter was found; without one, the segment reaches to the end. -/
  closed : Bool
  deriving DecidableEq, Repr

namespace Segment

/-- The segment up to the first delimiter, or all of the source if there is none. -/
def upTo (delimiter s : Text) : Segment :=
  match Text.cut? delimiter s with
  | some (before, after) => ⟨before, before ++ delimiter, after, true⟩
  | none => ⟨s, s, [], false⟩

/-- The segment up to the end of the line. -/
def line (s : Text) : Segment :=
  upTo ['\n'] s

/-- The characters up to a delimiter and those left are the whole text. -/
theorem raw_append_rest (delimiter s : Text) :
    (upTo delimiter s).raw ++ (upTo delimiter s).rest = s := by
  unfold upTo
  split
  · rename_i before after found
    exact (Text.append_of_cut? found).symm
  · simp

/-- Where the delimiter does not come, nothing is left. -/
theorem rest_of_not_closed {delimiter s : Text} (h : (upTo delimiter s).closed = false) :
    (upTo delimiter s).rest = [] := by
  unfold upTo at h ⊢
  split <;> simp_all

end Segment

/-- A source taken apart into what a reader took and what it left. -/
structure Taken where
  /-- What was taken. -/
  raw : Text
  /-- What is left. -/
  rest : Text
  deriving DecidableEq, Repr

namespace Taken

/-- One more character taken in front. -/
def push (c : Char) (t : Taken) : Taken :=
  ⟨c :: t.raw, t.rest⟩

/-- A character that is put before what is taken is the first one taken. -/
@[simp] theorem raw_push (c : Char) (t : Taken) : (t.push c).raw = c :: t.raw := rfl

/-- A character that is put before what is taken leaves the rest as it is. -/
@[simp] theorem rest_push (c : Char) (t : Taken) : (t.push c).rest = t.rest := rfl

/-- The rest of a line that holds only spaces and tabs, with its line end; nothing if the line goes
on with something else. -/
def blankRest (s : Text) : Taken :=
  let blanks := s.takeWhile Text.isSpaceOrTab
  match s.dropWhile Text.isSpaceOrTab with
  | [] => ⟨blanks, []⟩
  | '\n' :: r => ⟨blanks ++ ['\n'], r⟩
  | '\r' :: '\n' :: r => ⟨blanks ++ ['\r', '\n'], r⟩
  | _ => ⟨[], s⟩

/-- The lines that start with `mark`, up to the first line that does not. The flag says whether the
source is at the start of a line. -/
def markedLines (mark : Char) : Bool → Text → Taken
  | _, [] => ⟨[], []⟩
  | true, c :: r => if c = mark then (markedLines mark false r).push c else ⟨[], c :: r⟩
  | false, c :: r => (markedLines mark (c == '\n') r).push c

/-- The blank rest of a line and what is left are the whole text. -/
theorem blankRest_append (s : Text) : (blankRest s).raw ++ (blankRest s).rest = s := by
  have whole := List.takeWhile_append_dropWhile (p := Text.isSpaceOrTab) (l := s)
  unfold blankRest
  split <;> rename_i h
  · rw [h] at whole
    simpa using whole
  · rw [h] at whole
    simpa using whole
  · rw [h] at whole
    simpa using whole
  · rfl

/-- The marked lines and what is left are the whole text. -/
theorem markedLines_append (mark : Char) (atStart : Bool) (s : Text) :
    (markedLines mark atStart s).raw ++ (markedLines mark atStart s).rest = s := by
  induction s generalizing atStart with
  | nil => cases atStart <;> rfl
  | cons c r ih =>
    cases atStart with
    | true =>
      by_cases h : c = mark
      · simp [markedLines, h, ih]
      · simp [markedLines, h]
    | false => simp [markedLines, ih]

end Taken

namespace Source

/-- Whether a link target can be read here: a label in brackets on one line and an opening
parenthesis right after it. -/
def opensTarget : Text → Bool
  | '[' :: r =>
    match r.dropWhile fun c => c != ']' && c != '\n' with
    | ']' :: '(' :: _ => true
    | _ => false
  | _ => false

/-- Where a link target can be read, a label stands in brackets without a closing bracket or a line
feed in it, and then an opening parenthesis. -/
theorem exists_of_opensTarget {s : Text} (h : opensTarget s = true) :
    ∃ label r, s = '[' :: label ++ ']' :: '(' :: r ∧ ∀ c ∈ label, c ≠ ']' ∧ c ≠ '\n' := by
  unfold opensTarget at h
  split at h
  · rename_i r
    have whole := List.takeWhile_append_dropWhile (p := fun c => c != ']' && c != '\n') (l := r)
    have plain := List.all_takeWhile (p := fun c => c != ']' && c != '\n') (l := r)
    split at h
    · rename_i after front
      rw [front] at whole
      refine ⟨_, after, congrArg ('[' :: ·) whole.symm, fun c member => ?_⟩
      simpa using List.all_eq_true.1 plain c member
    · cases h
  · cases h

/-- Whether an inline construct starts at `c` inside of a run of text, between the character before
it and the text after it. Emphasis starts only at the front of a word. -/
def interrupts (before c : Char) (after : Text) : Bool :=
  match c with
  | '`' => true
  | '$' => true
  | '[' => opensTarget (c :: after)
  | '!' => opensTarget after
  | '*' => wordFront
  | '_' => wordFront
  | _ => false
where
  /-- Whether a blank stands before and something else after. -/
  wordFront : Bool :=
    Text.isBlank before &&
      match after with
      | [] => false
      | d :: _ => !Text.isBlank d

/-- The run of text after the character `before`: up to the end of the line or the next inline
construct. -/
def textRun (before : Char) : Text → Taken
  | [] => ⟨[], []⟩
  | c :: r => if c = '\n' ∨ interrupts before c r then ⟨[], c :: r⟩ else (textRun c r).push c

/-- The run of text and what is left are the whole text. -/
theorem textRun_append (before : Char) (s : Text) :
    (textRun before s).raw ++ (textRun before s).rest = s := by
  induction s generalizing before with
  | nil => rfl
  | cons c r ih =>
    unfold textRun
    split
    · rfl
    · simp [ih]

/-- Whether nothing but a line end follows, or nothing at all. -/
def atLineEnd : Text → Bool
  | [] => true
  | '\n' :: _ => true
  | '\r' :: '\n' :: _ => true
  | _ => false

end Source

end Marktex
