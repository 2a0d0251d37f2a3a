import Marktex.Text.Basic

/-!
# Places in a source

A position names a place between two characters of a source by line, column and offset, a span the
stretch between two positions. Positions move over text in one way only, `Position.after`, which
counts line feeds; `after_append` says that a text may be passed over in pieces.
-/

namespace Marktex

/-- A place in a source: line and column counted from 1, offset from 0. The numbers are integers,
since a position handed in from elsewhere may lie outside of every source. -/
structure Position where
  /-- The number of the line, counted from 1. -/
  line : Int
  /-- The number of the column, counted from 1. -/
  column : Int
  /-- The number of characters before the place. -/
  offset : Int
  deriving DecidableEq, Repr

/-- A stretch of a source from one position to another. -/
structure Span where
  /-- Where the stretch begins. -/
  start : Position
  /-- Where the stretch ends. -/
  stop : Position
  deriving DecidableEq, Repr

namespace Position

/-- The place before the first character of a source. -/
def origin : Position := ⟨1, 1, 0⟩

/-- The place after one more character: a line feed begins a line, all else takes a column. -/
def next (p : Position) (c : Char) : Position :=
  if c = '\n' then ⟨p.line + 1, 1, p.offset + 1⟩ else ⟨p.line, p.column + 1, p.offset + 1⟩

/-- The place after a text that stands at `p`. -/
def after (p : Position) (s : Text) : Position :=
  s.foldl next p

/-- The empty text leads nowhere. -/
@[simp] theorem after_nil (p : Position) : p.after [] = p := rfl

/-- A text leads on character by character, from the front on. -/
@[simp] theorem after_cons (p : Position) (c : Char) (s : Text) :
    p.after (c :: s) = (p.next c).after s := rfl

/-- Passing over two texts in turn is passing over both at once. -/
@[simp] theorem after_append (p : Position) (s t : Text) :
    p.after (s ++ t) = (p.after s).after t :=
  List.foldl_append

/-- Every character moves the offset by one. -/
theorem offset_after (p : Position) (s : Text) : (p.after s).offset = p.offset + s.length := by
  induction s generalizing p with
  | nil => simp
  | cons c s ih =>
    have step : (p.next c).offset = p.offset + 1 := by unfold next; split <;> rfl
    rw [after_cons, ih, step, List.length_cons]
    omega

/-- Every line feed moves the line by one. -/
theorem line_after (p : Position) (s : Text) :
    (p.after s).line = p.line + s.count '\n' := by
  induction s generalizing p with
  | nil => simp
  | cons c s ih =>
    rw [after_cons, ih]
    by_cases h : c = '\n'
    · subst h
      simp [next]
      omega
    · simp [next, h]

end Position

namespace Span

/-- The empty stretch at a position. -/
def point (p : Position) : Span := ⟨p, p⟩

/-- The stretch that a text covers that stands at `p`. -/
def along (p : Position) (s : Text) : Span := ⟨p, p.after s⟩

end Span

end Marktex
