import Marktex.Text.Basic

/-!
# Displayed lines

A message shows one line of the source. For display a text is broken at every character that a
terminal or an editor may take for a line end, not only at line feeds, and a carriage return with
the line feed after it is one line end. `flatten_broken` says that breaking loses nothing.
-/

namespace Marktex.Text

/-- The code points that end a displayed line. -/
def breakRanges : List (Nat × Nat) :=
  [(0x0a, 0x0d), (0x1c, 0x1e), (0x85, 0x85), (0x2028, 0x2029)]

/-- Whether `c` ends a displayed line. -/
def isBreak (c : Char) : Bool :=
  inRanges breakRanges c

/-- The displayed lines of a text, each with the characters that end it. -/
def broken : Text → List Text
  | [] => []
  | '\r' :: '\n' :: r => ['\r', '\n'] :: broken r
  | c :: r =>
    if isBreak c then [c] :: broken r
    else
      match broken r with
      | [] => [[c]]
      | line :: rest => (c :: line) :: rest

/-- What is shown of a displayed line: line feeds and then carriage returns at its end are left
out, all other line ends stay. -/
def shown (line : Text) : Text :=
  dropEndWhile (· == '\r') (dropEndWhile (· == '\n') line)

/-- The line with the given number, counted from 1, as shown; empty if there is none. -/
def shownLine (source : Text) (number : Int) : Text :=
  if number < 1 then [] else ((broken source)[(number - 1).toNat]?.map shown).getD []

/-- Every line end read as a line feed: a carriage return counts as one, alone or before one. -/
def withLineFeeds : Text → Text
  | [] => []
  | '\r' :: '\n' :: r => '\n' :: withLineFeeds r
  | c :: r => (if c = '\r' then '\n' else c) :: withLineFeeds r

/-- Breaking a text into displayed lines loses nothing. -/
theorem flatten_broken (s : Text) : (broken s).flatten = s := by
  fun_induction broken s with
  | case1 => rfl
  | case2 r ih => simp [ih]
  | case3 c r _ _ ih => simp [ih]
  | case4 c r _ _ h ih => rw [h] at ih; simp_all
  | case5 c r _ _ line rest h ih => rw [h] at ih; simp_all

end Marktex.Text
