/-!
# Text

A text is the list of its code points. This module holds the operations on texts that the rest of
the library is built from: blanks and trimming, cutting at a delimiter, splitting and joining. Each
operation comes with the law that the readers above it rely on: `skip?_eq_some_iff` and
`append_of_cut?` say that nothing is lost where a text is taken apart.
-/

namespace Marktex

/-- A text is the list of its code points; every length and offset counts code points. -/
abbrev Text := List Char

namespace Text

/-- Whether the code point of `c` lies in one of the closed ranges. -/
def inRanges (ranges : List (Nat × Nat)) (c : Char) : Bool :=
  ranges.any fun range => range.1 ≤ c.toNat && c.toNat ≤ range.2

/-- The code points that count as blank: the spaces of all widths, tabs, and every line or
information separator. -/
def blankRanges : List (Nat × Nat) :=
  [(0x09, 0x0d), (0x1c, 0x20), (0x85, 0x85), (0xa0, 0xa0), (0x1680, 0x1680), (0x2000, 0x200a),
   (0x2028, 0x2029), (0x202f, 0x202f), (0x205f, 0x205f), (0x3000, 0x3000)]

/-- A blank is trimmed from the ends of a text and keeps emphasis from opening before it. -/
def isBlank (c : Char) : Bool :=
  inRanges blankRanges c

/-- A space or a tab: the only blanks that may follow a list marker or a closing fence. -/
def isSpaceOrTab (c : Char) : Bool :=
  c == ' ' || c == '\t'

/-- The number of bytes that a text takes. -/
def byteSize : Text → Nat
  | [] => 0
  | c :: s => c.utf8Size + byteSize s

/-- The text without the characters at its end that satisfy `p`. -/
def dropEndWhile (p : Char → Bool) (s : Text) : Text :=
  (s.reverse.dropWhile p).reverse

/-- The text without the blanks at its two ends. -/
def trim (s : Text) : Text :=
  dropEndWhile isBlank (s.dropWhile isBlank)

/-- The text without its first character, if that is `c`. -/
def withoutFirst (c : Char) : Text → Text
  | [] => []
  | d :: r => if d = c then r else d :: r

/-- The text without its last character, if that is `c`. -/
def withoutLast (c : Char) (s : Text) : Text :=
  if s.getLast? = some c then s.dropLast else s

/-- What follows `lead`, if the text starts with it. -/
def skip? : Text → Text → Option Text
  | [], s => some s
  | _ :: _, [] => none
  | d :: lead, c :: s => if d = c then skip? lead s else none

/-- The texts before and after the first occurrence of a delimiter, which must not be empty. -/
def cut? (delimiter : Text) : Text → Option (Text × Text)
  | [] => none
  | c :: r =>
    match skip? delimiter (c :: r) with
    | some after => some ([], after)
    | none => (cut? delimiter r).map fun (before, after) => (c :: before, after)

/-- The texts before and after the first `delimiter`; without one, all of the text and nothing. -/
def divide (delimiter : Char) (s : Text) : Text × Text :=
  (cut? [delimiter] s).getD (s, [])

/-- The parts of a text between the occurrences of `separator`; there is always at least one. -/
def split (separator : Char) : Text → List Text
  | [] => [[]]
  | c :: r =>
    if c = separator then [] :: split separator r
    else
      match split separator r with
      | [] => [[c]]
      | part :: parts => (c :: part) :: parts

/-- The lines of a text without their line feeds; a last line without one counts too. -/
def lines : Text → List Text
  | [] => []
  | c :: r =>
    if c = '\n' then [] :: lines r
    else
      match lines r with
      | [] => [[c]]
      | line :: rest => (c :: line) :: rest

/-- The texts one after the other, with `separator` between two of them. -/
def join (separator : Text) (parts : List Text) : Text :=
  separator.intercalate parts

/-- `count` copies of `c`; none if the count is negative. -/
def repeated (c : Char) (count : Int) : Text :=
  List.replicate count.toNat c

/-- The text of an integer: its decimal digits, after a minus sign if it is negative. -/
def ofInt (n : Int) : Text :=
  if n < 0 then '-' :: Nat.toDigits 10 n.natAbs else Nat.toDigits 10 n.natAbs

/-- A text starts with `lead` exactly if it is `lead` followed by what is left. -/
theorem skip?_eq_some_iff {lead s rest : Text} : skip? lead s = some rest ↔ s = lead ++ rest := by
  induction lead generalizing s with
  | nil => simp [skip?]
  | cons d lead ih =>
    cases s with
    | nil => simp [skip?]
    | cons c s =>
      by_cases h : d = c
      · simp [skip?, h, ih]
      · have h' : c ≠ d := fun e => h e.symm
        simp [skip?, h, h']

/-- The two sides of a cut and the delimiter make up the text. -/
theorem append_of_cut? {delimiter s before after : Text}
    (h : cut? delimiter s = some (before, after)) : s = before ++ delimiter ++ after := by
  induction s generalizing before with
  | nil => simp [cut?] at h
  | cons c r ih =>
    unfold cut? at h
    split at h
    · rename_i rest found
      simp only [Option.some.injEq, Prod.mk.injEq] at h
      obtain ⟨rfl, rfl⟩ := h
      simpa using skip?_eq_some_iff.1 found
    · simp only [Option.map_eq_some_iff, Prod.exists, Prod.mk.injEq] at h
      obtain ⟨b, a, hr, rfl, rfl⟩ := h
      simpa using ih hr

/-- Splitting always yields a part. -/
theorem split_ne_nil (separator : Char) (s : Text) : split separator s ≠ [] := by
  cases s with
  | nil => simp [split]
  | cons c r =>
    unfold split
    split
    · simp
    · split <;> simp

end Text

end Marktex
