import Mathlib.Tactic.Lemma
import Marktex.Proofs.Source.Displayed
import Marktex.Proofs.Text.Integer
import Marktex.Text.Quoted

/-!
# Quoted texts are printable

Whatever a text holds, all characters of its quoted form are printable (`Text.printable_quoted`), since a
character that is not printable is written with characters of ASCII. No printable character ends a displayed
line (`Text.not_isBreak_of_isPrintable`), so that printable lines stay what they are when they are written one
after the other, wherever the text is cut into lines (`Text.displayedLines_cons`).
-/

namespace Marktex.Text

variable {c : Char} {s t : Text}

/-- The displayed lines of a text, without what ends them. -/
def displayedLines (s : Text) : List Text :=
  (broken s).map (dropEndWhile isBreak)

/-- Whether `c` is a character of ASCII from the space to the tilde. -/
def isAscii (c : Char) : Bool :=
  0x20 ≤ c.toNat && c.toNat ≤ 0x7e

/-- A text shows as itself on one line. -/
def Printable (s : Text) : Prop :=
  ∀ c ∈ s, isPrintable c = true

/-- A character is in some ranges exactly if one of them holds it. -/
lemma inRanges_iff {ranges : List (Nat × Nat)} :
    inRanges ranges c = true ↔ ∃ range ∈ ranges, range.1 ≤ c.toNat ∧ c.toNat ≤ range.2 := by
  simp [inRanges]

/-- The visible ASCII characters and the space lie between two code points. -/
lemma isAscii_iff : isAscii c = true ↔ 0x20 ≤ c.toNat ∧ c.toNat ≤ 0x7e := by
  simp [isAscii]

/-- The visible ASCII characters and the space are printable. -/
lemma isPrintable_of_ascii (h : isAscii c = true) : isPrintable c = true := by
  have apart : ∀ range ∈ unprintableRanges, range.2 < 0x20 ∨ 0x7e < range.1 := by decide +kernel
  obtain ⟨low, high⟩ := isAscii_iff.1 h
  rw [isPrintable, Bool.not_eq_true', Bool.eq_false_iff, Ne, inRanges_iff]
  rintro ⟨range, member, above, below⟩
  have := apart range member
  omega

/-- What ends a displayed line is not printable. -/
lemma not_isBreak_of_isPrintable (h : isPrintable c = true) : isBreak c = false := by
  have inside : ∀ range ∈ breakRanges, ∃ wider ∈ unprintableRanges, wider.1 ≤ range.1 ∧ range.2 ≤ wider.2 := by
    decide +kernel
  rw [isPrintable, Bool.not_eq_true', Bool.eq_false_iff] at h
  rw [Bool.eq_false_iff]
  intro ending
  obtain ⟨range, member, above, below⟩ := inRanges_iff.1 ending
  obtain ⟨wider, member', lower, upper⟩ := inside range member
  exact h (inRanges_iff.2 ⟨wider, member', by omega, by omega⟩)

/-- Two printable texts are printable together. -/
lemma Printable.append (h : s.Printable) (h' : t.Printable) : Printable (s ++ t) :=
  List.forall_mem_append.2 ⟨h, h'⟩

/-- A printable text stays so with a printable character before it. -/
lemma Printable.cons (h : isPrintable c = true) (h' : s.Printable) : Printable (c :: s) :=
  List.forall_mem_cons.2 ⟨h, h'⟩

/-- A text of ASCII characters is printable. -/
lemma printable_of_ascii (h : s.all isAscii = true) : s.Printable :=
  fun c member => isPrintable_of_ascii (List.all_eq_true.1 h c member)

/-- A printable character is so however often it is written. -/
lemma printable_replicate (n : Nat) (h : isPrintable c = true) : Printable (List.replicate n c) := by
  intro d member
  rwa [List.eq_of_mem_replicate member]

/-- No character of a printable text ends a displayed line. -/
lemma Printable.not_isBreak (h : s.Printable) : ∀ c ∈ s, isBreak c = false :=
  fun c member => not_isBreak_of_isPrintable (h c member)

/-- A printable text holds no line feed. -/
lemma Printable.line_feed_not_mem (h : s.Printable) : '\n' ∉ s := by
  intro feed
  have inside := h.not_isBreak '\n' feed
  cases inside

/-- A digit is printable. -/
lemma isPrintable_of_isDigit (h : c.isDigit = true) : isPrintable c = true := by
  have range := Digit.range_of_isDigit h
  exact isPrintable_of_ascii (isAscii_iff.2 (by omega))

/-- The text of an integer is printable. -/
lemma printable_ofInt (n : Int) : Printable (ofInt n) := by
  intro c member
  obtain rfl | digit := mem_ofInt member
  · exact isPrintable_of_ascii rfl
  · exact isPrintable_of_isDigit digit

/-- A hexadecimal digit is printable. -/
lemma isPrintable_digitChar {n : Nat} (h : n < 16) : isPrintable (Nat.digitChar n) = true := by
  have ascii : ∀ n < 16, isAscii (Nat.digitChar n) = true := by decide
  exact isPrintable_of_ascii (ascii n h)

/-- A hexadecimal number is printable. -/
lemma printable_toDigits (n : Nat) : Printable (Nat.toDigits 16 n) := by
  induction n using Nat.strongRecOn with
  | ind n ih =>
    rw [Nat.toDigits_eq_if (by decide)]
    split
    case isTrue small => exact .cons (isPrintable_digitChar small) nofun
    case isFalse large =>
      have last := isPrintable_digitChar (Nat.mod_lt n (by decide : 16 > 0))
      exact (ih (n / 16) (by omega)).append (.cons last nofun)

/-- A hexadecimal number with zeros before it is printable. -/
lemma printable_hexadecimal (width n : Nat) : Printable (hexadecimal width n) :=
  (printable_replicate _ (isPrintable_of_ascii rfl)).append (printable_toDigits n)

/-- A character is written in quotes with printable characters. -/
lemma printable_quotedChar {quote : Char} (h : isPrintable quote = true) (c : Char) :
    Printable (quotedChar quote c) := by
  have backslash : isPrintable '\\' = true := isPrintable_of_ascii rfl
  unfold quotedChar
  split
  case isTrue same =>
    refine .cons backslash (.cons ?_ nofun)
    rcases same with rfl | rfl
    · exact h
    · exact backslash
  split
  case isTrue => exact printable_of_ascii rfl
  split
  case isTrue => exact printable_of_ascii rfl
  split
  case isTrue => exact printable_of_ascii rfl
  split
  case isTrue here => exact .cons here nofun
  -- what is not printable is written in digits, behind a letter that tells how many there are
  split
  case isTrue => exact (printable_of_ascii (s := ['\\', 'x']) rfl).append (printable_hexadecimal _ _)
  split
  case isTrue => exact (printable_of_ascii (s := ['\\', 'u']) rfl).append (printable_hexadecimal _ _)
  case isFalse => exact (printable_of_ascii (s := ['\\', 'U']) rfl).append (printable_hexadecimal _ _)

/-- A quoted text is printable, whatever the text holds. -/
theorem printable_quoted (s : Text) : Printable s.quoted := by
  have quote : isPrintable (quoteFor s) = true := by
    unfold quoteFor
    split <;> exact isPrintable_of_ascii rfl
  refine .append (.cons quote ?_) (.cons quote nofun)
  intro c member
  obtain ⟨d, -, inside⟩ := List.mem_flatMap.1 member
  exact printable_quotedChar quote d c inside

/-- All of these would end a line, or the quotes. -/
example : quoted "'\u0085\u2028\r\n".toList = "\"'\\x85\\u2028\\r\\n\"".toList := by
  decide +kernel

/-- A printable line in front of a text is its first line. -/
lemma lines_cons (h : s.Printable) (t : Text) : lines (s ++ '\n' :: t) = s :: lines t := by
  induction s with
  | nil => simp [lines]
  | cons c s ih =>
    obtain ⟨other, -⟩ := not_or.1 (mt List.mem_cons.2 h.line_feed_not_mem)
    have later := ih fun d member => h d (List.mem_cons_of_mem c member)
    rw [List.cons_append, lines, if_neg (Ne.symm other), later]

/-- A printable line that ends with a line feed is the first displayed line. -/
lemma broken_cons (h : s.Printable) (t : Text) : broken (s ++ '\n' :: t) = (s ++ ['\n']) :: broken t := by
  induction s with
  | nil => exact broken_of_isBreak rfl nofun
  | cons c s ih =>
    obtain ⟨here, later⟩ := List.forall_mem_cons.1 h.not_isBreak
    have rest := ih fun d member => h d (List.mem_cons_of_mem c member)
    rw [List.cons_append, broken_of_not_isBreak here, firstBroken, rest]
    rfl

/-- A printable line in front of a text is its first displayed line. -/
lemma displayedLines_cons (h : s.Printable) (t : Text) :
    displayedLines (s ++ '\n' :: t) = s :: displayedLines t := by
  have line := calc dropEndWhile isBreak (s ++ ['\n'])
      = dropEndWhile isBreak s := List.rdropWhile_concat_pos isBreak s '\n' rfl
    _ = s := dropEndWhile_of_forall h.not_isBreak
  rw [displayedLines, broken_cons h, List.map_cons, line]
  rfl

end Marktex.Text
