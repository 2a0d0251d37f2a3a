import Mathlib.Computability.Language
import Marktex.Proofs.Text.Parts

/-!
# Patterns

A pattern is the set of the texts that it fits, made from patterns for one character by the operations on
languages. The operations on texts are made for patterns of a certain form. Taking a character away at either
end is what an optional character there asks for (`Pattern.mem_optional_ends_iff`), splitting goes with
repetition between separators (`Pattern.mem_separated_iff`), and trimming with blanks around a pattern
(`Pattern.mem_padded_iff`).

Whether a pattern that begins with characters fits a text is decided by the first character; for these there
are lemmas for the empty text and for a text with a first character.
-/

namespace Marktex

open scoped Computability

/-- A pattern is the set of the texts that it fits. -/
abbrev Pattern := Language Char

namespace Pattern

/-- One character that satisfies `p`. -/
def oneOf (p : Char → Bool) : Pattern :=
  {s | ∃ c, p c = true ∧ s = [c]}

/-- The character `c`. -/
abbrev literal (c : Char) : Pattern :=
  oneOf (· == c)

/-- A text of the pattern, or nothing. -/
def optional (l : Pattern) : Pattern :=
  1 + l

/-- Texts of the pattern, at least one, with the character `d` between two of them. -/
def separated (d : Char) (l : Pattern) : Pattern :=
  l * (literal d * l)∗

/-- A text of the pattern, with any number of blanks on either side. -/
def padded (l : Pattern) : Pattern :=
  (oneOf Text.isBlank)∗ * l * (oneOf Text.isBlank)∗

/-- All characters of the texts that the pattern fits satisfy `p`. -/
def Uses (l : Pattern) (p : Char → Prop) : Prop :=
  ∀ s ∈ l, ∀ c ∈ s, p c

variable {p : Char → Bool} {q : Char → Prop} {l m : Pattern} {c d : Char} {s : Text}

section FirstCharacter

/-- The empty pattern fits no character. -/
lemma cons_notMem_one : c :: s ∉ (1 : Pattern) :=
  nofun

/-- A pattern that begins with a character does not fit the empty text. -/
lemma nil_notMem_oneOf_mul : [] ∉ oneOf p * l := by
  rintro ⟨a, ⟨c, -, rfl⟩, b, -, nothing⟩
  cases nothing

/-- A pattern that begins with a character fits if the character does and what follows it fits the rest. -/
lemma cons_mem_oneOf_mul : c :: s ∈ oneOf p * l ↔ p c = true ∧ s ∈ l := by
  rw [Language.mem_mul]
  constructor
  · rintro ⟨_, ⟨d, fits, rfl⟩, b, rest, whole⟩
    obtain ⟨rfl, rfl⟩ := List.cons.inj whole
    exact ⟨fits, rest⟩
  · rintro ⟨fits, rest⟩
    exact ⟨[c], ⟨c, fits, rfl⟩, s, rest, rfl⟩

/-- An optional pattern fits the empty text. -/
lemma nil_mem_optional : [] ∈ optional l :=
  .inl Language.nil_mem_one

/-- An optional pattern fits a text that is not empty only as the pattern does. -/
lemma cons_mem_optional : c :: s ∈ optional l ↔ c :: s ∈ l := by
  rw [optional, Language.mem_add, or_iff_right cons_notMem_one]

/-- An optional pattern before another one is there or it is not. -/
lemma optional_mul (l m : Pattern) : optional l * m = m + l * m := by
  rw [optional, add_mul, one_mul]

/-- An optional character is not there in the empty text. -/
lemma nil_mem_optional_mul : [] ∈ optional (oneOf p) * l ↔ [] ∈ l := by
  rw [optional_mul, Language.mem_add, or_iff_left nil_notMem_oneOf_mul]

/-- An optional character is not there, or it is the first one. -/
lemma cons_mem_optional_mul : c :: s ∈ optional (oneOf p) * l ↔ c :: s ∈ l ∨ p c = true ∧ s ∈ l := by
  rw [optional_mul, Language.mem_add, cons_mem_oneOf_mul]

/-- Repetitions before a pattern are none, or one and then repetitions. -/
lemma many_mul (l m : Pattern) : l∗ * m = m + l * (l∗ * m) := by
  nth_rewrite 1 [← Language.one_add_self_mul_kstar_eq_kstar l]
  rw [add_mul, one_mul, mul_assoc]

/-- There are no repetitions of a character in the empty text. -/
lemma nil_mem_many_mul : [] ∈ (oneOf p)∗ * l ↔ [] ∈ l := by
  rw [many_mul, Language.mem_add, or_iff_left nil_notMem_oneOf_mul]

/-- The repetitions of a character are over, or the first character is one of them. -/
lemma cons_mem_many_mul :
    c :: s ∈ (oneOf p)∗ * l ↔ c :: s ∈ l ∨ p c = true ∧ s ∈ (oneOf p)∗ * l := by
  nth_rewrite 1 [many_mul]
  rw [Language.mem_add, cons_mem_oneOf_mul]

/-- Repetitions of a character fit exactly the texts of which all characters do. -/
lemma mem_many_iff : s ∈ (oneOf p)∗ ↔ ∀ c ∈ s, p c = true := by
  rw [← mul_one (oneOf p)∗]
  induction s with
  | nil => exact iff_of_true (nil_mem_many_mul.2 Language.nil_mem_one) nofun
  | cons c s ih => rw [cons_mem_many_mul, or_iff_right cons_notMem_one, ih, List.forall_mem_cons]

end FirstCharacter

namespace Uses

/-- A character of a class is written with the characters of the class. -/
lemma oneOf (h : ∀ c, p c = true → q c) : (oneOf p).Uses q := by
  rintro _ ⟨c, fits, rfl⟩
  exact List.forall_mem_singleton.2 (h c fits)

/-- A literal is written with its character. -/
lemma literal (h : q c) : (literal c).Uses q := by
  refine oneOf fun d same => ?_
  rwa [beq_iff_eq.1 same]

/-- An optional pattern is written with the characters of the pattern. -/
lemma optional (h : l.Uses q) : l.optional.Uses q := by
  rintro s (nothing | fits)
  · obtain rfl := (Language.mem_one s).1 nothing
    exact nofun
  · exact h s fits

/-- Two patterns in turn are written with the characters of both. -/
lemma mul (h : l.Uses q) (h' : m.Uses q) : Uses (l * m) q := by
  rintro _ ⟨s, fits, t, fits', rfl⟩
  exact List.forall_mem_append.2 ⟨h s fits, h' t fits'⟩

/-- Repetitions are written with the characters of the pattern. -/
lemma many (h : l.Uses q) : Uses l∗ q := by
  rintro _ ⟨pieces, rfl, fit⟩ c member
  obtain ⟨piece, inside, here⟩ := List.mem_flatten.1 member
  exact h piece (fit piece inside) c here

end Uses

section Ends

/-- Whether a character may stand in front of a text shows when it is taken away. -/
lemma mem_optional_mul_iff (other : ∀ r, d :: r ∉ l) :
    s ∈ optional (literal d) * l ↔ Text.withoutFirst d s ∈ l := by
  cases s with
  | nil => exact nil_mem_optional_mul
  | cons c s =>
    rw [cons_mem_optional_mul, Text.withoutFirst, beq_iff_eq]
    split
    case isTrue same =>
      subst same
      rw [or_iff_right (other s), and_iff_right rfl]
    case isFalse apart => rw [or_iff_left fun both => apart both.1]

/-- A pattern that ends with a literal fits if the last character is the literal and the pattern fits what
is before. -/
lemma concat_mem_mul_literal : s ++ [c] ∈ l * literal d ↔ s ∈ l ∧ c = d := by
  rw [Language.mem_mul]
  constructor
  · rintro ⟨a, fits, _, ⟨e, same, rfl⟩, whole⟩
    obtain ⟨rfl, last⟩ := List.append_inj' whole rfl
    obtain rfl := List.singleton_inj.1 last
    exact ⟨fits, beq_iff_eq.1 same⟩
  · rintro ⟨fits, rfl⟩
    exact ⟨s, fits, [c], ⟨c, beq_self_eq_true c, rfl⟩, rfl⟩

/-- Whether a character may stand behind a text shows when it is taken away. -/
lemma mem_mul_optional_iff (other : ∀ r, r ++ [d] ∉ l) :
    s ∈ l * optional (literal d) ↔ Text.withoutLast d s ∈ l := by
  rw [optional, mul_add, mul_one, Language.mem_add]
  induction s using List.reverseRecOn with
  | nil =>
    refine or_iff_left ?_
    rintro ⟨a, -, _, ⟨e, -, rfl⟩, nothing⟩
    exact List.concat_ne_nil e a nothing
  | append_singleton s c _ =>
    rw [concat_mem_mul_literal, Text.withoutLast_concat]
    split
    case isTrue same =>
      subst same
      rw [or_iff_right (other s), and_iff_left rfl]
    case isFalse apart => rw [or_iff_left fun both => apart both.2]

/-- Where a character may stand on either side, the pattern fits what is left without the two. A text that is
this character only has it in front and not behind, too. -/
lemma mem_optional_ends_iff (some : [] ∉ l) (front : ∀ r, d :: r ∉ l) (back : ∀ r, r ++ [d] ∉ l) :
    s ∈ optional (literal d) * l * optional (literal d) ↔
      Text.withoutLast d (Text.withoutFirst d s) ∈ l := by
  have front' : ∀ r, d :: r ∉ l * optional (literal d) := by
    rintro r ⟨a, fits, b, -, whole⟩
    cases a with
    | nil => exact some fits
    | cons c a =>
      obtain ⟨rfl, -⟩ := List.cons.inj whole
      exact front a fits
  rw [mul_assoc, mem_optional_mul_iff front', mem_mul_optional_iff back]

end Ends

section Separated

/-- Parts with separators are one part, or one part, a separator and parts with separators. -/
lemma separated_eq (d : Char) (l : Pattern) : separated d l = l + l * (literal d * separated d l) := by
  nth_rewrite 1 [separated]
  rw [← Language.one_add_self_mul_kstar_eq_kstar, mul_add, mul_one, mul_assoc (literal d), separated]

/-- Parts that fit, joined by the separator, fit parts with separators. -/
lemma join_mem_separated {parts : List Text} (some : parts ≠ []) (fit : ∀ part ∈ parts, part ∈ l) :
    Text.join [d] parts ∈ separated d l := by
  induction parts with
  | nil => exact absurd rfl some
  | cons part parts ih =>
    obtain ⟨first, later⟩ := List.forall_mem_cons.1 fit
    rw [separated_eq, Language.mem_add]
    cases parts with
    | nil => exact .inl (by simpa [Text.join] using first)
    | cons next parts =>
      have more := ih (List.cons_ne_nil next parts) later
      rw [Text.join, List.intercalate_cons_cons, List.append_assoc]
      exact .inr ⟨part, first, _, cons_mem_oneOf_mul.2 ⟨beq_self_eq_true d, more⟩, rfl⟩

/-- Texts of a pattern are separated in a text exactly if the parts that it is split into are such texts. -/
lemma mem_separated_iff (plain : l.Uses (· ≠ d)) :
    s ∈ separated d l ↔ ∀ part ∈ Text.split d s, part ∈ l := by
  have alone : ∀ t ∈ l, ∀ part ∈ Text.split d t, part ∈ l := by
    intro t fits
    rw [Text.split_of_not_mem fun member => plain t fits d member rfl]
    exact List.forall_mem_singleton.2 fits
  constructor
  · rintro ⟨first, fits, _, ⟨pieces, rfl, all⟩, rfl⟩
    -- each further piece is a separator with a text of the pattern behind it
    induction pieces generalizing first with
    | nil =>
      show ∀ part ∈ Text.split d (first ++ []), part ∈ l
      rw [List.append_nil]
      exact alone first fits
    | cons piece pieces ih =>
      obtain ⟨⟨_, ⟨e, same, rfl⟩, t, next, rfl⟩, later⟩ := List.forall_mem_cons.1 all
      obtain rfl := beq_iff_eq.1 same
      show ∀ part ∈ Text.split e (first ++ e :: (t ++ pieces.flatten)), part ∈ l
      rw [Text.split_append_cons]
      exact List.forall_mem_append.2 ⟨alone first fits, ih t next later⟩
  · intro parts
    rw [← Text.join_split d s]
    exact join_mem_separated (Text.split_ne_nil d s) parts

variable (plain : l.Uses (· ≠ d)) (some : [] ∉ l)
include plain some

/-- Parts with separators are not empty if no part is. -/
lemma nil_notMem_separated : [] ∉ separated d l := by
  rw [mem_separated_iff plain]
  exact fun parts => some (parts [] List.mem_cons_self)

/-- No separator stands in front of separated texts. -/
lemma cons_notMem_separated (s : Text) : d :: s ∉ separated d l := by
  rw [mem_separated_iff plain]
  intro parts
  refine some (parts [] ?_)
  rw [← List.nil_append (d :: s), Text.split_append_cons]
  exact List.mem_append_left _ List.mem_cons_self

/-- No separator stands behind separated texts. -/
lemma concat_notMem_separated (s : Text) : s ++ [d] ∉ separated d l := by
  rw [mem_separated_iff plain]
  intro parts
  refine some (parts [] ?_)
  rw [Text.split_append_cons]
  exact List.mem_append_right _ List.mem_cons_self

end Separated

/-- A text of a pattern stands between blanks exactly if it is what trimming leaves. -/
lemma mem_padded_iff (trimmed : ∀ t ∈ l, Text.trim t = t) : s ∈ padded l ↔ Text.trim s ∈ l := by
  constructor
  · rintro ⟨_, ⟨front, before, t, fits, rfl⟩, back, behind, rfl⟩
    rw [Text.trim_between (mem_many_iff.1 before) t (mem_many_iff.1 behind), trimmed t fits]
    exact fits
  · intro fits
    obtain ⟨front, back, before, behind, whole⟩ := Text.exists_trim s
    rw [← whole]
    exact ⟨_, ⟨front, mem_many_iff.2 before, _, fits, rfl⟩, back, mem_many_iff.2 behind, rfl⟩

end Pattern

end Marktex
