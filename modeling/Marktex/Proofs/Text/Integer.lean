import Mathlib.Algebra.Group.Nat.Defs
import Mathlib.Tactic.Lemma
import Marktex.Text.Digit

/-!
# Integers as texts

An integer whose digits are not more than may be read is read back from its text
(`Text.integer?_ofInt`): the text is digits only, with a minus sign in front if it is negative, so that
there is nothing to trim and no underscore to pass. An integer that counts characters is never too long to be
written (`Text.isShort_of_le`).
-/

namespace Marktex

section

variable {ε α β : Type} {x : Except ε α} {b : β}

/-- What comes of a step with its result changed comes of the step. -/
lemma Except.map_eq_ok {f : α → β} : x.map f = .ok b ↔ ∃ a, x = .ok a ∧ f a = b := by
  cases x with
  | error e => simp [Except.map]
  | ok a => simp [Except.map]

/-- A step goes well with its result changed exactly if it goes well. -/
lemma Except.map_isOk {f : α → β} : (x.map f).isOk = x.isOk := by
  cases x <;> rfl

end

/-- The first run of digits is that of the characters that integers are written with. -/
lemma Digit.range_of_isDigit {c : Char} (h : c.isDigit = true) : 48 ≤ c.toNat ∧ c.toNat < 58 :=
  (Char.isDigit_iff_toNat.1 h).imp_right Nat.lt_succ_of_le

/-- A digit from 0 to 9 stands for its distance from 0. -/
lemma Digit.value?_of_isDigit {c : Char} (h : c.isDigit = true) :
    value? c = some (c.toNat - '0'.toNat) := by
  simp [value?, zeros, range_of_isDigit h]

namespace Text

/-- Where no character is blank there is nothing to trim. -/
lemma dropWhile_of_forall {p : Char → Bool} {s : Text} (h : ∀ c ∈ s, p c = false) :
    s.dropWhile p = s := by
  cases s with
  | nil => rfl
  | cons c s => exact List.dropWhile_cons_of_neg (by simp [h c List.mem_cons_self])

/-- Where nothing is to be dropped there is nothing to trim at the end. -/
lemma dropEndWhile_of_forall {p : Char → Bool} {s : Text} (h : ∀ c ∈ s, p c = false) :
    dropEndWhile p s = s := by
  have reversed : ∀ c ∈ s.reverse, p c = false := fun c member => h c (List.mem_reverse.1 member)
  rw [dropEndWhile, dropWhile_of_forall reversed, List.reverse_reverse]

/-- A digit is no blank. -/
lemma isNumberBlank_of_isDigit {c : Char} (h : c.isDigit = true) : isNumberBlank c = false := by
  have range := Digit.range_of_isDigit h
  simp only [isNumberBlank, isBlank, inRanges, blankRanges, List.any_cons, List.any_nil]
  simp
  omega

/-- Digits without underscores are read one by one. -/
lemma digits?_of_isDigit {s : Text} (h : ∀ c ∈ s, c.isDigit = true) (front : s ≠ []) :
    digits? s = some (s.map fun c => c.toNat - '0'.toNat) := by
  fun_induction digits? s with
  | case1 => exact absurd rfl front
  | case2 c => simp [Digit.value?_of_isDigit (h c List.mem_cons_self)]
  | case3 c r _ =>
    -- an underscore would be a digit
    have digit := h '_' (List.mem_cons_of_mem c List.mem_cons_self)
    cases digit
  | case4 c r more _ ih =>
    obtain ⟨first, later⟩ := List.forall_mem_cons.1 h
    simp [Digit.value?_of_isDigit first, ih later more]

/-- A number is read from its digits. -/
lemma natural?_toDigits {n : Nat} (h : n < 10 ^ digitLimit) : natural? (Nat.toDigits 10 n) = some n := by
  have digits : ∀ c ∈ Nat.toDigits 10 n, c.isDigit = true := fun c member =>
    Nat.isDigit_of_mem_toDigits (by decide) (by decide) member
  have short : (Nat.toDigits 10 n).length ≤ digitLimit :=
    (Nat.length_toDigits_le_iff (by decide) (by decide)).2 h
  have value : Digit.number ((Nat.toDigits 10 n).map fun c => c.toNat - '0'.toNat) = n := by
    rw [Digit.number, List.foldl_map]
    exact Nat.ofDigitChars_toDigits (by decide) (by decide)
  rw [natural?, digits?_of_isDigit digits Nat.toDigits_ne_nil, Option.bind_some, List.length_map,
    if_pos short, value]

/-- The text of an integer is digits, with a minus sign at most. -/
lemma mem_ofInt {n : Int} {c : Char} (h : c ∈ ofInt n) : c = '-' ∨ c.isDigit = true := by
  have digits : c ∈ Nat.toDigits 10 n.natAbs → c.isDigit = true := fun member =>
    Nat.isDigit_of_mem_toDigits (by decide) (by decide) member
  unfold ofInt at h
  split at h
  · exact (List.mem_cons.1 h).imp_right digits
  · exact .inr (digits h)

/-- An integer is read from its text. -/
theorem integer?_ofInt {n : Int} (h : n.natAbs < 10 ^ digitLimit) : integer? (ofInt n) = some n := by
  have solid : ∀ c ∈ ofInt n, isNumberBlank c = false := by
    intro c member
    obtain rfl | digit := mem_ofInt member
    · decide
    · exact isNumberBlank_of_isDigit digit
  rw [integer?, dropWhile_of_forall solid, dropEndWhile_of_forall solid]
  by_cases sign : n < 0
  · have value : -(n.natAbs : Int) = n := by omega
    simp only [ofInt, if_pos sign, natural?_toDigits h]
    exact congrArg some value
  · have value : (n.natAbs : Int) = n := by omega
    have digits : ∀ c ∈ Nat.toDigits 10 n.natAbs, c.isDigit = true := fun c member =>
      Nat.isDigit_of_mem_toDigits (by decide) (by decide) member
    rw [ofInt, if_neg sign]
    split
    case h_1 r front =>
      -- the minus sign would be a digit
      cases digits '-' (front ▸ List.mem_cons_self)
    case h_2 r front => cases digits '+' (front ▸ List.mem_cons_self)
    case h_3 =>
      rw [natural?_toDigits h]
      exact congrArg some value

/-- An integer with few enough digits is written. -/
lemma written_of_isShort {n : Int} (h : isShort n = true) : written n = .ok (ofInt n) :=
  if_pos h

/-- Only a number of too many digits is not written. -/
lemma written_isOk (n : Int) : (written n).isOk = isShort n := by
  unfold written
  split
  case isTrue short => rw [short]; rfl
  case isFalse long => rw [Bool.not_eq_true] at long; rw [long]; rfl

/-- Numbers that count the characters of a text have few enough digits. -/
lemma isShort_of_le {n : Int} (nonneg : 0 ≤ n) (le : n ≤ indexLimit + 1) : isShort n = true := by
  have few : n.natAbs < Nat.pow 10 20 := by
    rw [indexLimit] at le
    rw [show Nat.pow 10 20 = 100000000000000000000 from rfl]
    omega
  have limit : 20 ≤ digitLimit := by decide
  rw [isShort, decide_eq_true_iff]
  -- the limit is not to be evaluated
  generalize digitLimit = m at limit
  exact Nat.lt_of_lt_of_le few (Nat.pow_le_pow_right (by decide) limit)

end Text

end Marktex
