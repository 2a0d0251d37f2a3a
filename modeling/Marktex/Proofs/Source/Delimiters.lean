import Mathlib.Data.List.Infix
import Mathlib.Tactic.Lemma
import Marktex.Source.Segment

/-!
# First delimiters

A text is cut at the first place where the delimiter stands. What comes before the cut does not hold the
delimiter (`Text.not_infix_of_cut?`), and neither does a segment that reaches to the end because there is no
delimiter (`Segment.not_infix_text`). Conversely, a text is cut right behind `s` if the delimiter begins
nowhere in `s`, and `Text.First` says what that takes. For a delimiter of one repeated character it is enough
that `s` does not hold the delimiter and does not end with the character (`Text.First.run`).
-/

namespace Marktex

namespace Text

variable {delimiter s before after : Text}

/-- A text is not skipped exactly if it is not in front. -/
lemma skip?_eq_none_iff {lead : Text} : skip? lead s = none ↔ ¬ lead <+: s := by
  rw [Option.eq_none_iff_forall_ne_some]
  constructor
  · rintro none ⟨rest, whole⟩
    exact none rest (skip?_eq_some_iff.2 whole.symm)
  · intro other rest found
    exact other ⟨rest, (skip?_eq_some_iff.1 found).symm⟩

/-- Behind a text without it, a character is not met at once unless the text is empty. -/
lemma skip?_of_not_mem {d : Char} (lead r : Text) (h : d ∉ s) (some : s ≠ []) :
    skip? (d :: lead) (s ++ r) = none := by
  obtain ⟨c, s, rfl⟩ := List.exists_cons_of_ne_nil some
  exact if_neg (List.ne_of_not_mem_cons h)

/-- A lead is not met over a character that it does not have. -/
lemma skip?_append_cons {lead : Text} {c : Char} (h : c ∉ lead) (s t : Text) :
    skip? lead (s ++ c :: t) = (skip? lead s).map (· ++ c :: t) := by
  induction lead generalizing s with
  | nil => rfl
  | cons d lead ih =>
    rw [List.mem_cons, not_or] at h
    cases s with
    | nil => simp [skip?, Ne.symm h.1]
    | cons e s =>
      rw [List.cons_append, skip?, skip?, ih h.2]
      split <;> rfl

/-- A delimiter that occurs in a text cuts it. -/
lemma cut?_ne_none (h : delimiter <:+: s) (front : delimiter ≠ []) : cut? delimiter s ≠ none := by
  induction s with
  | nil => exact absurd (List.infix_nil.1 h) front
  | cons c s ih =>
    rw [cut?]
    split
    case h_1 => exact Option.some_ne_none _
    case h_2 nowhere =>
      rcases List.infix_cons_iff.1 h with here | later
      · exact absurd here (skip?_eq_none_iff.1 nowhere)
      · rw [Ne, Option.map_eq_none_iff]
        exact ih later

/-- A delimiter does not stand before the place where it first cuts a text. -/
lemma not_infix_of_cut? (h : cut? delimiter s = some (before, after)) (front : delimiter ≠ []) :
    ¬ delimiter <:+: before := by
  induction s generalizing before with
  | nil => cases h
  | cons c s ih =>
    rw [cut?] at h
    split at h
    case h_1 =>
      cases h
      exact fun inside => front (List.infix_nil.1 inside)
    case h_2 nowhere =>
      obtain ⟨⟨b, a⟩, later, same⟩ := Option.map_eq_some_iff.1 h
      cases same
      intro inside
      rcases List.infix_cons_iff.1 inside with here | inside
      · apply skip?_eq_none_iff.1 nowhere
        rw [append_of_cut? later, List.append_assoc, ← List.cons_append]
        exact here.trans (List.prefix_append _ _)
      · exact ih later inside

/-- A text is cut at a character that it holds. -/
lemma cut?_of_mem {c : Char} (member : c ∈ s) : (cut? [c] s).isSome = true := by
  rw [Option.isSome_iff_ne_none]
  apply cut?_ne_none
  · exact (List.singleton_infix_iff c s).2 member
  · exact List.cons_ne_nil c []

/-- A text is cut at the first occurrence of a character. -/
lemma not_mem_of_cut? {c : Char} (h : cut? [c] s = some (before, after)) : c ∉ before := by
  intro inside
  apply not_infix_of_cut? h (List.cons_ne_nil c [])
  exact (List.singleton_infix_iff c before).2 inside

/-- A delimiter behind `s` is the first one: it begins at no character of `s`. -/
def First (delimiter s : Text) : Prop :=
  ∀ t, t ≠ [] → t <:+ s → ¬ delimiter <+: t ++ delimiter

/-- What is first behind a text is first behind its rest. -/
lemma First.tail {c : Char} (h : First delimiter (c :: s)) : First delimiter s :=
  fun t some inside => h t some (inside.trans (List.suffix_cons c s))

/-- A text is cut at the first delimiter. -/
lemma First.cut? (h : First delimiter s) (front : delimiter ≠ []) (r : Text) :
    cut? delimiter (s ++ (delimiter ++ r)) = some (s, r) := by
  induction s with
  | nil =>
    obtain ⟨c, more, rfl⟩ := List.exists_cons_of_ne_nil front
    have here : skip? (c :: more) (c :: (more ++ r)) = some r := skip?_eq_some_iff.2 rfl
    rw [List.nil_append, List.cons_append, Text.cut?, here]
  | cons c s ih =>
    have nowhere : skip? delimiter (c :: (s ++ (delimiter ++ r))) = none := by
      rw [skip?_eq_none_iff]
      intro here
      apply h (c :: s) (List.cons_ne_nil c s) List.suffix_rfl
      apply List.prefix_of_prefix_length_le here
      · rw [← List.append_assoc, ← List.cons_append]
        exact List.prefix_append _ r
      · rw [List.length_append]
        exact Nat.le_add_left _ _
    rw [List.cons_append, Text.cut?, nowhere]
    simp [ih h.tail]

/-- A delimiter of one character is the first one if the character does not stand before it. -/
lemma First.single {c : Char} (h : c ∉ s) : First [c] s := by
  intro t some inside here
  obtain ⟨d, t, rfl⟩ := List.exists_cons_of_ne_nil some
  obtain ⟨rfl, -⟩ := List.cons_prefix_cons.1 here
  exact h (inside.mem List.mem_cons_self)

/-- A delimiter that repeats a character is the first one if it does not stand before itself and the
character does not stand right before it. -/
lemma First.run {n : Nat} {c : Char} (free : ¬ List.replicate n c <:+: s) (last : s.getLast? ≠ some c) :
    First (List.replicate n c) s := by
  intro t some inside here
  rcases Nat.le_total n t.length with long | short
  · apply free
    have front : List.replicate n c <+: t :=
      List.prefix_of_prefix_length_le here (List.prefix_append _ _) (by simpa using long)
    exact front.isInfix.trans inside.isInfix
  · -- all of `t` would belong to the delimiter, and so would its last character
    have front : t <+: List.replicate n c :=
      List.prefix_of_prefix_length_le (List.prefix_append _ _) here (by simpa using short)
    obtain ⟨d, found⟩ := Option.ne_none_iff_exists'.1 (mt List.getLast?_eq_none_iff.1 some)
    obtain rfl : d = c := List.eq_of_mem_replicate (front.mem (List.mem_of_getLast? found))
    obtain ⟨more, rfl⟩ := inside
    rw [List.getLast?_append, found] at last
    exact last rfl

/-- A text without the delimiter in it is what stands before the delimiter. -/
lemma cut?_of_not_mem {d : Char} (r : Text) (h : d ∉ s) : cut? [d] (s ++ d :: r) = some (s, r) :=
  (First.single h).cut? (List.cons_ne_nil d []) r

end Text

namespace Segment

/-- A segment does not hold its delimiter, whether the delimiter was found or not. -/
lemma not_infix_text {delimiter : Text} (s : Text) (front : delimiter ≠ []) :
    ¬ delimiter <:+: (upTo delimiter s).text := by
  cases found : Text.cut? delimiter s with
  | some parts =>
    simp only [upTo, found]
    exact Text.not_infix_of_cut? found front
  | none =>
    simp only [upTo, found]
    exact fun inside => Text.cut?_ne_none inside front found

/-- The text up to a character does not hold that character. -/
lemma not_mem_text (d : Char) (s : Text) : d ∉ (upTo [d] s).text := by
  intro inside
  apply not_infix_text s (List.cons_ne_nil d [])
  exact (List.singleton_infix_iff d _).2 inside

/-- A segment is closed only by a delimiter that stands in the source. -/
lemma infix_of_closed {delimiter s : Text} (h : (upTo delimiter s).closed = true) : delimiter <:+: s := by
  cases found : Text.cut? delimiter s with
  | none => simp [upTo, found] at h
  | some parts => exact ⟨parts.1, parts.2, (Text.append_of_cut? found).symm⟩

/-- A text is read up to a delimiter that comes first behind it. -/
lemma upTo_of_first {delimiter s : Text} (h : Text.First delimiter s) (front : delimiter ≠ []) (r : Text) :
    upTo delimiter (s ++ (delimiter ++ r)) = ⟨s, s ++ delimiter, r, true⟩ := by
  simp only [upTo, h.cut? front r]

/-- A segment up to a delimiter that does not occur in its text. -/
lemma upTo_of_not_mem {d : Char} {s : Text} (r : Text) (h : d ∉ s) :
    upTo [d] (s ++ d :: r) = ⟨s, s ++ [d], r, true⟩ :=
  upTo_of_first (.single h) (List.cons_ne_nil d []) r

end Segment

end Marktex
