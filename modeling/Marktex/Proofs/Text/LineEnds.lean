import Mathlib.Data.List.Forall2
import Mathlib.Data.Option.Basic
import Marktex.Proofs.Text.Parts

/-!
# Line ends

Two texts have the same lines if they differ at most in how their lines end: with a line feed, or with a
carriage return and a line feed (`Text.SameLines`). Texts with the same lines are cut and trimmed in the
same places, and what comes out has the same lines again. A lone line lets go of its carriage return when
it is trimmed (`Text.trim_concat_return`).
-/

namespace Marktex

/-- Related results stay related when they are changed in related ways. -/
lemma optionRel_map {α β γ δ : Type} {R : α → β → Prop} {S : γ → δ → Prop} {f : α → γ} {g : β → δ}
    {x : Option α} {y : Option β} (h : Option.Rel R x y) (step : ∀ a b, R a b → S (f a) (g b)) :
    Option.Rel S (x.map f) (y.map g) := by
  cases h with
  | some one => exact .some (step _ _ one)
  | none => exact .none

/-- Related results are there or missing at the same time. -/
lemma optionRel_cases {α β : Type} {R : α → β → Prop} {x : Option α} {y : Option β}
    (h : Option.Rel R x y) :
    x = none ∧ y = none ∨ ∃ a b, x = some a ∧ y = some b ∧ R a b := by
  cases h with
  | some one => exact .inr ⟨_, _, rfl, rfl, one⟩
  | none => exact .inl ⟨rfl, rfl⟩

namespace Text

/-- The text with a carriage return before each line feed. -/
def toCrlf (s : Text) : Text :=
  s.flatMap fun c => if c = '\n' then ['\r', '\n'] else [c]

/-- The text without the carriage returns that stand right before line feeds. -/
def ofCrlf : Text → Text
  | [] => []
  | '\r' :: '\n' :: r => '\n' :: ofCrlf r
  | c :: r => c :: ofCrlf r

/-- The same lines: in the first text they end with line feeds, in the second one with line feeds that may
have carriage returns before them. Carriage returns stand nowhere else. -/
inductive SameLines : Text → Text → Prop where
  | nil :
    SameLines [] []
  | cons {c s t} :
    c ≠ '\r' →
    SameLines s t →
    SameLines (c :: s) (c :: t)
  | pair {s t} :
    SameLines s t →
    SameLines ('\n' :: s) ('\r' :: '\n' :: t)

/-- The same line, with or without a carriage return at its end. -/
def SameLine (s t : Text) : Prop :=
  t = s ∨ t = s ++ ['\r']

/-- Dropping from the end begins with the last character. -/
lemma dropEndWhile_concat (p : Char → Bool) (s : Text) (c : Char) :
    dropEndWhile p (s ++ [c]) = if p c then dropEndWhile p s else s ++ [c] :=
  List.rdropWhile_concat p s c

namespace SameLine

variable {s t : Text}

/-- Lines that differ in their line end at most do so with a character before them. -/
lemma cons (c : Char) (h : SameLine s t) : SameLine (c :: s) (c :: t) := by
  obtain rfl | rfl := h
  · exact .inl rfl
  · exact .inr rfl

/-- A character that goes in front of the first line. -/
lemma cons_head (c : Char) {ls ms : List Text} :
    List.Forall₂ SameLine ls ms →
    List.Forall₂ SameLine (match ls with | [] => [[c]] | l :: ls => (c :: l) :: ls)
      (match ms with | [] => [[c]] | m :: ms => (c :: m) :: ms) := by
  intro h
  cases h with
  | nil => exact .cons (.inl rfl) .nil
  | cons line more => exact .cons (line.cons c) more

/-- A line is the same when it is trimmed. -/
lemma trim_eq (h : SameLine s t) : t.trim = s.trim := by
  obtain rfl | rfl := h
  · rfl
  · exact trim_concat_of_isBlank s rfl

/-- Lines that differ in their line end at most do so without their first characters. -/
lemma drop (h : SameLine s t) : SameLine (s.drop 1) (t.drop 1) := by
  obtain rfl | rfl := h
  · exact .inl rfl
  · cases s with
    | nil => exact .inl rfl
    | cons c s => exact .inr rfl

/-- What does not change with the end of a line is the same for the same lines. -/
lemma map_eq {α : Type} {f : Text → α} {ls ms : List Text} (h : List.Forall₂ SameLine ls ms)
    (same : ∀ l m, SameLine l m → f m = f l) : ms.map f = ls.map f := by
  induction h with
  | nil => rfl
  | cons line _ ih => rw [List.map_cons, List.map_cons, same _ _ line, ih]

end SameLine

namespace SameLines

variable {s s' t t' : Text}

/-- A text without a carriage return has its own lines. -/
lemma refl (h : '\r' ∉ s) : SameLines s s := by
  induction s with
  | nil => exact .nil
  | cons c s ih =>
    rw [List.mem_cons, not_or] at h
    exact .cons (Ne.symm h.1) (ih h.2)

/-- Carriage returns stand only in the second text. -/
lemma return_not_mem (h : SameLines s t) : '\r' ∉ s := by
  induction h with
  | nil => exact List.not_mem_nil
  | cons other _ ih => exact List.not_mem_cons_of_ne_of_not_mem (Ne.symm other) ih
  | pair _ ih => exact List.not_mem_cons_of_ne_of_not_mem (by decide) ih

/-- Parts of the first text have their own lines. -/
lemma refl_of_subset (h : SameLines s t) {part : Text} (inside : part ⊆ s) : SameLines part part :=
  .refl fun member => h.return_not_mem (inside member)

/-- Texts with the same lines are put together to texts with the same lines. -/
lemma append (h : SameLines s t) (h' : SameLines s' t') : SameLines (s ++ s') (t ++ t') := by
  induction h with
  | nil => exact h'
  | cons other _ ih => exact .cons other ih
  | pair _ ih => exact .pair ih

/-- A text has the lines that it has with carriage returns. -/
lemma toCrlf (h : '\r' ∉ s) : SameLines s s.toCrlf := by
  induction s with
  | nil => exact .nil
  | cons c s ih =>
    rw [List.mem_cons, not_or] at h
    rw [Text.toCrlf, List.flatMap_cons]
    split
    case isTrue feed =>
      subst feed
      exact .pair (ih h.2)
    case isFalse => exact .cons (Ne.symm h.1) (ih h.2)

/-- Without its carriage returns, the second text is the first one. -/
lemma ofCrlf_eq (h : SameLines s t) : t.ofCrlf = s := by
  induction h with
  | nil => rfl
  | cons other _ ih =>
    rw [Text.ofCrlf, ih]
    intro r carriage _
    exact other carriage
  | pair _ ih => rw [Text.ofCrlf, ih]

/-- Only the empty text has the lines of the empty text. -/
lemma eq_nil (h : SameLines [] t) : t = [] := by
  cases h
  rfl

/-- A text with the lines of one that is not empty is not empty. -/
lemma exists_cons {c : Char} (h : SameLines (c :: s) t) : ∃ d r, t = d :: r := by
  cases h <;> exact ⟨_, _, rfl⟩

/-- Texts with the same lines begin with the same character, if the first does not begin with a line feed.
-/
lemma cons_inv {c : Char} (h : SameLines (c :: s) t) (other : c ≠ '\n') :
    ∃ r, t = c :: r ∧ SameLines s r := by
  cases h with
  | cons _ rest => exact ⟨_, rfl, rest⟩
  | pair => exact absurd rfl other

/-- How two texts with the same lines end. -/
lemma concat_cases (h : SameLines s t) :
    s = [] ∧ t = [] ∨
      (∃ s' t' c, s = s' ++ [c] ∧ t = t' ++ [c] ∧ c ≠ '\r' ∧ SameLines s' t') ∨
      ∃ s' t', s = s' ++ ['\n'] ∧ t = t' ++ ['\r', '\n'] ∧ SameLines s' t' := by
  induction h with
  | nil => exact .inl ⟨rfl, rfl⟩
  | @cons c _ _ other _ ih =>
    obtain ⟨rfl, rfl⟩ | ⟨s', t', d, rfl, rfl, last, rest⟩ | ⟨s', t', rfl, rfl, rest⟩ := ih
    · exact .inr (.inl ⟨[], [], c, rfl, rfl, other, .nil⟩)
    · exact .inr (.inl ⟨c :: s', c :: t', d, rfl, rfl, last, .cons other rest⟩)
    · exact .inr (.inr ⟨c :: s', c :: t', rfl, rfl, .cons other rest⟩)
  | pair _ ih =>
    obtain ⟨rfl, rfl⟩ | ⟨s', t', d, rfl, rfl, last, rest⟩ | ⟨s', t', rfl, rfl, rest⟩ := ih
    · exact .inr (.inr ⟨[], [], rfl, rfl, .nil⟩)
    · exact .inr (.inl ⟨'\n' :: s', '\r' :: '\n' :: t', d, rfl, rfl, last, .pair rest⟩)
    · exact .inr (.inr ⟨'\n' :: s', '\r' :: '\n' :: t', rfl, rfl, .pair rest⟩)

/-- Induction from the end of two texts with the same lines. -/
lemma reverse_rec {motive : ∀ s t, SameLines s t → Prop} (nil : motive [] [] .nil)
    (concat : ∀ {s t c} (other : c ≠ '\r') (rest : SameLines s t), motive s t rest →
      motive (s ++ [c]) (t ++ [c]) (rest.append (.cons other .nil)))
    (pair : ∀ {s t} (rest : SameLines s t), motive s t rest →
      motive (s ++ ['\n']) (t ++ ['\r', '\n']) (rest.append (.pair .nil)))
    (h : SameLines s t) : motive s t h := by
  induction size : s.length generalizing s t with
  | zero =>
    obtain rfl := List.length_eq_zero_iff.1 size
    cases h
    exact nil
  | succ n ih =>
    obtain ⟨rfl, rfl⟩ | ⟨s', t', c, rfl, rfl, other, rest⟩ | ⟨s', t', rfl, rfl, rest⟩ := h.concat_cases
    · cases size
    · exact concat other rest (ih rest (by simpa using size))
    · exact pair rest (ih rest (by simpa using size))

/-- Texts with the same lines end with a line feed alike. -/
lemma getLast?_iff (h : SameLines s t) : t.getLast? = some '\n' ↔ s.getLast? = some '\n' := by
  obtain ⟨rfl, rfl⟩ | ⟨s', t', c, rfl, rfl, -, -⟩ | ⟨s', t', rfl, rfl, -⟩ := h.concat_cases
  · rfl
  · simp
  · simp

/-- A lead that does not reach over a line end is met in both texts or in none. -/
lemma skip? (lead : Text) (feed : '\n' ∉ lead) (carriage : '\r' ∉ lead) (h : SameLines s t) :
    Option.Rel SameLines (Text.skip? lead s) (Text.skip? lead t) := by
  induction lead generalizing s t with
  | nil => exact .some h
  | cons d lead ih =>
    rw [List.mem_cons, not_or] at feed carriage
    cases h with
    | nil => exact .none
    | @cons c _ _ _ rest =>
      by_cases same : d = c
      · simpa [Text.skip?, same] using ih feed.2 carriage.2 rest
      · simp [Text.skip?, same]
    | pair => simp [Text.skip?, Ne.symm feed.1, Ne.symm carriage.1]

/-- A delimiter that does not reach over a line end cuts both texts or none. -/
lemma cut? {delimiter : Text} (front : delimiter ≠ []) (feed : '\n' ∉ delimiter)
    (carriage : '\r' ∉ delimiter) (h : SameLines s t) :
    Option.Rel (fun p q => SameLines p.1 q.1 ∧ SameLines p.2 q.2) (Text.cut? delimiter s)
      (Text.cut? delimiter t) := by
  obtain ⟨d, delimiter, rfl⟩ := List.exists_cons_of_ne_nil front
  induction h with
  | nil => exact .none
  | @cons c s t other rest ih =>
    have here := SameLines.skip? (d :: delimiter) feed carriage (.cons other rest)
    rw [Text.cut?, Text.cut?]
    obtain ⟨found, found'⟩ | ⟨after, after', found, found', same⟩ := optionRel_cases here
    · rw [found, found']
      exact optionRel_map ih fun _ _ sides => ⟨.cons other sides.1, sides.2⟩
    · rw [found, found']
      exact .some ⟨.nil, same⟩
  | @pair s t rest ih =>
    -- the delimiter starts neither at the carriage return nor at the line feed
    rw [List.mem_cons, not_or] at feed carriage
    have first : Text.skip? (d :: delimiter) ('\n' :: s) = none := by
      simp [Text.skip?, Ne.symm feed.1]
    have second : Text.skip? (d :: delimiter) ('\n' :: t) = none := by
      simp [Text.skip?, Ne.symm feed.1]
    have third : Text.skip? (d :: delimiter) ('\r' :: '\n' :: t) = none := by
      simp [Text.skip?, Ne.symm carriage.1]
    rw [Text.cut?, first, Text.cut?, third, Text.cut?, second]
    simp only [Option.map_map]
    exact optionRel_map ih fun _ _ sides => ⟨.pair sides.1, sides.2⟩

section Stretches

variable {p : Char → Bool}

/-- A stretch that stops at line ends is the same in both texts. -/
lemma takeWhile_eq (feed : p '\n' = false) (carriage : p '\r' = false) (h : SameLines s t) :
    t.takeWhile p = s.takeWhile p := by
  induction h with
  | nil => rfl
  | @cons c _ _ _ _ ih => rw [List.takeWhile_cons, List.takeWhile_cons, ih]
  | pair => simp [feed, carriage]

/-- A stretch that goes on over line ends, or stops at them, leaves the same lines over. -/
lemma dropWhile (even : p '\r' = p '\n') (h : SameLines s t) :
    SameLines (s.dropWhile p) (t.dropWhile p) := by
  induction h with
  | nil => exact .nil
  | @cons c _ _ other rest ih =>
    rw [List.dropWhile_cons, List.dropWhile_cons]
    split
    · exact ih
    · exact .cons other rest
  | pair rest ih =>
    -- either both characters of the pair are passed or none of them is
    cases feed : p '\n' with
    | true => simpa [feed, even] using ih
    | false => simpa [feed, even] using SameLines.pair rest

/-- Characters are dropped alike from the end of texts with the same lines, if line ends are dropped in
full. -/
lemma dropEndWhile (feed : p '\n' = true) (carriage : p '\r' = true) (h : SameLines s t) :
    SameLines (Text.dropEndWhile p s) (Text.dropEndWhile p t) := by
  induction h using reverse_rec with
  | nil => exact .nil
  | concat other rest ih =>
    rw [dropEndWhile_concat, dropEndWhile_concat]
    split
    · exact ih
    · exact rest.append (.cons other .nil)
  | @pair s t _ ih =>
    rw [List.append_cons t '\r' ['\n'], dropEndWhile_concat, dropEndWhile_concat,
      dropEndWhile_concat, if_pos feed, if_pos feed, if_pos carriage]
    exact ih

end Stretches

/-- Texts with the same lines have them when they are trimmed. -/
lemma trim (h : SameLines s t) : SameLines s.trim t.trim :=
  (h.dropWhile rfl).dropEndWhile rfl rfl

/-- There is no carriage return at the end of either text. -/
lemma withoutLast_return (h : SameLines s t) : withoutLast '\r' s = s ∧ withoutLast '\r' t = t := by
  obtain ⟨rfl, rfl⟩ | ⟨s', t', c, rfl, rfl, other, -⟩ | ⟨s', t', rfl, rfl, -⟩ := h.concat_cases
  · exact ⟨rfl, rfl⟩
  · rw [withoutLast_concat, withoutLast_concat, if_neg other, if_neg other]
    exact ⟨rfl, rfl⟩
  · rw [List.append_cons t' '\r' ['\n'], withoutLast_concat, withoutLast_concat]
    exact ⟨rfl, rfl⟩

/-- A line end is left out as a whole. -/
lemma withoutLineEnd (h : SameLines s t) :
    SameLines (withoutLast '\r' (withoutLast '\n' s)) (withoutLast '\r' (withoutLast '\n' t)) := by
  obtain ⟨rfl, rfl⟩ | ⟨s', t', c, rfl, rfl, -, rest⟩ | ⟨s', t', rfl, rfl, rest⟩ := h.concat_cases
  · exact .nil
  · rw [withoutLast_concat, withoutLast_concat]
    split
    · rw [rest.withoutLast_return.1, rest.withoutLast_return.2]
      exact rest
    · rw [h.withoutLast_return.1, h.withoutLast_return.2]
      exact h
  · rw [List.append_cons t' '\r' ['\n'], withoutLast_concat, withoutLast_concat, if_pos rfl,
      if_pos rfl, withoutLast_concat, if_pos rfl, rest.withoutLast_return.1]
    exact rest

/-- Texts with the same lines have the same lines one by one. -/
lemma lines (h : SameLines s t) : List.Forall₂ SameLine (Text.lines s) (Text.lines t) := by
  induction h with
  | nil => exact .nil
  | @cons c s t other rest ih =>
    rw [Text.lines, Text.lines]
    split
    · exact .cons (.inl rfl) ih
    · exact SameLine.cons_head c ih
  | pair _ ih => exact .cons (.inr rfl) ih

/-- Texts with the same lines are split into lines that differ in their line ends at most. -/
lemma split (h : SameLines s t) :
    List.Forall₂ SameLine (Text.split '\n' s) (Text.split '\n' t) := by
  induction h with
  | nil => exact .cons (.inl rfl) .nil
  | @cons c s t other rest ih =>
    rw [Text.split, Text.split]
    split
    · exact .cons (.inl rfl) ih
    · exact SameLine.cons_head c ih
  | pair _ ih => exact .cons (.inr rfl) ih

end SameLines

end Text

end Marktex
