import Mathlib.Data.List.DropRight
import Mathlib.Data.List.TakeWhile
import Mathlib.Tactic.Lemma
import Marktex.Latex.Table
import Marktex.Source.Segment

/-!
# Parts of texts

Trimming, splitting and cutting leave out characters but bring in none. For each operation on a text,
a lemma says where a character of the result comes from; only joined texts hold the separator as well.
Blanks around a text are all that trimming takes away (`Text.trim_between`, `Text.exists_trim`), what is left is
trimmed (`Text.trim_trim`), and joined parts come apart again if none of them holds the separator
(`Text.split_join`).
-/

namespace Marktex

namespace Text

variable {c d : Char} {s : Text}

/-- A trimmed text is a stretch of the text. -/
lemma trim_isInfix (s : Text) : trim s <:+: s :=
  (List.rdropWhile_prefix isBlank _).isInfix.trans (List.dropWhile_suffix isBlank).isInfix

/-- Trimming adds no character. -/
lemma mem_of_trim (h : c ∈ trim s) : c ∈ s :=
  (trim_isInfix s).mem h

/-- A text that does not start with a blank starts in the same way when it is trimmed. -/
lemma head?_trim (first : s.head? = some c) (solid : isBlank c = false) : (trim s).head? = some c := by
  cases s with
  | nil => cases first
  | cons d s =>
    cases first
    have front : (c :: s).dropWhile isBlank = c :: s :=
      List.dropWhile_cons_of_neg (Bool.eq_false_iff.1 solid)
    have kept : trim (c :: s) <+: c :: s := by
      rw [trim, front]
      exact List.rdropWhile_prefix isBlank _
    cases text : trim (c :: s) with
    | nil =>
      rw [trim, front] at text
      have blank := List.rdropWhile_eq_nil_iff.1 text c List.mem_cons_self
      rw [solid] at blank
      cases blank
    | cons e r =>
      rw [text] at kept
      rw [(List.cons_prefix_cons.1 kept).1]
      rfl

/-- Trimming leaves nothing to trim. -/
lemma trim_trim (s : Text) : trim (trim s) = trim s := by
  have front : (trim s).dropWhile isBlank = trim s := by
    have kept : trim s <+: s.dropWhile isBlank := List.rdropWhile_prefix isBlank _
    cases text : trim s with
    | nil => rfl
    | cons c r =>
      obtain ⟨more, whole⟩ := text ▸ kept
      have solid := List.head?_dropWhile_not isBlank s
      rw [← whole] at solid
      exact List.dropWhile_cons_of_neg (Bool.eq_false_iff.1 solid)
  calc trim (trim s)
      = dropEndWhile isBlank (trim s) := by rw [trim, front]
    _ = trim s := List.rdropWhile_idempotent isBlank _

/-- A blank in front is trimmed. -/
lemma trim_cons_of_isBlank (s : Text) (blank : isBlank c = true) : trim (c :: s) = trim s := by
  rw [trim, trim, List.dropWhile_cons_of_pos blank]

/-- A blank at the end is trimmed. -/
lemma trim_concat_of_isBlank (s : Text) (blank : isBlank c = true) : trim (s ++ [c]) = trim s := by
  rw [trim, trim, List.dropWhile_append]
  split
  case isTrue all =>
    rw [List.isEmpty_iff.1 all, List.dropWhile_cons_of_pos blank]
    rfl
  case isFalse => exact List.rdropWhile_concat_pos isBlank _ c blank

/-- Blanks around a text are trimmed. -/
lemma trim_between {front back : Text} (before : ∀ c ∈ front, isBlank c = true) (s : Text)
    (behind : ∀ c ∈ back, isBlank c = true) : trim (front ++ s ++ back) = trim s := by
  induction front with
  | nil =>
    rw [List.nil_append]
    induction back using List.reverseRecOn with
    | nil => rw [List.append_nil]
    | append_singleton back c ih =>
      obtain ⟨inner, last⟩ := List.forall_mem_append.1 behind
      rw [← List.append_assoc, trim_concat_of_isBlank _ (last c List.mem_cons_self), ih inner]
  | cons c front ih =>
    obtain ⟨first, inner⟩ := List.forall_mem_cons.1 before
    rw [List.cons_append, List.cons_append, trim_cons_of_isBlank _ first, ih inner]

/-- A text is what is left of it after trimming, between blanks. -/
lemma exists_trim (s : Text) :
    ∃ front back, (∀ c ∈ front, isBlank c = true) ∧ (∀ c ∈ back, isBlank c = true) ∧
      front ++ trim s ++ back = s := by
  have inner : trim s ++ (s.dropWhile isBlank).rtakeWhile isBlank = s.dropWhile isBlank :=
    List.rdropWhile_append_rtakeWhile
  refine ⟨s.takeWhile isBlank, (s.dropWhile isBlank).rtakeWhile isBlank, fun c => List.mem_takeWhile_imp,
    fun c => List.mem_rtakeWhile_imp, ?_⟩
  rw [List.append_assoc, inner, List.takeWhile_append_dropWhile]

/-- Leaving out the first character adds none. -/
lemma mem_of_withoutFirst (h : c ∈ withoutFirst d s) : c ∈ s := by
  cases s with
  | nil => cases h
  | cons e s =>
    rw [withoutFirst] at h
    split at h
    · exact List.mem_cons_of_mem e h
    · exact h

/-- Leaving out the last character leaves a front part. -/
lemma withoutLast_isPrefix (d : Char) (s : Text) : withoutLast d s <+: s := by
  unfold withoutLast
  split
  · exact List.dropLast_prefix s
  · exact List.prefix_rfl

/-- Leaving out the last character adds none. -/
lemma mem_of_withoutLast (h : c ∈ withoutLast d s) : c ∈ s :=
  (withoutLast_isPrefix d s).mem h

/-- The last character is left out if it is the one to leave out. -/
lemma withoutLast_concat (c d : Char) (s : Text) :
    withoutLast d (s ++ [c]) = if c = d then s else s ++ [c] := by
  simp [withoutLast]

/-- Splitting a text is what the library does at a character. -/
lemma split_eq_splitOn (d : Char) (s : Text) : split d s = s.splitOn d := by
  induction s with
  | nil => rfl
  | cons e s ih =>
    rw [split, List.splitOn_cons_eq_if_modifyHead, ← ih]
    by_cases same : e = d
    · simp [same]
    · cases parts : split d s with
      | nil => exact absurd parts (split_ne_nil d s)
      | cons first rest => simp [same]

/-- Parts that are joined come apart again where the separator stands in none of them. -/
lemma split_join {parts : List Text} (h : ∀ part ∈ parts, d ∉ part) (some : parts ≠ []) :
    split d (join [d] parts) = parts := by
  rw [split_eq_splitOn, join, List.splitOn_intercalate d h some]

/-- Joining undoes splitting. -/
lemma join_split (d : Char) (s : Text) : join [d] (split d s) = s := by
  rw [split_eq_splitOn, join, List.intercalate_splitOn]

/-- The texts before and behind a separator are split on their own. -/
lemma split_append_cons (d : Char) (s t : Text) : split d (s ++ d :: t) = split d s ++ split d t := by
  rw [split_eq_splitOn, split_eq_splitOn, split_eq_splitOn, List.splitOn_append_cons_self]

/-- A text without the separator is one part. -/
lemma split_of_not_mem (h : d ∉ s) : split d s = [s] := by
  rw [split_eq_splitOn, List.splitOn_eq_singleton h]

/-- No part holds the separator. -/
lemma not_mem_of_split {part : Text} (member : part ∈ split d s) : d ∉ part := by
  induction s generalizing part with
  | nil =>
    obtain rfl := List.mem_singleton.1 member
    exact List.not_mem_nil
  | cons e s ih =>
    rw [split] at member
    split at member
    case isTrue =>
      rcases List.mem_cons.1 member with rfl | later
      · exact List.not_mem_nil
      · exact ih later
    case isFalse other =>
      split at member
      case h_1 none => exact absurd none (split_ne_nil d s)
      case h_2 first rest parts =>
        rw [parts] at ih
        rcases List.mem_cons.1 member with rfl | later
        · exact List.not_mem_cons_of_ne_of_not_mem (Ne.symm other) (ih List.mem_cons_self)
        · exact ih (List.mem_cons_of_mem first later)

/-- Splitting adds no character. -/
lemma mem_of_split {part : Text} (member : part ∈ split d s) (h : c ∈ part) : c ∈ s := by
  induction s generalizing part with
  | nil =>
    obtain rfl := List.mem_singleton.1 member
    cases h
  | cons e s ih =>
    rw [split] at member
    split at member
    case isTrue =>
      obtain rfl | later := List.mem_cons.1 member
      · cases h
      · exact List.mem_cons_of_mem e (ih later h)
    case isFalse =>
      split at member
      case h_1 none => exact absurd none (split_ne_nil d s)
      case h_2 first rest parts =>
        rw [parts] at ih
        obtain rfl | later := List.mem_cons.1 member
        · obtain rfl | inside := List.mem_cons.1 h
          · exact List.mem_cons_self
          · exact List.mem_cons_of_mem e (ih List.mem_cons_self inside)
        · exact List.mem_cons_of_mem e (ih (List.mem_cons_of_mem first later) h)

/-- A text that is not empty has a line. -/
lemma lines_ne_nil (c : Char) (s : Text) : lines (c :: s) ≠ [] := by
  rw [lines]
  split
  · exact List.cons_ne_nil _ _
  · split <;> exact List.cons_ne_nil _ _

/-- The lines of a text are what stands between its line feeds, except for an empty end. -/
lemma lines_prefix_split (s : Text) : lines s <+: split '\n' s := by
  induction s with
  | nil => exact List.nil_prefix
  | cons e s ih =>
    rw [lines, split]
    split
    case isTrue => exact List.cons_prefix_cons.2 ⟨rfl, ih⟩
    case isFalse =>
      obtain ⟨more, parts⟩ := ih
      cases front : lines s with
      | nil =>
        cases s with
        | nil => exact List.prefix_rfl
        | cons d s => exact absurd front (lines_ne_nil d s)
      | cons line rest =>
        rw [front] at parts
        rw [← parts]
        exact List.cons_prefix_cons.2 ⟨rfl, more, rfl⟩

/-- No line holds a line feed. -/
lemma not_mem_of_lines {line : Text} (member : line ∈ lines s) : '\n' ∉ line :=
  not_mem_of_split ((lines_prefix_split s).mem member)

/-- Cutting into lines adds no character. -/
lemma mem_of_lines {line : Text} (member : line ∈ lines s) (h : c ∈ line) : c ∈ s :=
  mem_of_split ((lines_prefix_split s).mem member) h

/-- A joined text holds what its parts and the separator hold. -/
lemma mem_of_join {separator : Text} {parts : List Text} (h : c ∈ join separator parts) :
    c ∈ separator ∨ ∃ part ∈ parts, c ∈ part := by
  induction parts with
  | nil => cases h
  | cons part parts ih =>
    cases parts with
    | nil => exact .inr ⟨part, List.mem_cons_self, by simpa [join] using h⟩
    | cons next parts =>
      rw [join, List.intercalate_cons_cons, List.mem_append, List.mem_append] at h
      obtain (here | between) | later := h
      · exact .inr ⟨part, List.mem_cons_self, here⟩
      · exact .inl between
      · obtain between | ⟨other, member, inside⟩ := ih later
        · exact .inl between
        · exact .inr ⟨other, List.mem_cons_of_mem part member, inside⟩

/-- The last of some joined texts. -/
lemma join_concat {parts : List Text} (some : parts ≠ []) (separator last : Text) :
    join separator (parts ++ [last]) = join separator parts ++ (separator ++ last) := by
  induction parts with
  | nil => exact absurd rfl some
  | cons part parts ih =>
    cases parts with
    | nil => simp [join]
    | cons next parts =>
      have later := ih (List.cons_ne_nil next parts)
      simp only [join, List.cons_append, List.intercalate_cons_cons, List.append_assoc] at later ⊢
      rw [later]

/-- Some texts on successive lines before another text. -/
lemma join_feed {parts : List Text} (some : parts ≠ []) (t : Text) :
    join ['\n'] parts ++ '\n' :: t = parts.flatMap (fun part => part ++ ['\n']) ++ t := by
  induction parts with
  | nil => exact absurd rfl some
  | cons part parts ih =>
    cases parts with
    | nil => simp [join]
    | cons next parts =>
      have later := ih (List.cons_ne_nil next parts)
      simp only [join, List.intercalate_cons_cons, List.flatMap_cons, List.append_assoc] at later ⊢
      rw [later]

/-- What appending keeps holds of joined texts. -/
lemma join_of_append {P : Text → Prop} (nil : P []) (append : ∀ {s t}, P s → P t → P (s ++ t))
    {separator : Text} (between : P separator) {parts : List Text} (h : ∀ part ∈ parts, P part) :
    P (join separator parts) := by
  induction parts with
  | nil => exact nil
  | cons part parts ih =>
    obtain ⟨here, later⟩ := List.forall_mem_cons.1 h
    cases parts with
    | nil => simpa [join] using here
    | cons next parts =>
      rw [join, List.intercalate_cons_cons]
      exact append (append here between) (ih later)

end Text

/-- What stands before a delimiter is part of the text up to it. -/
lemma Segment.mem_raw_of_mem_text {delimiter s : Text} {c : Char}
    (h : c ∈ (upTo delimiter s).text) : c ∈ (upTo delimiter s).raw := by
  unfold upTo at h ⊢
  split at h
  · exact List.mem_append_left _ h
  · exact h

namespace Latex

/-- Cells hold characters of their row only. -/
lemma mem_of_cells {row cell : Text} {c : Char} (member : cell ∈ cells row) (h : c ∈ cell) : c ∈ row := by
  obtain ⟨part, parts, rfl⟩ := List.mem_map.1 member
  have inner := Text.mem_of_split parts (Text.mem_of_trim h)
  exact Text.mem_of_trim (Text.mem_of_withoutFirst (Text.mem_of_withoutLast inner))

/-- Cells hold characters of the table only. -/
lemma mem_of_keptRows {s : Text} {row : List Text} {cell : Text} {c : Char} (kept : row ∈ keptRows s)
    (member : cell ∈ row) (h : c ∈ cell) : c ∈ s := by
  obtain ⟨line, found, rfl⟩ := List.mem_map.1 kept
  exact Text.mem_of_split (List.mem_filter.1 found).1 (mem_of_cells member h)

end Latex

end Marktex
