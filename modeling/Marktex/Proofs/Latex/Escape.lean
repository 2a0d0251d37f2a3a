import Mathlib.Tactic.Lemma
import Marktex.Latex.Markup

/-!
# What escaped texts tell

An escaped text can be read back (`unescape_escape`), although the backslashes of a text stay as they are: a
special character has a backslash of its own, and so never stands right behind one of the text. Texts that
are escaped alike are therefore the same (`escape_inj`). To undo it, it is enough to leave out what stands
right before each special character, and escaping an escaped text once more shows wherever there was anything
to escape (`escape_reversible`). What looks for some command in a text does not see the escaped texts in it if
it sees none of their characters (`Neutral.escape`).
-/

namespace Marktex.Latex

/-- The text that was escaped: each special character without the backslash before it. -/
def unescape : Text → Text
  | '\\' :: c :: s => if isSpecial c then c :: unescape s else '\\' :: unescape (c :: s)
  | c :: s => c :: unescape s
  | [] => []

/-- A backslash before a character that is not special stays. -/
lemma unescape_backslash {s : Text} (h : ∀ c ∈ s.head?, isSpecial c = false) :
    unescape ('\\' :: s) = '\\' :: unescape s := by
  cases s with
  | nil => rfl
  | cons c s => rw [unescape, h c rfl]; rfl

/-- Any other character stays. -/
lemma unescape_cons {c : Char} (s : Text) (h : c ≠ '\\') : unescape (c :: s) = c :: unescape s := by
  rw [unescape]
  rintro d s same
  exact absurd same h

/-- No escaped text starts with a special character. -/
lemma head_escape (s : Text) : ∀ c ∈ (escape s).head?, isSpecial c = false := by
  cases s with
  | nil => simp
  | cons d s =>
    rw [escape_cons]
    cases special : isSpecial d with
    | true =>
      rintro c ⟨⟩
      rfl
    | false =>
      rintro c ⟨⟩
      exact special

/-- Escaping can be undone. -/
theorem unescape_escape (s : Text) : unescape (escape s) = s := by
  induction s with
  | nil => rfl
  | cons c s ih =>
    rw [escape_cons]
    cases special : isSpecial c with
    | true =>
      show unescape ('\\' :: c :: escape s) = c :: s
      rw [unescape, special, ih]
      rfl
    | false =>
      show unescape (c :: escape s) = c :: s
      by_cases backslash : c = '\\'
      · -- a special character behind this backslash would have one of its own before it
        rw [backslash, unescape_backslash (head_escape s), ih]
      · rw [unescape_cons _ backslash, ih]

/-- Different texts are escaped to different texts. -/
lemma escape_inj {s t : Text} (h : escape s = escape t) : s = t := by
  rw [← unescape_escape s, h, unescape_escape]

/-- The text that is left when the character right before each special one is taken out, whatever it is. -/
def unguarded : Text → Text
  | c :: d :: s => if isSpecial d then unguarded (d :: s) else c :: unguarded (d :: s)
  | s => s

/-- Every special character of the text stands right behind a backslash. -/
def Guarded (s : Text) : Prop :=
  ∀ before c after, s = before ++ c :: after → isSpecial c = true → before.getLast? = some '\\'

/-- A character stays if no special one follows it. -/
lemma unguarded_cons {s : Text} (c : Char) (h : ∀ d ∈ s.head?, isSpecial d = false) :
    unguarded (c :: s) = c :: unguarded s := by
  cases s with
  | nil => rfl
  | cons d s => rw [unguarded, h d rfl, if_neg Bool.false_ne_true]

/-- What is taken out of an escaped text is what escaping brought in. -/
lemma unguarded_escape (s : Text) : unguarded (escape s) = s := by
  induction s with
  | nil => rfl
  | cons c s ih =>
    have front := unguarded_cons c (head_escape s)
    rw [escape_cons]
    cases special : isSpecial c with
    | true =>
      show unguarded ('\\' :: c :: escape s) = c :: s
      rw [unguarded, special, if_pos rfl, front, ih]
    | false =>
      show unguarded (c :: escape s) = c :: s
      rw [front, ih]

/-- A text stays guarded behind a character that is not special. -/
lemma Guarded.cons {c : Char} {s : Text} (h : Guarded s) (plain : isSpecial c = false) : Guarded (c :: s) := by
  intro before d after whole special
  cases before with
  | nil =>
    obtain ⟨rfl, -⟩ := List.cons.inj whole
    rw [plain] at special
    cases special
  | cons e before =>
    have last := h before d after (List.cons.inj whole).2 special
    rw [List.getLast?_cons, last]
    rfl

/-- A text stays guarded behind a character with its backslash. -/
lemma Guarded.backslash {c : Char} {s : Text} (h : Guarded s) : Guarded ('\\' :: c :: s) := by
  intro before d after whole special
  rcases before with _ | ⟨e, _ | ⟨f, before⟩⟩
  · obtain ⟨rfl, -⟩ := List.cons.inj whole
    cases special
  · obtain ⟨rfl, -⟩ := List.cons.inj whole
    rfl
  · have last := h before d after (List.cons.inj (List.cons.inj whole).2).2 special
    rw [List.getLast?_cons, List.getLast?_cons, last]
    rfl

/-- In an escaped text every special character is guarded. -/
lemma guarded_escape (s : Text) : Guarded (escape s) := by
  induction s with
  | nil =>
    intro before c after none
    simp at none
  | cons c s ih =>
    rw [escape_cons]
    cases special : isSpecial c with
    | true => exact ih.backslash
    | false => exact ih.cons special

/-- A text without special characters, and no other one, is written as it is. -/
lemma escape_eq_self_iff {s : Text} : escape s = s ↔ ∀ c ∈ s, isSpecial c = false := by
  induction s with
  | nil => simp
  | cons c s ih =>
    rw [escape_cons, List.forall_mem_cons]
    cases special : isSpecial c with
    | true =>
      -- the text would begin with the backslash, which is not special
      have other : c ≠ '\\' := by
        rintro rfl
        cases special
      simp [Ne.symm other]
    | false => simpa using ih

/-- Escaping goes through a text piece by piece and puts a backslash right before every special character. It
is undone by taking out the character right before each special one, so that no two texts are escaped alike,
with backslashes of their own or without. To escape a text twice is not to escape it once, unless it has no
special characters. -/
theorem escape_reversible :
    (∀ s t, escape (s ++ t) = escape s ++ escape t) ∧
    (∀ s, Guarded (escape s)) ∧
    (∀ s, unguarded (escape s) = s) ∧
    Function.Injective escape ∧
    ∀ s, escape (escape s) = escape s ↔ ∀ c ∈ s, isSpecial c = false := by
  refine ⟨escape_append, guarded_escape, unguarded_escape, fun s t => escape_inj, fun s => ?_⟩
  rw [← escape_eq_self_iff]
  exact ⟨escape_inj, congrArg escape⟩

/-- Backslashes of the text next to those of special characters. -/
example : escape "\\\\&\\%".toList = "\\\\\\&\\\\%".toList ∧ unguarded "\\\\\\&\\\\%".toList = "\\\\&\\%".toList := by
  decide

/-- Escaping brings in backslashes only. -/
lemma mem_of_escape {c : Char} {s : Text} (h : c ∈ escape s) (other : c ≠ '\\') : c ∈ s := by
  obtain ⟨d, member, inside⟩ := List.mem_flatMap.1 h
  split at inside
  · rcases List.mem_cons.1 inside with same | here
    · exact absurd same other
    · rwa [List.mem_singleton.1 here]
  · rwa [List.mem_singleton.1 inside]

/-- A text that does not matter for what `f` finds in the text behind it. -/
def Neutral {α : Type} (f : Text → α) (s : Text) : Prop :=
  ∀ t, f (s ++ t) = f t

section Neutral

variable {α : Type} {f : Text → α}

/-- What does not see two texts does not see them one after the other. -/
lemma Neutral.append {s t : Text} (h : Neutral f s) (h' : Neutral f t) : Neutral f (s ++ t) := by
  intro u
  rw [List.append_assoc, h, h']

/-- A text is neutral if all of its characters are. -/
lemma Neutral.of_forall {s : Text} (h : ∀ c ∈ s, ∀ t, f (c :: t) = f t) : Neutral f s := by
  intro t
  induction s with
  | nil => rfl
  | cons c s ih =>
    obtain ⟨here, later⟩ := List.forall_mem_cons.1 h
    rw [List.cons_append, here, ih later]

/-- An escaped text is neutral if its characters are, with a backslash where they need one. -/
lemma Neutral.escape {s : Text} (special : ∀ c, isSpecial c = true → ∀ t, f ('\\' :: c :: t) = f t)
    (other : ∀ c ∈ s, isSpecial c = false → ∀ t, f (c :: t) = f t) : Neutral f (escape s) := by
  intro t
  induction s with
  | nil => rfl
  | cons c s ih =>
    obtain ⟨here, later⟩ := List.forall_mem_cons.1 other
    rw [escape_cons]
    cases known : isSpecial c with
    | true =>
      rw [if_pos rfl]
      exact (special c known _).trans (ih later)
    | false =>
      rw [if_neg Bool.false_ne_true]
      exact (here known _).trans (ih later)

end Neutral

end Marktex.Latex
