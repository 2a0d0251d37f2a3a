import Mathlib.Data.List.Nodup
import Mathlib.Tactic.Lemma
import Marktex.Latex.Render

/-!
# The packages of standalone documents

A package is loaded where it is first asked for, and not again. The names of the packages to load stand in the
order in which they first occur (`ordered_firstOccurrences`), and a name that occurred before changes nothing
(`firstOccurrences_insert`). Blanks around names are taken away before that, and the empty name after it; as it
makes no difference when names are left out (`filter_firstOccurrences`), the same holds of the names that are
asked for (`packageNames_insert`). `standalone_packages` says what this means for a document.
-/

namespace Marktex.Latex

section FirstOccurrences

variable {α : Type} [BEq α] [LawfulBEq α]

/-- Members can be left out before or after. -/
lemma filter_firstOccurrences (p : α → Bool) (l : List α) :
    (firstOccurrences l).filter p = firstOccurrences (l.filter p) := by
  induction l with
  | nil => rfl
  | cons a l ih =>
    have later : ((firstOccurrences l).filter fun b => !(b == a)).filter p =
        (firstOccurrences (l.filter p)).filter fun b => !(b == a) := by
      rw [List.filter_comm, ih]
    rw [firstOccurrences, List.filter_cons, List.filter_cons, later]
    split
    case isTrue => rfl
    case isFalse drops =>
      -- the first member is left out, and so are its copies
      rw [← ih, List.filter_eq_self]
      intro b member
      have kept := (List.mem_filter.1 member).2
      have other : b ≠ a := fun same => drops (same ▸ kept)
      simpa using other

/-- The members where they first occur are what the library keeps of a list with duplicates. -/
lemma firstOccurrences_eq_eraseDups (l : List α) : firstOccurrences l = l.eraseDups := by
  match l with
  | [] => rfl
  | a :: l =>
    have later := firstOccurrences_eq_eraseDups (l.filter fun b => !(b == a))
    rw [firstOccurrences, filter_firstOccurrences, List.eraseDups_cons, later]
termination_by l.length
decreasing_by exact Nat.lt_succ_of_le (List.length_filter_le _ l)

/-- Members that occurred before change nothing. -/
lemma firstOccurrences_insert {known more : List α} (rest : List α) (h : more ⊆ known) :
    firstOccurrences (known ++ more ++ rest) = firstOccurrences (known ++ rest) := by
  have nothing : more.removeAll known = [] := by
    rw [List.removeAll, List.filter_eq_nil_iff]
    intro a member
    simpa using h member
  have left : (more ++ rest).removeAll known = rest.removeAll known := by
    simpa [List.removeAll] using nothing
  rw [firstOccurrences_eq_eraseDups, firstOccurrences_eq_eraseDups, List.append_assoc, List.eraseDups_append,
    List.eraseDups_append, left]

/-- The members stand in the order in which they first occur. -/
lemma ordered_firstOccurrences (l : List α) :
    (firstOccurrences l).Pairwise fun a b => l.idxOf a < l.idxOf b := by
  induction l with
  | nil => exact .nil
  | cons a l ih =>
    have other : ∀ b ∈ (firstOccurrences l).filter fun b => !(b == a), (a :: l).idxOf b = l.idxOf b + 1 := by
      intro b member
      have apart : a ≠ b := by
        rintro rfl
        simpa using (List.mem_filter.1 member).2
      exact List.idxOf_cons_ne l apart
    refine .cons (fun b member => ?_) ((ih.filter _).imp_of_mem fun {b c} here there before => ?_)
    · rw [List.idxOf_cons_self, other b member]
      exact Nat.succ_pos _
    · rw [other b here, other c there]
      exact Nat.succ_lt_succ before

end FirstOccurrences

/-- The names that are asked for, without the empty one: each once, in the order in which they are first asked
for. -/
structure FirstNames (names asked : List Text) : Prop where
  mem_iff : ∀ name, name ∈ names ↔ name ∈ asked ∧ name ≠ []
  nodup : names.Nodup
  ordered : names.Pairwise fun a b => asked.idxOf a < asked.idxOf b

/-- The names of the packages are the first occurrences among those asked for, with the usual ones before
them. -/
lemma packageNames_first (packages : List Text) :
    FirstNames (packageNames packages) ((defaultPackages ++ packages).map Text.trim) := by
  have ordered := (ordered_firstOccurrences ((defaultPackages ++ packages).map Text.trim)).filter
    fun name => !name.isEmpty
  refine ⟨fun name => ?_, ordered.imp fun before same => ?_, ordered⟩
  · rw [packageNames, List.mem_filter, firstOccurrences_eq_eraseDups, List.mem_eraseDups, Bool.not_eq_true',
      List.isEmpty_eq_false_iff]
  · rw [same] at before
    exact Nat.lt_irrefl _ before

/-- The names that are left when blanks around names and empty names are left out. -/
def stripped (names : List Text) : List Text :=
  (names.map Text.trim).filter fun name => !name.isEmpty

/-- Names are trimmed, and empty ones left out, one by one. -/
lemma stripped_append (front back : List Text) : stripped (front ++ back) = stripped front ++ stripped back := by
  rw [stripped, List.map_append, List.filter_append, stripped, stripped]

/-- The names of the packages are what is left of those asked for when copies are left out. -/
lemma packageNames_eq (packages : List Text) :
    packageNames packages = firstOccurrences (stripped (defaultPackages ++ packages)) :=
  filter_firstOccurrences _ _

/-- Names that are already asked for change nothing. -/
lemma packageNames_insert {front extra : List Text} (back : List Text)
    (known : stripped extra ⊆ stripped (defaultPackages ++ front)) :
    packageNames (front ++ extra ++ back) = packageNames (front ++ back) := by
  calc packageNames (front ++ extra ++ back)
      = firstOccurrences (stripped (defaultPackages ++ front) ++ stripped extra ++ stripped back) := by
        rw [packageNames_eq, ← stripped_append, ← stripped_append, List.append_assoc, List.append_assoc,
          List.append_assoc]
    _ = firstOccurrences (stripped (defaultPackages ++ front) ++ stripped back) :=
        firstOccurrences_insert _ known
    _ = packageNames (front ++ back) := by
        rw [packageNames_eq, ← stripped_append, List.append_assoc]

/-- Names are already asked for if each is empty, a default or an earlier name, up to the blanks around it. -/
lemma stripped_subset {front extra : List Text}
    (known : ∀ name ∈ extra, Text.trim name = [] ∨ Text.trim name ∈ defaultPackages ∨
      ∃ earlier ∈ front, Text.trim name = Text.trim earlier) :
    stripped extra ⊆ stripped (defaultPackages ++ front) := by
  have defaults : stripped defaultPackages = defaultPackages := by decide
  intro name member
  obtain ⟨found, some⟩ := List.mem_filter.1 member
  obtain ⟨asked, inside, rfl⟩ := List.mem_map.1 found
  rw [stripped_append, defaults]
  obtain empty | default | ⟨earlier, before, same⟩ := known asked inside
  · rw [empty] at some
    cases some
  · exact List.mem_append_left _ default
  · refine List.mem_append_right _ (List.mem_filter.2 ⟨?_, some⟩)
    rw [same]
    exact List.mem_map_of_mem before

/-- A line feed is added to a body exactly if it does not end with one. -/
lemma closedLine_eq (body : Text) :
    ∃ feed, (['\n'] <:+ body ∧ feed = [] ∨ ¬ ['\n'] <:+ body ∧ feed = ['\n']) ∧
      closedLine body = body ++ feed := by
  rw [closedLine]
  split
  case isTrue closed =>
    exact ⟨[], .inl ⟨List.singleton_suffix_iff_getLast?_eq_some.2 closed, rfl⟩, (List.append_nil body).symm⟩
  case isFalse cut =>
    exact ⟨['\n'], .inr ⟨mt List.singleton_suffix_iff_getLast?_eq_some.1 cut, rfl⟩, rfl⟩

/-- A standalone document loads the default packages and those asked for, each once, at the place where its name
first occurs, and the body stands in the document environment as it is, up to a line feed that is added if it
does not end with one. The document stays the same when the packages are asked for twice, and when names are
added, at any place, that are empty, defaults or copies of names before them, with any blanks around them. -/
theorem standalone_packages :
    (∀ body documentClass packages, ∃ names feed,
      FirstNames names ((defaultPackages ++ packages).map Text.trim) ∧
      (['\n'] <:+ body ∧ feed = [] ∨ ¬ ['\n'] <:+ body ∧ feed = ['\n']) ∧
      standalone body documentClass packages =
        command "documentclass" documentClass ++ ['\n']
          ++ names.flatMap (fun name => command "usepackage" name ++ ['\n'])
          ++ '\n' :: opening "document" ++ ['\n'] ++ (body ++ feed) ++ closing "document" ++ ['\n']) ∧
    (∀ body documentClass packages,
      standalone body documentClass (packages ++ packages) = standalone body documentClass packages) ∧
    ∀ body documentClass front extra back,
      (∀ name ∈ extra, Text.trim name = [] ∨ Text.trim name ∈ defaultPackages ∨
        ∃ earlier ∈ front, Text.trim name = Text.trim earlier) →
      standalone body documentClass (front ++ extra ++ back) = standalone body documentClass (front ++ back) := by
  refine ⟨fun body documentClass packages => ?_, fun body documentClass packages => ?_,
    fun body documentClass front extra back known => ?_⟩
  · obtain ⟨feed, closed, whole⟩ := closedLine_eq body
    refine ⟨packageNames packages, feed, packageNames_first packages, closed, ?_⟩
    rw [standalone, whole]
    rfl
  · have again : ∀ name ∈ packages, Text.trim name = [] ∨ Text.trim name ∈ defaultPackages ∨
        ∃ earlier ∈ packages, Text.trim name = Text.trim earlier :=
      fun name member => .inr (.inr ⟨name, member, rfl⟩)
    have same := packageNames_insert [] (stripped_subset again)
    rw [List.append_nil, List.append_nil] at same
    rw [standalone, same, standalone]
  · rw [standalone, packageNames_insert back (stripped_subset known), standalone]

/-- A blank name, a default and the copy of an earlier name, the last two with blanks around them. -/
theorem standalone_packages_copies :
    ∃ front extra back : List Text,
      extra = ["\t".toList, " hyperref".toList, "geometry ".toList] ∧
      (∀ name ∈ extra, Text.trim name = [] ∨ Text.trim name ∈ defaultPackages ∨
        ∃ earlier ∈ front, Text.trim name = Text.trim earlier) ∧
      standalone "x".toList "report".toList (front ++ extra ++ back) =
        standalone "x".toList "report".toList (front ++ back) := by
  let front := ["\ngeometry".toList]
  let extra := ["\t".toList, " hyperref".toList, "geometry ".toList]
  let back := ["babel".toList]
  have known : ∀ name ∈ extra, Text.trim name = [] ∨ Text.trim name ∈ defaultPackages ∨
      ∃ earlier ∈ front, Text.trim name = Text.trim earlier := by decide
  exact ⟨front, extra, back, rfl, known, standalone_packages.2.2 _ _ front extra back known⟩

end Marktex.Latex
