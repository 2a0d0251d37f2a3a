import Mathlib.Data.List.TakeWhile
import Mathlib.Tactic.Lemma
import Marktex.Proofs.Source.Delimiters

/-!
# Reading from a longer source

Readers take from the front of a source, and none of them looks further than it has to. Where a source
holds the delimiter or the line end at which a reader stops, whatever is written behind the source is
left over and changes nothing else. For a reader `f` this is said by `f_extend`, and for a mere test by
`f_line`.
-/

namespace Marktex

section Stretches

variable {p : Char → Bool} {s : Text} {c : Char}

/-- A character that ends a stretch ends it at the same place in a longer text. -/
lemma takeWhile_of_stop (t : Text) (stop : p c = false) (member : c ∈ s) :
    (s ++ t).takeWhile p = s.takeWhile p := by
  induction s with
  | nil => cases member
  | cons d s ih =>
    cases front : p d with
    | false => simp [front]
    | true =>
      have later : c ∈ s := by
        obtain rfl | later := List.mem_cons.1 member
        · rw [stop] at front
          cases front
        · exact later
      simp [front, ih later]

/-- Where a character stops the dropping, what follows does not matter. -/
lemma dropWhile_of_stop (t : Text) (stop : p c = false) (member : c ∈ s) :
    (s ++ t).dropWhile p = s.dropWhile p ++ t := by
  have taken := takeWhile_of_stop t stop member
  have whole := calc s.takeWhile p ++ (s ++ t).dropWhile p
      = (s ++ t).takeWhile p ++ (s ++ t).dropWhile p := by rw [taken]
    _ = s ++ t := List.takeWhile_append_dropWhile
    _ = s.takeWhile p ++ s.dropWhile p ++ t := by rw [List.takeWhile_append_dropWhile]
    _ = s.takeWhile p ++ (s.dropWhile p ++ t) := List.append_assoc ..
  exact List.append_cancel_left whole

/-- A character that ends a stretch is not passed with it. -/
lemma mem_dropWhile_of_stop (stop : p c = false) (member : c ∈ s) : c ∈ s.dropWhile p := by
  rw [← List.takeWhile_append_dropWhile (p := p) (l := s), List.mem_append] at member
  obtain taken | left := member
  · rw [List.mem_takeWhile_imp taken] at stop
    cases stop
  · exact left

end Stretches

namespace Text

/-- The last character of a text is its only one, or the last one of the others. -/
lemma getLast?_cons_cases {c d : Char} {s : Text} (h : (c :: s).getLast? = some d) :
    s = [] ∧ c = d ∨ s.getLast? = some d := by
  cases s with
  | nil => exact .inl ⟨rfl, Option.some.inj h⟩
  | cons e s => exact .inr h

/-- A character that a lead does not have is not passed with the lead. -/
lemma skip?_extend {c : Char} {s : Text} (lead t : Text) (absent : c ∉ lead) (member : c ∈ s) :
    skip? lead (s ++ t) = (skip? lead s).map (· ++ t) := by
  obtain ⟨before, after, rfl⟩ := List.append_of_mem member
  rw [List.append_assoc, List.cons_append, skip?_append_cons absent, skip?_append_cons absent, Option.map_map]
  exact congrArg (Option.map · _) (funext fun rest => by simp)

/-- What a long enough text does not start with, no longer text starts with. -/
lemma skip?_extend_none {lead s : Text} (t : Text) (fits : lead.length ≤ s.length)
    (h : skip? lead s = none) : skip? lead (s ++ t) = none := by
  rw [skip?_eq_none_iff] at h ⊢
  intro long
  exact h (List.prefix_of_prefix_length_le long (List.prefix_append s t) fits)

/-- A delimiter that occurs in a text is not found earlier in a longer one. -/
lemma cut?_extend {delimiter s before after : Text} (t : Text)
    (found : cut? delimiter s = some (before, after)) :
    cut? delimiter (s ++ t) = some (before, after ++ t) := by
  induction s generalizing before with
  | nil => cases found
  | cons c s ih =>
    rw [cut?] at found
    rw [List.cons_append, cut?]
    split at found
    case h_1 rest here =>
      cases found
      have longer : skip? delimiter (c :: (s ++ t)) = some (after ++ t) := by
        rw [skip?_eq_some_iff] at here ⊢
        rw [← List.cons_append, here, List.append_assoc]
      rw [longer]
    case h_2 nowhere =>
      obtain ⟨⟨b, a⟩, later, same⟩ := Option.map_eq_some_iff.1 found
      cases same
      -- the delimiter fits into `s`, so that it cannot reach from `c` into `t`
      have fits : delimiter.length ≤ (c :: s).length := by
        rw [append_of_cut? later]
        simp only [List.length_cons, List.length_append]
        omega
      have longer : skip? delimiter (c :: (s ++ t)) = none := skip?_extend_none t fits nowhere
      rw [longer]
      simp [ih later]

end Text

namespace Source

/-- Two characters tell whether a line ends. -/
lemma atLineEnd_cons_cons (c d : Char) (s : Text) :
    atLineEnd (c :: d :: s) = (c == '\n' || c == '\r' && d == '\n') := by
  unfold atLineEnd
  split <;> simp_all

/-- A text that has a line feed is at a line end or not whatever follows it. -/
lemma atLineEnd_line {s : Text} (t : Text) (h : '\n' ∈ s) : atLineEnd (s ++ t) = atLineEnd s := by
  match s, h with
  | [c], h =>
    obtain rfl : '\n' = c := List.mem_singleton.1 h
    rfl
  | c :: d :: s, _ => simp only [List.cons_append, atLineEnd_cons_cons]

/-- The ways in which a line can end, or not. -/
lemma lineEnd_cases (s : Text) :
    s = [] ∨ (∃ r, s = '\n' :: r) ∨ (∃ r, s = '\r' :: '\n' :: r) ∨ atLineEnd s = false := by
  unfold atLineEnd
  split <;> simp

end Source

namespace Segment

/-- The segment of a source behind which `t` is written. -/
def extend (t : Text) (g : Segment) : Segment :=
  { g with rest := g.rest ++ t }

/-- A text that is closed is read up to its delimiter alike with more behind it. -/
lemma upTo_extend {delimiter s : Text} (t : Text) (closed : (upTo delimiter s).closed = true) :
    upTo delimiter (s ++ t) = (upTo delimiter s).extend t := by
  cases found : Text.cut? delimiter s with
  | none => simp [upTo, found] at closed
  | some parts =>
    obtain ⟨before, after⟩ := parts
    simp [upTo, found, Text.cut?_extend t found, extend]

/-- A line that ends does so wherever it stands. -/
lemma line_closed {s : Text} (h : '\n' ∈ s) : (line s).closed = true := by
  obtain ⟨⟨before, after⟩, found⟩ := Option.isSome_iff_exists.1 (Text.cut?_of_mem h)
  simp [line, upTo, found]

/-- A line that ends is read alike with more behind it. -/
lemma line_extend {s : Text} (t : Text) (h : '\n' ∈ s) : line (s ++ t) = (line s).extend t :=
  upTo_extend t (line_closed h)

end Segment

namespace Taken

/-- What is taken from a source behind which `t` is written. -/
def extend (t : Text) (taken : Taken) : Taken :=
  { taken with rest := taken.rest ++ t }

/-- Adding a character in front and adding more behind can be exchanged. -/
@[simp] lemma extend_push (t : Text) (c : Char) (taken : Taken) :
    (taken.push c).extend t = (taken.extend t).push c := rfl

/-- A line that is not blank up to its end has no blank rest. -/
lemma blankRest_of_not_atLineEnd {s : Text}
    (h : Source.atLineEnd (s.dropWhile Text.isSpaceOrTab) = false) : blankRest s = ⟨[], s⟩ := by
  unfold blankRest
  split
  case h_1 front | h_2 front | h_3 front =>
    rw [front] at h
    cases h
  case h_4 => rfl

/-- The blank rest of a line that ends is read alike with more behind it. -/
lemma blankRest_extend {s : Text} (t : Text) (h : '\n' ∈ s) :
    blankRest (s ++ t) = (blankRest s).extend t := by
  have left := mem_dropWhile_of_stop (p := Text.isSpaceOrTab) rfl h
  have blanks := takeWhile_of_stop (p := Text.isSpaceOrTab) t rfl h
  have rest := dropWhile_of_stop (p := Text.isSpaceOrTab) t rfl h
  obtain nothing | ⟨r, feed⟩ | ⟨r, pair⟩ | other :=
    Source.lineEnd_cases (s.dropWhile Text.isSpaceOrTab)
  · rw [nothing] at left
    cases left
  · simp [blankRest, blanks, rest, feed, extend]
  · simp [blankRest, blanks, rest, pair, extend]
  · have longer : Source.atLineEnd ((s ++ t).dropWhile Text.isSpaceOrTab) = false := by
      rw [rest, Source.atLineEnd_line t left, other]
    rw [blankRest_of_not_atLineEnd other, blankRest_of_not_atLineEnd longer]
    rfl

/-- Marked lines at the end of a source go on behind it only if the mark stands there. -/
lemma markedLines_extend (mark : Char) (other : mark ≠ '\n') {s t : Text} {atStart : Bool}
    (line : s = [] ∧ atStart = true ∨ s.getLast? = some '\n')
    (apart : (markedLines mark atStart s).rest = [] → t.head? ≠ some mark) :
    markedLines mark atStart (s ++ t) = (markedLines mark atStart s).extend t := by
  induction s generalizing atStart with
  | nil =>
    obtain ⟨-, rfl⟩ | line := line
    · cases t with
      | nil => rfl
      | cons d t =>
        have unmarked : d ≠ mark := by simpa [markedLines] using apart
        simp [markedLines, unmarked, extend]
    · cases line
  | cons c s ih =>
    have last := Text.getLast?_cons_cases (line.resolve_left (by simp))
    cases atStart with
    | true =>
      by_cases same : c = mark
      · have later : s.getLast? = some '\n' :=
          last.resolve_left fun ended => other (same.symm.trans ended.2)
        simp only [List.cons_append, markedLines, same, if_true, rest_push] at apart ⊢
        rw [ih (.inr later) apart, extend_push]
      · simp [markedLines, same, extend]
    | false =>
      simp only [List.cons_append, markedLines, rest_push] at apart ⊢
      rw [ih _ apart, extend_push]
      exact last.imp_left fun ended => ⟨ended.1, by simp [ended.2]⟩

end Taken

namespace Source

/-- A link target can be read exactly where a label stands in brackets on one line and an opening
parenthesis right after it. -/
lemma opensTarget_iff {s : Text} :
    opensTarget s = true ↔
      ∃ label r, s = '[' :: label ++ ']' :: '(' :: r ∧ ∀ c ∈ label, c ≠ ']' ∧ c ≠ '\n' := by
  constructor
  · exact exists_of_opensTarget
  · rintro ⟨label, r, rfl, plain⟩
    have inside : ∀ c ∈ label, (c != ']' && c != '\n') = true := by simpa using plain
    simp [opensTarget, List.dropWhile_append_of_pos inside]

/-- A label on one line without a closing bracket in it can have a target. -/
lemma opensTarget_of_label {label : Text} (r : Text) (h : ']' ∉ label) (line : '\n' ∉ label) :
    opensTarget ('[' :: (label ++ ']' :: '(' :: r)) = true := by
  refine opensTarget_iff.2 ⟨label, r, rfl, fun c inside => ⟨?_, ?_⟩⟩
  · rintro rfl
    exact h inside
  · rintro rfl
    exact line inside

/-- Whether a link target can be read is settled by the end of the line. -/
lemma opensTarget_line {s : Text} (t : Text) (h : '\n' ∈ s) :
    opensTarget (s ++ t) = opensTarget s := by
  rw [Bool.eq_iff_iff, opensTarget_iff, opensTarget_iff]
  constructor
  · rintro ⟨label, r, whole, plain⟩
    have front : '\n' ∉ '[' :: label ++ [']', '('] := by
      intro member
      simp only [List.cons_append, List.mem_cons, List.mem_append] at member
      obtain feed | inside | feed := member
      · cases feed
      · exact (plain _ inside).2 rfl
      · simp at feed
    have whole : s ++ t = ('[' :: label ++ [']', '(']) ++ r := by simpa using whole
    obtain ⟨more, longer, -⟩ | ⟨more, shorter, -⟩ := List.append_eq_append_iff.1 whole
    · rw [longer] at front
      exact absurd (List.mem_append_left _ h) front
    · exact ⟨label, more, by simpa using shorter, plain⟩
  · rintro ⟨label, r, rfl, plain⟩
    exact ⟨label, r ++ t, by simp, plain⟩

/-- Whether an inline construct starts is settled by the end of the line. -/
lemma interrupts_line (before c : Char) {s : Text} (t : Text) (h : '\n' ∈ s) :
    interrupts before c (s ++ t) = interrupts before c s := by
  have front : interrupts.wordFront before (s ++ t) = interrupts.wordFront before s := by
    cases s with
    | nil => cases h
    | cons d s => rfl
  have link : opensTarget ('[' :: (s ++ t)) = opensTarget ('[' :: s) :=
    opensTarget_line (s := '[' :: s) t (List.mem_cons_of_mem _ h)
  unfold interrupts
  rw [front, opensTarget_line t h]
  split <;> first | rfl | exact link

/-- A run of text ends before the end of its line. -/
lemma textRun_plain (before : Char) (s : Text) : '\n' ∉ (textRun before s).raw := by
  induction s generalizing before with
  | nil => exact List.not_mem_nil
  | cons c s ih =>
    unfold textRun
    split
    case isTrue => exact List.not_mem_nil
    case isFalse inside =>
      rw [not_or] at inside
      rw [Taken.raw_push, List.mem_cons, not_or]
      exact ⟨Ne.symm inside.1, ih c⟩

/-- A run of text that does not begin with a line end is on one line. -/
lemma cons_textRun_plain {c : Char} (s : Text) (h : c ≠ '\n') : '\n' ∉ c :: (textRun c s).raw :=
  List.not_mem_cons_of_ne_of_not_mem h.symm (textRun_plain c s)

/-- A run of text on a line that ends is read alike with more behind it. -/
lemma textRun_extend (before : Char) {s : Text} (t : Text) (h : '\n' ∈ s) :
    textRun before (s ++ t) = (textRun before s).extend t := by
  induction s generalizing before with
  | nil => cases h
  | cons c s ih =>
    by_cases feed : c = '\n'
    · simp [textRun, feed, Taken.extend]
    · have later : '\n' ∈ s := (List.mem_cons.1 h).resolve_left (Ne.symm feed)
      simp only [List.cons_append, textRun, feed, false_or, interrupts_line before c t later]
      split
      · rfl
      · rw [ih c later, Taken.extend_push]

end Source

end Marktex
