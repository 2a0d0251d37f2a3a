import Mathlib.Data.List.DropRight
import Marktex.Proofs.Source.Places
import Marktex.Text.Lines

/-!
# Displayed lines

A displayed line may end in more ways than a line of a source, which only a line feed ends. So the displayed
line with some number need not be the line of the source with that number. It is if all that ends displayed
lines up to there is line feeds, and carriage returns right before them (`displayed_iff`).
-/

namespace Marktex.Text

variable {c e : Char} {s t : Text}

/-- A text whose displayed lines end where its lines do: what ends a displayed line in it is a line feed, or a
carriage return right before one. -/
def FeedsOnly : Text → Prop
  | [] => True
  | c :: s => (isBreak c = true → c = '\n' ∨ c = '\r' ∧ s.head? = some '\n') ∧ FeedsOnly s

instance : (s : Text) → Decidable s.FeedsOnly
  | [] => .isTrue trivial
  | _ :: s => @instDecidableAnd _ _ _ (instDecidableFeedsOnly s)

/-- The line of a source that starts at offset `k`, without the carriage returns at its end. -/
def lineFrom (source : Text) (k : Nat) : Text :=
  dropEndWhile (· == '\r') ((source.drop k).takeWhile (· != '\n'))

/-- The first displayed line of a text. -/
def firstBroken (s : Text) : Text :=
  (broken s).headD []

/-- What ends a line does so without its first character, and that is the line feed if nothing else is left.
-/
lemma endsLine_tail (h : EndsLine (c :: s)) : EndsLine s ∧ (s = [] → c = '\n') := by
  obtain none | last := h
  · cases none
  · cases s with
    | nil => exact ⟨.inl rfl, fun _ => Option.some.inj last⟩
    | cons d s =>
      rw [List.getLast?_cons_cons] at last
      exact ⟨.inr last, nofun⟩

/-- Without a line feed, no displayed line may end in a text. -/
lemma feedsOnly_of_plain (plain : '\n' ∉ s) : s.FeedsOnly ↔ ∀ c ∈ s, isBreak c = false := by
  induction s with
  | nil => simp [FeedsOnly]
  | cons c s ih =>
    obtain ⟨other, later⟩ := not_or.1 (mt List.mem_cons.2 plain)
    have next : s.head? ≠ some '\n' := fun feed => later (List.mem_of_mem_head? feed)
    rw [FeedsOnly, ih later, List.forall_mem_cons]
    simp [Ne.symm other, next]

/-- How the lines of a text end does not depend on what follows them. -/
lemma feedsOnly_append (ends : s.EndsLine) (t : Text) :
    FeedsOnly (s ++ t) ↔ s.FeedsOnly ∧ t.FeedsOnly := by
  induction s with
  | nil => simp [FeedsOnly]
  | cons c s ih =>
    obtain ⟨ends, last⟩ := endsLine_tail ends
    rw [List.cons_append, FeedsOnly, FeedsOnly, ih ends, and_assoc]
    refine and_congr_left fun _ => ?_
    cases s with
    | nil => simp [last rfl]
    | cons d s => rfl

/-- A character that ends a displayed line is a line of its own in front, unless it is the first half of a
line end. -/
lemma broken_of_isBreak (ending : isBreak c = true) (other : ∀ r, c = '\r' → s ≠ '\n' :: r) :
    broken (c :: s) = [c] :: broken s := by
  rw [broken]
  · exact if_pos ending
  · exact other

/-- A character that ends no displayed line belongs to the first line of the text. -/
lemma broken_of_not_isBreak (inside : isBreak c = false) :
    broken (c :: s) = (c :: firstBroken s) :: (broken s).tail := by
  rw [broken]
  · rw [if_neg (Bool.eq_false_iff.1 inside), firstBroken]
    cases broken s <;> rfl
  · rintro r rfl
    cases inside

/-- Displayed lines are not empty. -/
lemma ne_nil_of_broken {line : Text} (h : line ∈ broken s) : line ≠ [] := by
  fun_induction broken s with
  | case1 => cases h
  | case4 c r => simp_all
  | case2 r ih | case3 c r _ _ ih =>
    rcases List.mem_cons.1 h with rfl | later
    · exact List.cons_ne_nil _ _
    · exact ih later
  | case5 c r _ _ first rest front ih =>
    rcases List.mem_cons.1 h with rfl | later
    · exact List.cons_ne_nil _ _
    · exact ih (front ▸ List.mem_cons_of_mem first later)

/-- Only the empty text has no lines. -/
lemma eq_nil_of_broken (h : broken s = []) : s = [] := by
  rw [← flatten_broken s, h]
  rfl

/-- A displayed line ends where a line does. -/
lemma broken_append (ends : s.EndsLine) (t : Text) : broken (s ++ t) = broken s ++ broken t := by
  fun_induction broken s with
  | case1 => rfl
  | case2 r ih =>
    obtain ⟨ends, -⟩ := endsLine_tail (endsLine_tail ends).1
    exact congrArg (['\r', '\n'] :: ·) (ih ends)
  | case3 c r other ending ih =>
    obtain ⟨ends, last⟩ := endsLine_tail ends
    rw [List.cons_append, broken_of_isBreak ending, ih ends, List.cons_append]
    rintro r' rfl front
    cases r with
    | nil => cases last rfl
    | cons d r =>
      obtain ⟨rfl, -⟩ := List.cons.inj front
      exact other r rfl rfl
  | case4 c r _ inside none =>
    obtain rfl := (endsLine_tail ends).2 (eq_nil_of_broken none)
    exact absurd rfl inside
  | case5 c r _ inside first rest front ih =>
    obtain ⟨ends, -⟩ := endsLine_tail ends
    rw [List.cons_append, broken_of_not_isBreak (Bool.eq_false_iff.2 inside), firstBroken, ih ends, front]
    rfl

/-- There are at least as many displayed lines as lines, and as many exactly if they end in the same places. -/
lemma count_broken (ends : s.EndsLine) :
    s.count '\n' ≤ (broken s).length ∧ (s.count '\n' = (broken s).length ↔ s.FeedsOnly) := by
  fun_induction broken s with
  | case1 => simp [FeedsOnly]
  | case2 r ih =>
    obtain ⟨le, eq⟩ := ih (endsLine_tail (endsLine_tail ends).1).1
    simp [FeedsOnly, le, eq]
  | case3 c r other ending ih =>
    obtain ⟨le, eq⟩ := ih (endsLine_tail ends).1
    by_cases feed : c = '\n'
    · simp [FeedsOnly, feed, le, eq]
    · -- a displayed line ends where no line does
      have carriage : ¬ (c = '\r' ∧ r.head? = some '\n') := by
        rintro ⟨rfl, next⟩
        obtain ⟨r', rfl⟩ := List.head?_eq_some_iff.1 next
        exact other r' rfl rfl
      rw [List.count_cons_of_ne feed, List.length_cons]
      simp only [FeedsOnly, ending, feed, carriage]
      exact ⟨by omega, by simp; omega⟩
  | case4 c r _ inside none =>
    obtain rfl := (endsLine_tail ends).2 (eq_nil_of_broken none)
    exact absurd rfl inside
  | case5 c r _ inside first rest front ih =>
    obtain ⟨le, eq⟩ := ih (endsLine_tail ends).1
    have feed : c ≠ '\n' := by
      rintro rfl
      exact inside rfl
    rw [front] at le eq
    simpa [FeedsOnly, feed, inside] using And.intro le eq

/-- Characters are dropped from the end up to one that stays. -/
lemma dropEndWhile_append_of_neg {p : Char → Bool} (s : Text) (stop : p c = false) (t : Text) :
    dropEndWhile p (s ++ c :: t) = s ++ c :: dropEndWhile p t := by
  simp only [dropEndWhile, List.reverse_append, List.reverse_cons, List.append_assoc, List.dropWhile_append]
  split
  case isTrue none => simp [List.isEmpty_iff.1 none, stop]
  case isFalse => simp

/-- What is shown of a line is a front part of it. -/
lemma shown_isPrefix (line : Text) : shown line <+: line :=
  (List.rdropWhile_prefix _ _).trans (List.rdropWhile_prefix _ line)

/-- What is shown of a line begins with the first character that is not left out. -/
lemma shown_cons (feed : c ≠ '\n') (carriage : c ≠ '\r') (line : Text) :
    shown (c :: line) = c :: shown line := by
  have feeds := dropEndWhile_append_of_neg (p := (· == '\n')) [] (beq_false_of_ne feed) line
  rw [shown, ← List.nil_append (c :: line), feeds]
  exact dropEndWhile_append_of_neg (p := (· == '\r')) [] (beq_false_of_ne carriage) _

/-- The first displayed line is a character that ends it, unless that is the first half of a line end. -/
lemma firstBroken_of_isBreak (ending : isBreak c = true) (other : ∀ r, c = '\r' → s ≠ '\n' :: r) :
    firstBroken (c :: s) = [c] := by
  rw [firstBroken, broken_of_isBreak ending other]
  rfl

/-- The first displayed line begins with a character that does not end it. -/
lemma firstBroken_of_not_isBreak (inside : isBreak c = false) :
    firstBroken (c :: s) = c :: firstBroken s := by
  rw [firstBroken, broken_of_not_isBreak inside]
  rfl

/-- Nothing is shown of a line that ends where it begins. -/
lemma shown_firstBroken_ending (h : ∀ c ∈ s.head?, c = '\n' ∨ c = '\r') : shown (firstBroken s) = [] := by
  cases s with
  | nil => rfl
  | cons c s =>
    by_cases pair : c = '\r' ∧ s.head? = some '\n'
    · obtain ⟨rfl, next⟩ := pair
      obtain ⟨s, rfl⟩ := List.head?_eq_some_iff.1 next
      rfl
    · have ending : isBreak c = true := by rcases h c rfl with rfl | rfl <;> rfl
      rw [firstBroken_of_isBreak ending fun r carriage front => pair ⟨carriage, by rw [front]; rfl⟩]
      rcases h c rfl with rfl | rfl <;> rfl

/-- Of the first displayed line just a line without its end is shown exactly if the displayed line does not end
before the last character of that line. -/
lemma shown_firstBroken_iff (plain : '\n' ∉ s) (feed : e ≠ '\n') (carriage : e ≠ '\r')
    (ending : ∀ c ∈ t.head?, c = '\n' ∨ c = '\r') :
    shown (firstBroken (s ++ e :: t)) = s ++ [e] ↔ ∀ c ∈ s, isBreak c = false := by
  induction s with
  | nil =>
    simp only [List.nil_append, List.not_mem_nil, false_implies, implies_true, iff_true]
    cases last : isBreak e with
    | true =>
      rw [firstBroken_of_isBreak last fun r same => absurd same carriage]
      exact shown_cons feed carriage []
    | false =>
      rw [firstBroken_of_not_isBreak last, shown_cons feed carriage, shown_firstBroken_ending ending]
  | cons c s ih =>
    obtain ⟨other, later⟩ := not_or.1 (mt List.mem_cons.2 plain)
    cases here : isBreak c with
    | true =>
      have next (r : Text) : c = '\r' → s ++ e :: t ≠ '\n' :: r := by
        rintro - front
        cases s with
        | nil => exact feed (List.cons.inj front).1
        | cons d s => exact later ((List.cons.inj front).1 ▸ List.mem_cons_self)
      -- the displayed line ends here, so that too little is shown
      have short := (shown_isPrefix [c]).length_le
      rw [List.cons_append, firstBroken_of_isBreak here next, List.forall_mem_cons, here]
      refine iff_of_false (fun same => ?_) (fun inside => nomatch inside.1)
      rw [same] at short
      simp at short
    | false =>
      have carriage' : c ≠ '\r' := by
        rintro rfl
        cases here
      rw [List.cons_append, firstBroken_of_not_isBreak here, shown_cons (Ne.symm other) carriage',
        List.cons_append, List.cons_inj_right, ih later, List.forall_mem_cons, and_iff_right here]

/-- As many displayed lines as a text has lines make up that text exactly if its displayed lines end where its
lines do. -/
lemma flatten_take_broken_iff (ends : s.EndsLine) (t : Text) :
    ((broken (s ++ t)).take (s.count '\n')).flatten.length = s.length ↔ s.FeedsOnly := by
  obtain ⟨le, eq⟩ := count_broken ends
  rw [← eq, broken_append ends, List.take_append_of_le_length le]
  constructor
  · intro same
    have parts := congrArg (List.length ∘ List.flatten) (List.take_append_drop (s.count '\n') (broken s))
    simp only [Function.comp_apply, List.flatten_append, List.length_append, same, flatten_broken] at parts
    -- what is left of the lines is nothing, and no line is empty
    have rest : (broken s).drop (s.count '\n') = [] := by
      refine List.eq_nil_iff_forall_not_mem.2 fun line member => ?_
      have nothing : ((broken s).drop (s.count '\n')).flatten = [] := List.length_eq_zero_iff.1 (by omega)
      exact ne_nil_of_broken (List.mem_of_mem_drop member) (List.flatten_eq_nil_iff.1 nothing line member)
    exact Nat.le_antisymm le (List.drop_eq_nil_iff.1 rest)
  · intro same
    rw [same, List.take_length, flatten_broken]

/-- The displayed line that has the number of the line behind a text is the first one behind it. -/
lemma shownLine_append (ends : s.EndsLine) (feeds : s.FeedsOnly) (t : Text) :
    shownLine (s ++ t) (s.count '\n' + 1) = shown (firstBroken t) := by
  have number : ((s.count '\n' : Int) + 1 - 1).toNat = (broken s).length := by
    rw [← (count_broken ends).2.2 feeds]
    omega
  have first : (broken t)[0]? = (broken t).head? := List.head?_eq_getElem?.symm
  rw [shownLine, if_neg (by omega), number, broken_append ends, List.getElem?_append_right (Nat.le_refl _),
    Nat.sub_self, first, firstBroken]
  cases broken t <;> rfl

/-- The displayed line with the number of a line is that line, in its place, exactly if displayed lines end
where lines do, up to the last character of the line that is shown. -/
theorem displayed_iff (ends : s.EndsLine) {line : Text} (plain : '\n' ∉ line) (feed : e ≠ '\n')
    (carriage : e ≠ '\r') (ending : ∀ c ∈ t.head?, c = '\n' ∨ c = '\r') :
    (((broken (s ++ (line ++ e :: t))).take (s.count '\n')).flatten.length = s.length ∧
        shownLine (s ++ (line ++ e :: t)) (s.count '\n' + 1) = line ++ [e]) ↔
      FeedsOnly (s ++ line) := by
  rw [flatten_take_broken_iff ends, feedsOnly_append ends, feedsOnly_of_plain plain]
  refine and_congr_right fun feeds => ?_
  rw [shownLine_append ends feeds, shown_firstBroken_iff plain feed carriage ending]

/-- A line and what follows it: the line holds no line feed and does not end with a carriage return, and one of
these stands behind it, unless it is the end. -/
lemma exists_lineFrom (s t : Text) :
    ∃ rest, t = lineFrom (s ++ t) s.length ++ rest ∧ (∀ c ∈ rest.head?, c = '\n' ∨ c = '\r') ∧
      '\n' ∉ lineFrom (s ++ t) s.length ∧ (lineFrom (s ++ t) s.length).getLast? ≠ some '\r' := by
  rw [lineFrom, List.drop_left]
  have inside : ∀ c ∈ t.takeWhile (· != '\n'), c ≠ '\n' := fun c member => by
    simpa using List.mem_takeWhile_imp member
  generalize line : t.takeWhile (· != '\n') = s at inside ⊢
  have parts : dropEndWhile (· == '\r') s ++ s.rtakeWhile (· == '\r') = s :=
    List.rdropWhile_append_rtakeWhile
  refine ⟨s.rtakeWhile (· == '\r') ++ t.dropWhile (· != '\n'), ?_, fun c first => ?_, ?_, fun last => ?_⟩
  · rw [← List.append_assoc, parts, ← line, List.takeWhile_append_dropWhile]
  · cases returns : s.rtakeWhile (· == '\r') with
    | nil =>
      have stop := List.head?_dropWhile_not (· != '\n') t
      rw [returns, List.nil_append] at first
      rw [first] at stop
      exact .inl (by simpa using stop)
    | cons d more =>
      have carriage := List.mem_rtakeWhile_imp (returns ▸ List.mem_cons_self)
      rw [returns] at first
      obtain rfl : d = c := Option.some.inj first
      exact .inr (by simpa using carriage)
  · exact fun feed => inside _ (parts ▸ List.mem_append_left _ feed) rfl
  · obtain ⟨more, body⟩ := List.getLast?_eq_some_iff.1 last
    have body : s.rdropWhile (· == '\r') = more ++ ['\r'] := body
    have stop := List.rdropWhile_last_not (· == '\r') s (by simp [body])
    simp [body] at stop

/-- A line holds the characters that are no line ends. -/
lemma prefix_lineFrom (before : Text) {front : Text} (plain : '\n' ∉ front) (feed : c ≠ '\n')
    (carriage : c ≠ '\r') (r : Text) :
    front ++ [c] <+: lineFrom (before ++ (front ++ c :: r)) before.length := by
  have all : ∀ d ∈ front, (d != '\n') = true := fun d member => by
    simpa using ne_of_mem_of_not_mem member plain
  rw [lineFrom, List.drop_left, List.takeWhile_append_of_pos all,
    List.takeWhile_cons_of_pos (by simpa using feed),
    dropEndWhile_append_of_neg front (by simpa using carriage)]
  exact ⟨_, List.append_assoc _ _ _⟩

/-- A line with a character that is no line end has a last one. -/
lemma exists_lineFrom_concat (before : Text) {front : Text} (plain : '\n' ∉ front) (feed : c ≠ '\n')
    (carriage : c ≠ '\r') (r : Text) :
    ∃ line e rest, lineFrom (before ++ (front ++ c :: r)) before.length = line ++ [e] ∧
      front ++ c :: r = line ++ e :: rest ∧ '\n' ∉ line ∧ e ≠ '\n' ∧ e ≠ '\r' ∧
      ∀ c ∈ rest.head?, c = '\n' ∨ c = '\r' := by
  obtain ⟨rest, whole, ending, noFeed, noReturn⟩ := exists_lineFrom before (front ++ c :: r)
  have held := prefix_lineFrom before plain feed carriage r
  obtain ⟨line, e, body⟩ := (List.eq_nil_or_concat' _).resolve_left (held.ne_nil (by simp))
  rw [body] at whole noFeed noReturn
  obtain ⟨noFeed, last⟩ := not_or.1 (mt List.mem_append.2 noFeed)
  refine ⟨line, e, rest, body, by simpa using whole, noFeed, ?_, ?_, ending⟩
  · exact fun same => last (same ▸ List.mem_singleton_self e)
  · rintro rfl
    exact noReturn List.getLast?_concat

end Marktex.Text
