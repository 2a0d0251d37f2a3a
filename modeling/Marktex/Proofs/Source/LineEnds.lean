import Marktex.Proofs.Text.LineEnds
import Marktex.Source.Segment

/-!
# Reading over line ends

Readers take the same from the front of two sources that have the same lines, and leave the same lines
over. Where a reader stops in front of a line feed, it has taken the carriage return before it: a line
(`Segment.line_sameLine`) and a run of text (`Source.textRun_sameRun`) may have one more character then.
-/

namespace Marktex

namespace Segment

/-- Segments with the same lines. -/
structure SameLines (a b : Segment) : Prop where
  text : Text.SameLines a.text b.text
  raw : Text.SameLines a.raw b.raw
  rest : Text.SameLines a.rest b.rest
  closed : b.closed = a.closed

/-- Segments up to the end of the same line. -/
structure SameLine (a b : Segment) : Prop where
  text : Text.SameLine a.text b.text
  raw : Text.SameLines a.raw b.raw
  rest : Text.SameLines a.rest b.rest

variable {s t : Text}

/-- Texts with the same lines are read alike up to a delimiter without line ends. -/
lemma upTo_sameLines (delimiter : Text) (front : delimiter ≠ []) (feed : '\n' ∉ delimiter)
    (carriage : '\r' ∉ delimiter) (h : Text.SameLines s t) :
    SameLines (upTo delimiter s) (upTo delimiter t) := by
  unfold upTo
  obtain ⟨found, found'⟩ | ⟨_, _, found, found', before, after⟩ :=
    optionRel_cases (h.cut? front feed carriage)
  · rw [found, found']
    exact ⟨h, h, .nil, rfl⟩
  · rw [found, found']
    exact ⟨before, before.append (.refl carriage), after, rfl⟩

/-- A line is read character by character. -/
lemma line_cons (c : Char) (s : Text) :
    line (c :: s) = if c = '\n' then ⟨[], ['\n'], s, true⟩
      else ⟨c :: (line s).text, c :: (line s).raw, (line s).rest, (line s).closed⟩ := by
  split
  case isTrue feed => simp [line, upTo, Text.cut?, Text.skip?, feed]
  case isFalse other =>
    cases found : Text.cut? ['\n'] s <;>
      simp [line, upTo, Text.cut?, Text.skip?, Ne.symm other, found]

/-- Texts with the same lines have first lines that differ in their line end at most. -/
lemma line_sameLine (h : Text.SameLines s t) : SameLine (line s) (line t) := by
  induction h with
  | nil => exact ⟨.inl rfl, .nil, .nil⟩
  | @cons c s t other rest ih =>
    rw [line_cons, line_cons]
    split
    · exact ⟨.inl rfl, .cons (by decide) .nil, rest⟩
    · exact ⟨ih.text.cons c, .cons other ih.raw, ih.rest⟩
  | pair rest => exact ⟨.inr rfl, .pair .nil, rest⟩

/-- Lines are trimmed to the same text. -/
lemma line_trim_sameLines (h : Text.SameLines s t) :
    Text.SameLines (line s).text.trim (line t).text.trim := by
  have same := line_sameLine h
  rw [same.text.trim_eq]
  exact same.raw.refl_of_subset fun c member => mem_raw_of_mem_text (Text.mem_of_trim member)

end Segment

namespace Taken

/-- What is taken and what is left has the same lines. -/
structure SameLines (a b : Taken) : Prop where
  raw : Text.SameLines a.raw b.raw
  rest : Text.SameLines a.rest b.rest

variable {s t : Text}

/-- Texts with the same lines are blank up to the end of the line alike. -/
lemma blankRest_sameLines (h : Text.SameLines s t) : SameLines (blankRest s) (blankRest t) := by
  have blanks := h.takeWhile_eq (p := Text.isSpaceOrTab) rfl rfl
  have left := h.dropWhile (p := Text.isSpaceOrTab) rfl
  have plain := h.refl_of_subset (List.takeWhile_prefix Text.isSpaceOrTab).subset
  unfold blankRest
  rw [blanks]
  dsimp only
  generalize s.dropWhile Text.isSpaceOrTab = a at left
  generalize t.dropWhile Text.isSpaceOrTab = b at left
  cases left with
  | nil => exact ⟨plain, .nil⟩
  | @cons c _ _ other rest =>
    by_cases feed : c = '\n'
    · subst feed
      exact ⟨plain.append (.cons other .nil), rest⟩
    · simp [feed, other]
      exact ⟨.nil, h⟩
  | pair rest => exact ⟨plain.append (.pair .nil), rest⟩

/-- Texts with the same lines have as many marked lines in front, which are the same. -/
lemma markedLines_sameLines (mark : Char) (feed : mark ≠ '\n') (carriage : mark ≠ '\r')
    (h : Text.SameLines s t) (atStart : Bool) :
    SameLines (markedLines mark atStart s) (markedLines mark atStart t) := by
  induction h generalizing atStart with
  | nil => cases atStart <;> exact ⟨.nil, .nil⟩
  | @cons c s t other rest ih =>
    cases atStart with
    | true =>
      rw [markedLines, markedLines]
      split
      · exact ⟨.cons other (ih false).raw, (ih false).rest⟩
      · exact ⟨.nil, .cons other rest⟩
    | false => exact ⟨.cons other (ih _).raw, (ih _).rest⟩
  | pair rest ih =>
    cases atStart with
    | true =>
      -- a line end at the start of a line does not carry the mark
      simp only [markedLines, Ne.symm feed, Ne.symm carriage, if_false]
      exact ⟨.nil, .pair rest⟩
    | false => exact ⟨.pair (ih true).raw, (ih true).rest⟩

end Taken

namespace Source

variable {s t : Text}

/-- A character that is no carriage return is at the end of a line only if it is a line feed. -/
lemma atLineEnd_cons {c : Char} (r : Text) (other : c ≠ '\r') :
    atLineEnd (c :: r) = decide (c = '\n') := by
  unfold atLineEnd
  split <;> simp_all

/-- Texts with the same lines are at a line end alike. -/
lemma atLineEnd_eq (h : Text.SameLines s t) : atLineEnd t = atLineEnd s := by
  cases h with
  | nil => rfl
  | cons other => rw [atLineEnd_cons _ other, atLineEnd_cons _ other]
  | pair => rfl

/-- A label stands on one line, so that it is the same in both texts. -/
lemma opensTarget_bracket (h : Text.SameLines s t) :
    opensTarget ('[' :: t) = opensTarget ('[' :: s) := by
  induction h with
  | nil => rfl
  | @cons c s t _ rest ih =>
    simp only [opensTarget, List.dropWhile_cons] at ih ⊢
    -- inside of the label both sides go on, and behind it one more character decides
    cases c != ']' && c != '\n' with
    | true => exact ih
    | false => cases rest <;> grind
  | pair => rfl

/-- Texts with the same lines open a target alike. -/
lemma opensTarget_eq (h : Text.SameLines s t) : opensTarget t = opensTarget s := by
  cases h with
  | nil => rfl
  | @cons c s t _ rest =>
    by_cases bracket : c = '['
    · rw [bracket]
      exact opensTarget_bracket rest
    · simp [opensTarget, bracket]
  | pair => rfl

/-- Whether an inline construct starts does not depend on line ends. -/
lemma interrupts_eq (before c : Char) (h : Text.SameLines s t) :
    interrupts before c t = interrupts before c s := by
  have front : interrupts.wordFront before t = interrupts.wordFront before s := by
    cases h with
    | nil => rfl
    | cons => rfl
    | pair => rfl
  have link : c ≠ '\r' → opensTarget (c :: t) = opensTarget (c :: s) := fun other =>
    opensTarget_eq (.cons other h)
  unfold interrupts
  rw [front, opensTarget_eq h]
  split <;> first | rfl | exact link (by decide)

/-- Runs of text up to the same place: they are equal, or the second one has the carriage return of the
line end before which they stop. -/
inductive SameRun : Taken → Taken → Prop where
  | ending {raw} :
    SameRun ⟨raw, []⟩ ⟨raw, []⟩
  | same {raw c rest rest'} :
    c ≠ '\r' →
    Text.SameLines rest rest' →
    SameRun ⟨raw, c :: rest⟩ ⟨raw, c :: rest'⟩
  | pair {raw rest rest'} :
    Text.SameLines rest rest' →
    SameRun ⟨raw, '\n' :: rest⟩ ⟨raw ++ ['\r'], '\n' :: rest'⟩

/-- Two runs of text that are the same stay so with a character before them. -/
lemma SameRun.push (c : Char) {a b : Taken} (h : SameRun a b) : SameRun (a.push c) (b.push c) := by
  cases h with
  | ending => exact .ending
  | same other rest => exact .same other rest
  | pair rest => exact .pair rest

/-- Texts with the same lines begin with the same run of text. -/
lemma textRun_sameRun (before : Char) (h : Text.SameLines s t) :
    SameRun (textRun before s) (textRun before t) := by
  induction h generalizing before with
  | nil => exact .ending
  | @cons c s t other rest ih =>
    rw [textRun, textRun, interrupts_eq before c rest]
    split
    · exact .same other rest
    · exact (ih c).push c
  | @pair s t rest ih =>
    -- the carriage return is part of the run, which ends before the line feed
    have first : textRun before ('\n' :: s) = ⟨[], '\n' :: s⟩ := by simp [textRun]
    have second : textRun before ('\r' :: '\n' :: t) = ⟨['\r'], '\n' :: t⟩ := by
      simp [textRun, interrupts, Taken.push]
    rw [first, second]
    exact .pair rest

end Source

end Marktex
