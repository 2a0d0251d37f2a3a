import Mathlib.Data.List.Induction
import Mathlib.Tactic.Lemma
import Marktex.Source.Position

/-!
# Places of a source

Positions are moved along a source character by character. `Position.Marks` says what a position of a
source is without regard to how it was reached: its offset lies in the source, and its line and column
can be read off the source and the offset. `Position.after_marks` says that every position reached
from the front of a source is one.
-/

namespace Marktex

namespace Text

/-- The line in which offset `n` of a source lies starts at offset `k`: `k` is the front of the source
or stands right after a line feed, and no line feed stands between `k` and `n`. -/
structure LineStart (source : Text) (n k : Nat) : Prop where
  le : k ≤ n
  front : k = 0 ∨ source[k - 1]? = some '\n'
  within : '\n' ∉ (source.take n).drop k

/-- A line that starts in a text starts there whatever follows the text. -/
lemma LineStart.front_append {source : Text} {n k : Nat} (h : source.LineStart n k) (rest : Text) :
    k = 0 ∨ (source ++ rest)[k - 1]? = some '\n' := by
  obtain rfl | front := h.front
  · exact .inl rfl
  · right
    rw [List.getElem?_append_left]
    · exact front
    · exact (List.getElem?_eq_some_iff.1 front).1

/-- The line of a place has one start only. -/
lemma LineStart.unique {source : Text} {n k k' : Nat} (h : source.LineStart n k)
    (h' : source.LineStart n k') : k = k' := by
  -- a line feed right before the later place would stand within the line from the earlier one
  have not_lt {k k' : Nat} (h : source.LineStart n k) (h' : source.LineStart n k') : ¬ k < k' := by
    intro lt
    have le := h'.le
    obtain rfl | feed := h'.front
    · exact Nat.not_lt_zero k lt
    · refine h.within (List.mem_of_getElem? (i := k' - 1 - k) ?_)
      rw [List.getElem?_drop, List.getElem?_take_of_lt (by omega), ← feed]
      congr 1
      omega
  exact Nat.le_antisymm (Nat.not_lt.1 (not_lt h' h)) (Nat.not_lt.1 (not_lt h h'))

/-- Whether a line starts behind a text. -/
def EndsLine (s : Text) : Prop :=
  s = [] ∨ s.getLast? = some '\n'

/-- What is written last tells whether a line starts behind it. -/
lemma endsLine_append {s : Text} (before : Text) (h : s ≠ []) :
    EndsLine (before ++ s) ↔ s.getLast? = some '\n' := by
  obtain ⟨last, found⟩ := Option.ne_none_iff_exists'.1 (mt List.getLast?_eq_none_iff.1 h)
  simp [EndsLine, List.getLast?_append, found, h]

/-- A text is some lines and what stands on the line behind them. -/
lemma exists_lines (s : Text) : ∃ lines front, s = lines ++ front ∧ EndsLine lines ∧ '\n' ∉ front := by
  induction s using List.reverseRecOn with
  | nil => exact ⟨[], [], rfl, .inl rfl, List.not_mem_nil⟩
  | append_singleton s c ih =>
    obtain ⟨lines, front, rfl, ends, plain⟩ := ih
    by_cases feed : c = '\n'
    · subst feed
      exact ⟨lines ++ front ++ ['\n'], [], by simp, .inr (by simp), List.not_mem_nil⟩
    · exact ⟨lines, front ++ [c], by simp, ends, by simp [plain, Ne.symm feed]⟩

/-- Behind some lines, the next one starts. -/
lemma EndsLine.lineStart {lines front : Text} (ends : EndsLine lines) (plain : '\n' ∉ front) (rest : Text) :
    LineStart (lines ++ (front ++ rest)) (lines ++ front).length lines.length := by
  refine ⟨by simp, ?_, ?_⟩
  · obtain rfl | last := ends
    · exact .inl rfl
    · have some : 0 < lines.length := List.length_pos_of_mem (List.mem_of_getLast? last)
      right
      rw [List.getElem?_append_left (by omega), ← List.getLast?_eq_getElem?, last]
  · rw [← List.append_assoc, List.take_left, List.drop_left]
    exact plain

/-- The characters of a text from offset `i` up to offset `j`. -/
def slice (s : Text) (i j : Int) : Text :=
  (s.take j.toNat).drop i.toNat

/-- What stands between two parts of a text. -/
lemma slice_append (before s after : Text) :
    slice (before ++ s ++ after) before.length (before.length + s.length) = s := by
  have stop : ((before.length : Int) + s.length).toNat = (before ++ s).length := by
    rw [List.length_append]
    omega
  rw [slice, stop, List.take_left, Int.toNat_natCast, List.drop_left]

/-- The front of a text is the slice from 0 on. -/
lemma slice_front (s after : Text) : slice (s ++ after) 0 s.length = s := by
  rw [slice, Int.toNat_natCast, List.take_left]
  rfl

end Text

namespace Position

/-- A position of a source: the offset lies in the source, the line is told by the line feeds before
it, and the column by the distance from the start of the line. -/
structure Marks (source : Text) (p : Position) : Prop where
  nonneg : 0 ≤ p.offset
  le_length : p.offset ≤ source.length
  line : p.line = 1 + (source.take p.offset.toNat).count '\n'
  column : ∃ k, source.LineStart p.offset.toNat k ∧ p.column = 1 + (p.offset - k)

/-- From the front of a source, the offset is the number of characters passed. -/
lemma offset_origin_after (s : Text) : (origin.after s).offset = s.length := by
  simp [offset_after, origin]

/-- Behind the start of a line, the column is told by what stands between. -/
lemma column_line {before s : Text} (ends : before.EndsLine) (plain : '\n' ∉ s) :
    (origin.after (before ++ s)).column = s.length + 1 := by
  induction s using List.reverseRecOn with
  | nil =>
    rw [List.append_nil]
    obtain rfl | last := ends
    · rfl
    · obtain ⟨lines, rfl⟩ := List.getLast?_eq_some_iff.1 last
      rw [after_append]
      rfl
  | append_singleton s c ih =>
    obtain ⟨plain, last⟩ := not_or.1 (mt List.mem_append.2 plain)
    have feed : c ≠ '\n' := fun same => last (same ▸ List.mem_singleton_self c)
    rw [← List.append_assoc, after_append, after_cons, after_nil, next, if_neg feed, List.length_append]
    simp only [ih plain]
    rfl

/-- The column after a text is told by the distance from its last line feed. -/
lemma column_after (s : Text) :
    ∃ k, s.LineStart s.length k ∧ (origin.after s).column = 1 + ((s.length : Int) - k) := by
  induction s using List.reverseRecOn with
  | nil => exact ⟨0, ⟨by simp, .inl rfl, by simp⟩, by simp [origin]⟩
  | append_singleton s c ih =>
    obtain ⟨k, start, column⟩ := ih
    have le := start.le
    have within : '\n' ∉ s.drop k := by simpa using start.within
    rw [after_append, after_cons, after_nil]
    by_cases h : c = '\n'
    · -- a line starts behind the line feed
      subst h
      refine ⟨s.length + 1, ⟨by simp, .inr (by simp), by simp⟩, ?_⟩
      simp [next]
    · refine ⟨k, ⟨by simp; omega, start.front_append [c], ?_⟩, ?_⟩
      · rw [List.take_length, List.drop_append_of_le_length le, List.mem_append, not_or]
        exact ⟨within, by simpa using Ne.symm h⟩
      · simp only [next, if_neg h, column, List.length_append, List.length_singleton]
        omega

/-- Every position reached from the front of a source is a position of the source. -/
theorem after_marks (before rest : Text) : Marks (before ++ rest) (origin.after before) := by
  have offset := offset_origin_after before
  have passed : (before ++ rest).take (origin.after before).offset.toNat = before := by
    rw [offset, Int.toNat_natCast, List.take_left]
  obtain ⟨k, start, column⟩ := column_after before
  refine ⟨?_, ?_, ?_, k, ⟨?_, start.front_append rest, ?_⟩, ?_⟩
  · omega
  · rw [offset, List.length_append]
    omega
  · rw [passed, line_after]
    rfl
  · rw [offset]
    exact start.le
  · rw [passed]
    simpa using start.within
  · rw [column, offset]

end Position

namespace Span

/-- A span covers a text that stands in a source. -/
def Covers (source : Text) (span : Span) (s : Text) : Prop :=
  ∃ before after, source = before ++ s ++ after ∧ span = along (Position.origin.after before) s

/-- The text that a span covers can be read off its offsets. -/
lemma Covers.slice {source s : Text} {span : Span} (h : Covers source span s) :
    s = source.slice span.start.offset span.stop.offset := by
  obtain ⟨before, after, rfl, rfl⟩ := h
  simp only [along, Position.offset_after _ s, Position.offset_origin_after]
  rw [Text.slice_append]

/-- A span that covers a part of a source starts at a position of the source. -/
lemma Covers.start_marks {source s : Text} {span : Span} (h : Covers source span s) :
    span.start.Marks source := by
  obtain ⟨before, after, rfl, rfl⟩ := h
  rw [List.append_assoc]
  exact Position.after_marks before (s ++ after)

/-- A span that covers a part of a source stops at a position of the source. -/
lemma Covers.stop_marks {source s : Text} {span : Span} (h : Covers source span s) :
    span.stop.Marks source := by
  obtain ⟨before, after, rfl, rfl⟩ := h
  simp only [along]
  rw [← Position.after_append]
  exact Position.after_marks (before ++ s) after

end Span

end Marktex
