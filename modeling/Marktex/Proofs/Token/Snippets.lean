import Marktex.Proofs.Source.Displayed
import Marktex.Proofs.Token.Lexemes
import Marktex.Proofs.Token.Unclosed

/-!
# Snippets of what is not closed

A report about a source shows a line of it. Lines are counted by line feeds, but the line that is shown is
looked up among the displayed lines, which end in more ways. `snippet_shows_iff` says when that is the line on
which the construct opens; then the first caret stands under the character that opens it.
-/

namespace Marktex

namespace Snippet

/-- What is reported of a source that is read: warnings if reading is lenient, and an error if it is strict. -/
inductive Reports (source : Text) : Snippet → Prop where
  | warning {u} :
    u ∈ (tokenize false source).warnings →
    Reports source u.warning
  | error {u} :
    (tokenize true source).failure = some u →
    Reports source u.error

/-- A snippet shows the line of a source that starts at offset `k`: what is shown is taken from there, it is all
of the line, and the first caret stands under the character at offset `n`. -/
structure Shows (snippet : Snippet) (source fileName : Text) (n k : Nat) : Prop where
  place : ((Text.broken source).take (snippet.start.line - 1).toNat).flatten.length = k
  line : (snippet.layout source fileName)[3]? =
    some (Text.ofInt snippet.start.line ++ " | ".toList ++ source.lineFrom k)
  caret : ∃ shown pad more, (snippet.layout source fileName)[3]? = some shown ∧
    (snippet.layout source fileName)[4]? = some (pad ++ '^' :: more) ∧ '^' ∉ pad ∧
    shown[pad.length]? = source[n]?

/-- There is always a caret, right under the column of the place that is reported. -/
lemma exists_caret (snippet : Snippet) (source fileName : Text) :
    ∃ pad more, (snippet.layout source fileName)[4]? = some (pad ++ '^' :: more) ∧ '^' ∉ pad ∧
      pad.length = (Text.ofInt snippet.start.line).length + 3 + (snippet.start.column - 1).toNat := by
  have one : 1 ≤ caretCount snippet.start snippet.stop (snippet.sourceLine source).length := by
    unfold caretCount
    split
    · exact Int.le_max_left 1 _
    · split <;> exact Int.le_max_left 1 _
  obtain ⟨count, carets⟩ : ∃ count : Nat,
      (caretCount snippet.start snippet.stop (snippet.sourceLine source).length).toNat = count + 1 :=
    ⟨_, (Nat.succ_pred_eq_of_pos (by omega)).symm⟩
  refine ⟨List.replicate ((Text.ofInt snippet.start.line).length + 1) ' ' ++ "| ".toList ++
    Text.repeated ' ' (snippet.start.column - 1), List.replicate count '^', ?_, ?_, ?_⟩
  · simp only [layout, Text.repeated, carets]
    rfl
  · simp [Text.repeated]
  · simp [Text.repeated]
    omega

/-- The first caret stands under the character behind `front`, if that is where the place is on the line that is
shown. -/
lemma exists_caret_under {snippet : Snippet} {source front : Text} {c : Char} (fileName : Text)
    (column : snippet.start.column = front.length + 1) (held : front ++ [c] <+: snippet.sourceLine source) :
    ∃ shown pad more, (snippet.layout source fileName)[3]? = some shown ∧
      (snippet.layout source fileName)[4]? = some (pad ++ '^' :: more) ∧ '^' ∉ pad ∧
      shown[pad.length]? = some c := by
  obtain ⟨pad, more, carets, blank, length⟩ := snippet.exists_caret source fileName
  obtain ⟨w, held⟩ := held
  refine ⟨_, pad, more, rfl, carets, blank, ?_⟩
  have under : pad.length = (Text.ofInt snippet.start.line ++ " | ".toList ++ front).length := by
    rw [length, column]
    simp
    omega
  calc (Text.ofInt snippet.start.line ++ " | ".toList ++ snippet.sourceLine source)[pad.length]?
      = (Text.ofInt snippet.start.line ++ " | ".toList ++ front ++ c :: w)[pad.length]? := by
        rw [← held]
        simp only [List.append_assoc, List.singleton_append]
    _ = some c := by
        rw [under, List.getElem?_append_right (Nat.le_refl _), Nat.sub_self]
        rfl

/-- A report starts where a construct opens, with a character that ends no displayed line. -/
lemma Reports.exists_start {source : Text} {snippet : Snippet} (h : snippet.Reports source) :
    ∃ before c r, source = before ++ c :: r ∧ Text.isBreak c = false ∧
      snippet.start = Position.origin.after before := by
  have opens {u : Unclosed} (member : u ∈ (tokenize false source).warnings) :
      ∃ before c r, source = before ++ c :: r ∧ Text.isBreak c = false ∧
        u.span.start = Position.origin.after before := by
    rw [(tokenize_eq source).2] at member
    obtain ⟨before, c, r, whole, inside, span⟩ := Reading.all_opens _ u member
    exact ⟨before, c, r, whole, inside, congrArg Span.start span⟩
  cases h with
  | warning member => exact opens member
  | @error u failed =>
    obtain ⟨-, same⟩ | ⟨v, warned, failed', -⟩ := tokenize_strict_cases source
    · rw [same, tokenize_lenient] at failed
      cases failed
    · obtain rfl := Option.some.inj (failed.symm.trans failed')
      exact opens (warned ▸ List.mem_singleton_self u)

/-- A snippet about a place behind some lines shows the line of that place exactly if displayed lines end where
lines do up to there. -/
lemma shows_iff {snippet : Snippet} {lines front : Text} {c : Char} (ends : lines.EndsLine)
    (plain : '\n' ∉ front) (inside : Text.isBreak c = false) (r : Text)
    (start : snippet.start = Position.origin.after (lines ++ front)) (fileName : Text) :
    snippet.Shows (lines ++ (front ++ c :: r)) fileName (lines ++ front).length lines.length ↔
      Text.FeedsOnly (lines ++ (Text.lineFrom (lines ++ (front ++ c :: r)) lines.length).dropLast) := by
  have feed : c ≠ '\n' := by
    rintro rfl
    cases inside
  have carriage : c ≠ '\r' := by
    rintro rfl
    cases inside
  have number : snippet.start.line = lines.count '\n' + 1 := by
    rw [start, Position.line_after, List.count_append, List.count_eq_zero.2 plain, Int.add_comm]
    rfl
  have column : snippet.start.column = front.length + 1 := by rw [start, Position.column_line ends plain]
  have held := Text.prefix_lineFrom lines plain feed carriage r
  obtain ⟨line, e, rest, body, whole, noFeed, feed', carriage', ending⟩ :=
    Text.exists_lineFrom_concat lines plain feed carriage r
  have displayed := Text.displayed_iff ends noFeed feed' carriage' ending
  rw [← whole] at displayed
  have index : (snippet.start.line - 1).toNat = lines.count '\n' := by omega
  have sourceLine : snippet.sourceLine (lines ++ (front ++ c :: r)) =
      Text.shownLine (lines ++ (front ++ c :: r)) (lines.count '\n' + 1) := by rw [Snippet.sourceLine, number]
  rw [body, List.dropLast_concat, ← displayed, ← sourceLine, ← index, ← body]
  constructor
  · intro shows
    exact ⟨shows.place, List.append_cancel_left (Option.some.inj shows.line)⟩
  · rintro ⟨place, shown⟩
    have opens : (lines ++ (front ++ c :: r))[(lines ++ front).length]? = some c := by
      rw [← List.append_assoc, List.getElem?_append_right (Nat.le_refl _), Nat.sub_self]
      rfl
    refine ⟨place, ?_, ?_⟩
    · rw [← shown]
      rfl
    · rw [opens]
      exact exists_caret_under fileName column (shown ▸ body ▸ held)

end Snippet

/-- Whether a report shows the line on which a construct opens that is not closed. It does, with the first caret
under the character that opens the construct, exactly if all that ends displayed lines before the last character
of that line is line feeds, and carriage returns right before them. -/
theorem snippet_shows_iff {source : Text} {snippet : Snippet} (h : snippet.Reports source) (fileName : Text) :
    ∃ n k : Nat, snippet.start.offset = n ∧ n < source.length ∧ source.LineStart n k ∧
      (snippet.Shows source fileName n k ↔
        Text.FeedsOnly (source.take k ++ (source.lineFrom k).dropLast)) := by
  obtain ⟨before, c, r, rfl, inside, start⟩ := h.exists_start
  obtain ⟨lines, front, rfl, ends, plain⟩ := before.exists_lines
  have offset : snippet.start.offset = (lines ++ front).length := by rw [start, Position.offset_origin_after]
  have shows := Snippet.shows_iff ends plain inside r start fileName
  rw [List.append_assoc]
  refine ⟨(lines ++ front).length, lines.length, offset, by simp, ends.lineStart plain (c :: r), ?_⟩
  rw [List.take_left]
  exact shows

/-- Math in the second line of a source whose lines end with carriage returns and line feeds. -/
theorem snippet_shows_iff_math :
    ∃ (source : Text) (snippet : Snippet) (n k : Nat), snippet.Reports source ∧ snippet.start.offset = n ∧
      source.LineStart n k ∧ Text.FeedsOnly (source.take k ++ (source.lineFrom k).dropLast) ∧
      source.lineFrom k = "b $x".toList ∧ snippet.Shows source "a.md".toList n k := by
  let source : Text := "> a\r\nb $x\r\ny\r".toList
  have failed : (tokenize true source).failure = some ⟨.inlineMath, ⟨2, 3, 7⟩, ⟨3, 3, 13⟩⟩ := by
    decide +kernel
  obtain ⟨n, k, offset, -, start, shows⟩ := snippet_shows_iff (.error failed) "a.md".toList
  obtain rfl : n = 7 := Int.ofNat_inj.1 offset.symm
  obtain rfl : k = 5 := start.unique ⟨by decide, by decide, by decide⟩
  have feeds : Text.FeedsOnly (source.take 5 ++ (source.lineFrom 5).dropLast) := by decide
  exact ⟨source, _, 7, 5, .error failed, offset, start, feeds, by decide, shows.2 feeds⟩

/-- A form feed ends a displayed line, and nothing is shown of the line behind it. -/
theorem not_all_lines_shown :
    ¬ ∀ (source : Text) (snippet : Snippet), snippet.Reports source →
      ∀ n k : Nat, snippet.start.offset = n → source.LineStart n k →
        snippet.sourceLine source = source.lineFrom k := by
  intro all
  have failed : (tokenize true "a\x0c\n`x".toList).failure = some ⟨.inlineCode, ⟨2, 1, 3⟩, ⟨2, 3, 5⟩⟩ := rfl
  have same := all _ _ (.error failed) 3 3 rfl ⟨by decide, by decide, by decide⟩
  revert same
  decide

end Marktex
