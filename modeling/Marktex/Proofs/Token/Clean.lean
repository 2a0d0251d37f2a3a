import Marktex.Proofs.Source.Lookahead
import Marktex.Proofs.Text.Parts
import Marktex.Proofs.Token.Lexemes
import Marktex.Proofs.Token.Openings
import Marktex.Proofs.Token.Strictness

/-!
# Clean values

What is read from a source fits its kind: texts that belong on one line are on one line, texts between
delimiters do not hold what would have closed them, and blanks at the ends are gone where they do not count.
`Lexeme.Clean` says this kind by kind, and `Piece.read_clean` that the lexemes of all pieces are clean,
whether they are closed or cut off by the end of the input. The rows of a table are its lines
(`Piece.table_rows`), since each of the lines starts with a bar and is trimmed only behind it.
-/

namespace Marktex

/-- What can be relied on in the values of a kind, given the source text that they were made from. -/
inductive Lexeme.Clean : Lexeme → Prop where
  | header {level s raw} :
    level = (raw.takeWhile (· == '#')).length →
    1 ≤ level →
    s.trim = s →
    '\n' ∉ s →
    Clean ⟨.header, .payload (.header level s), raw⟩
  | listItem {s raw} :
    s.trim = s →
    '\n' ∉ s →
    Clean ⟨.listItem, .text s, raw⟩
  | todoItem {s checked raw} :
    s.trim = s →
    '\n' ∉ s →
    Clean ⟨.todoItem, .payload (.todo s checked), raw⟩
  | marker {m raw} :
    Clean ⟨.marker m, .text [], raw⟩
  | paragraph {s raw} :
    '\n' ∉ s →
    Clean ⟨.styled .paragraph, .text s, raw⟩
  | plain {s raw} :
    '\n' ∉ s →
    Clean ⟨.styled .plain, .text s, raw⟩
  | quote {s raw} :
    s.trim = s →
    Clean ⟨.styled .quote, .text s, raw⟩
  | table {s raw} :
    Text.split '\n' s = (Text.lines raw).map Text.trim →
    (∀ row ∈ Text.split '\n' s, row.head? = some '|' ∧ row.trim = row) →
    Clean ⟨.styled .table, .text s, raw⟩
  | code {s raw} :
    '`' ∉ s →
    Clean ⟨.styled .code, .text s, raw⟩
  | inlineMath {s raw} :
    '$' ∉ s →
    Clean ⟨.styled .inlineMath, .text s, raw⟩
  | displayMath {s raw : Text} :
    s.trim = s →
    ¬ "$$".toList <:+: s →
    Clean ⟨.styled .displayMath, .text s, raw⟩
  | italic {mark s raw} :
    raw.head? = some mark →
    mark ∉ s →
    Clean ⟨.styled .italic, .text s, raw⟩
  | bold {mark s raw} :
    raw.head? = some mark →
    ¬ [mark, mark] <:+: s →
    Clean ⟨.styled .bold, .text s, raw⟩
  | codeBlock {language code raw} :
    language.trim = language →
    '\n' ∉ language →
    ¬ "```".toList <:+: code →
    Clean ⟨.codeBlock, .payload (.codeBlock language code), raw⟩
  | link {s url raw} :
    ']' ∉ s →
    '\n' ∉ s →
    url.trim = url →
    ')' ∉ url →
    Clean ⟨.link, .payload (.link s url), raw⟩
  | image {alt source raw} :
    ']' ∉ alt →
    '\n' ∉ alt →
    source.trim = source →
    ')' ∉ source →
    Clean ⟨.image, .payload (.image alt source), raw⟩
  | lineBreak {raw} :
    Clean ⟨.lineBreak, .text ['\n'], raw⟩
  | ending :
    Clean ⟨.ending, .text [], []⟩

/-- The rest of a line is on the line, also when it is trimmed. -/
lemma Segment.line_trim_plain (s : Text) : '\n' ∉ (line s).text.trim :=
  fun inside => not_mem_text '\n' s (Text.mem_of_trim inside)

/-- All lines of a marked block start with the mark; in a block that starts inside of a line, all but the
first one do. -/
lemma Taken.lines_markedLines {mark : Char} (other : mark ≠ '\n') (s : Text) :
    (∀ line ∈ Text.lines (markedLines mark true s).raw, line.head? = some mark) ∧
      ∀ line ∈ (Text.lines (markedLines mark false s).raw).tail, line.head? = some mark := by
  induction s with
  | nil => simp [markedLines, Text.lines]
  | cons c s ih =>
    obtain ⟨atStart, inside⟩ := ih
    constructor
    · by_cases same : c = mark
      · subst same
        rw [markedLines, if_pos rfl, raw_push, Text.lines, if_neg other]
        cases lines : Text.lines (markedLines c false s).raw with
        | nil => simp
        | cons line rest =>
          rw [lines] at inside
          simpa using inside
      · simp [markedLines, same, Text.lines]
    · rw [markedLines, raw_push, Text.lines]
      by_cases feed : c = '\n'
      · subst feed
        simpa using atStart
      · rw [if_neg feed, beq_eq_false_iff_ne.2 feed]
        cases lines : Text.lines (markedLines mark false s).raw with
        | nil => simp
        | cons line rest =>
          rw [lines] at inside
          simpa using inside

namespace Piece

/-- A header is clean. -/
lemma header_clean (r : Text) : ∀ l ∈ (header ('#' :: r)).lexemes, l.Clean := by
  intro l member
  obtain rfl := List.mem_singleton.1 member
  have signs : ∀ c ∈ ('#' :: r).takeWhile (· == '#'), (c == '#') = true :=
    fun c inside => List.mem_takeWhile_imp (p := fun c : Char => c == '#') inside
  apply Lexeme.Clean.header
  · -- behind the signs, the line does not go on with a sign
    have other : (Segment.line (('#' :: r).dropWhile (· == '#'))).raw.takeWhile (· == '#') = [] := by
      have whole := Segment.raw_append_rest ['\n'] (('#' :: r).dropWhile (· == '#'))
      have front := List.head?_dropWhile_not (fun c : Char => c == '#') ('#' :: r)
      cases line : (Segment.line (('#' :: r).dropWhile (· == '#'))).raw with
      | nil => rfl
      | cons c line' =>
        rw [Segment.line] at line
        rw [← whole, line] at front
        exact List.takeWhile_cons_of_neg (Bool.eq_false_iff.1 front)
    rw [List.takeWhile_append_of_pos signs, other, List.append_nil]
  · rw [List.takeWhile_cons_of_pos rfl, List.length_cons]
    omega
  · exact Text.trim_trim _
  · exact Segment.line_trim_plain _

/-- An item of a list is clean. -/
lemma item_clean (s : Text) : (item s).1.Clean := by
  unfold item
  split
  · exact .todoItem (Text.trim_trim _) (Segment.line_trim_plain _)
  · exact .listItem (Text.trim_trim _) (Segment.line_trim_plain _)

/-- Bold text and italics are clean. -/
lemma emphasis_clean (mark : Char) (r : Text) : ∀ l ∈ (emphasis mark r).lexemes, l.Clean := by
  unfold emphasis
  split <;> intro l member <;> obtain rfl := List.mem_singleton.1 member
  · exact .bold rfl (Segment.not_infix_text _ (List.cons_ne_nil _ _))
  · exact .italic rfl (Segment.not_mem_text mark r)

/-- Code within a line and a code block are clean. -/
lemma code_clean (r : Text) : ∀ l ∈ (code r).lexemes, l.Clean := by
  unfold code
  split <;> intro l member <;> obtain rfl := List.mem_singleton.1 member
  case h_1 s _ =>
    apply Lexeme.Clean.codeBlock
    · exact Text.trim_trim _
    · exact Segment.line_trim_plain s
    · have absent := Segment.not_infix_text (Segment.line s).rest (show "```".toList ≠ [] by decide)
      intro inside
      apply absent
      apply inside.trans
      exact ((Text.withoutLast_isPrefix _ _).trans (Text.withoutLast_isPrefix _ _)).isInfix
  case h_2 => exact .code (Segment.not_mem_text '`' r)

/-- Math within a line and displayed math are clean. -/
lemma math_clean (r : Text) : ∀ l ∈ (math r).lexemes, l.Clean := by
  unfold math
  split <;> intro l member <;> obtain rfl := List.mem_singleton.1 member
  case h_1 s _ =>
    apply Lexeme.Clean.displayMath
    · exact Text.trim_trim _
    · have absent := Segment.not_infix_text s (show "$$".toList ≠ [] by decide)
      intro inside
      apply absent
      exact inside.trans (Text.trim_isInfix _)
  case h_2 => exact .inlineMath (Segment.not_mem_text '$' r)

/-- Where a link target can be read, the label is on one line. -/
lemma targeted_clean {kind : Kind} {construct : Construct} {payload : Text → Text → Payload}
    {lead r : Text} (opens : Source.opensTarget ('[' :: r) = true)
    (fields : ∀ label target raw, ']' ∉ label → '\n' ∉ label → target.trim = target → ')' ∉ target →
      Lexeme.Clean ⟨kind, .payload (payload label target), raw⟩) :
    ∀ l ∈ (targeted kind construct payload lead r).lexemes, l.Clean := by
  intro l member
  obtain rfl := List.mem_singleton.1 member
  apply fields
  · exact Segment.not_mem_text ']' r
  · obtain ⟨label, after, front, plain⟩ := Source.exists_of_opensTarget opens
    obtain rfl : r = label ++ ']' :: '(' :: after := by simpa using front
    rw [Segment.upTo_of_not_mem _ fun inside => (plain _ inside).1 rfl]
    exact fun inside => (plain _ inside).2 rfl
  · exact Text.trim_trim _
  · exact fun inside => Segment.not_mem_text ')' _ (Text.mem_of_trim inside)

/-- The rows of a table are its lines, without the blanks at their ends. -/
lemma table_rows (r : Text) :
    Text.split '\n' (Text.join ['\n'] ((Text.lines (Taken.markedLines '|' true ('|' :: r)).raw).map
      Text.trim)) = (Text.lines (Taken.markedLines '|' true ('|' :: r)).raw).map Text.trim := by
  apply Text.split_join
  · intro row member
    obtain ⟨line, found, rfl⟩ := List.mem_map.1 member
    exact fun inside => Text.not_mem_of_lines found (Text.mem_of_trim inside)
  · rw [Taken.markedLines, if_pos rfl, Taken.raw_push, Ne, List.map_eq_nil_iff]
    exact Text.lines_ne_nil _ _

/-- A table is clean: its lines begin with bars. -/
lemma table_clean (r : Text) : ∀ l ∈ (table ('|' :: r)).lexemes, l.Clean := by
  intro l member
  obtain rfl := List.mem_singleton.1 member
  have rows := table_rows r
  apply Lexeme.Clean.table rows
  intro row found
  rw [rows] at found
  obtain ⟨line, member, rfl⟩ := List.mem_map.1 found
  constructor
  · apply Text.head?_trim
    · exact (Taken.lines_markedLines (by decide) _).1 line member
    · decide
  · exact Text.trim_trim line

/-- Running text is clean. -/
lemma text_clean {c : Char} (r : Text) (h : c ≠ '\n') : ∀ l ∈ (text c r).lexemes, l.Clean := by
  have run := Source.cons_textRun_plain r h
  unfold text
  dsimp only
  split <;> intro l member <;> obtain rfl := List.mem_singleton.1 member
  · exact .paragraph fun inside => run (Text.mem_of_withoutLast inside)
  · exact .paragraph fun inside => run (Text.mem_of_withoutLast inside)
  · exact .plain run

/-- All lexemes of a piece are clean. -/
theorem read_clean (lineStart : Bool) (c : Char) (r : Text) :
    ∀ l ∈ (read lineStart c r).lexemes, l.Clean := by
  have fits := Opening.fits lineStart c r
  unfold read
  cases opening : Opening.of lineStart c r <;> rw [opening] at fits
  case header =>
    obtain ⟨-, rfl⟩ := fits
    exact header_clean r
  case list m =>
    intro l member
    simp only [list, List.mem_cons, List.not_mem_nil, or_false] at member
    rcases member with rfl | rfl
    · exact .marker
    · exact item_clean m.rest
  case emphasis mark => exact emphasis_clean mark r
  case code => exact code_clean r
  case link =>
    obtain ⟨label, after, front, -⟩ := Source.exists_of_opensTarget fits
    obtain ⟨rfl, -⟩ := List.cons.inj front
    exact targeted_clean fits fun _ _ _ => .link
  case image =>
    obtain ⟨label, after, rfl, -⟩ := Source.exists_of_opensTarget fits.2
    exact targeted_clean fits.2 fun _ _ _ => .image
  case quote =>
    intro l member
    obtain rfl := List.mem_singleton.1 member
    exact .quote (Text.trim_trim _)
  case table =>
    obtain ⟨-, rfl⟩ := fits
    exact table_clean r
  case math => exact math_clean r
  case lineBreak =>
    intro l member
    obtain rfl := List.mem_singleton.1 member
    exact .lineBreak
  case text =>
    apply text_clean
    rintro rfl
    exact fits rfl

end Piece

/-- Strict reading yields no other tokens than lenient reading. -/
lemma tokenize_strict_subset (source : Text) :
    (tokenize true source).tokens ⊆ (tokenize false source).tokens := by
  have agree := Reading.all_agree (Cursor.start source)
  simp only [tokenize, Lexer.finish, Lexer.start]
  generalize Reading.all true (Cursor.start source) = s at *
  generalize Reading.all false (Cursor.start source) = l at *
  cases agree with
  | clean => exact List.Subset.refl _
  | cut =>
    simp only [Reading.andThen, List.append_assoc]
    exact List.subset_append_left _ _

/-- The values of all tokens of a source are clean, whether reading is strict or not and whether the
constructs are closed or not. -/
theorem tokenize_clean (strict : Bool) (source : Text) :
    ∀ t ∈ (tokenize strict source).tokens, t.lexeme.Clean := by
  have lenient : ∀ t ∈ (tokenize false source).tokens, t.lexeme.Clean :=
    tokenize_lexemes Piece.read_clean .ending source
  cases strict with
  | false => exact lenient
  | true => exact fun t member => lenient t (tokenize_strict_subset source member)

/-- A table with blanks at the ends of its lines, and an image that the end of the input cuts off. -/
theorem tokenize_clean_cut_off :
    ∃ table ∈ (tokenize false "|a |  \n| b\t\n![c](d) ".toList).tokens,
      ∃ image ∈ (tokenize false "![c]( d ".toList).tokens,
        table.value = .text "|a |\n| b".toList ∧ table.lexeme.Clean ∧
        image.value = .payload (.image ['c'] ['d']) ∧ image.lexeme.Clean :=
  have table := List.mem_of_getElem? (show (tokenize false _).tokens[0]? = some _ from rfl)
  have image := List.mem_of_getElem? (show (tokenize false _).tokens[0]? = some _ from rfl)
  ⟨_, table, _, image, rfl, tokenize_clean false _ _ table, rfl, tokenize_clean false _ _ image⟩

end Marktex
