import Marktex.Latex.Render
import Marktex.Proofs.Source.Lookahead
import Marktex.Proofs.Token.Openings
import Marktex.Proofs.Token.Targets

/-!
# Writing and reading what is delimited

A text that is written between two delimiters is read back as it was, provided that the closing delimiter is
the first one that stands behind the opening one. What this takes differs from construct to construct and is
said by `Delimited.Writable`; bodies may hold line ends, and those of doubled marks may begin with the mark.
`Delimited.read_written` says that the source that a construct is written as is one piece with one lexeme, and
`tokenize_written` draws from it the tokens and the LaTeX text of the source.
-/

namespace Marktex

/-- A construct between delimiters, with what stands in it. -/
inductive Delimited where
  | code (s : Text)
  | inlineMath (s : Text)
  | displayMath (s : Text)
  | italic (mark : Char) (s : Text)
  | bold (mark : Char) (s : Text)
  | link (s url : Text)
  | image (alt source : Text)
  /-- The flag says whether the line of the closing fence ends with a line feed. -/
  | codeBlock (language body : Text) (feed : Bool)
  deriving DecidableEq, Repr

namespace Delimited

/-- The source text that the construct is written as. -/
def written : Delimited → Text
  | .code s => '`' :: s ++ ['`']
  | .inlineMath s => '$' :: s ++ ['$']
  | .displayMath s => "$$".toList ++ s ++ "$$".toList
  | .italic mark s => mark :: s ++ [mark]
  | .bold mark s => mark :: mark :: s ++ [mark, mark]
  | .link s url => '[' :: s ++ "](".toList ++ url ++ [')']
  | .image alt source => "![".toList ++ alt ++ "](".toList ++ source ++ [')']
  | .codeBlock language body feed =>
    "```".toList ++ language ++ ['\n'] ++ body ++ "\n```".toList ++ if feed then ['\n'] else []

/-- The kind of the token that the construct is read as. -/
def kind : Delimited → Kind
  | .code _ => .styled .code
  | .inlineMath _ => .styled .inlineMath
  | .displayMath _ => .styled .displayMath
  | .italic _ _ => .styled .italic
  | .bold _ _ => .styled .bold
  | .link _ _ => .link
  | .image _ _ => .image
  | .codeBlock _ _ _ => .codeBlock

/-- What the token carries. -/
def value : Delimited → Value
  | .code s => .text s
  | .inlineMath s => .text s
  | .displayMath s => .text s
  | .italic _ s => .text s
  | .bold _ s => .text s
  | .link s url => .payload (.link s url)
  | .image alt source => .payload (.image alt source)
  | .codeBlock language body _ => .payload (.codeBlock language body)

/-- The LaTeX text of the construct: code blocks, math and addresses stay as they are, and all other texts are
escaped. -/
def latex : Delimited → Text
  | .code s => Latex.command "texttt" (Latex.escape s)
  | .inlineMath s => '$' :: s ++ ['$']
  | .displayMath s => "\\[\n".toList ++ s ++ "\n\\]".toList
  | .italic _ s => Latex.command "textit" (Latex.escape s)
  | .bold _ s => Latex.command "textbf" (Latex.escape s)
  | .link s url => Latex.command "href" url ++ Latex.braced (Latex.escape s)
  | .image alt source =>
    Latex.environment "figure" "[h]".toList
      ["\\centering".toList, "\\includegraphics[width=0.8\\textwidth]".toList ++ Latex.braced source,
       Latex.command "caption" (Latex.escape alt)]
  | .codeBlock language body _ =>
    Latex.environment "lstlisting"
      (if language.isEmpty then [] else "[language=".toList ++ language ++ [']']) [body]

/-- The constructs that can be told from the source text that they are written as. -/
inductive Writable : Delimited → Prop where
  | code {s} :
    '`' ∉ s →
    Writable (.code s)
  | inlineMath {s} :
    s ≠ [] →
    '$' ∉ s →
    Writable (.inlineMath s)
  | displayMath {s} :
    Text.trim s = s →
    ¬ "$$".toList <:+: s →
    s.getLast? ≠ some '$' →
    Writable (.displayMath s)
  /-- At the front of a line, an asterisk with a space or a tab behind it would be a bullet. -/
  | italic {mark s} :
    mark = '*' ∨ mark = '_' →
    s ≠ [] →
    mark ∉ s →
    (mark = '*' → ∀ c ∈ s.head?, c ≠ ' ' ∧ c ≠ '\t') →
    Writable (.italic mark s)
  | bold {mark s} :
    mark = '*' ∨ mark = '_' →
    ¬ [mark, mark] <:+: s →
    s.getLast? ≠ some mark →
    Writable (.bold mark s)
  | link {s url} :
    ']' ∉ s →
    '\n' ∉ s →
    Text.trim url = url →
    ')' ∉ url →
    Writable (.link s url)
  | image {alt source} :
    ']' ∉ alt →
    '\n' ∉ alt →
    Text.trim source = source →
    ')' ∉ source →
    Writable (.image alt source)
  | codeBlock {language body feed} :
    Text.trim language = language →
    '\n' ∉ language →
    ¬ "```".toList <:+: body →
    body.getLast? ≠ some '\r' →
    Writable (.codeBlock language body feed)

end Delimited

namespace Piece

/-- What stands between the opening delimiter and the first closing one. -/
lemma enclosed_of_first (style : Style) (construct : Construct) {delimiter s : Text}
    (h : Text.First delimiter s) (front : delimiter ≠ []) :
    enclosed style construct delimiter (s ++ delimiter) =
      ⟨[⟨.styled style, .text s, delimiter ++ (s ++ delimiter)⟩], [], []⟩ := by
  have body := Segment.upTo_of_first h front []
  rw [List.append_nil] at body
  simp only [enclosed, body, OpenEnd.of, if_true]

/-- A text without a backtick, written between two of them, is read as code. -/
lemma code_written {s : Text} (h : '`' ∉ s) :
    code (s ++ ['`']) = ⟨[⟨.styled .code, .text s, '`' :: (s ++ ['`'])⟩], [], []⟩ := by
  have single : Text.skip? "``".toList (s ++ ['`']) = none := by
    cases s with
    | nil => rfl
    | cons c s => exact Text.skip?_of_not_mem _ _ h (List.cons_ne_nil c s)
  simp only [code, single]
  exact enclosed_of_first .code .inlineCode (.single h) (List.cons_ne_nil _ _)

/-- A text that has characters but no dollar sign, written between two of them, is read as inline math. -/
lemma inlineMath_written {s : Text} (some : s ≠ []) (h : '$' ∉ s) :
    math (s ++ ['$']) = ⟨[⟨.styled .inlineMath, .text s, '$' :: (s ++ ['$'])⟩], [], []⟩ := by
  simp only [math, Text.skip?_of_not_mem [] ['$'] h some]
  exact enclosed_of_first .inlineMath .inlineMath (.single h) (List.cons_ne_nil _ _)

/-- A trimmed text that does not hold two dollar signs or end with one, written between two pairs, is read
as displayed math. -/
lemma displayMath_written {s : Text} (trimmed : Text.trim s = s) (free : ¬ "$$".toList <:+: s)
    (last : s.getLast? ≠ some '$') :
    math ('$' :: s ++ "$$".toList) =
      ⟨[⟨.styled .displayMath, .text s, "$$".toList ++ s ++ "$$".toList⟩], [], []⟩ := by
  have doubled : Text.skip? ['$'] ('$' :: s ++ "$$".toList) = some (s ++ "$$".toList) :=
    Text.skip?_eq_some_iff.2 rfl
  have first : Text.First "$$".toList s := .run (n := 2) free last
  have body := Segment.upTo_of_first first (List.cons_ne_nil _ _) []
  rw [List.append_nil] at body
  simp only [math, doubled, body, trimmed, Taken.blankRest, OpenEnd.of]
  simp

/-- A text that has characters but no mark, written between two marks, is read as italics. -/
lemma italic_written {mark : Char} {s : Text} (some : s ≠ []) (h : mark ∉ s) :
    emphasis mark (s ++ [mark]) = ⟨[⟨.styled .italic, .text s, mark :: (s ++ [mark])⟩], [], []⟩ := by
  simp only [emphasis, Text.skip?_of_not_mem [] [mark] h some]
  exact enclosed_of_first .italic .italic (.single h) (List.cons_ne_nil _ _)

/-- A text that does not hold two marks or end with one, written between two pairs, is read as bold text. -/
lemma bold_written {mark : Char} {s : Text} (free : ¬ [mark, mark] <:+: s)
    (last : s.getLast? ≠ some mark) :
    emphasis mark (mark :: s ++ [mark, mark]) =
      ⟨[⟨.styled .bold, .text s, mark :: mark :: s ++ [mark, mark]⟩], [], []⟩ := by
  have doubled : Text.skip? [mark] (mark :: s ++ [mark, mark]) = some (s ++ [mark, mark]) :=
    Text.skip?_eq_some_iff.2 rfl
  simp only [emphasis, doubled]
  exact enclosed_of_first .bold .bold (.run (n := 2) free last) (List.cons_ne_nil _ _)

/-- A label and a target are read up to the brackets that close them. -/
lemma targeted_written (kind : Kind) (construct : Construct) (payload : Text → Text → Payload)
    (lead : Text) {label target : Text} (plain : ']' ∉ label) (trimmed : Text.trim target = target)
    (closed : ')' ∉ target) :
    targeted kind construct payload lead (label ++ ']' :: '(' :: (target ++ [')'])) =
      ⟨[⟨kind, .payload (payload label target), lead ++ label ++ "](".toList ++ target ++ [')']⟩], [], []⟩ := by
  have whole := targeted_closed kind construct payload lead [] plain closed
  rwa [trimmed] at whole

/-- A fence does not stand in a text or across the line feed behind it. -/
lemma not_infix_fence {s : Text} (free : ¬ "```".toList <:+: s) : ¬ "```".toList <:+: s ++ ['\n'] := by
  intro inside
  rcases List.infix_concat_iff.1 inside with last | inside
  · rcases List.suffix_concat_iff.1 last with none | ⟨t, fence, -⟩
    · cases none
    · have feed : '\n' ∈ "```".toList := fence ▸ List.mem_concat_self
      revert feed
      decide
  · exact free inside

/-- The line feed before the closing fence does not belong to the code. -/
lemma withoutLast_line_end {s : Text} (last : s.getLast? ≠ some '\r') :
    Text.withoutLast '\r' (Text.withoutLast '\n' (s ++ ['\n'])) = s := by
  have inner : Text.withoutLast '\n' (s ++ ['\n']) = s := by
    rw [Text.withoutLast, if_pos List.getLast?_concat, List.dropLast_concat]
  rw [inner, Text.withoutLast, if_neg last]

/-- A body without a fence and a language of one trimmed line, written between fences, are read as a code
block, also if a line end follows. -/
lemma codeBlock_written {language body : Text} (feed : Bool) (trimmed : Text.trim language = language)
    (plain : '\n' ∉ language) (free : ¬ "```".toList <:+: body) (last : body.getLast? ≠ some '\r') :
    codeBlock (language ++ ['\n'] ++ body ++ "\n```".toList ++ if feed then ['\n'] else []) =
      ⟨[⟨.codeBlock, .payload (.codeBlock language body),
          "```".toList ++ language ++ ['\n'] ++ body ++ "\n```".toList ++ if feed then ['\n'] else []⟩],
        [], []⟩ := by
  generalize behind : (if feed then ['\n'] else []) = t
  have blanks : Taken.blankRest t = ⟨t, []⟩ := by
    subst behind
    cases feed <;> rfl
  have first : Text.First "```".toList (body ++ ['\n']) := by
    apply Text.First.run (n := 3) (not_infix_fence free)
    rw [List.getLast?_concat]
    decide
  have code := Segment.upTo_of_first first (List.cons_ne_nil _ _) t
  have line := Segment.upTo_of_not_mem (body ++ ['\n'] ++ ("```".toList ++ t)) plain
  have parts : language ++ ['\n'] ++ body ++ "\n```".toList ++ t =
      language ++ '\n' :: (body ++ ['\n'] ++ ("```".toList ++ t)) := by simp
  rw [parts]
  simp only [codeBlock, Segment.line, line, code, blanks, trimmed, withoutLast_line_end last, OpenEnd.of]
  simp

end Piece

/-- The brackets between a label and a target are two characters. -/
lemma Delimited.labelled_parts (label target : Text) :
    label ++ "](".toList ++ target ++ [')'] = label ++ ']' :: '(' :: (target ++ [')']) := by
  simp

/-- The source text of a construct is one piece with one lexeme, in which nothing stays open. -/
theorem Delimited.read_written {d : Delimited} (h : d.Writable) :
    ∃ c r, d.written = c :: r ∧
      Piece.read true c r = ⟨[⟨d.kind, d.value, d.written⟩], [], []⟩ := by
  cases h with
  | @code s plain =>
    refine ⟨'`', s ++ ['`'], rfl, ?_⟩
    rw [Piece.read, Opening.of_code]
    exact Piece.code_written plain
  | @inlineMath s some plain =>
    refine ⟨'$', s ++ ['$'], rfl, ?_⟩
    rw [Piece.read, Opening.of_math]
    exact Piece.inlineMath_written some plain
  | @displayMath s trimmed free last =>
    refine ⟨'$', '$' :: s ++ "$$".toList, rfl, ?_⟩
    rw [Piece.read, Opening.of_math]
    exact Piece.displayMath_written trimmed free last
  | @italic mark s isMark some plain solid =>
    refine ⟨mark, s ++ [mark], rfl, ?_⟩
    have other : ListMarker.at? (mark :: (s ++ [mark])) = none := by
      obtain ⟨c, s, rfl⟩ := List.exists_cons_of_ne_nil some
      apply ListMarker.at?_of_mark _ isMark
      intro star
      simpa [Text.isSpaceOrTab] using solid star c rfl
    rw [Piece.read, Opening.of_emphasis isMark fun _ => other]
    exact Piece.italic_written some plain
  | @bold mark s isMark free last =>
    refine ⟨mark, mark :: s ++ [mark, mark], rfl, ?_⟩
    have other : ListMarker.at? (mark :: (mark :: s ++ [mark, mark])) = none := by
      apply ListMarker.at?_of_mark _ isMark
      rintro rfl
      rfl
    rw [Piece.read, Opening.of_emphasis isMark fun _ => other]
    exact Piece.bold_written free last
  | @link s url label line trimmed closed =>
    have target := Source.opensTarget_of_label (url ++ [')']) label line
    refine ⟨'[', _, congrArg ('[' :: ·) (labelled_parts s url), ?_⟩
    rw [Piece.read, Opening.of_link true target]
    exact Piece.targeted_written .link .link .link ['['] label trimmed closed
  | @image alt source label line trimmed closed =>
    have target := Source.opensTarget_of_label (source ++ [')']) label line
    refine ⟨'!', _, congrArg ('!' :: '[' :: ·) (labelled_parts alt source), ?_⟩
    rw [Piece.read, Opening.of_image true target]
    exact Piece.targeted_written .image .image .image "![".toList label trimmed closed
  | @codeBlock language body feed trimmed plain free last =>
    have fence := Piece.codeBlock_written feed trimmed plain free last
    have parts (t : Text) : "```".toList ++ language ++ ['\n'] ++ body ++ "\n```".toList ++ t =
        '`' :: ("``".toList ++ (language ++ ['\n'] ++ body ++ "\n```".toList ++ t)) := by
      simp only [List.append_assoc]
      rfl
    refine ⟨'`', _, parts _, ?_⟩
    rw [Piece.read, Opening.of_code]
    simp only [Piece.code, Text.skip?_eq_some_iff.2 rfl]
    exact fence

/-- A source of one piece, in which nothing stays open, is read in the same way whether reading is strict or
not. -/
lemma tokenize_of_read (strict : Bool) {c : Char} {r : Text} {l : Lexeme}
    (h : Piece.read true c r = ⟨[l], [], []⟩) :
    (tokenize strict (c :: r)).failure = none ∧
      (tokenize strict (c :: r)).tokens =
        [⟨l.kind, l.value, l.raw, Span.along Position.origin l.raw⟩,
          Token.ending (Position.origin.after l.raw)] ∧
      (tokenize strict (c :: r)).warnings = [] := by
  have step : Reading.step strict (Cursor.start (c :: r)) =
      ⟨Lexeme.place Position.origin [l], [], none, ⟨l.raw.getLast? = some '\n', Position.origin.after l.raw, []⟩⟩ := by
    simp [Reading.step, Cursor.start, h, Cursor.past, Piece.raw]
  have all : Reading.all strict (Cursor.start (c :: r)) = Reading.step strict (Cursor.start (c :: r)) := by
    rw [Reading.all_piece strict (List.cons_ne_nil c r), step, Reading.andThen, Reading.all_ending strict rfl]
    rfl
  simp only [tokenize, Lexer.finish, Lexer.start, all, step, Reading.andThen]
  exact ⟨trivial, rfl, rfl⟩

/-- A stream of one token has a document of one node. -/
lemma Document.ofTokens_single {t : Token} {content : Content} (p : Position)
    (single : t.kind.isListPart = false) (known : t.kind.isKnown = true) (said : t.content = .ok content) :
    Document.ofTokens [t, Token.ending p] = .ok ⟨[⟨content, t.span⟩], t.span.start, p⟩ := by
  apply Document.ofTokens_eq_ok_iff.2
  have start : Parser.start [t, Token.ending p] = ⟨[t], Token.ending p⟩ := rfl
  refine ⟨_, ⟨[], Token.ending p⟩, ?_, rfl⟩
  rw [start]
  simp [Parser.nodes, Parser.node, Parser.atEnd, single, known, said, Except.map]

/-- A source of one token has the form of its node as its LaTeX text. -/
lemma Latex.convert_single {strict : Bool} {source : Text} {t : Token} {p : Position} {content : Content}
    (success : (tokenize strict source).failure = none)
    (tokens : (tokenize strict source).tokens = [t, Token.ending p]) (single : t.kind.isListPart = false)
    (known : t.kind.isKnown = true) (said : t.content = .ok content) :
    Latex.convert strict source = .ok content.render := by
  have made := Document.ofTokens_single p single known said
  simp only [convert, Document.ofSource, success, tokens, made, Except.mapError, Except.map,
    Document.toLatex, render, List.map_singleton, Text.join, List.intercalate_singleton]

/-- The token of a construct says what the LaTeX text of the construct is made of. -/
lemma Delimited.exists_content (d : Delimited) (span : Span) :
    ∃ content, Token.content ⟨d.kind, d.value, d.written, span⟩ = .ok content ∧
      content.render = d.latex := by
  cases d <;> exact ⟨_, rfl, rfl⟩

/-- The source text of a construct is read as one token with the construct in it, without a warning, and is
converted to the LaTeX text of the construct. -/
theorem tokenize_written {d : Delimited} (h : d.Writable) (strict : Bool) :
    (tokenize strict d.written).failure = none ∧
    (tokenize strict d.written).tokens =
      [⟨d.kind, d.value, d.written, Span.along Position.origin d.written⟩,
        Token.ending (Position.origin.after d.written)] ∧
    (tokenize strict d.written).warnings = [] ∧
    Latex.convert strict d.written = .ok d.latex := by
  obtain ⟨c, r, written, read⟩ := Delimited.read_written h
  obtain ⟨success, tokens, warnings⟩ := tokenize_of_read strict read
  rw [← written] at success tokens warnings
  refine ⟨success, tokens, warnings, ?_⟩
  obtain ⟨content, said, latex⟩ := d.exists_content (Span.along Position.origin d.written)
  rw [← latex]
  apply Latex.convert_single success tokens _ _ said
  · cases d <;> rfl
  · cases d <;> rfl

/-- A code block with empty lines at its ends, two backticks in it and a line feed behind it. -/
theorem tokenize_written_fenced :
    (Delimited.codeBlock "c".toList "\n``a``\n\n".toList true).Writable ∧
    Latex.convert false "```c\n\n``a``\n\n\n```\n".toList =
      .ok "\\begin\x7blstlisting\x7d[language=c]\n\n``a``\n\n\n\\end\x7blstlisting\x7d".toList := by
  have writable : (Delimited.codeBlock "c".toList "\n``a``\n\n".toList true).Writable :=
    .codeBlock (by decide) (by decide) (by decide) (by decide)
  exact ⟨writable, (tokenize_written writable false).2.2.2⟩

end Marktex
