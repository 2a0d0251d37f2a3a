import Marktex.Source.Segment
import Marktex.Token.Packed

/-!
# Pieces of a source

A piece is what is read from the front of a source in one go: one lexeme, or a list marker and its
item. What is read depends on the first characters and on whether they start a line; this choice is
an `Opening`. Each kind of opening has its reader, and `read_covers` says that the source text of the
lexemes and the rest make up the source.
-/

namespace Marktex

/-- A construct that needs a closing delimiter, and that the end of the input closes if there is
none. -/
inductive Construct where
  | codeBlock
  | inlineCode
  | displayMath
  | inlineMath
  | bold
  | italic
  | link
  | image
  deriving DecidableEq, Repr

/-- The name of a construct in messages. -/
def Construct.name : Construct → Text
  | .codeBlock => "code block".toList
  | .inlineCode => "inline code".toList
  | .displayMath => "display math".toList
  | .inlineMath => "inline math".toList
  | .bold => "bold text".toList
  | .italic => "italic text".toList
  | .link => "link".toList
  | .image => "image".toList

/-- A token that has no place yet. -/
structure Lexeme where
  /-- What the lexeme stands for. -/
  kind : Kind
  /-- Its content. -/
  value : Value
  /-- The source text it was made from. -/
  raw : Text
  deriving DecidableEq, Repr

/-- A construct whose closing delimiter was not found, with what had been read of it when the end of
the input was met. -/
structure OpenEnd where
  /-- What is not closed. -/
  construct : Construct
  /-- The source text from where it opens. -/
  raw : Text
  deriving DecidableEq, Repr

/-- What a segment leaves open that should have ended a construct. -/
def OpenEnd.of (segment : Segment) (construct : Construct) (raw : Text) : List OpenEnd :=
  if segment.closed then [] else [⟨construct, raw⟩]

/-- What is read from the front of a source in one go. -/
structure Piece where
  /-- The lexemes, one after the other. -/
  lexemes : List Lexeme
  /-- The source that is left. -/
  rest : Text
  /-- What was found not to be closed, in the order in which the end of the input was met. -/
  openEnds : List OpenEnd
  deriving DecidableEq, Repr

/-- A list marker with the blanks after it, at the front of a source. -/
structure ListMarker where
  /-- Bullet or number. -/
  marker : Marker
  /-- The marker and the blanks. -/
  raw : Text
  /-- The source after them. -/
  rest : Text
  deriving DecidableEq, Repr

/-- What the front of a source opens. -/
inductive Opening where
  | header
  | list (marker : ListMarker)
  | emphasis (mark : Char)
  | code
  | link
  | image
  | quote
  | table
  | math
  | lineBreak
  | text
  deriving DecidableEq, Repr

namespace ListMarker

/-- A bullet, or digits with a period or a parenthesis, at the front of a source. -/
def bare? : Text → Option ListMarker
  | [] => none
  | c :: r =>
    if c = '-' ∨ c = '+' ∨ c = '*' then some ⟨.bullet, [c], r⟩
    else if Digit.isDigit c then
      match r.dropWhile Digit.isDigit with
      | [] => none
      | d :: after =>
        if d = '.' ∨ d = ')' then
          some ⟨.ordinal, c :: r.takeWhile Digit.isDigit ++ [d], after⟩
        else none
    else none

/-- The list marker at the front of a source; at least one space or tab has to follow it. -/
def at? (s : Text) : Option ListMarker :=
  (bare? s).bind fun m =>
    match m.rest.takeWhile Text.isSpaceOrTab with
    | [] => none
    | b :: blanks => some ⟨m.marker, m.raw ++ b :: blanks, m.rest.dropWhile Text.isSpaceOrTab⟩

/-- A bare list marker and what follows it are the whole text. -/
theorem bare?_append {s : Text} {m : ListMarker} (h : bare? s = some m) : m.raw ++ m.rest = s := by
  cases s with
  | nil => simp [bare?] at h
  | cons c r =>
    rw [bare?] at h
    split at h
    · cases h
      rfl
    · split at h
      · have whole := List.takeWhile_append_dropWhile (p := Digit.isDigit) (l := r)
        split at h
        · cases h
        · rename_i d after front
          split at h
          · cases h
            rw [front] at whole
            simp [whole]
          · cases h
      · cases h

/-- A list marker and what follows it are the whole text. -/
theorem at?_append {s : Text} {m : ListMarker} (h : at? s = some m) : m.raw ++ m.rest = s := by
  rw [at?, Option.bind_eq_some_iff] at h
  obtain ⟨bare, found, h⟩ := h
  have whole := List.takeWhile_append_dropWhile (p := Text.isSpaceOrTab) (l := bare.rest)
  split at h
  · cases h
  · rename_i b blanks front
    cases h
    rw [front] at whole
    rw [← bare?_append found, List.append_assoc, whole]

end ListMarker

namespace Opening

/-- What the source `c :: r` opens; the flag says whether it is at the start of a line. -/
def of (lineStart : Bool) (c : Char) (r : Text) : Opening :=
  if lineStart ∧ c = '#' then .header
  else
    match if lineStart then ListMarker.at? (c :: r) else none with
    | some marker => .list marker
    | none =>
      if c = '*' ∨ c = '_' then .emphasis c
      else if c = '`' then .code
      else if Source.opensTarget (c :: r) then .link
      else if c = '!' ∧ Source.opensTarget r then .image
      else if lineStart ∧ c = '>' then .quote
      else if lineStart ∧ c = '|' then .table
      else if c = '$' then .math
      else if Source.atLineEnd (c :: r) then .lineBreak
      else .text

/-- What an opening says of the source `c :: r` that it stands for. -/
def Fits (lineStart : Bool) (c : Char) (r : Text) : Opening → Prop
  | .header => lineStart ∧ c = '#'
  | .list marker => lineStart ∧ ListMarker.at? (c :: r) = some marker
  | .emphasis mark => mark = c ∧ (c = '*' ∨ c = '_')
  | .code => c = '`'
  | .link => Source.opensTarget (c :: r)
  | .image => c = '!' ∧ Source.opensTarget r
  | .quote => lineStart ∧ c = '>'
  | .table => lineStart ∧ c = '|'
  | .math => c = '$'
  | .lineBreak => Source.atLineEnd (c :: r)
  | .text => ¬ Source.atLineEnd (c :: r)

/-- What opens fits the characters at which it does. -/
theorem fits (lineStart : Bool) (c : Char) (r : Text) :
    Fits lineStart c r (Opening.of lineStart c r) := by
  unfold Opening.of
  split
  · assumption
  · split
    · rename_i marker found
      split at found
      · exact ⟨by assumption, found⟩
      · cases found
    · split
      · exact ⟨rfl, by assumption⟩
      · split
        · assumption
        · split
          · assumption
          · split
            · assumption
            · split
              · assumption
              · split
                · assumption
                · split
                  · assumption
                  · split
                    · assumption
                    · assumption

end Opening

namespace Piece

/-- The source text of the lexemes. -/
def raw (p : Piece) : Text :=
  p.lexemes.flatMap Lexeme.raw

/-- A piece of one lexeme that needs no closing delimiter. -/
def single (kind : Kind) (value : Value) (raw rest : Text) : Piece :=
  ⟨[⟨kind, value, raw⟩], rest, []⟩

/-- A header: number signs, and the text up to the end of the line. -/
def header (s : Text) : Piece :=
  let signs := s.takeWhile (· == '#')
  let line := Segment.line (s.dropWhile (· == '#'))
  single .header (.payload (.header signs.length line.text.trim)) (signs ++ line.raw) line.rest

/-- A box that can be ticked off, at the front of a list item: whether it is ticked, the box with
the blanks after it, and the rest. A box needs blanks or the end of the line after it. -/
def box? : Text → Option (Bool × Taken)
  | '[' :: mark :: ']' :: r =>
    (Payload.tick? mark).bind fun checked =>
      let blanks := r.takeWhile Text.isSpaceOrTab
      if blanks ≠ [] ∨ Source.atLineEnd r then
        some (checked, ⟨'[' :: mark :: ']' :: blanks, r.dropWhile Text.isSpaceOrTab⟩)
      else none
  | _ => none

/-- The item after a list marker: the text up to the end of the line, and its box if it has one. -/
def item (s : Text) : Lexeme × Text :=
  match box? s with
  | some (checked, box) =>
    let line := Segment.line box.rest
    (⟨.todoItem, .payload (.todo line.text.trim checked), box.raw ++ line.raw⟩, line.rest)
  | none =>
    let line := Segment.line s
    (⟨.listItem, .text line.text.trim, line.raw⟩, line.rest)

/-- A list marker and its item. -/
def list (m : ListMarker) : Piece :=
  let (lexeme, rest) := item m.rest
  ⟨[⟨.marker m.marker, .text [], m.raw⟩, lexeme], rest, []⟩

/-- A text between two delimiters. -/
def enclosed (style : Style) (construct : Construct) (delimiter s : Text) : Piece :=
  let body := Segment.upTo delimiter s
  let raw := delimiter ++ body.raw
  ⟨[⟨.styled style, .text body.text, raw⟩], body.rest, OpenEnd.of body construct raw⟩

/-- Emphasis after its first mark: bold if the mark is doubled, otherwise italic. -/
def emphasis (mark : Char) (r : Text) : Piece :=
  match Text.skip? [mark] r with
  | some body => enclosed .bold .bold [mark, mark] body
  | none => enclosed .italic .italic [mark] r

/-- A code block after its opening fence: the language up to the end of the line, the code up to the
closing fence without the line end before the fence, and the rest of the line after it. -/
def codeBlock (s : Text) : Piece :=
  let language := Segment.line s
  let body := Segment.upTo "```".toList language.rest
  let blanks := Taken.blankRest body.rest
  let code := Text.withoutLast '\r' (Text.withoutLast '\n' body.text)
  let raw := "```".toList ++ language.raw ++ body.raw
  ⟨[⟨.codeBlock, .payload (.codeBlock language.text.trim code), raw ++ blanks.raw⟩], blanks.rest,
    OpenEnd.of body .codeBlock raw⟩

/-- Code after its first backtick: a block after a fence of three, otherwise a text in the line. -/
def code (r : Text) : Piece :=
  match Text.skip? "``".toList r with
  | some s => codeBlock s
  | none => enclosed .code .inlineCode ['`'] r

/-- Math after its first dollar sign: displayed if the sign is doubled, otherwise in the line. -/
def math (r : Text) : Piece :=
  match Text.skip? ['$'] r with
  | some s =>
    let body := Segment.upTo "$$".toList s
    let blanks := Taken.blankRest body.rest
    let raw := "$$".toList ++ body.raw
    ⟨[⟨.styled .displayMath, .text body.text.trim, raw ++ blanks.raw⟩], blanks.rest,
      OpenEnd.of body .displayMath raw⟩
  | none => enclosed .inlineMath .inlineMath ['$'] r

/-- Label and target after the opening bracket: the label up to the closing bracket, the target in
parentheses. -/
def targeted (kind : Kind) (construct : Construct) (payload : Text → Text → Payload)
    (lead s : Text) : Piece :=
  let label := Segment.upTo [']'] s
  let target := Segment.upTo [')'] (label.rest.drop 1)
  let raw := lead ++ label.raw ++ label.rest.take 1 ++ target.raw
  ⟨[⟨kind, .payload (payload label.text target.text.trim), raw⟩], target.rest,
    OpenEnd.of label construct (lead ++ label.raw) ++ OpenEnd.of target construct raw⟩

/-- A quotation: lines that start with a greater-than sign, which is left out of them. -/
def quote (s : Text) : Piece :=
  let block := Taken.markedLines '>' true s
  let lines := (Text.lines block.raw).map fun line => Text.trim (line.drop 1)
  single (.styled .quote) (.text (Text.join ['\n'] lines).trim) block.raw block.rest

/-- A table: lines that start with a bar. -/
def table (s : Text) : Piece :=
  let block := Taken.markedLines '|' true s
  let rows := (Text.lines block.raw).map Text.trim
  single (.styled .table) (.text (Text.join ['\n'] rows)) block.raw block.rest

/-- A line end that no text stands before. -/
def lineBreak (c : Char) (r : Text) : Piece :=
  let second := if c = '\r' then r.take 1 else []
  single .lineBreak (.text ['\n']) (c :: second) (r.drop second.length)

/-- A run of text. It is a paragraph if its line ends after it, and plain text if another construct
follows on the line. -/
def text (c : Char) (r : Text) : Piece :=
  let run := Source.textRun c r
  let s := c :: run.raw
  match run.rest with
  | [] => single (.styled .paragraph) (.text (Text.withoutLast '\r' s)) s []
  | '\n' :: after =>
    single (.styled .paragraph) (.text (Text.withoutLast '\r' s)) (s ++ ['\n']) after
  | after => single (.styled .plain) (.text s) s after

/-- The piece at the front of the source `c :: r`. -/
def read (lineStart : Bool) (c : Char) (r : Text) : Piece :=
  match Opening.of lineStart c r with
  | .header => header (c :: r)
  | .list marker => list marker
  | .emphasis mark => emphasis mark r
  | .code => code r
  | .link => targeted .link .link .link ['['] r
  | .image => targeted .image .image .image "![".toList (r.drop 1)
  | .quote => quote (c :: r)
  | .table => table (c :: r)
  | .math => math r
  | .lineBreak => lineBreak c r
  | .text => text c r

/-- The source text of the lexemes and the rest make up the source `s`. -/
def Covers (p : Piece) (s : Text) : Prop :=
  p.raw ++ p.rest = s

/-- A header covers the text that it is read from. -/
theorem header_covers (s : Text) : (header s).Covers s := by
  have whole := List.takeWhile_append_dropWhile (p := fun c : Char => c == '#') (l := s)
  simp [Covers, header, single, raw, Segment.line, Segment.raw_append_rest, whole]

/-- A box and what follows it are the whole text. -/
theorem box?_append {s : Text} {checked : Bool} {box : Taken} (h : box? s = some (checked, box)) :
    box.raw ++ box.rest = s := by
  unfold box? at h
  split at h
  · rename_i mark r
    rw [Option.bind_eq_some_iff] at h
    obtain ⟨_, _, h⟩ := h
    dsimp only at h
    split at h
    · cases h
      have whole := List.takeWhile_append_dropWhile (p := Text.isSpaceOrTab) (l := r)
      simp [whole]
    · cases h
  · cases h

/-- An item and what follows it are the whole text. -/
theorem item_append (s : Text) : (item s).1.raw ++ (item s).2 = s := by
  unfold item
  split
  · rename_i checked box found
    simp [Segment.line, Segment.raw_append_rest, box?_append found]
  · simp [Segment.line, Segment.raw_append_rest]

/-- A list marker and its item cover the text that they are read from. -/
theorem list_covers (m : ListMarker) : (list m).Covers (m.raw ++ m.rest) := by
  simp [Covers, list, raw, item_append]

/-- Text between delimiters covers them and what is between them. -/
theorem enclosed_covers (style : Style) (construct : Construct) (delimiter s : Text) :
    (enclosed style construct delimiter s).Covers (delimiter ++ s) := by
  simp [Covers, enclosed, raw, Segment.raw_append_rest]

/-- Emphasis covers its marks and what is between them. -/
theorem emphasis_covers (mark : Char) (r : Text) : (emphasis mark r).Covers (mark :: r) := by
  unfold emphasis
  split
  · rename_i body found
    rw [Text.skip?_eq_some_iff.1 found]
    exact enclosed_covers ..
  · exact enclosed_covers ..

/-- A code block covers its fences and what is between them. -/
theorem codeBlock_covers (s : Text) : (codeBlock s).Covers ("```".toList ++ s) := by
  simp [Covers, codeBlock, raw, Taken.blankRest_append, Segment.line, Segment.raw_append_rest]

/-- Code covers its backticks and what is between them. -/
theorem code_covers (r : Text) : (code r).Covers ('`' :: r) := by
  unfold code
  split
  · rename_i s found
    rw [Text.skip?_eq_some_iff.1 found]
    exact codeBlock_covers s
  · exact enclosed_covers ..

/-- Math covers its dollar signs and what is between them. -/
theorem math_covers (r : Text) : (math r).Covers ('$' :: r) := by
  unfold math
  split
  · rename_i s found
    rw [Text.skip?_eq_some_iff.1 found]
    simp [Covers, raw, Taken.blankRest_append, Segment.raw_append_rest]
  · exact enclosed_covers ..

/-- A link or an image covers its lead, its label and its target. -/
theorem targeted_covers (kind : Kind) (construct : Construct) (payload : Text → Text → Payload)
    (lead s : Text) : (targeted kind construct payload lead s).Covers (lead ++ s) := by
  simp only [Covers, targeted, raw, List.flatMap_cons, List.flatMap_nil, List.append_nil,
    List.append_assoc, Segment.raw_append_rest, List.take_append_drop]

/-- A quotation covers its lines with their marks. -/
theorem quote_covers (s : Text) : (quote s).Covers s := by
  simp [Covers, quote, single, raw, Taken.markedLines_append]

/-- A table covers its lines. -/
theorem table_covers (s : Text) : (table s).Covers s := by
  simp [Covers, table, single, raw, Taken.markedLines_append]

/-- A line break covers the end of its line. -/
theorem lineBreak_covers (c : Char) (r : Text) : (lineBreak c r).Covers (c :: r) := by
  by_cases h : c = '\r'
  · cases r <;> simp [Covers, lineBreak, single, raw, h]
  · simp [Covers, lineBreak, single, raw, h]

/-- Running text covers all characters up to where it stops. -/
theorem text_covers (c : Char) (r : Text) : (text c r).Covers (c :: r) := by
  have whole := Source.textRun_append c r
  unfold text
  dsimp only
  split <;> rename_i h
  · rw [h] at whole
    simpa [Covers, single, raw] using whole
  · rw [h] at whole
    simpa [Covers, single, raw] using whole
  · simpa [Covers, single, raw] using whole

/-- No piece loses, repeats or moves a character of the source. -/
theorem read_covers (lineStart : Bool) (c : Char) (r : Text) :
    (read lineStart c r).Covers (c :: r) := by
  have fits := Opening.fits lineStart c r
  unfold read
  split <;> rename_i h <;> rw [h] at fits
  · exact header_covers _
  · exact ListMarker.at?_append fits.2 ▸ list_covers _
  · exact fits.1 ▸ emphasis_covers _ _
  · exact fits ▸ code_covers r
  · obtain ⟨label, after, front, -⟩ := Source.exists_of_opensTarget fits
    cases front
    exact targeted_covers _ _ _ _ _
  · obtain ⟨rfl, target⟩ := fits
    obtain ⟨label, after, rfl, -⟩ := Source.exists_of_opensTarget target
    exact targeted_covers _ _ _ _ _
  · exact quote_covers _
  · exact table_covers _
  · exact fits ▸ math_covers r
  · exact lineBreak_covers c r
  · exact text_covers c r

end Piece

end Marktex
