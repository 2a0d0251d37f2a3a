import Mathlib.Tactic.Lemma
import Marktex.Proofs.Source.Lookahead
import Marktex.Proofs.Source.Places
import Marktex.Proofs.Token.Lexemes
import Marktex.Proofs.Token.Openings
import Marktex.Proofs.Token.Strictness

/-!
# Locality at line ends

A piece of a source that ends with a line end, and in which nothing stays open, is the same piece
whatever is written behind the source (`Piece.read_extend`); only a quotation or a table at the end can
go on there. Reading two texts one behind the other is therefore reading the first one and then the second
one from the place where the first one ends (`Reading.all_extend`), and the second reading differs from
a reading of its own only in its places (`tokenize_append`).
-/

namespace Marktex

namespace Text

/-- What is left of a text that ends with a line end does too, unless nothing is left. -/
lemma line_of_append {a b s : Text} (whole : a ++ b = s) (line : s.getLast? = some '\n') :
    b = [] ∨ b.getLast? = some '\n' := by
  cases b with
  | nil => exact .inl rfl
  | cons c b =>
    right
    rw [← whole, List.getLast?_append] at line
    obtain ⟨d, last⟩ := Option.ne_none_iff_exists'.1 (mt List.getLast?_eq_none_iff.1 (List.cons_ne_nil c b))
    rw [last] at line ⊢
    exact line

end Text

/-- Behind a delimiter that is no line end, a text that ends with a line end goes on to it. -/
lemma Segment.mem_rest {delimiter s : Text} (nonempty : delimiter ≠ []) (plain : '\n' ∉ delimiter)
    (line : s = [] ∨ s.getLast? = some '\n') (closed : (upTo delimiter s).closed = true) :
    '\n' ∈ (upTo delimiter s).rest := by
  obtain rfl | line := line
  · cases closed
  · cases found : Text.cut? delimiter s with
    | none => simp [upTo, found] at closed
    | some parts =>
      obtain ⟨before, after⟩ := parts
      have whole := Text.append_of_cut? found
      simp only [upTo, found]
      obtain rfl | last := Text.line_of_append whole.symm line
      · -- otherwise the line end would be the end of the delimiter
        rw [List.append_nil] at whole
        obtain none | last := Text.line_of_append whole.symm line
        · exact absurd none nonempty
        · exact absurd (List.mem_of_getLast? last) plain
      · exact List.mem_of_getLast? last

namespace ListMarker

/-- A list marker at the front of a source behind which `t` is written. -/
def extend (t : Text) (m : ListMarker) : ListMarker :=
  { m with rest := m.rest ++ t }

/-- A bare list marker on a line that ends is read alike with more behind it. -/
lemma bare?_extend {s : Text} (t : Text) (h : '\n' ∈ s) :
    bare? (s ++ t) = (bare? s).map (extend t) := by
  cases s with
  | nil => cases h
  | cons c r =>
    rw [List.cons_append, bare?, bare?]
    split
    case isTrue => rfl
    case isFalse =>
      split
      case isFalse => rfl
      case isTrue digit =>
        have later : '\n' ∈ r := by
          refine (List.mem_cons.1 h).resolve_left ?_
          rintro rfl
          revert digit
          decide
        have left := mem_dropWhile_of_stop (p := Digit.isDigit) (by decide) later
        rw [takeWhile_of_stop (p := Digit.isDigit) t (by decide) later,
          dropWhile_of_stop (p := Digit.isDigit) t (by decide) later]
        generalize r.dropWhile Digit.isDigit = rest at left
        cases rest with
        | nil => cases left
        | cons d after =>
          simp only [List.cons_append]
          split <;> rfl

/-- A list marker on a line that ends is read alike with more behind it. -/
lemma at?_extend {s : Text} (t : Text) (h : '\n' ∈ s) : at? (s ++ t) = (at? s).map (extend t) := by
  rw [at?, at?, bare?_extend t h]
  cases found : bare? s with
  | none => rfl
  | some m =>
    have left := mem_bare?_rest found h
    simp only [Option.map_some, Option.bind_some, extend,
      takeWhile_of_stop (p := Text.isSpaceOrTab) t rfl left,
      dropWhile_of_stop (p := Text.isSpaceOrTab) t rfl left]
    split <;> rfl

end ListMarker

/-- What opens is settled by the end of the line. -/
lemma Opening.of_extend (lineStart : Bool) (c : Char) {r : Text} (t : Text) (h : '\n' ∈ c :: r) :
    Opening.of lineStart c (r ++ t) = (Opening.of lineStart c r).mapMarker (ListMarker.extend t) := by
  apply of_congr
  · exact ListMarker.at?_extend t h
  · exact Source.opensTarget_line t h
  · rintro rfl
    exact Source.opensTarget_line t ((List.mem_cons.1 h).resolve_left (by decide))
  · exact Source.atLineEnd_line t h

/-- Whether what is written behind a token of this kind belongs to it: a line of a quotation to a
quotation, and a row to a table. -/
def Kind.Absorbs (s : Text) (kind : Kind) : Prop :=
  kind = .styled .quote ∧ s.head? = some '>' ∨ kind = .styled .table ∧ s.head? = some '|'

/-- Nothing stays open that a closed segment should have ended. -/
lemma OpenEnd.closed_of_eq_nil {segment : Segment} {construct : Construct} {raw : Text}
    (h : OpenEnd.of segment construct raw = []) : segment.closed = true := by
  unfold OpenEnd.of at h
  split at h
  · assumption
  · cases h

namespace Piece

/-- The piece of a source behind which `t` is written. -/
def extend (t : Text) (p : Piece) : Piece :=
  { p with rest := p.rest ++ t }

variable {s : Text} (t : Text)

/-- A header on a line that ends is read alike with more behind it. -/
lemma header_extend (h : '\n' ∈ s) : header (s ++ t) = (header s).extend t := by
  have signs := takeWhile_of_stop (p := (· == '#')) t rfl h
  have rest := dropWhile_of_stop (p := (· == '#')) t rfl h
  have line := Segment.line_extend t (mem_dropWhile_of_stop (p := (· == '#')) rfl h)
  simp only [header, signs, rest, line, Segment.extend, single, extend]

/-- A box on a line that ends is read alike with more behind it. -/
lemma box?_extend (h : '\n' ∈ s) :
    box? (s ++ t) = (box? s).map fun (checked, box) => (checked, box.extend t) := by
  by_cases boxed : ∃ mark r, s = '[' :: mark :: ']' :: r
  · obtain ⟨mark, r, rfl⟩ := boxed
    cases tick : Payload.tick? mark with
    | none => simp [box?, tick]
    | some checked =>
      have later : '\n' ∈ r := by
        simp only [List.mem_cons] at h
        obtain feed | rfl | feed | later := h
        · cases feed
        · cases tick
        · cases feed
        · exact later
      simp only [box?, List.cons_append, tick, Option.bind_some,
        takeWhile_of_stop (p := Text.isSpaceOrTab) t rfl later,
        dropWhile_of_stop (p := Text.isSpaceOrTab) t rfl later, Source.atLineEnd_line t later]
      split <;> rfl
  · have short : box? s = none := box?_eq_none fun mark r front => absurd ⟨mark, r, front⟩ boxed
    rw [short]
    apply box?_eq_none
    intro mark r front
    obtain ⟨more, bracket, -⟩ | ⟨more, bracket, -⟩ :=
      List.append_eq_append_iff.1 (show s ++ t = ['[', mark, ']'] ++ r from front)
    · -- the line would have to end inside of the box
      have inside : '\n' ∈ ['[', mark, ']'] := bracket ▸ List.mem_append_left more h
      obtain rfl : mark = '\n' := by simpa [eq_comm] using inside
      rfl
    · exact absurd ⟨mark, more, bracket⟩ boxed

/-- An item on a line that ends is read alike with more behind it. -/
lemma item_extend (h : '\n' ∈ s) : item (s ++ t) = ((item s).1, (item s).2 ++ t) := by
  rw [item, item, box?_extend t h]
  cases found : box? s with
  | none => simp only [Option.map_none, Segment.line_extend t h, Segment.extend]
  | some boxed =>
    obtain ⟨checked, box⟩ := boxed
    have left : '\n' ∈ box.rest := by
      rw [← box?_append found, List.mem_append] at h
      exact h.resolve_left (box?_plain found)
    simp only [Option.map_some, Taken.extend, Segment.line_extend t left, Segment.extend]

/-- A marker and its item on a line that ends are read alike with more behind them. -/
lemma list_extend {m : ListMarker} (h : '\n' ∈ m.rest) : list (m.extend t) = (list m).extend t := by
  simp only [list, ListMarker.extend, item_extend t h, extend]

/-- Text between delimiters that is closed is read alike with more behind it. -/
lemma enclosed_extend {style : Style} {construct : Construct} {delimiter : Text}
    (closed : (enclosed style construct delimiter s).openEnds = []) :
    enclosed style construct delimiter (s ++ t) = (enclosed style construct delimiter s).extend t := by
  have found := OpenEnd.closed_of_eq_nil closed
  simp only [enclosed, Segment.upTo_extend t found, Segment.extend, extend, OpenEnd.of]

/-- Emphasis that is closed is read alike with more behind it. -/
lemma emphasis_extend {mark : Char} {r : Text} (plain : '\n' ≠ mark) (h : '\n' ∈ r)
    (closed : (emphasis mark r).openEnds = []) :
    emphasis mark (r ++ t) = (emphasis mark r).extend t := by
  have doubled := Text.skip?_extend [mark] t (mt List.mem_singleton.1 plain) h
  unfold emphasis at closed ⊢
  rw [doubled]
  split at closed
  case h_1 body found =>
    rw [found]
    exact enclosed_extend t closed
  case h_2 found =>
    rw [found]
    exact enclosed_extend t closed

/-- A code block that is closed in whole lines is read alike with more behind it. -/
lemma codeBlock_extend (line : s.getLast? = some '\n') (closed : (codeBlock s).openEnds = []) :
    codeBlock (s ++ t) = (codeBlock s).extend t := by
  have found := OpenEnd.closed_of_eq_nil closed
  have language := Segment.line_extend t (List.mem_of_getLast? line)
  have code := Segment.upTo_extend t found
  have left : (Segment.line s).rest = [] ∨ (Segment.line s).rest.getLast? = some '\n' :=
    Text.line_of_append (Segment.raw_append_rest ['\n'] s) line
  have blanks := Taken.blankRest_extend t (Segment.mem_rest (by decide) (by decide) left found)
  simp only [codeBlock, language, Segment.extend, code, blanks, Taken.extend, extend, OpenEnd.of]

/-- Code that is closed in whole lines is read alike with more behind it. -/
lemma code_extend {r : Text} (line : r.getLast? = some '\n') (closed : (code r).openEnds = []) :
    code (r ++ t) = (code r).extend t := by
  have fence := Text.skip?_extend "``".toList t (by decide) (List.mem_of_getLast? line)
  unfold code at closed ⊢
  rw [fence]
  split at closed
  case h_1 s found =>
    have left := Text.line_of_append (Text.skip?_eq_some_iff.1 found).symm line
    rw [found]
    obtain rfl | left := left
    · cases closed
    · exact codeBlock_extend t left closed
  case h_2 found =>
    rw [found]
    exact enclosed_extend t closed

/-- Math that is closed in whole lines is read alike with more behind it. -/
lemma math_extend {r : Text} (line : r.getLast? = some '\n') (closed : (math r).openEnds = []) :
    math (r ++ t) = (math r).extend t := by
  have signs := Text.skip?_extend ['$'] t (by decide) (List.mem_of_getLast? line)
  unfold math at closed ⊢
  rw [signs]
  split at closed
  case h_1 s found =>
    have left := Text.line_of_append (Text.skip?_eq_some_iff.1 found).symm line
    have found' := OpenEnd.closed_of_eq_nil closed
    have blanks := Taken.blankRest_extend t (Segment.mem_rest (by decide) (by decide) left found')
    have body := Segment.upTo_extend t found'
    simp only [found, Option.map_some, body, Segment.extend, blanks, Taken.extend, extend, OpenEnd.of]
  case h_2 found =>
    rw [found]
    exact enclosed_extend t closed

/-- A link that opens and is closed is read alike with more behind it. -/
lemma targeted_extend {kind : Kind} {construct : Construct} {payload : Text → Text → Payload}
    {lead : Text} (link : Source.opensTarget ('[' :: s) = true)
    (closed : (targeted kind construct payload lead s).openEnds = []) :
    targeted kind construct payload lead (s ++ t) =
      (targeted kind construct payload lead s).extend t := by
  obtain ⟨label, after, front, plain⟩ := Source.exists_of_opensTarget link
  obtain rfl : s = label ++ ']' :: '(' :: after := by simpa using front
  have absent : ']' ∉ label := fun member => (plain _ member).1 rfl
  have labelled := Segment.upTo_of_not_mem ('(' :: after) absent
  have longer := Segment.upTo_of_not_mem ('(' :: (after ++ t)) absent
  have target : (Segment.upTo [')'] after).closed = true := by
    simp only [targeted, labelled] at closed
    exact OpenEnd.closed_of_eq_nil (List.append_eq_nil_iff.1 closed).2
  simp only [targeted, List.append_assoc, List.cons_append, labelled, longer, List.drop_succ_cons,
    List.drop_zero, List.take_succ_cons, List.take_zero, Segment.upTo_extend t target,
    Segment.extend, extend, OpenEnd.of]

/-- A quotation of whole lines is read alike with more behind it, unless that begins with another line of
it. -/
lemma quote_extend (line : s.getLast? = some '\n')
    (apart : (quote s).rest = [] → t.head? ≠ some '>') : quote (s ++ t) = (quote s).extend t := by
  have block := Taken.markedLines_extend '>' (by decide) (.inr line) apart
  simp only [quote, block, Taken.extend, single, extend]

/-- A table of whole lines is read alike with more behind it, unless that begins with another row. -/
lemma table_extend (line : s.getLast? = some '\n')
    (apart : (table s).rest = [] → t.head? ≠ some '|') : table (s ++ t) = (table s).extend t := by
  have block := Taken.markedLines_extend '|' (by decide) (.inr line) apart
  simp only [table, block, Taken.extend, single, extend]

/-- A line break is read alike with more behind it. -/
lemma lineBreak_extend {c : Char} {r : Text} (h : '\n' ∈ c :: r) :
    lineBreak c (r ++ t) = (lineBreak c r).extend t := by
  by_cases pair : c = '\r'
  · obtain ⟨d, r, rfl⟩ := List.exists_cons_of_ne_nil (List.ne_nil_of_mem
      ((List.mem_cons.1 h).resolve_left (by rw [pair]; decide)))
    simp [lineBreak, single, extend, pair]
  · simp [lineBreak, single, extend, pair]

/-- Running text on a line that ends is read alike with more behind it. -/
lemma text_extend {c : Char} {r : Text} (h : '\n' ∈ r) : text c (r ++ t) = (text c r).extend t := by
  have left : '\n' ∈ (Source.textRun c r).rest := by
    rw [← Source.textRun_append c r, List.mem_append] at h
    exact h.resolve_left (Source.textRun_plain c r)
  obtain ⟨d, rest, front⟩ := List.exists_cons_of_ne_nil (List.ne_nil_of_mem left)
  simp only [text, Source.textRun_extend c t h, Taken.extend, front, List.cons_append]
  by_cases feed : d = '\n'
  · subst feed
    rfl
  · simp [feed, single, extend]

/-- A piece of a source that ends with a line end, in which nothing stays open, is the same piece
whatever is written behind the source, unless that is absorbed by it. -/
theorem read_extend {lineStart : Bool} {c : Char} {r : Text} (line : (c :: r).getLast? = some '\n')
    (closed : (read lineStart c r).openEnds = [])
    (apart : (read lineStart c r).rest = [] →
      ∀ l ∈ (read lineStart c r).lexemes.getLast?, ¬ l.kind.Absorbs t) :
    read lineStart c (r ++ t) = (read lineStart c r).extend t := by
  have fits := Opening.fits lineStart c r
  have feed : '\n' ∈ c :: r := List.mem_of_getLast? line
  have later : c ≠ '\n' → r.getLast? = some '\n' := fun other =>
    (Text.getLast?_cons_cases line).resolve_left fun ⟨_, same⟩ => other same
  have opened := Opening.of_extend lineStart c t feed
  unfold read at closed apart ⊢
  rw [opened]
  cases opening : Opening.of lineStart c r <;> rw [opening] at fits closed apart
  case header => exact header_extend t feed
  case list m => exact list_extend t (ListMarker.mem_at?_rest fits.2 feed)
  case emphasis mark =>
    obtain ⟨rfl, star⟩ := fits
    have other : '\n' ≠ mark := by
      rintro rfl
      revert star
      decide
    exact emphasis_extend t other (List.mem_of_getLast? (later other.symm)) closed
  case code =>
    obtain rfl : c = '`' := fits
    exact code_extend t (later (by decide)) closed
  case link =>
    obtain ⟨label, after, front, -⟩ := Source.exists_of_opensTarget fits
    obtain ⟨rfl, -⟩ := List.cons.inj front
    exact targeted_extend t fits closed
  case image =>
    obtain ⟨rfl, target⟩ := fits
    obtain ⟨label, after, rfl, -⟩ := Source.exists_of_opensTarget target
    exact targeted_extend t target closed
  case quote =>
    apply quote_extend t line
    intro none mark
    exact apart none _ rfl (.inl ⟨rfl, mark⟩)
  case table =>
    apply table_extend t line
    intro none mark
    exact apart none _ rfl (.inr ⟨rfl, mark⟩)
  case math =>
    obtain rfl : c = '$' := fits
    exact math_extend t (later (by decide)) closed
  case lineBreak => exact lineBreak_extend t feed
  case text =>
    have other : c ≠ '\n' := by
      rintro rfl
      exact fits rfl
    exact text_extend t (List.mem_of_getLast? (later other))

end Piece

/-- The place that a place of a source becomes when `front` is written before the source. -/
def Position.shift (front : Text) (p : Position) : Position :=
  ⟨p.line + front.count '\n', p.column, p.offset + front.length⟩

/-- The stretch that a stretch of a source becomes when `front` is written before the source. -/
def Span.shift (front : Text) (span : Span) : Span :=
  ⟨span.start.shift front, span.stop.shift front⟩

/-- The token that a token of a source becomes when `front` is written before the source. -/
def Token.shift (front : Text) (t : Token) : Token :=
  { t with span := t.span.shift front }

/-- The report that a report on a source becomes when `front` is written before the source. -/
def Unclosed.shift (front : Text) (u : Unclosed) : Unclosed :=
  { u with span := u.span.shift front }

namespace Position

/-- A position moves on by a character alike behind a front part. -/
lemma next_shift (front : Text) (p : Position) (c : Char) :
    (p.shift front).next c = (p.next c).shift front := by
  unfold next
  split
  · simp only [shift, mk.injEq, true_and]
    omega
  · simp only [shift, mk.injEq, true_and]
    omega

/-- Places move along a text in the same way wherever it stands. -/
lemma after_shift (front : Text) (p : Position) (s : Text) :
    (p.shift front).after s = (p.after s).shift front := by
  induction s generalizing p with
  | nil => rfl
  | cons c s ih => rw [after_cons, next_shift, ih, after_cons]

/-- The place behind a text that ends with a line end is the front of a source, shifted. -/
lemma origin_after_line {s : Text} (line : s = [] ∨ s.getLast? = some '\n') :
    origin.after s = origin.shift s := by
  have column : (origin.after s).column = 1 := by
    obtain rfl | line := line
    · rfl
    · obtain ⟨front, rfl⟩ := List.getLast?_eq_some_iff.1 line
      rw [after_append]
      rfl
  have line := line_after origin s
  have offset := offset_after origin s
  generalize origin.after s = p at column line offset
  cases p
  simp_all [shift, origin]

end Position

/-- A span along a text is shifted with its start. -/
lemma Span.along_shift (front : Text) (p : Position) (s : Text) :
    along (p.shift front) s = (along p s).shift front := by
  rw [along, Position.after_shift]
  rfl

/-- Lexemes are placed alike behind a front part, with shifted spans. -/
lemma Lexeme.place_shift (front : Text) (p : Position) (ls : List Lexeme) :
    place (p.shift front) ls = (place p ls).map (Token.shift front) := by
  induction ls generalizing p with
  | nil => rfl
  | cons l ls ih =>
    rw [place, Span.along_shift, Position.after_shift, ih]
    rfl

/-- The cursor with `front` written before its source. -/
def Cursor.shift (front : Text) (cursor : Cursor) : Cursor :=
  { cursor with position := cursor.position.shift front }

namespace Reading

/-- The reading with `front` written before the source. -/
def shift (front : Text) (reading : Reading) : Reading :=
  ⟨reading.tokens.map (Token.shift front), reading.warnings.map (Unclosed.shift front),
    reading.failure.map (Unclosed.shift front), reading.cursor.shift front⟩

/-- Readings one after the other are shifted together. -/
lemma andThen_shift {front : Text} {first : Reading} {next next' : Cursor → Reading}
    (h : next' (first.cursor.shift front) = (next first.cursor).shift front) :
    (first.shift front).andThen next' = (first.andThen next).shift front := by
  cases failure : first.failure with
  | some u => simp [andThen, shift, failure]
  | none =>
    have same : (first.shift front).cursor = first.cursor.shift front := rfl
    simp only [andThen, same, h]
    simp [shift, failure]

/-- A step reads alike behind a front part. -/
lemma step_shift (front : Text) {cursor : Cursor} {c : Char} {r : Text}
    (start : cursor.rest = c :: r) :
    step false (cursor.shift front) = (step false cursor).shift front := by
  have place : OpenEnd.place (cursor.position.shift front) =
      Unclosed.shift front ∘ OpenEnd.place cursor.position := by
    funext e
    rw [OpenEnd.place, Span.along_shift]
    rfl
  have start' : (cursor.shift front).rest = c :: r := start
  rw [step_lenient start, step_lenient start']
  simp only [shift, Cursor.shift, Cursor.past, Lexeme.place_shift, Position.after_shift, place,
    List.map_map, Option.map_none]
  rfl

/-- Reading depends on the place only for the places that it tells. -/
lemma all_shift (front : Text) (cursor : Cursor) :
    all false (cursor.shift front) = (all false cursor).shift front := by
  induction cursor using Cursor.pieces_rec with
  | ending cursor none =>
    have none' : (cursor.shift front).rest = [] := none
    rw [all_ending false none, all_ending false none']
    rfl
  | piece cursor c r start ih =>
    have left : cursor.rest ≠ [] := by simp [start]
    have left' : (cursor.shift front).rest ≠ [] := left
    rw [all_piece false left, all_piece false left', step_shift front start]
    apply andThen_shift
    rw [step_lenient start]
    exact ih

/-- A reading that has not failed is followed by the next one. -/
lemma andThen_of_success (tokens : List Token) (warnings : List Unclosed) (cursor : Cursor)
    (next : Cursor → Reading) :
    andThen ⟨tokens, warnings, none, cursor⟩ next =
      ⟨tokens ++ (next cursor).tokens, warnings ++ (next cursor).warnings, (next cursor).failure,
        (next cursor).cursor⟩ := rfl

/-- Readings that follow one another may be taken together in any way. -/
lemma andThen_assoc {first : Reading} {next last : Cursor → Reading} :
    (first.andThen next).andThen last = first.andThen fun cursor => (next cursor).andThen last := by
  cases failure : first.failure with
  | some u => simp [andThen, failure]
  | none => cases failure' : (next first.cursor).failure <;> simp [andThen, failure, failure']

/-- The last token is placed from the last lexeme. -/
lemma getLast?_place (p : Position) (ls : List Lexeme) :
    ls.getLast? = (Lexeme.place p ls).getLast?.map Token.lexeme := by
  rw [← List.getLast?_map, Lexeme.lexeme_place]

/-- To read a text that ends with a line end, and then what is written behind it, is to read both at
once. -/
lemma all_extend (cursor : Cursor) (t : Text)
    (line : cursor.rest = [] ∨ cursor.rest.getLast? = some '\n')
    (closed : (all false cursor).warnings = [])
    (apart : ∀ u ∈ (all false cursor).tokens.getLast?, ¬ u.kind.Absorbs t) :
    all false ⟨cursor.lineStart, cursor.position, cursor.rest ++ t⟩ =
      (all false cursor).andThen fun last => all false ⟨last.lineStart, last.position, t⟩ := by
  induction cursor using Cursor.pieces_rec with
  | ending cursor none =>
    rw [all_ending false none, none]
    rfl
  | piece cursor c r start ih =>
    have left : cursor.rest ≠ [] := by simp [start]
    have covers : (Piece.read cursor.lineStart c r).Covers (c :: r) := Piece.read_covers _ c r
    rw [start] at line
    replace line := line.resolve_left (List.cons_ne_nil c r)
    rw [all_piece false left, step_lenient start] at closed apart ⊢
    simp only [andThen, List.append_eq_nil_iff, List.map_eq_nil_iff] at closed apart
    obtain ⟨closed, later⟩ := closed
    have extended : Piece.read cursor.lineStart c (r ++ t) =
        (Piece.read cursor.lineStart c r).extend t := by
      apply Piece.read_extend t line closed
      intro none l last
      obtain ⟨u, lastToken, rfl⟩ : ∃ u, (Lexeme.place cursor.position
          (Piece.read cursor.lineStart c r).lexemes).getLast? = some u ∧ u.lexeme = l := by
        rwa [Option.mem_def, getLast?_place cursor.position, Option.map_eq_some_iff] at last
      apply apart u
      rw [all_ending false none]
      simpa [idle] using lastToken
    have next := ih (Text.line_of_append covers line) later fun u last => by
      apply apart u
      rw [List.getLast?_append, Option.mem_def.1 last, Option.some_or]
      rfl
    rw [start, List.cons_append, all_piece false (List.cons_ne_nil c (r ++ t)), step_lenient rfl]
    rw [extended, andThen_assoc, andThen_of_success, andThen_of_success, ← next]
    rfl

/-- What ends with a line end is read up to the start of a line. -/
lemma all_lineStart (cursor : Cursor)
    (line : cursor.rest = [] ∧ cursor.lineStart = true ∨ cursor.rest.getLast? = some '\n') :
    (all false cursor).cursor.lineStart = true := by
  induction cursor using Cursor.pieces_rec with
  | ending cursor none =>
    rw [none] at line
    rw [all_ending false none]
    exact (line.resolve_right nofun).2
  | piece cursor c r start ih =>
    have left : cursor.rest ≠ [] := by simp [start]
    have covers : (Piece.read cursor.lineStart c r).Covers (c :: r) := Piece.read_covers _ c r
    have line : (c :: r).getLast? = some '\n' := start ▸ line.resolve_left fun h => left h.1
    rw [all_piece false left, step_lenient start]
    apply ih
    apply (Text.line_of_append covers line).imp_left
    intro none
    have whole : (Piece.read cursor.lineStart c r).raw = c :: r := by
      rwa [Piece.Covers, none, List.append_nil] at covers
    exact ⟨none, by simp [Cursor.past, whole, line]⟩

end Reading

/-- The tokens of a text that ends with a line end, in which nothing stays open, are tokens of every
source that starts with this text: the other tokens of the source are those of what is written behind
the text, shifted, and so are the warnings. Only what is written behind a quotation or a table may
belong to it. -/
theorem tokenize_append {s : Text} (line : s = [] ∨ s.getLast? = some '\n')
    (closed : (tokenize false s).warnings = []) (t : Text)
    (apart : ∀ u ∈ (tokenize false s).tokens.dropLast.getLast?, ¬ u.kind.Absorbs t) :
    (tokenize false (s ++ t)).tokens =
        (tokenize false s).tokens.dropLast ++ (tokenize false t).tokens.map (Token.shift s) ∧
      (tokenize false (s ++ t)).warnings = (tokenize false t).warnings.map (Unclosed.shift s) := by
  obtain ⟨tokens, warnings⟩ := tokenize_eq s
  obtain ⟨tokens', warnings'⟩ := tokenize_eq t
  obtain ⟨longTokens, longWarnings⟩ := tokenize_eq (s ++ t)
  rw [tokens, List.dropLast_concat] at apart
  rw [warnings] at closed
  have both : Reading.all false (Cursor.start (s ++ t)) =
      (Reading.all false (Cursor.start s)).andThen fun last =>
        Reading.all false ⟨last.lineStart, last.position, t⟩ :=
    Reading.all_extend (Cursor.start s) t line closed apart
  obtain ⟨success, -, place⟩ := Reading.all_lenient (Cursor.start s)
  have atStart := Reading.all_lineStart (Cursor.start s) (line.imp_left (⟨·, rfl⟩))
  have here : Cursor.mk (Reading.all false (Cursor.start s)).cursor.lineStart
      (Reading.all false (Cursor.start s)).cursor.position t = (Cursor.start t).shift s := by
    rw [atStart, place.trans (Position.origin_after_line line)]
    rfl
  have ending : Token.ending (Position.origin.after (s ++ t)) =
      (Token.ending (Position.origin.after t)).shift s := by
    rw [Position.after_append, Position.origin_after_line line, Position.after_shift]
    rfl
  rw [longTokens, longWarnings, tokens, tokens', warnings', both, ending]
  simp only [Reading.andThen, success, here, Reading.all_shift, closed]
  simp [Reading.shift]

/-- A quotation at the end of a text, and a table with something left open behind it. -/
theorem tokenize_append_quote_table :
    (tokenize false "- [x] a\r\n> b\n".toList).warnings = [] ∧
    (tokenize false ("- [x] a\r\n> b\n".toList ++ "|c\n*d".toList)).tokens =
        (tokenize false "- [x] a\r\n> b\n".toList).tokens.dropLast ++
          (tokenize false "|c\n*d".toList).tokens.map (Token.shift "- [x] a\r\n> b\n".toList) ∧
      (tokenize false ("- [x] a\r\n> b\n".toList ++ "|c\n*d".toList)).warnings =
        (tokenize false "|c\n*d".toList).warnings.map (Unclosed.shift "- [x] a\r\n> b\n".toList) :=
  ⟨rfl, tokenize_append (.inr rfl) rfl _ (by
    rintro u ⟨⟩
    rintro (⟨-, bar⟩ | ⟨kind, -⟩)
    · cases bar
    · cases kind)⟩

end Marktex
