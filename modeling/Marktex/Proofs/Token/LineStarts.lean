import Mathlib.Tactic.Lemma
import Marktex.Proofs.Source.Lookahead
import Marktex.Proofs.Token.Kinds
import Marktex.Proofs.Token.Lexemes
import Marktex.Proofs.Token.Openings
import Marktex.Proofs.Token.Shape
import Marktex.Proofs.Token.Tiling

/-!
# Line starts

What stands at the start of a line decides whether a heading, a quotation, a table or a list item begins
there, and none of them begins anywhere else (`Token.Fronted`). A line starts inside of a token only if
the token stands between two delimiters, or is a quotation or a table that goes on with its mark
(`Lexeme.Lined`). Together, `tokenize_line_starts` says of every line of a source where it went.
-/

namespace Marktex

/-- Whether a token of this kind may go on with a line that starts with `c`: between delimiters with any
line, otherwise only a quotation or a table with its mark. -/
def Kind.GoesOn (c : Char) (kind : Kind) : Prop :=
  kind.isDelimited = true ∨ kind = .styled .quote ∧ c = '>' ∨ kind = .styled .table ∧ c = '|'

/-- A line starts inside of a lexeme only if the lexeme goes on with it. -/
def Lexeme.Lined (l : Lexeme) : Prop :=
  ∀ before c after, l.raw = before ++ '\n' :: c :: after → l.kind.GoesOn c

/-- A text with a line end nowhere but at its end. -/
def Text.OneLine (s : Text) : Prop :=
  ∀ before c after, s ≠ before ++ '\n' :: c :: after

namespace Text

/-- A text without a line feed is one line. -/
lemma OneLine.of_plain {s : Text} (h : '\n' ∉ s) : OneLine s := by
  rintro before c after rfl
  simp at h

/-- A text with a line feed at its end only is one line. -/
lemma OneLine.concat {s : Text} (h : '\n' ∉ s) : OneLine (s ++ ['\n']) := by
  intro before c after whole
  have front : s = before ++ '\n' :: (c :: after).dropLast := by
    have := congrArg List.dropLast whole
    simpa using this
  rw [front] at h
  simp at h

/-- What is read up to the end of the line is one line, also behind something on the same line. -/
lemma OneLine.append_line (front : Text) (h : '\n' ∉ front) (s : Text) :
    OneLine (front ++ (Segment.line s).raw) := by
  have text := Segment.not_mem_text '\n' s
  have plain : '\n' ∉ front ++ (Segment.line s).text := by
    rw [List.mem_append, not_or]
    exact ⟨h, text⟩
  cases found : Text.cut? ['\n'] s with
  | none =>
    simp only [Segment.line, Segment.upTo, found] at plain ⊢
    exact .of_plain plain
  | some parts =>
    simp only [Segment.line, Segment.upTo, found] at plain ⊢
    rw [← List.append_assoc]
    exact .concat plain

end Text

namespace Taken

/-- Marked lines that are not empty start with the mark. -/
lemma markedLines_front {mark c : Char} {s after : Text}
    (h : (markedLines mark true s).raw = c :: after) : c = mark := by
  cases s with
  | nil => cases h
  | cons d s =>
    by_cases same : d = mark
    · simp only [markedLines, same, if_true, raw_push] at h
      exact (List.cons.inj h).1.symm
    · simp [markedLines, same] at h

/-- Every one of the marked lines starts with the mark. -/
lemma markedLines_lines {mark c : Char} (other : mark ≠ '\n') {atStart : Bool} {s before after : Text}
    (h : (markedLines mark atStart s).raw = before ++ '\n' :: c :: after) : c = mark := by
  induction s generalizing atStart before with
  | nil => simp [markedLines] at h
  | cons d s ih =>
    cases atStart with
    | true =>
      by_cases same : d = mark
      · simp only [markedLines, same, if_true, raw_push] at h
        cases before with
        | nil => exact absurd (List.cons.inj h).1 other
        | cons e before => exact ih (List.cons.inj h).2
      · simp [markedLines, same] at h
    | false =>
      simp only [markedLines, raw_push] at h
      cases before with
      | nil =>
        obtain ⟨rfl, rest⟩ := List.cons.inj h
        exact markedLines_front rest
      | cons e before => exact ih (List.cons.inj h).2

end Taken

namespace Piece

/-- A lexeme on one line has no lines inside. -/
lemma lined_of_oneLine {l : Lexeme} (h : Text.OneLine l.raw) : l.Lined :=
  fun before c after inside => absurd inside (h before c after)

/-- No line starts inside of an item. -/
lemma item_lined (s : Text) : (item s).1.Lined := by
  apply lined_of_oneLine
  unfold item
  split
  case h_1 found => exact .append_line _ (box?_plain found) _
  case h_2 => exact .append_line [] List.not_mem_nil s

/-- No line starts inside of a line break. -/
lemma lineBreak_lined {c : Char} {r : Text} (h : Source.atLineEnd (c :: r) = true) :
    ∀ l ∈ (lineBreak c r).lexemes, l.Lined := by
  intro l member
  obtain rfl := List.mem_singleton.1 member
  apply lined_of_oneLine
  obtain none | ⟨r, feed⟩ | ⟨r, pair⟩ | other := Source.lineEnd_cases (c :: r)
  · cases none
  · cases feed
    exact .concat (s := []) List.not_mem_nil
  · cases pair
    exact .concat (s := ['\r']) (by decide)
  · rw [h] at other
    cases other

/-- No line starts inside of running text. -/
lemma text_lined {c : Char} (r : Text) (h : c ≠ '\n') : ∀ l ∈ (text c r).lexemes, l.Lined := by
  have run := Source.cons_textRun_plain r h
  unfold text
  dsimp only
  split <;> intro l member <;> obtain rfl := List.mem_singleton.1 member <;> apply lined_of_oneLine
  · exact .of_plain run
  · exact .concat run
  · exact .of_plain run

/-- Lines start inside of the lexemes of a piece only where these go on with them. -/
theorem read_lined (lineStart : Bool) (c : Char) (r : Text) :
    ∀ l ∈ (read lineStart c r).lexemes, l.Lined := by
  intro l member
  have fits := Opening.fits lineStart c r
  have yields := read_yields lineStart c r l member
  unfold read at member
  cases opening : Opening.of lineStart c r <;> rw [opening] at fits yields member
  case header =>
    obtain rfl := List.mem_singleton.1 member
    exact lined_of_oneLine (.append_line _ (Text.line_feed_not_mem_takeWhile rfl _) _)
  case list m =>
    simp only [list, List.mem_cons, List.not_mem_nil, or_false] at member
    obtain rfl | rfl := member
    · exact lined_of_oneLine (.of_plain (ListMarker.at?_plain fits.2))
    · exact item_lined m.rest
  case emphasis | code | link | image | math =>
    -- any lines may stand between delimiters
    exact fun _ _ _ _ => .inl yields.isDelimited
  case quote =>
    obtain rfl := List.mem_singleton.1 member
    intro before d after inside
    exact .inr (.inl ⟨rfl, Taken.markedLines_lines (by decide) inside⟩)
  case table =>
    obtain rfl := List.mem_singleton.1 member
    intro before d after inside
    exact .inr (.inr ⟨rfl, Taken.markedLines_lines (by decide) inside⟩)
  case lineBreak => exact lineBreak_lined fits l member
  case text =>
    refine text_lined r ?_ l member
    rintro rfl
    exact fits rfl

end Piece

/-- The kind of a token tells what stands where it begins, and is told by it: what begins with number
signs, with a greater-than sign, with a bar or with a list marker at the start of a line is a heading,
a quotation, a table or a list marker, and nothing else is. -/
structure Kind.Begins (atStart : Prop) (rest : Text) (kind : Kind) : Prop where
  header : kind = .header ↔ atStart ∧ rest.head? = some '#'
  quote : kind = .styled .quote ↔ atStart ∧ rest.head? = some '>'
  table : kind = .styled .table ↔ atStart ∧ rest.head? = some '|'
  marker : ∀ m, kind = .marker m ↔ atStart ∧ m.Opens rest

/-- The kind of a token tells the opening that it was read for. -/
structure Opening.Tells (opening : Opening) (kind : Kind) : Prop where
  header : kind = .header ↔ opening = .header
  quote : kind = .styled .quote ↔ opening = .quote
  table : kind = .styled .table ↔ opening = .table
  marker : ∀ m, kind = .marker m ↔ ∃ found, opening = .list found ∧ found.marker = m

/-- What is opened tells which character the token begins with. -/
lemma Opening.Tells.begins {lineStart : Bool} {c : Char} {r : Text} {kind : Kind}
    (h : (Opening.of lineStart c r).Tells kind) : kind.Begins (lineStart = true) (c :: r) where
  header := by simp [h.header, of_header_iff]
  quote := by simp [h.quote, of_quote_iff]
  table := by simp [h.table, of_table_iff]
  marker m := by
    rw [h.marker, ← ListMarker.at?_opens]
    simp only [of_list_iff, and_assoc, exists_and_left]

/-- Items begin no line. -/
lemma Kind.begins_of_isItem {atStart : Prop} {kind : Kind} (rest : Text) (isItem : kind.isItem = true)
    (inside : ¬ atStart) : kind.Begins atStart rest := by
  cases kind with
  | listItem | todoItem => constructor <;> simp [inside]
  | _ => cases isItem

namespace Piece

/-- The lexemes of a piece begin with what stands at its front; an item begins behind its marker, inside
of the line. -/
inductive Fronted (atStart : Prop) (s : Text) : List Lexeme → Prop where
  | alone {l} :
    l.kind.Begins atStart s →
    Fronted atStart s [l]
  | item {l l'} :
    l.kind.Begins atStart s →
    l.raw ≠ [] →
    '\n' ∉ l.raw →
    l'.kind.isItem = true →
    Fronted atStart s [l, l']

/-- The lexemes of every piece begin with what stands at its front. -/
theorem read_fronted (lineStart : Bool) (c : Char) (r : Text) :
    Fronted (lineStart = true) (c :: r) (read lineStart c r).lexemes := by
  have begins {kind : Kind} (h : (Opening.of lineStart c r).Tells kind) := h.begins
  have fits := Opening.fits lineStart c r
  unfold read
  cases opening : Opening.of lineStart c r <;> rw [opening] at begins fits
  case list m =>
    refine .item (begins ?_) (ListMarker.raw_ne_nil fits.2) (ListMarker.at?_plain fits.2)
      (item_isItem m.rest).1
    constructor <;> simp
  case emphasis mark =>
    dsimp only
    unfold emphasis
    split <;> refine .alone (begins ?_) <;> constructor <;> simp
  case code =>
    dsimp only
    unfold code
    split <;> refine .alone (begins ?_) <;> constructor <;> simp
  case math =>
    dsimp only
    unfold math
    split <;> refine .alone (begins ?_) <;> constructor <;> simp
  case text =>
    dsimp only
    unfold text
    dsimp only
    split <;> refine .alone (begins ?_) <;> constructor <;> simp
  all_goals
    refine .alone (begins ?_)
    constructor <;> simp

end Piece

/-- A token begins with what stands at its place in the source. -/
def Token.Fronted (source : Text) (t : Token) : Prop :=
  ∃ before rest, source = before ++ rest ∧ t.span.start = Position.origin.after before ∧
    t.kind.Begins before.EndsLine rest

/-- The lexemes of a piece begin with what stands at their places. -/
lemma Piece.Fronted.inPlace {before s rest : Text} {ls : List Lexeme}
    (h : Fronted before.EndsLine s ls) (whole : ls.flatMap Lexeme.raw ++ rest = s) :
    Lexeme.InPlace (fun before l after => l.kind.Begins before.EndsLine (l.raw ++ after)) before ls
      rest := by
  subst whole
  cases h with
  | alone begins =>
    apply Lexeme.InPlace.cons _ .nil
    simpa using begins
  | item begins nonempty plain isItem =>
    apply Lexeme.InPlace.cons
    · simpa using begins
    · -- the item begins behind the marker, and no line ends in between
      apply Lexeme.InPlace.cons _ .nil
      apply Kind.begins_of_isItem _ isItem
      rw [Text.endsLine_append before nonempty]
      exact fun last => plain (List.mem_of_getLast? last)

/-- The tokens of a source begin with what stands at their places. -/
lemma tokenize_fronted (source : Text) : ∀ t ∈ (tokenize false source).tokens, t.Fronted source := by
  intro t member
  have all := tokenize_inPlace
    (P := fun before l after => l.kind.Begins before.EndsLine (l.raw ++ after)) ?_ ?_ source
  · obtain ⟨before, after, rfl, span, begins⟩ := all t member
    exact ⟨before, t.raw ++ after, List.append_assoc .., congrArg Span.start span, begins⟩
  · intro before lineStart c r atStart
    have fronted := Piece.read_fronted lineStart c r
    rw [atStart] at fronted
    exact fronted.inPlace (Piece.read_covers lineStart c r)
  · intro source
    constructor
    case marker =>
      intro m
      simp only [reduceCtorEq, false_iff, not_and]
      intro _ opens
      cases opens
    all_goals simp

/-- Every place of a source lies in one of the tokens that tile it. -/
lemma Token.Tiles.exists_at {p q : Position} {ts : List Token} (h : Tiles p ts q) {i : Nat}
    (inside : i < (ts.flatMap Token.raw).length) :
    ∃ t ∈ ts, ∃ before after, ts.flatMap Token.raw = before ++ t.raw ++ after ∧
      t.span = Span.along (p.after before) t.raw ∧
      before.length ≤ i ∧ i < before.length + t.raw.length := by
  induction h generalizing i with
  | nil => cases inside
  | @cons p t ts q span _ ih =>
    rw [List.flatMap_cons] at inside ⊢
    by_cases first : i < t.raw.length
    · refine ⟨t, List.mem_cons_self, [], ts.flatMap Token.raw, rfl, span, Nat.zero_le i, ?_⟩
      rwa [List.length_nil, Nat.zero_add]
    · rw [List.length_append] at inside
      obtain ⟨u, member, before, after, whole, here, lower, upper⟩ :=
        @ih (i - t.raw.length) (by omega)
      refine ⟨u, List.mem_cons_of_mem t member, t.raw ++ before, after, ?_, ?_, ?_, ?_⟩
      · rw [whole]
        simp only [List.append_assoc]
      · rw [here, span, Position.after_append]
        rfl
      · rw [List.length_append]
        omega
      · rw [List.length_append]
        omega

/-- A line of a source starts at offset `i`. -/
def Text.LineAt (source : Text) (i : Nat) : Prop :=
  i = 0 ∨ source[i - 1]? = some '\n'

/-- A line starts behind a text exactly if the text ends a line. -/
lemma Text.lineAt_length (before rest : Text) :
    LineAt (before ++ rest) before.length ↔ before.EndsLine := by
  cases before with
  | nil => simp [LineAt, EndsLine]
  | cons c before =>
    have last : (c :: before ++ rest)[(c :: before).length - 1]? = (c :: before).getLast? := by
      rw [List.getLast?_eq_getElem?, List.getElem?_append_left (by simp)]
    rw [LineAt, EndsLine, last]
    simp

/-- Where a line starts inside of a text, the text is cut by the line feed before it. -/
lemma Text.exists_line_inside {s : Text} {k : Nat} (feed : s[k]? = some '\n')
    (inside : k + 1 < s.length) :
    ∃ before c after, s = before ++ '\n' :: c :: after ∧ s[k + 1]? = some c := by
  have here : k < s.length := by omega
  refine ⟨s.take k, s[k + 1], s.drop (k + 2), ?_, List.getElem?_eq_getElem inside⟩
  rw [List.getElem?_eq_getElem here, Option.some.injEq] at feed
  calc s = s.take k ++ s.drop k := (List.take_append_drop k s).symm
    _ = s.take k ++ s[k] :: s[k + 1] :: s.drop (k + 2) := by
        rw [List.drop_eq_getElem_cons here, List.drop_eq_getElem_cons inside]
    _ = _ := by rw [feed]

/-- At the start of a line a token begins, or the line lies inside of a token that goes on with it. -/
lemma exists_token_at_line {source : Text} {i : Nat} (inside : i < source.length)
    (line : source.LineAt i) :
    ∃ t ∈ (tokenize false source).tokens, t.span.start.offset = i ∨
      t.span.start.offset < i ∧ i < t.span.stop.offset ∧
        ∃ c, source[i]? = some c ∧ t.kind.GoesOn c := by
  have tiles := (Reading.all_covers (Cursor.start source)).tiles
  have whole : (Reading.all false (Cursor.start source)).tokens.flatMap Token.raw = source :=
    Reading.all_raws _
  obtain ⟨t, member, before, after, parts, span, lower, upper⟩ := tiles.exists_at (whole.symm ▸ inside)
  have lined : t.lexeme.Lined := Reading.all_lexemes Piece.read_lined _ t member
  have start : t.span.start.offset = before.length := by
    rw [span, Span.along]
    exact Position.offset_origin_after before
  have stop : t.span.stop.offset = before.length + t.raw.length := by
    rw [span, Span.along, Position.offset_after]
    exact congrArg (· + _) (Position.offset_origin_after before)
  have source_eq : source = before ++ (t.raw ++ after) := by
    rw [← whole, parts, List.append_assoc]
  refine ⟨t, ?_, ?_⟩
  · rw [(tokenize_eq source).1]
    exact List.mem_append_left _ member
  · obtain same | later := Nat.eq_or_lt_of_le lower
    · exact .inl (by rw [start, same])
    · -- the character before the line is a line feed of the token
      obtain ⟨k, rfl⟩ : ∃ k, i = before.length + (k + 1) := ⟨i - before.length - 1, by omega⟩
      have here (j : Nat) (short : j < t.raw.length) : source[before.length + j]? = t.raw[j]? := by
        rw [source_eq, List.getElem?_append_right (by omega), Nat.add_sub_cancel_left,
          List.getElem?_append_left short]
      have feed : t.raw[k]? = some '\n' := by
        rw [← here k (by omega)]
        exact line.resolve_left (by omega)
      obtain ⟨front, c, rest, cut, next⟩ := Text.exists_line_inside feed (by omega)
      refine .inr ⟨?_, ?_, c, ?_, lined front c rest cut⟩
      · rw [start]
        omega
      · rw [stop]
        omega
      · rw [here (k + 1) (by omega), next]

/-- At the start of a line, what stands there tells the kind of a token that begins there. -/
lemma Token.Fronted.kind_iff {source : Text} {t : Token} {i : Nat} (h : t.Fronted source)
    (line : source.LineAt i) (place : t.span.start.offset = i) :
    (t.kind = .header ↔ source[i]? = some '#') ∧
      (t.kind = .styled .quote ↔ source[i]? = some '>') ∧
      (t.kind = .styled .table ↔ source[i]? = some '|') ∧
      ∀ m, t.kind = .marker m ↔ m.Opens (source.drop i) := by
  obtain ⟨before, rest, rfl, start, begins⟩ := h
  obtain rfl : before.length = i := by
    rw [start, Position.offset_origin_after] at place
    exact Int.ofNat_inj.1 place
  have atStart : before.EndsLine := (Text.lineAt_length before rest).1 line
  have front : (before ++ rest)[before.length]? = rest.head? := by
    rw [List.getElem?_append_right (Nat.le_refl _), Nat.sub_self, List.head?_eq_getElem?]
  rw [front, List.drop_left]
  refine ⟨?_, ?_, ?_, fun m => ?_⟩
  · rw [begins.header, and_iff_right atStart]
  · rw [begins.quote, and_iff_right atStart]
  · rw [begins.table, and_iff_right atStart]
  · rw [begins.marker m, and_iff_right atStart]

/-- Headings, quotations, tables and list markers begin at the start of a line. -/
lemma Token.Fronted.lineAt {source : Text} {t : Token} (h : t.Fronted source)
    (kind : t.kind = .header ∨ t.kind = .styled .quote ∨ t.kind = .styled .table ∨
      ∃ m, t.kind = .marker m) :
    ∃ i < source.length, source.LineAt i ∧ t.span.start.offset = i := by
  obtain ⟨before, rest, rfl, start, begins⟩ := h
  have front : before.EndsLine ∧ rest ≠ [] := by
    obtain header | quote | table | ⟨m, marker⟩ := kind
    · obtain ⟨line, sign⟩ := begins.header.1 header
      exact ⟨line, List.ne_nil_of_mem (List.mem_of_mem_head? sign)⟩
    · obtain ⟨line, sign⟩ := begins.quote.1 quote
      exact ⟨line, List.ne_nil_of_mem (List.mem_of_mem_head? sign)⟩
    · obtain ⟨line, sign⟩ := begins.table.1 table
      exact ⟨line, List.ne_nil_of_mem (List.mem_of_mem_head? sign)⟩
    · obtain ⟨line, opens⟩ := (begins.marker m).1 marker
      refine ⟨line, ?_⟩
      cases opens <;> exact List.cons_ne_nil _ _
  obtain ⟨line, nonempty⟩ := front
  refine ⟨before.length, ?_, (Text.lineAt_length before rest).2 line, ?_⟩
  · have length := List.length_pos_iff.2 nonempty
    rw [List.length_append]
    omega
  · rw [start, Position.offset_origin_after]

/-- Where the lines of a source go. At the start of every line a token begins, unless the line lies inside
of a token between delimiters, of a quotation that it goes on with its mark, or of a table likewise. The
token that begins there is a heading, a quotation, a table or a list marker exactly if what stands there
says so, and none of these begins anywhere else. -/
theorem tokenize_line_starts (source : Text) :
    (∀ i < source.length, source.LineAt i →
      (∃ t ∈ (tokenize false source).tokens, t.span.start.offset = i) ∨
      ∃ t ∈ (tokenize false source).tokens,
        t.span.start.offset < i ∧ i < t.span.stop.offset ∧
        (t.kind.isDelimited = true ∨
          t.kind = .styled .quote ∧ source[i]? = some '>' ∨
          t.kind = .styled .table ∧ source[i]? = some '|')) ∧
    (∀ i < source.length, source.LineAt i →
      ∀ t ∈ (tokenize false source).tokens, t.span.start.offset = i →
        (t.kind = .header ↔ source[i]? = some '#') ∧
        (t.kind = .styled .quote ↔ source[i]? = some '>') ∧
        (t.kind = .styled .table ↔ source[i]? = some '|') ∧
        ∀ m, t.kind = .marker m ↔ m.Opens (source.drop i)) ∧
    ∀ t ∈ (tokenize false source).tokens,
      t.kind = .header ∨ t.kind = .styled .quote ∨ t.kind = .styled .table ∨
        (∃ m, t.kind = .marker m) →
      ∃ i < source.length, source.LineAt i ∧ t.span.start.offset = i := by
  refine ⟨fun i inside line => ?_, fun i _ line t member place => ?_, fun t member kind => ?_⟩
  · obtain ⟨t, member, begins | ⟨lower, upper, c, here, goesOn⟩⟩ := exists_token_at_line inside line
    · exact .inl ⟨t, member, begins⟩
    · refine .inr ⟨t, member, lower, upper, ?_⟩
      rw [here]
      simpa [Kind.GoesOn] using goesOn
  · exact (tokenize_fronted source t member).kind_iff line place
  · exact (tokenize_fronted source t member).lineAt kind

end Marktex
