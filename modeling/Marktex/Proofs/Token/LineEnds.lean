import Marktex.Proofs.Document.Alike
import Marktex.Proofs.Source.LineEnds
import Marktex.Proofs.Source.Lookahead
import Marktex.Proofs.Token.Lexemes
import Marktex.Proofs.Token.Openings
import Marktex.Proofs.Token.Strictness

/-!
# Tokens and line ends

Sources with the same lines are made of the same pieces (`Piece.read_sameLines`), and so their tokens and
warnings are of the same kinds, say the same and stand in the same lines and columns
(`tokenize_sameLines`).
-/

namespace Marktex

/-- Values of one sort whose texts have the same lines. -/
inductive Value.SameLines : Value → Value → Prop where
  | text {s t} :
    Text.SameLines s t →
    SameLines (.text s) (.text t)
  | header {level s t} :
    Text.SameLines s t →
    SameLines (.payload (.header level s)) (.payload (.header level t))
  | codeBlock {language language' code code'} :
    Text.SameLines language language' →
    Text.SameLines code code' →
    SameLines (.payload (.codeBlock language code)) (.payload (.codeBlock language' code'))
  | link {s t url url'} :
    Text.SameLines s t →
    Text.SameLines url url' →
    SameLines (.payload (.link s url)) (.payload (.link t url'))
  | image {alt alt' source source'} :
    Text.SameLines alt alt' →
    Text.SameLines source source' →
    SameLines (.payload (.image alt source)) (.payload (.image alt' source'))
  | todo {s t checked} :
    Text.SameLines s t →
    SameLines (.payload (.todo s checked)) (.payload (.todo t checked))

/-- Lexemes of one kind that are made from the same lines and say the same. -/
structure Lexeme.SameLines (l m : Lexeme) : Prop where
  kind : m.kind = l.kind
  value : Value.SameLines l.value m.value
  raw : Text.SameLines l.raw m.raw

/-- The same construct is left open, in the same lines. -/
structure OpenEnd.SameLines (a b : OpenEnd) : Prop where
  construct : b.construct = a.construct
  raw : Text.SameLines a.raw b.raw

/-- Pieces whose lexemes, rest and open ends have the same lines. -/
structure Piece.SameLines (p q : Piece) : Prop where
  lexemes : List.Forall₂ Lexeme.SameLines p.lexemes q.lexemes
  rest : Text.SameLines p.rest q.rest
  openEnds : List.Forall₂ OpenEnd.SameLines p.openEnds q.openEnds

/-- The same list marker before the same lines. -/
structure ListMarker.SameLines (m n : ListMarker) : Prop where
  marker : n.marker = m.marker
  raw : n.raw = m.raw
  rest : Text.SameLines m.rest n.rest

variable {s t : Text}

namespace ListMarker

/-- Texts with the same lines begin with the same bare list marker, if with any. -/
lemma bare?_sameLines (h : Text.SameLines s t) : Option.Rel SameLines (bare? s) (bare? t) := by
  cases h with
  | nil => exact .none
  | @cons c s t _ rest =>
    have digits := rest.takeWhile_eq (p := Digit.isDigit) (by decide) (by decide)
    have left := rest.dropWhile (p := Digit.isDigit) (by decide)
    simp only [bare?, digits]
    split
    case isTrue => exact .some ⟨rfl, rfl, rest⟩
    case isFalse =>
      split
      case isFalse => exact .none
      case isTrue =>
        generalize s.dropWhile Digit.isDigit = a at left
        generalize t.dropWhile Digit.isDigit = b at left
        cases left with
        | nil => exact .none
        | @cons d _ _ _ after =>
          dsimp only
          split
          · exact .some ⟨rfl, rfl, after⟩
          · exact .none
        | pair => exact .none
  | pair => exact .none

/-- Texts with the same lines begin with the same list marker, if with any. -/
lemma at?_sameLines (h : Text.SameLines s t) : Option.Rel SameLines (at? s) (at? t) := by
  unfold at?
  obtain ⟨found, found'⟩ | ⟨m, n, found, found', same⟩ := optionRel_cases (bare?_sameLines h)
  · rw [found, found']
    exact .none
  · have blanks := same.rest.takeWhile_eq (p := Text.isSpaceOrTab) rfl rfl
    have left := same.rest.dropWhile (p := Text.isSpaceOrTab) rfl
    simp only [found, found', Option.bind_some, blanks]
    cases m.rest.takeWhile Text.isSpaceOrTab with
    | nil => exact .none
    | cons b blanks => exact .some ⟨same.marker, by rw [same.raw], left⟩

end ListMarker

/-- At a line end nothing opens but a line break. -/
lemma Opening.of_lineEnd {c : Char} {r : Text} (lineStart : Bool)
    (h : Source.atLineEnd (c :: r) = true) : Opening.of lineStart c r = .lineBreak := by
  have front : c = '\n' ∨ c = '\r' := by
    obtain none | ⟨_, feed⟩ | ⟨_, pair⟩ | other := Source.lineEnd_cases (c :: r)
    · cases none
    · exact .inl (List.cons.inj feed).1
    · exact .inr (List.cons.inj pair).1
    · rw [other] at h
      cases h
  have marker : ListMarker.at? (c :: r) = none := by
    obtain rfl | rfl := front <;> exact ListMarker.at?_eq_none r (by decide) (by decide)
  obtain rfl | rfl := front <;> simp [Opening.of, marker, Source.opensTarget, h]

namespace Piece

/-- A box stands on one line, so that it is the same in both texts. -/
lemma box?_sameLines (h : Text.SameLines s t) :
    Option.Rel (fun p q => q.1 = p.1 ∧ q.2.raw = p.2.raw ∧ Text.SameLines p.2.rest q.2.rest)
      (box? s) (box? t) := by
  by_cases box : ∃ mark r, s = '[' :: mark :: ']' :: r ∧ mark ≠ '\n'
  case pos =>
    obtain ⟨mark, r, rfl, solid⟩ := box
    obtain ⟨_, rfl, inner⟩ := h.cons_inv (by decide)
    obtain ⟨_, rfl, close⟩ := inner.cons_inv solid
    obtain ⟨r', rfl, rest⟩ := close.cons_inv (by decide)
    have blanks := rest.takeWhile_eq (p := Text.isSpaceOrTab) rfl rfl
    have left := rest.dropWhile (p := Text.isSpaceOrTab) rfl
    simp only [box?, blanks, Source.atLineEnd_eq rest]
    cases Payload.tick? mark with
    | none => exact .none
    | some checked =>
      rw [Option.bind_some, Option.bind_some]
      split
      · exact .some ⟨rfl, rfl, left⟩
      · exact .none
  case neg =>
    have broken {mark : Char} {r : Text} (front : s = '[' :: mark :: ']' :: r) :
        Payload.tick? mark = none := by
      by_cases feed : mark = '\n'
      · rw [feed]
        rfl
      · exact absurd ⟨mark, r, front, feed⟩ box
    have first : box? s = none := box?_eq_none fun _ _ front => broken front
    have second : box? t = none := by
      apply box?_eq_none
      rintro mark r rfl
      -- a carriage return is no mark, since no bracket can follow it
      cases h with
      | cons _ inner =>
        cases inner with
        | cons _ close =>
          cases close with
          | cons => exact broken rfl
    rw [first, second]
    exact .none

/-- Headers of texts with the same lines are the same. -/
lemma header_sameLines (h : Text.SameLines s t) : SameLines (header s) (header t) := by
  have signs := h.takeWhile_eq (p := (· == '#')) rfl rfl
  have left := h.dropWhile (p := (· == '#')) rfl
  have line := Segment.line_sameLine left
  have plain := h.refl_of_subset (List.takeWhile_prefix (· == '#')).subset
  simp only [header, single, signs]
  refine ⟨.cons ⟨rfl, ?_, plain.append line.raw⟩ .nil, line.rest, .nil⟩
  exact .header (Segment.line_trim_sameLines left)

/-- Items of texts with the same lines are the same, and so is what follows them. -/
lemma item_sameLines (h : Text.SameLines s t) :
    Lexeme.SameLines (item s).1 (item t).1 ∧ Text.SameLines (item s).2 (item t).2 := by
  unfold item
  obtain ⟨found, found'⟩ | ⟨⟨_, _, rest⟩, ⟨checked, raw, rest'⟩, found, found', rfl, rfl, after⟩ :=
    optionRel_cases (box?_sameLines h)
  · have line := Segment.line_sameLine h
    rw [found, found']
    exact ⟨⟨rfl, .text (Segment.line_trim_sameLines h), line.raw⟩, line.rest⟩
  · have line := Segment.line_sameLine after
    have plain : Text.SameLines raw raw :=
      h.refl_of_subset (box?_append found ▸ List.subset_append_left raw rest)
    rw [found, found']
    exact ⟨⟨rfl, .todo (Segment.line_trim_sameLines after), plain.append line.raw⟩, line.rest⟩

/-- A marker and its item are the same in texts with the same lines. -/
lemma list_sameLines {m n : ListMarker} (h : ListMarker.SameLines m n)
    (plain : Text.SameLines m.raw m.raw) :
    SameLines (list m) (list n) := by
  obtain ⟨marker, raw, rest⟩ := m
  obtain ⟨marker', raw', rest'⟩ := n
  obtain ⟨rfl, rfl, same⟩ := h
  obtain ⟨item, after⟩ := item_sameLines same
  exact ⟨.cons ⟨rfl, .text .nil, plain⟩ (.cons item .nil), after, .nil⟩

/-- A construct of texts with the same lines is left open in both or in none. -/
lemma openEnds_sameLines {a b : Segment} (construct : Construct) {raw raw' : Text}
    (closed : b.closed = a.closed) (same : Text.SameLines raw raw') :
    List.Forall₂ OpenEnd.SameLines (OpenEnd.of a construct raw) (OpenEnd.of b construct raw') := by
  unfold OpenEnd.of
  rw [closed]
  split
  · exact .nil
  · exact .cons ⟨rfl, same⟩ .nil

/-- Text between delimiters is the same in texts with the same lines. -/
lemma enclosed_sameLines (style : Style) (construct : Construct) {delimiter : Text}
    (front : delimiter ≠ []) (feed : '\n' ∉ delimiter) (carriage : '\r' ∉ delimiter)
    (h : Text.SameLines s t) :
    SameLines (enclosed style construct delimiter s) (enclosed style construct delimiter t) := by
  have body := Segment.upTo_sameLines delimiter front feed carriage h
  have raw := (Text.SameLines.refl carriage).append body.raw
  exact ⟨.cons ⟨rfl, .text body.text, raw⟩ .nil, body.rest, openEnds_sameLines _ body.closed raw⟩

/-- Bold text and italics are the same in texts with the same lines. -/
lemma emphasis_sameLines {mark : Char} (front : mark = '*' ∨ mark = '_') (h : Text.SameLines s t) :
    SameLines (emphasis mark s) (emphasis mark t) := by
  have feed : mark ≠ '\n' := by obtain rfl | rfl := front <;> decide
  have carriage : mark ≠ '\r' := by obtain rfl | rfl := front <;> decide
  have second := h.skip? [mark] (by simp [Ne.symm feed]) (by simp [Ne.symm carriage])
  unfold emphasis
  obtain ⟨found, found'⟩ | ⟨_, _, found, found', body⟩ := optionRel_cases second
  · rw [found, found']
    exact enclosed_sameLines _ _ (by simp) (by simp [Ne.symm feed]) (by simp [Ne.symm carriage]) h
  · rw [found, found']
    exact enclosed_sameLines _ _ (by simp) (by simp [Ne.symm feed]) (by simp [Ne.symm carriage]) body

/-- Code blocks are the same in texts with the same lines. -/
lemma codeBlock_sameLines (h : Text.SameLines s t) : SameLines (codeBlock s) (codeBlock t) := by
  have language := Segment.line_sameLine h
  have body := Segment.upTo_sameLines "```".toList (by decide) (by decide) (by decide)
    language.rest
  have blanks := Taken.blankRest_sameLines body.rest
  have fence : Text.SameLines "```".toList "```".toList := .refl (by decide)
  have raw := (fence.append language.raw).append body.raw
  refine ⟨.cons ⟨rfl, ?_, raw.append blanks.raw⟩ .nil, blanks.rest, openEnds_sameLines _ body.closed raw⟩
  exact .codeBlock (Segment.line_trim_sameLines h) body.text.withoutLineEnd

/-- Code within a line is the same in texts with the same lines. -/
lemma code_sameLines (h : Text.SameLines s t) : SameLines (code s) (code t) := by
  unfold code
  obtain ⟨found, found'⟩ | ⟨_, _, found, found', block⟩ :=
    optionRel_cases (h.skip? "``".toList (by decide) (by decide))
  · rw [found, found']
    exact enclosed_sameLines _ _ (by decide) (by decide) (by decide) h
  · rw [found, found']
    exact codeBlock_sameLines block

/-- Math is the same in texts with the same lines. -/
lemma math_sameLines (h : Text.SameLines s t) : SameLines (math s) (math t) := by
  unfold math
  obtain ⟨found, found'⟩ | ⟨_, _, found, found', inner⟩ :=
    optionRel_cases (h.skip? ['$'] (by decide) (by decide))
  · rw [found, found']
    exact enclosed_sameLines _ _ (by decide) (by decide) (by decide) h
  · have body := Segment.upTo_sameLines "$$".toList (by decide) (by decide) (by decide)
      inner
    have blanks := Taken.blankRest_sameLines body.rest
    have signs : Text.SameLines "$$".toList "$$".toList := .refl (by decide)
    have raw := signs.append body.raw
    rw [found, found']
    exact ⟨.cons ⟨rfl, .text body.text.trim, raw.append blanks.raw⟩ .nil, blanks.rest,
      openEnds_sameLines _ body.closed raw⟩

/-- Where a link target can be read, the parenthesis stands right behind the label in both texts. -/
lemma targeted_sameLines (kind : Kind) (construct : Construct) {payload : Text → Text → Payload}
    {lead : Text} (plain : '\r' ∉ lead) (opens : Source.opensTarget ('[' :: s) = true)
    (h : Text.SameLines s t) (fields : ∀ {label label' target target'}, Text.SameLines label label' →
      Text.SameLines target target' →
      Value.SameLines (.payload (payload label target)) (.payload (payload label' target'))) :
    SameLines (targeted kind construct payload lead s) (targeted kind construct payload lead t) := by
  have label := Segment.upTo_sameLines [']'] (by decide) (by decide) (by decide) h
  obtain ⟨after, rest⟩ : ∃ after, (Segment.upTo [']'] s).rest = '(' :: after := by
    obtain ⟨name, after, whole, inside⟩ := Source.exists_of_opensTarget opens
    obtain rfl : s = name ++ ']' :: '(' :: after := by simpa using whole
    refine ⟨after, ?_⟩
    rw [Segment.upTo_of_not_mem _ fun member => (inside _ member).1 rfl]
  obtain ⟨after', rest', same⟩ := (rest ▸ label.rest).cons_inv (by decide)
  have target := Segment.upTo_sameLines [')'] (by decide) (by decide) (by decide) same
  have front := (Text.SameLines.refl plain).append label.raw
  have raw := (front.append (.cons (by decide) .nil : Text.SameLines ['('] ['('])).append target.raw
  simp only [targeted, rest, rest', List.drop_one, List.tail_cons, List.take_succ_cons, List.take_zero]
  refine ⟨.cons ⟨rfl, fields label.text target.text.trim, raw⟩ .nil, target.rest, ?_⟩
  exact List.rel_append (openEnds_sameLines _ label.closed front) (openEnds_sameLines _ target.closed raw)

/-- A text that makes up nothing has no carriage returns of its own. -/
lemma text_sameLines_of_quotes {kind : Kind} {value raw : Text}
    (quotes : Lexeme.Quotes ⟨kind, .text value, raw⟩) (plain : '\r' ∉ raw) :
    Text.SameLines value value := by
  refine .refl fun member => ?_
  obtain inside | feed := quotes value List.mem_cons_self '\r' member
  · exact plain inside
  · cases feed

/-- Quotations are the same in texts with the same lines. -/
lemma quote_sameLines (h : Text.SameLines s t) : SameLines (quote s) (quote t) := by
  have block := Taken.markedLines_sameLines '>' (by decide) (by decide) h true
  have quotes := quote_quotes s _ List.mem_cons_self
  have lines : ((Text.lines (Taken.markedLines '>' true t).raw).map fun line => Text.trim (line.drop 1)) =
      (Text.lines (Taken.markedLines '>' true s).raw).map fun line => Text.trim (line.drop 1) :=
    Text.SameLine.map_eq block.raw.lines fun _ _ same => same.drop.trim_eq
  refine ⟨.cons ⟨rfl, ?_, block.raw⟩ .nil, block.rest, .nil⟩
  rw [lines]
  exact .text (text_sameLines_of_quotes quotes block.raw.return_not_mem)

/-- Tables are the same in texts with the same lines. -/
lemma table_sameLines (h : Text.SameLines s t) : SameLines (table s) (table t) := by
  have block := Taken.markedLines_sameLines '|' (by decide) (by decide) h true
  have quotes := table_quotes s _ List.mem_cons_self
  have rows : (Text.lines (Taken.markedLines '|' true t).raw).map Text.trim =
      (Text.lines (Taken.markedLines '|' true s).raw).map Text.trim :=
    Text.SameLine.map_eq block.raw.lines fun _ _ same => same.trim_eq
  refine ⟨.cons ⟨rfl, ?_, block.raw⟩ .nil, block.rest, .nil⟩
  rw [rows]
  exact .text (text_sameLines_of_quotes quotes block.raw.return_not_mem)

/-- What follows a run of text on its line makes the run plain. -/
lemma text_of_rest {c d : Char} {r raw rest : Text} (run : Source.textRun c r = ⟨raw, d :: rest⟩)
    (other : d ≠ '\n') :
    text c r = single (.styled .plain) (.text (c :: raw)) (c :: raw) (d :: rest) := by
  simp only [text, run]
  split <;> simp_all

/-- Running text is the same in texts with the same lines. -/
lemma text_sameLines {c : Char} (other : c ≠ '\r') (h : Text.SameLines s t) :
    SameLines (text c s) (text c t) := by
  have covers := Source.textRun_append c s
  have run := Source.textRun_sameRun c h
  have inside : (Source.textRun c s).raw ⊆ s := fun d member =>
    covers ▸ List.mem_append_left _ member
  have plain : Text.SameLines (c :: (Source.textRun c s).raw) (c :: (Source.textRun c s).raw) :=
    .cons other (h.refl_of_subset inside)
  generalize first : Source.textRun c s = a at run plain
  generalize second : Source.textRun c t = b at run
  cases run with
  | @ending raw =>
    simp only [text, first, second]
    refine ⟨.cons ⟨rfl, .text ?_, plain⟩ .nil, .nil, .nil⟩
    rw [plain.withoutLast_return.1]
    exact plain
  | @same raw d rest rest' solid same =>
    by_cases feed : d = '\n'
    · subst feed
      simp only [text, first, second]
      refine ⟨.cons ⟨rfl, .text ?_, plain.append (.cons solid .nil)⟩ .nil, same, .nil⟩
      rw [plain.withoutLast_return.1]
      exact plain
    · rw [text_of_rest first feed, text_of_rest second feed]
      exact ⟨.cons ⟨rfl, .text plain, plain⟩ .nil, .cons solid same, .nil⟩
  | @pair raw rest rest' same =>
    have ended : Text.withoutLast '\r' (c :: (raw ++ ['\r'])) = c :: raw := by
      rw [← List.cons_append, Text.withoutLast_concat, if_pos rfl]
    have longer : Text.SameLines (c :: raw ++ ['\n']) (c :: (raw ++ ['\r']) ++ ['\n']) := by
      have both := plain.append (.pair .nil)
      simpa using both
    simp only [text, first, second, ended]
    refine ⟨.cons ⟨rfl, .text ?_, longer⟩ .nil, same, .nil⟩
    rw [plain.withoutLast_return.1]
    exact plain

/-- Two sources with the same lines start with the same piece. -/
theorem read_sameLines (lineStart : Bool) {c c' : Char} {r r' : Text}
    (h : Text.SameLines (c :: r) (c' :: r')) :
    SameLines (read lineStart c r) (read lineStart c' r') := by
  cases h with
  | pair rest =>
    -- a line end is a line break, with its carriage return
    rw [read, read, Opening.of_lineEnd lineStart rfl, Opening.of_lineEnd lineStart rfl]
    exact ⟨.cons ⟨rfl, .text (.cons (by decide) .nil), .pair .nil⟩ .nil, rest, .nil⟩
  | cons other rest =>
    have same : Text.SameLines (c :: r) (c :: r') := .cons other rest
    have fits := Opening.fits lineStart c r
    -- `f` puts what is read as a list marker on the second side in place of the first one
    obtain ⟨f, marker, keeps⟩ : ∃ f : ListMarker → ListMarker,
        ListMarker.at? (c :: r') = (ListMarker.at? (c :: r)).map f ∧
          ∀ m, ListMarker.at? (c :: r) = some m → ListMarker.SameLines m (f m) := by
      obtain ⟨found, found'⟩ | ⟨m, n, found, found', markers⟩ :=
        optionRel_cases (ListMarker.at?_sameLines same)
      · exact ⟨id, by rw [found, found']; rfl, by simp [found]⟩
      · refine ⟨fun _ => n, by rw [found, found']; rfl, fun k front => ?_⟩
        cases found.symm.trans front
        exact markers
    have opening : Opening.of lineStart c r' = (Opening.of lineStart c r).mapMarker f :=
      Opening.of_congr marker (Source.opensTarget_eq same) (fun _ => Source.opensTarget_eq rest)
        (Source.atLineEnd_eq same)
    rw [read, read, opening]
    cases front : Opening.of lineStart c r with
    | header => exact header_sameLines same
    | list m =>
      rw [front] at fits
      have inside : m.raw ⊆ c :: r :=
        ListMarker.at?_append fits.2 ▸ List.subset_append_left m.raw m.rest
      exact list_sameLines (keeps m fits.2) (same.refl_of_subset inside)
    | emphasis mark =>
      rw [front] at fits
      obtain ⟨rfl, marks⟩ := fits
      exact emphasis_sameLines marks rest
    | code => exact code_sameLines rest
    | link =>
      rw [front] at fits
      obtain ⟨label, after, whole, -⟩ := Source.exists_of_opensTarget fits
      obtain rfl : c = '[' := (List.cons.inj whole).1
      exact targeted_sameLines _ _ (by decide) fits rest .link
    | image =>
      rw [front] at fits
      obtain ⟨label, after, rfl, -⟩ := Source.exists_of_opensTarget fits.2
      obtain ⟨r', rfl, inner⟩ := rest.cons_inv (by decide)
      exact targeted_sameLines _ _ (by decide) fits.2 inner .image
    | quote => exact quote_sameLines same
    | table => exact table_sameLines same
    | math => exact math_sameLines rest
    | lineBreak =>
      rw [front] at fits
      obtain rfl : c = '\n' := by
        rw [Opening.Fits, Source.atLineEnd_cons r other] at fits
        exact of_decide_eq_true fits
      exact ⟨.cons ⟨rfl, .text (.cons (by decide) .nil), .cons (by decide) .nil⟩ .nil, rest, .nil⟩
    | text => exact text_sameLines other rest

end Piece

/-- Positions in the same line and column. -/
structure Position.Aligned (p q : Position) : Prop where
  line : q.line = p.line
  column : q.column = p.column

/-- Positions stay in the same line and column over the same lines. -/
lemma Position.Aligned.after {p q : Position} (near : Aligned p q) (h : Text.SameLines s t) :
    Aligned (p.after s) (q.after t) := by
  induction h generalizing p q with
  | nil => exact near
  | @cons c s t _ _ ih =>
    apply ih
    unfold next
    split
    · exact ⟨congrArg (· + 1) near.line, rfl⟩
    · exact ⟨near.line, congrArg (· + 1) near.column⟩
  | pair _ ih =>
    apply ih
    exact ⟨congrArg (· + 1) near.line, rfl⟩

/-- Tokens of one kind that say the same and stand in the same lines and columns. -/
structure Token.SameLines (t u : Token) : Prop where
  kind : u.kind = t.kind
  value : Value.SameLines t.value u.value
  span : Span.Alike Position.Aligned t.span u.span

/-- The same construct is not closed, in the same lines and columns. -/
structure Unclosed.SameLines (u v : Unclosed) : Prop where
  construct : v.construct = u.construct
  span : Span.Alike Position.Aligned u.span v.span

/-- The same lexemes, placed at aligned positions, are the same tokens. -/
lemma Lexeme.place_sameLines {ls ms : List Lexeme} {p q : Position} (near : p.Aligned q)
    (h : List.Forall₂ Lexeme.SameLines ls ms) :
    List.Forall₂ Token.SameLines (place p ls) (place q ms) := by
  induction h generalizing p q with
  | nil => exact .nil
  | cons one _ ih =>
    have after := near.after one.raw
    exact .cons ⟨one.kind, one.value, near, after⟩ (ih after)

/-- The same open ends, placed at aligned positions, are the same warnings. -/
lemma OpenEnd.place_sameLines {as bs : List OpenEnd} {p q : Position} (near : p.Aligned q)
    (h : List.Forall₂ OpenEnd.SameLines as bs) :
    List.Forall₂ Unclosed.SameLines (as.map (place p)) (bs.map (place q)) := by
  induction h with
  | nil => exact .nil
  | cons one _ ih => exact .cons ⟨one.construct, near, near.after one.raw⟩ ih

/-- Lexemes one after the other are made from the same lines. -/
lemma Lexeme.raws_sameLines {ls ms : List Lexeme} (h : List.Forall₂ Lexeme.SameLines ls ms) :
    Text.SameLines (ls.flatMap raw) (ms.flatMap raw) := by
  induction h with
  | nil => exact .nil
  | cons one _ ih => exact one.raw.append ih

/-- Places before the same lines. -/
structure Cursor.SameLines (a b : Cursor) : Prop where
  lineStart : b.lineStart = a.lineStart
  position : a.position.Aligned b.position
  rest : Text.SameLines a.rest b.rest

namespace Reading

/-- The same is read from the same lines. -/
theorem all_sameLines {cursor other : Cursor} (h : cursor.SameLines other) :
    List.Forall₂ Token.SameLines (all false cursor).tokens (all false other).tokens ∧
      List.Forall₂ Unclosed.SameLines (all false cursor).warnings (all false other).warnings := by
  induction cursor using Cursor.pieces_rec generalizing other with
  | ending cursor none =>
    have none' : other.rest = [] := (none ▸ h.rest).eq_nil
    rw [all_ending false none, all_ending false none']
    exact ⟨.nil, .nil⟩
  | piece cursor c r front ih =>
    obtain ⟨c', r', front'⟩ := (front ▸ h.rest).exists_cons
    have left : cursor.rest ≠ [] := by simp [front]
    have left' : other.rest ≠ [] := by simp [front']
    have piece : Piece.SameLines (Piece.read cursor.lineStart c r) (Piece.read other.lineStart c' r') := by
      rw [h.lineStart]
      exact Piece.read_sameLines _ (front ▸ front' ▸ h.rest)
    have raw : Text.SameLines (Piece.read cursor.lineStart c r).raw
        (Piece.read other.lineStart c' r').raw := Lexeme.raws_sameLines piece.lexemes
    have past : Cursor.SameLines (cursor.past (Piece.read cursor.lineStart c r))
        (other.past (Piece.read other.lineStart c' r')) := by
      refine ⟨?_, h.position.after raw, piece.rest⟩
      simp only [Cursor.past, raw.getLast?_iff]
    rw [all_piece false left, all_piece false left', step_lenient front, step_lenient front']
    obtain ⟨tokens, warnings⟩ := ih past
    exact ⟨List.rel_append (Lexeme.place_sameLines h.position piece.lexemes) tokens,
      List.rel_append (OpenEnd.place_sameLines h.position piece.openEnds) warnings⟩

end Reading

/-- Sources with the same lines have the same tokens and warnings, up to their line ends. -/
theorem tokenize_sameLines (h : Text.SameLines s t) :
    List.Forall₂ Token.SameLines (tokenize false s).tokens (tokenize false t).tokens ∧
      List.Forall₂ Unclosed.SameLines (tokenize false s).warnings (tokenize false t).warnings := by
  obtain ⟨tokens, warnings⟩ := tokenize_eq s
  obtain ⟨tokens', warnings'⟩ := tokenize_eq t
  have origin : Position.origin.Aligned Position.origin := ⟨rfl, rfl⟩
  have ending := origin.after h
  have start : (Cursor.start s).SameLines (Cursor.start t) := ⟨rfl, origin, h⟩
  obtain ⟨all, unclosed⟩ := Reading.all_sameLines start
  rw [tokens, tokens', warnings, warnings']
  exact ⟨List.rel_append all (.cons ⟨rfl, .text .nil, ending, ending⟩ .nil), unclosed⟩

end Marktex
