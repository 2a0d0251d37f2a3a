import Mathlib.Tactic.Lemma
import Marktex.Proofs.Source.Lookahead
import Marktex.Proofs.Token.Lexemes
import Marktex.Proofs.Token.Openings
import Marktex.Proofs.Token.Shape
import Marktex.Proofs.Token.Tiling

/-!
# Runs of text

Where a run of text stops and what the next token is are two decisions that look at the source on their own.
They agree: a run stops before the end of its line only where an inline construct opens
(`Source.textRun_stop`), it goes past none (`Source.textRun_free`), and what opens there is read as a token
between delimiters (`Piece.isDelimited_of_breaks`). A run has to know the character before each place, so that
these lemmas speak of all the text before it. `tokenize_text_runs` says what this means for the tokens of a
source.
-/

namespace Marktex

namespace Source

/-- An inline construct that opens inside of a line, between the text before it and the text from it on: code,
math, a link or an image with its whole label, or a mark of emphasis at the front of a word. -/
inductive Breaks (before : Text) : Text → Prop where
  | code {r} :
    Breaks before ('`' :: r)
  | math {r} :
    Breaks before ('$' :: r)
  | link {label r} :
    (∀ c ∈ label, c ≠ ']' ∧ c ≠ '\n') →
    Breaks before ('[' :: label ++ ']' :: '(' :: r)
  | image {label r} :
    (∀ c ∈ label, c ≠ ']' ∧ c ≠ '\n') →
    Breaks before ('!' :: '[' :: label ++ ']' :: '(' :: r)
  | emphasis {mark b c r} :
    mark = '*' ∨ mark = '_' →
    before.getLast? = some b →
    Text.isBlank b = true →
    Text.isBlank c = false →
    Breaks before (mark :: c :: r)

/-- The stop test of a run finds what opens behind the text before it. -/
lemma interrupts_iff {before : Text} {b : Char} (last : before.getLast? = some b) (c : Char) (r : Text) :
    interrupts b c r = true ↔ Breaks before (c :: r) := by
  constructor
  · intro h
    have wordFront (h : interrupts.wordFront b r = true) :
        Text.isBlank b = true ∧ ∃ d s, r = d :: s ∧ Text.isBlank d = false := by
      cases r with
      | nil => simp [interrupts.wordFront] at h
      | cons d s => simpa [interrupts.wordFront] using h
    unfold interrupts at h
    split at h
    case h_1 => exact .code
    case h_2 => exact .math
    case h_3 =>
      obtain ⟨label, s, whole, plain⟩ := exists_of_opensTarget h
      rw [whole]
      exact .link plain
    case h_4 =>
      obtain ⟨label, s, rfl, plain⟩ := exists_of_opensTarget h
      exact .image plain
    case h_5 =>
      obtain ⟨blank, d, s, rfl, solid⟩ := wordFront h
      exact .emphasis (.inl rfl) last blank solid
    case h_6 =>
      obtain ⟨blank, d, s, rfl, solid⟩ := wordFront h
      exact .emphasis (.inr rfl) last blank solid
    case h_7 => cases h
  · intro h
    generalize whole : c :: r = s at h
    cases h with
    | code | math =>
      cases whole
      rfl
    | @link label s plain =>
      cases whole
      exact opensTarget_iff.2 ⟨label, s, rfl, plain⟩
    | @image label s plain =>
      cases whole
      exact opensTarget_iff.2 ⟨label, s, rfl, plain⟩
    | emphasis mark last' blank solid =>
      cases whole
      cases last.symm.trans last'
      rcases mark with rfl | rfl <;> simp [interrupts, interrupts.wordFront, blank, solid]

/-- No inline construct opens at a line feed. -/
lemma not_breaks_line_feed {before r : Text} : ¬ Breaks before ('\n' :: r) := by
  intro h
  cases h with
  | emphasis mark => revert mark; decide

/-- No inline construct opens in a run of text. -/
lemma textRun_free {before : Text} {b : Char} (last : before.getLast? = some b) {s u v : Text}
    (parts : (textRun b s).raw = u ++ v) (some : v ≠ []) :
    ¬ Breaks (before ++ u) (v ++ (textRun b s).rest) := by
  induction s generalizing before b u with
  | nil =>
    obtain ⟨-, rfl⟩ := List.append_eq_nil_iff.1 parts.symm
    exact absurd rfl some
  | cons c s ih =>
    rw [textRun] at parts ⊢
    split at parts
    case isTrue =>
      obtain ⟨-, rfl⟩ := List.append_eq_nil_iff.1 parts.symm
      exact absurd rfl some
    case isFalse inside =>
      rw [if_neg inside]
      cases u with
      | nil =>
        rw [List.nil_append] at parts
        rw [← parts, Taken.raw_push, Taken.rest_push, List.cons_append, textRun_append, List.append_nil,
          ← interrupts_iff last]
        exact fun opens => inside (.inr opens)
      | cons d u =>
        obtain ⟨same, later⟩ := List.cons.inj parts
        rw [Taken.rest_push, ← same, List.append_cons]
        exact ih List.getLast?_concat later

/-- A run of text goes on to the end of the input, to the end of the line, or to an inline construct. -/
lemma textRun_stop {before : Text} {b : Char} (last : before.getLast? = some b) (s : Text) :
    (textRun b s).rest = [] ∨ (∃ r, (textRun b s).rest = '\n' :: r) ∨
      Breaks (before ++ (textRun b s).raw) (textRun b s).rest := by
  induction s generalizing before b with
  | nil => exact .inl rfl
  | cons c s ih =>
    rw [textRun]
    split
    case isTrue stop =>
      rcases stop with rfl | opens
      · exact .inr (.inl ⟨s, rfl⟩)
      · rw [List.append_nil, ← interrupts_iff last]
        exact .inr (.inr opens)
    case isFalse =>
      have further : (before ++ [c]).getLast? = some c := List.getLast?_concat
      have later := ih further
      rwa [List.append_assoc] at later

/-- No inline construct opens inside of `s`, behind its first character. -/
def Free (before s after : Text) : Prop :=
  ∀ u v, s = u ++ v → u ≠ [] → v ≠ [] → ¬ Breaks (before ++ u) (v ++ after)

/-- The line feed behind a text opens nothing. -/
lemma Free.concat {before s after : Text} (h : Free before s ('\n' :: after)) :
    Free before (s ++ ['\n']) after := by
  intro u v whole front some
  obtain ⟨v, c, rfl⟩ := (List.eq_nil_or_concat' v).resolve_left some
  rw [← List.append_assoc] at whole
  obtain ⟨rfl, feed⟩ := List.append_inj' whole rfl
  cases feed
  rw [List.append_assoc]
  by_cases none : v = []
  · subst none
    exact not_breaks_line_feed
  · exact h u v rfl front none

/-- No inline construct opens at a place of the source that lies inside of `s`. -/
lemma Free.not_breaks {before s after front rest : Text} (h : Free before s after)
    (whole : before ++ s ++ after = front ++ rest) (lower : before.length < front.length)
    (upper : front.length < before.length + s.length) : ¬ Breaks front rest := by
  rw [List.append_assoc] at whole
  obtain ⟨u, rfl, parts⟩ | ⟨u, rfl, -⟩ := List.append_eq_append_iff.1 whole
  · rw [List.length_append] at lower upper
    obtain ⟨v, rfl, -⟩ | ⟨v, rfl, rfl⟩ := List.append_eq_append_iff.1 parts
    · rw [List.length_append] at upper
      omega
    · rw [List.length_append] at upper
      apply h u v rfl
      · exact List.length_pos_iff.1 (by omega)
      · exact List.length_pos_iff.1 (by omega)
  · rw [List.length_append] at lower
    omega

end Source

/-- The kinds of running text. -/
def Kind.isRun : Kind → Bool
  | .styled .paragraph => true
  | .styled .plain => true
  | _ => false

/-- Running text is no item of a list. -/
lemma Kind.not_isItem_of_isRun {kind : Kind} (h : kind.isRun = true) : kind.isItem = false := by
  cases kind with
  | styled => rfl
  | _ => cases h

/-- Running text comes where nothing else opens. -/
lemma Opening.Yields.eq_text {opening : Opening} {kind : Kind} (h : opening.Yields kind)
    (run : kind.isRun = true) : opening = .text := by
  cases h with
  | item isItem =>
    rw [Kind.not_isItem_of_isRun run] at isItem
    cases isItem
  | paragraph | plain => rfl
  | _ => cases run

/-- What opens inside of a line is read as something between two delimiters. -/
lemma Opening.isDelimited_of_breaks {before : Text} {c : Char} {r : Text}
    (h : Source.Breaks before (c :: r)) : (Opening.of false c r).isDelimited = true := by
  generalize whole : c :: r = s at h
  cases h with
  | code =>
    cases whole
    rw [Opening.of_code]
    rfl
  | math =>
    cases whole
    rw [Opening.of_math]
    rfl
  | @link label s plain =>
    cases whole
    have target := Source.opensTarget_iff.2 ⟨label, s, rfl, plain⟩
    exact congrArg Opening.isDelimited (Opening.of_link false target)
  | @image label s plain =>
    cases whole
    have target := Source.opensTarget_iff.2 ⟨label, s, rfl, plain⟩
    exact congrArg Opening.isDelimited (Opening.of_image false target)
  | emphasis mark =>
    cases whole
    rw [Opening.of_emphasis mark fun start => by cases start]
    rfl

/-- A lexeme of running text, between the text before it and the text after it: plain text that is cut by an
inline construct, or a paragraph that has the rest of its line or of the input. -/
inductive Lexeme.Run (before : Text) : Lexeme → Text → Prop where
  | cut {s after} :
    s ≠ [] →
    '\n' ∉ s →
    Source.Free before s after →
    Source.Breaks (before ++ s) after →
    Run before ⟨.styled .plain, .text s, s⟩ after
  | line {s after} :
    '\n' ∉ s →
    Source.Free before (s ++ ['\n']) after →
    Run before ⟨.styled .paragraph, .text (Text.withoutLast '\r' s), s ++ ['\n']⟩ after
  | last {s} :
    '\n' ∉ s →
    Source.Free before s [] →
    Run before ⟨.styled .paragraph, .text (Text.withoutLast '\r' s), s⟩ []

/-- Inside of running text no inline construct opens. -/
lemma Lexeme.Run.free {before after : Text} {l : Lexeme} (h : l.Run before after) :
    Source.Free before l.raw after := by
  cases h <;> assumption

/-- Plain text is what it was cut from, without a line feed, and ends where an inline construct opens. -/
lemma Lexeme.Run.plain {before after : Text} {l : Lexeme} (h : l.Run before after)
    (kind : l.kind = .styled .plain) :
    l.value = .text l.raw ∧ l.raw ≠ [] ∧ '\n' ∉ l.raw ∧ Source.Breaks (before ++ l.raw) after := by
  cases h with
  | cut some plain _ opens => exact ⟨rfl, some, plain, opens⟩
  | line | last => cases kind

/-- A paragraph is a line without its end, or what is left of the source. -/
lemma Lexeme.Run.paragraph {before after : Text} {l : Lexeme} (h : l.Run before after)
    (kind : l.kind = .styled .paragraph) :
    ∃ s, '\n' ∉ s ∧ l.value = .text (Text.withoutLast '\r' s) ∧
      (l.raw = s ++ ['\n'] ∨ l.raw = s ∧ after = []) := by
  cases h with
  | cut => cases kind
  | @line s after plain => exact ⟨s, plain, rfl, .inl rfl⟩
  | @last s plain => exact ⟨s, plain, rfl, .inr ⟨rfl, rfl⟩⟩

/-- How a lexeme fits between the text before it and the text after it: running text goes as far as it should,
and where an inline construct opens inside of a line, the lexeme is one between delimiters. Only the item of a
list may begin with what would be a construct elsewhere. -/
structure Lexeme.Fitted (before : Text) (l : Lexeme) (after : Text) : Prop where
  run : l.kind.isRun = true → l.Run before after
  isDelimited : ¬ before.EndsLine → Source.Breaks before (l.raw ++ after) → l.kind.isItem = false →
    l.kind.isDelimited = true

namespace Piece

/-- Running text is read up to where an inline construct opens or the line ends. -/
lemma text_run (before : Text) {c : Char} (r : Text) (h : c ≠ '\n') :
    ∀ l ∈ (text c r).lexemes, l.Run before (text c r).rest := by
  have last : (before ++ [c]).getLast? = some c := List.getLast?_concat
  have plain := Source.cons_textRun_plain r h
  have stop := Source.textRun_stop last r
  have free : Source.Free before (c :: (Source.textRun c r).raw) (Source.textRun c r).rest := by
    intro u v whole front some
    obtain ⟨d, u, rfl⟩ := List.exists_cons_of_ne_nil front
    obtain ⟨rfl, parts⟩ := List.cons.inj whole
    rw [List.append_cons]
    exact Source.textRun_free last parts some
  unfold text
  dsimp only
  split <;> intro l member <;> obtain rfl := List.mem_singleton.1 member
  case h_1 rest =>
    rw [rest] at free
    exact .last plain free
  case h_2 after rest =>
    rw [rest] at free
    exact .line plain free.concat
  case h_3 none feed =>
    have opens := (stop.resolve_left none).resolve_left fun ⟨r, rest⟩ => feed r rest
    rw [List.append_assoc] at opens
    exact .cut (List.cons_ne_nil c _) plain free opens

/-- The lexemes of every piece are fitted to what stands around them. -/
theorem read_fitted (before : Text) (lineStart : Bool) (c : Char) (r : Text)
    (atStart : lineStart = true ↔ before.EndsLine) :
    Lexeme.InPlace Lexeme.Fitted before (read lineStart c r).lexemes (read lineStart c r).rest := by
  have covers : (read lineStart c r).raw ++ (read lineStart c r).rest = c :: r := read_covers _ c r
  have run : ∀ l ∈ (read lineStart c r).lexemes, l.kind.isRun = true →
      l.Run before (read lineStart c r).rest := by
    intro l member isRun
    have opening := (read_yields lineStart c r l member).eq_text isRun
    have fits := Opening.fits lineStart c r
    rw [opening] at fits
    rw [read, opening] at member ⊢
    refine text_run before r ?_ l member
    rintro rfl
    exact fits rfl
  have isDelimited : ∀ l ∈ (read lineStart c r).lexemes, ¬ before.EndsLine →
      Source.Breaks before (c :: r) → l.kind.isDelimited = true := by
    intro l member inside opens
    rw [(read_yields lineStart c r l member).isDelimited, Bool.eq_false_iff.2 (mt atStart.1 inside)]
    exact Opening.isDelimited_of_breaks opens
  have shape := read_shape lineStart c r
  rw [Piece.raw] at covers
  generalize (read lineStart c r).lexemes = ls at covers run isDelimited shape
  cases shape with
  | alone =>
    rw [List.forall_mem_singleton] at run isDelimited
    apply Lexeme.InPlace.cons _ .nil
    refine ⟨run, fun inside opens _ => isDelimited inside ?_⟩
    rw [← covers]
    simpa using opens
  | @item l l' m marker _ isItem =>
    -- the marker is at the front of the piece, while nothing is asked of the item behind it
    have first := isDelimited l List.mem_cons_self
    apply Lexeme.InPlace.cons
    · refine ⟨fun isRun => ?_, fun inside opens _ => first inside ?_⟩
      · rw [marker] at isRun
        cases isRun
      · rw [← covers]
        simpa using opens
    · apply Lexeme.InPlace.cons _ .nil
      refine ⟨fun isRun => ?_, fun _ _ other => ?_⟩
      · rw [Kind.not_isItem_of_isRun isRun] at isItem
        cases isItem
      · rw [isItem] at other
        cases other

end Piece

/-- Each token of a source fits between what is before it and what is behind it. -/
lemma tokenize_fitted (source : Text) :
    ∀ t ∈ (tokenize false source).tokens, t.InPlace Lexeme.Fitted source := by
  refine tokenize_inPlace Piece.read_fitted (fun source => ⟨fun run => ?_, fun _ opens => ?_⟩) source
  · cases run
  · cases opens

/-- After running text comes another token, and it is no item of a list. -/
lemma exists_token_after {source : Text} {i : Nat} {t : Token}
    (here : (tokenize false source).tokens[i]? = some t) (run : t.kind.isRun = true) :
    ∃ u, (tokenize false source).tokens[i + 1]? = some u ∧ u.kind.isItem = false := by
  obtain ⟨ts, p, tokens, order⟩ := tokenize_orderly source
  rw [tokens] at here ⊢
  have inside : i < (ts ++ [Token.ending p]).length := (List.getElem?_eq_some_iff.1 here).1
  have short : i < ts.length := by
    by_contra long
    obtain rfl : i = ts.length := by
      rw [List.length_append, List.length_singleton] at inside
      omega
    rw [List.getElem?_concat_length] at here
    cases here
    cases run
  have next : i + 1 < (ts ++ [Token.ending p]).length := by
    rw [List.length_append, List.length_singleton]
    omega
  refine ⟨_, List.getElem?_eq_getElem next, ?_⟩
  -- an item would have a marker before it
  by_contra isItem
  obtain ⟨j, v, m, same, before, marker⟩ :=
    order.marker_before rfl _ _ (List.getElem?_eq_getElem next) (Bool.of_not_eq_false isItem)
  obtain rfl := Nat.succ.inj same
  cases here.symm.trans before
  rw [marker] at run
  cases run

/-- Plain text is followed by a token between delimiters. -/
lemma Token.InPlace.isDelimited_next {source : Text} {t u : Token} (h : t.InPlace Lexeme.Fitted source)
    (h' : u.InPlace Lexeme.Fitted source) (place : u.span.start = t.span.stop)
    (kind : t.kind = .styled .plain) (other : u.kind.isItem = false) : u.kind.isDelimited = true := by
  obtain ⟨before, after, here, there⟩ := h.next h' place
  have run : t.lexeme.Run before (u.raw ++ after) := here.run (congrArg Kind.isRun kind)
  obtain ⟨-, some, plain, opens⟩ := run.plain kind
  refine there.isDelimited (fun line => plain ?_) opens other
  exact List.mem_of_getLast? ((Text.endsLine_append before some).1 line)

/-- A token without a line feed stops on the line on which it starts. -/
lemma Token.InPlace.line_stop {P : Text → Lexeme → Text → Prop} {source : Text} {t : Token}
    (h : t.InPlace P source) (plain : '\n' ∉ t.raw) : t.span.stop.line = t.span.start.line := by
  obtain ⟨before, after, -, span, -⟩ := h
  rw [span, Span.along, Position.line_after, List.count_eq_zero.2 plain]
  exact Int.add_zero _

/-- Running text of a source. Plain text holds no line end and is followed on its line by a token between
delimiters, whatever stands before it. A paragraph goes on to the end of its line or of the input, and a
carriage return before that end is left out of it. Inside of both of them no inline construct opens. -/
theorem tokenize_text_runs {strict : Bool} {source : Text}
    (success : (tokenize strict source).failure = none) :
    (∀ i t, (tokenize strict source).tokens[i]? = some t → t.kind = .styled .plain →
      t.value = .text t.raw ∧ t.raw ≠ [] ∧ '\n' ∉ t.raw ∧
      ∃ u, (tokenize strict source).tokens[i + 1]? = some u ∧ u.kind.isDelimited = true ∧
        u.span.start = t.span.stop ∧ u.span.start.line = t.span.start.line) ∧
    (∀ t ∈ (tokenize strict source).tokens, t.kind = .styled .paragraph →
      ∃ s, '\n' ∉ s ∧ t.value = .text (Text.withoutLast '\r' s) ∧
        (t.raw = s ++ ['\n'] ∨ t.raw = s ∧ t.span.stop.offset = source.length)) ∧
    ∀ t ∈ (tokenize strict source).tokens, t.kind.isRun = true →
      ∀ before rest, source = before ++ rest →
        t.span.start.offset < before.length → before.length < t.span.stop.offset →
        ¬ Source.Breaks before rest := by
  rw [tokenize_strict_eq_lenient success]
  have fitted := tokenize_fitted source
  refine ⟨fun i t here kind => ?_, fun t member kind => ?_, fun t member isRun => ?_⟩
  · have member := List.mem_of_getElem? here
    have isRun : t.kind.isRun = true := by rw [kind]; rfl
    obtain ⟨before, after, -, -, fits⟩ := fitted t member
    obtain ⟨value, some, plain, -⟩ := (fits.run isRun).plain kind
    obtain ⟨u, next, other⟩ := exists_token_after here isRun
    have start := (tokenize_tiles source).start_eq here next
    have delimited :=
      (fitted t member).isDelimited_next (fitted u (List.mem_of_getElem? next)) start kind other
    refine ⟨value, some, plain, u, next, delimited, start, ?_⟩
    rw [start, (fitted t member).line_stop plain]
  · have isRun : t.kind.isRun = true := by rw [kind]; rfl
    obtain ⟨before, after, whole, span, fits⟩ := fitted t member
    obtain ⟨s, plain, value, line | ⟨last, rfl⟩⟩ := (fits.run isRun).paragraph kind
    · exact ⟨s, plain, value, .inl line⟩
    · refine ⟨s, plain, value, .inr ⟨last, ?_⟩⟩
      rw [span, whole, Span.along, ← Position.after_append, Position.offset_origin_after, List.append_nil]
  · intro front rest parts lower upper
    obtain ⟨before, after, whole, span, fits⟩ := fitted t member
    rw [span, Span.along, Position.offset_origin_after] at lower
    rw [span, Span.along, Position.offset_after _ t.raw, Position.offset_origin_after] at upper
    apply (fits.run isRun).free.not_breaks (whole.symm.trans parts)
    · exact Int.ofNat_lt.1 lower
    · exact Int.ofNat_lt.1 upper

/-- Strict reading of a line with two runs of text: the first one goes past a mark inside of a word, up to math,
and the second one is between math and italics. -/
theorem tokenize_text_runs_on_line :
    let tokens := (tokenize true "a*b $c$ _d_ e\r\n".toList).tokens
    (tokenize true "a*b $c$ _d_ e\r\n".toList).failure = none ∧
    ∃ t u, tokens[0]? = some t ∧ t.kind = .styled .plain ∧ t.value = .text "a*b ".toList ∧ '\n' ∉ t.raw ∧
      tokens[1]? = some u ∧ u.kind = .styled .inlineMath ∧ u.kind.isDelimited = true ∧
      u.span.start = t.span.stop ∧ u.span.start.line = t.span.start.line := by
  intro tokens
  have success : (tokenize true "a*b $c$ _d_ e\r\n".toList).failure = none := rfl
  have front : ∃ t, tokens[0]? = some t ∧ t.kind = .styled .plain ∧ t.raw = "a*b ".toList := ⟨_, rfl, rfl, rfl⟩
  have second : ∃ v, tokens[1]? = some v ∧ v.kind = .styled .inlineMath := ⟨_, rfl, rfl⟩
  obtain ⟨t, here, kind, raw⟩ := front
  obtain ⟨v, there, math⟩ := second
  obtain ⟨value, -, plain, u, next, delimited, start, line⟩ := (tokenize_text_runs success).1 0 t here kind
  obtain rfl : v = u := Option.some.inj (there.symm.trans next)
  rw [raw] at value
  exact ⟨success, t, v, here, kind, value, plain, there, math, delimited, start, line⟩

end Marktex
