import Marktex.Proofs.Document.Rejection

/-!
# Sessions on a parser

A parser can be asked for nodes and documents one after the other, also when tokens were rejected before. Each
call moves it on by the tokens that it passes (`Parser.At.call`). After a rejection it goes on behind a token
whose content did not fit, and stays for good at one whose kind did not (`Parser.session_stays`).
`parser_rejects` says what is rejected of a stream, and that a parser keeps exact account of its place.
-/

namespace Marktex

namespace Parser

variable {tokens : List Token} {parser next : Parser} {i : Nat} {r : Rejection}

/-- A parser that rejects a token has passed the tokens before it, and perhaps the token itself. -/
lemma Rejects.passes (h : parser.Rejects r next) : ∃ b, parser.ahead = b ++ next.ahead := by
  obtain ⟨before, t, after, cut, -, -, left⟩ := h
  rw [left]
  split
  · exact ⟨before ++ [t], by simp [cut]⟩
  · exact ⟨before, cut⟩

/-- A call passes tokens from the front, and never the last one. -/
lemma call_passes (parser : Parser) (call : Call) :
    (∃ b, parser.ahead = b ++ (parser.call call).2.ahead) ∧
      (parser.call call).2.last = parser.last := by
  cases call with
  | node =>
    refine ⟨?_, node_last parser⟩
    obtain ⟨-, b, -, cut, -⟩ | ⟨r, -, rejects⟩ | ⟨-, stays⟩ := parser.node_cases
    · exact ⟨b, cut⟩
    · exact rejects.passes
    · exact ⟨[], by rw [Parser.call, stays]; rfl⟩
  | document =>
    refine ⟨?_, nodes_last _ parser⟩
    obtain ⟨-, -, none, -⟩ | ⟨r, -, rejects⟩ := parser.document_cases
    · exact ⟨parser.ahead, by rw [Parser.call, none, List.append_nil]⟩
    · exact rejects.passes
  | atEnd => exact ⟨⟨[], rfl⟩, rfl⟩

/-- A parser at a token whose kind has no meaning rejects it and stays. -/
lemma stays {t : Token} {ts : List Token} (ahead : parser.ahead = t :: ts)
    (unknown : t.kind.isKnown = false) (bad : r.Of t) :
    parser.node = (.error r, parser) ∧ parser.document = (.error r, parser) := by
  have node : parser.node = (.error r, parser) := by
    obtain ⟨_, last⟩ := parser
    cases ahead
    have single : t.kind.isListPart = false := by
      rw [← Bool.not_eq_true]
      intro part
      rw [Kind.isKnown_of_isListPart part] at unknown
      cases unknown
    simp [Parser.node, single, unknown, Token.content_of_not_isKnown unknown bad, Except.map]
  refine ⟨node, ?_⟩
  rw [document_eq, ahead, List.length_cons, nodes_of_error _ (by simp [ahead]) node]
  rfl

/-- A parser at a token whose kind has no meaning rejects it whatever is asked before, whenever it is asked
for a node or a document. -/
lemma session_stays {t : Token} {ts : List Token} (ahead : parser.ahead = t :: ts)
    (unknown : t.kind.isKnown = false) (bad : r.Of t) (calls : List Call) {call : Call}
    (asks : call ≠ .atEnd) : ((parser.session calls).call call).1 = .error r := by
  obtain ⟨node, document⟩ := stays ahead unknown bad
  have same : ∀ call, (parser.call call).2 = parser := by
    intro call
    cases call with
    | node => rw [Parser.call, node]
    | document => rw [Parser.call, document]
    | atEnd => rfl
  have session : parser.session calls = parser := by
    induction calls with
    | nil => rfl
    | cons call calls ih =>
      rw [Parser.session, List.foldl_cons, same call]
      exact ih
  rw [session]
  cases call with
  | node => rw [Parser.call, node]; rfl
  | document => rw [Parser.call, document]; rfl
  | atEnd => exact absurd rfl asks

/-- Where a parser is in a stream: behind its first `i` tokens, and not behind the last one. -/
structure At (tokens : List Token) (i : Nat) (parser : Parser) : Prop where
  le : i ≤ (Token.body tokens).length
  ahead : parser.ahead = (Token.body tokens).drop i
  last : parser.last = (start tokens).last

/-- A token is rejected by a parser behind `i` tokens. It is the first bad token from there on, with
number `k`. The parser is left behind it if its kind has a meaning. Otherwise it is left at it, and rejects
it again, whatever is asked before, whenever it is asked for a node or a document. -/
structure RejectsAt (tokens : List Token) (i k : Nat) (t : Token) (r : Rejection) (next : Parser) :
    Prop where
  le : i ≤ k
  token : (Token.body tokens)[k]? = some t
  first : ∀ l u, i ≤ l → l < k → (Token.body tokens)[l]? = some u → u.Good
  rejection : r.Of t
  passed : t.kind.isKnown = true → next.At tokens (k + 1)
  kept : t.kind.isKnown = false → next.At tokens k ∧
    ∀ calls call, call ≠ .atEnd → ((next.session calls).call call).1 = .error r

/-- At first no token has been passed. -/
lemma start_at (tokens : List Token) : (start tokens).At tokens 0 :=
  ⟨Nat.zero_le _, by rw [start_ahead, List.drop_zero], rfl⟩

/-- A parser that passes tokens moves on by as many. -/
lemma At.pass (h : parser.At tokens i) {b : List Token} (cut : parser.ahead = b ++ next.ahead)
    (last : next.last = parser.last) : next.At tokens (i + b.length) := by
  obtain ⟨le, ahead, same⟩ := h
  rw [ahead] at cut
  refine ⟨?_, ?_, last.trans same⟩
  · have length := congrArg List.length cut
    rw [List.length_drop, List.length_append] at length
    omega
  · rw [← List.drop_drop, cut, List.drop_left]

/-- No call moves a parser back. -/
lemma At.call (h : parser.At tokens i) (call : Call) :
    ∃ j, i ≤ j ∧ (parser.call call).2.At tokens j := by
  obtain ⟨⟨b, cut⟩, last⟩ := call_passes parser call
  exact ⟨i + b.length, Nat.le_add_right _ _, h.pass cut last⟩

/-- A parser is at some place of its stream after every session. -/
lemma At.session (h : parser.At tokens i) (calls : List Call) :
    ∃ j, (parser.session calls).At tokens j := by
  induction calls generalizing parser i with
  | nil => exact ⟨i, h⟩
  | cons call calls ih =>
    obtain ⟨j, -, next⟩ := h.call call
    exact ih next

/-- A rejection tells the first bad token from the place of the parser on. -/
lemma At.rejects (h : parser.At tokens i) (rejects : parser.Rejects r next)
    (last : next.last = parser.last) : ∃ k t, RejectsAt tokens i k t r next := by
  obtain ⟨before, t, after, cut, good, bad, left⟩ := rejects
  have body : (Token.body tokens).drop i = before ++ t :: after := h.ahead.symm.trans cut
  -- numbers count from the front of the stream, places in `before` from that of the parser
  have token (l : Nat) : (Token.body tokens)[i + l]? = (before ++ t :: after)[l]? := by
    rw [← body, List.getElem?_drop]
  refine ⟨i + before.length, t, Nat.le_add_right _ _, ?_, ?_, bad, ?_, ?_⟩
  · rw [token, List.getElem?_append_right (Nat.le_refl _), Nat.sub_self]
    rfl
  · intro l u lower upper found
    obtain ⟨l, rfl⟩ := Nat.exists_eq_add_of_le lower
    rw [token, List.getElem?_append_left (by omega)] at found
    exact good u (List.mem_of_getElem? found)
  · intro known
    rw [if_pos known] at left
    have pass := h.pass (b := before ++ [t]) (by simp [cut, left]) last
    rwa [List.length_append] at pass
  · intro unknown
    rw [if_neg (by simp [unknown])] at left
    exact ⟨h.pass (by rw [cut, left]) last, fun calls call asks =>
      session_stays left unknown bad calls asks⟩

/-- A parser that keeps exact account of its place behind `i` tokens of a stream. No call moves it back or
behind the last token. A call that is rejected is so because of the first bad token ahead, or it asks for a
node where only the last token is left; that is rejected and nothing moves. -/
structure Exact (tokens : List Token) (i : Nat) (parser : Parser) : Prop where
  place : parser.At tokens i
  moves : ∀ call, ∃ j, i ≤ j ∧ (parser.call call).2.At tokens j
  rejects : ∀ call r, (parser.call call).1 = .error r →
    (∃ k t, RejectsAt tokens i k t r (parser.call call).2) ∨
      call = .node ∧ i = (Token.body tokens).length
  ending : i = (Token.body tokens).length →
    parser.call .node = (.error ⟨.earlyEnding, (start tokens).last.span⟩, parser)
  last : Rejection.Of (start tokens).last ⟨.earlyEnding, (start tokens).last.span⟩

/-- The last token of a stream is an end token. -/
lemma start_last (tokens : List Token) : (start tokens).last.kind = .ending := by
  unfold start
  split
  case h_1 => rfl
  case h_2 t _ =>
    split
    case isTrue ending => exact ending
    case isFalse => rfl

/-- A parser that is somewhere in a stream keeps exact account of its place. -/
lemma At.exact (h : parser.At tokens i) : parser.Exact tokens i := by
  refine ⟨h, h.call, fun call r rejected => ?_, fun ending => ?_, ⟨.ending (start_last tokens), rfl⟩⟩
  · have last := (call_passes parser call).2
    cases call with
    | node =>
      obtain ⟨node, b, made, -⟩ | ⟨r', error, rejects⟩ | ⟨none, -⟩ := parser.node_cases
      · rw [Parser.call, made] at rejected
        cases rejected
      · rw [Parser.call, error] at rejected
        cases rejected
        exact .inl (h.rejects rejects last)
      · rw [h.ahead, List.drop_eq_nil_iff] at none
        exact .inr ⟨rfl, Nat.le_antisymm h.le none⟩
    | document =>
      obtain ⟨document, made, -⟩ | ⟨r', error, rejects⟩ := parser.document_cases
      · rw [Parser.call, made] at rejected
        cases rejected
      · rw [Parser.call, error] at rejected
        cases rejected
        exact .inl (h.rejects rejects last)
    | atEnd => cases rejected
  · have none : parser.ahead = [] := by rw [h.ahead, ending, List.drop_length]
    have node : parser.node = (.error ⟨.earlyEnding, parser.last.span⟩, parser) := by
      unfold Parser.node
      rw [none]
      rfl
    rw [Parser.call, node, h.last]
    rfl

end Parser

/-- What a parser rejects, and where it is then. A stream has no document exactly if one of its tokens
before the end token is bad, and then the first of these is rejected. The report of a rejection says what is
wrong with the token and where it stands, and it is written exactly if the token can be reported. In every
session on one parser, the parser keeps exact account of its place in the stream, also after rejections. -/
theorem parser_rejects (source : Text) (tokens : List Token) :
    ((∃ r, Document.ofTokens tokens = .error r) ↔ ∃ t ∈ Token.body tokens, ∃ fault, t.Bad fault) ∧
    (∀ r, Document.ofTokens tokens = .error r →
      ∃ before t after, Token.body tokens = before ++ t :: after ∧ (∀ u ∈ before, u.Good) ∧ r.Of t) ∧
    (∀ (t : Token) (r : Rejection), r.Of t →
      ((∃ report, r.report source = .ok report) ↔ t.Reportable source) ∧
      ∀ report, r.report source = .ok report → r.Tells t report) ∧
    ∀ calls, ∃ i, ((Parser.start tokens).session calls).Exact tokens i := by
  have cases := Document.ofTokens_cases tokens
  refine ⟨⟨?_, ?_⟩, ?_, fun t r rejection => rejection.report_iff source, fun calls => ?_⟩
  · rintro ⟨r, rejected⟩
    obtain ⟨document, made, -⟩ | ⟨r, before, t, after, -, cut, -, bad⟩ := cases
    · cases made.symm.trans rejected
    · exact ⟨t, by simp [cut], r.fault, bad.fault⟩
  · rintro ⟨t, member, fault, bad⟩
    obtain ⟨document, -, good⟩ | ⟨r, before, u, after, rejected, -⟩ := cases
    · exact absurd bad (good t member fault)
    · exact ⟨r, rejected⟩
  · intro r rejected
    obtain ⟨document, made, -⟩ | ⟨r', before, t, after, error, cut, good, bad⟩ := cases
    · cases made.symm.trans rejected
    · cases error.symm.trans rejected
      exact ⟨before, t, after, cut, good, bad⟩
  · obtain ⟨i, place⟩ := (Parser.start_at tokens).session calls
    exact ⟨i, place.exact⟩

/-- Not every rejection is reported: an early end token may stand too far to the right, and the level of a
header where a link should be may have too many digits. -/
theorem not_all_rejections_reported :
    (∃ tokens r, tokens.map Token.kind = [.ending, .ending] ∧ Document.ofTokens tokens = .error r ∧
      r.span.start.column = 9223372036854775809 ∧ r.report [] = .error .stretch) ∧
    ∃ tokens r, tokens.map (fun t => (t.kind, t.value)) = [(.link, .payload (.header (Nat.pow 10 4300) []))] ∧
      Document.ofTokens tokens = .error r ∧ r.report [] = .error .number := by
  constructor
  · let far := Span.point ⟨1, 9223372036854775809, 0⟩
    exact ⟨[⟨.ending, .text [], [], far⟩, Token.ending .origin], ⟨.earlyEnding, far⟩, rfl, rfl, rfl,
      by decide⟩
  · let value := Value.payload (.header (Nat.pow 10 4300) [])
    exact ⟨[⟨.link, value, [], .point .origin⟩], ⟨.malformed .link value, .point .origin⟩, rfl, rfl,
      by decide +kernel⟩

/-- An item with a box and the payload of a link, in a list and before a token of a kind without meaning. -/
theorem parser_rejects_first :
    ∃ tokens r, tokens.map Token.kind = [.listItem, .marker .bullet, .todoItem, .foreign ['x']] ∧
      Document.ofTokens tokens = .error r ∧
      (∃ before t after, Token.body tokens = before ++ t :: after ∧ (∀ u ∈ before, u.Good) ∧ r.Of t) ∧
      ∃ t report, r.Of t ∧ r.report [] = .ok report ∧ r.Tells t report ∧
        report.message = "malformed todo_item payload: LinkPayload(text='b', url='c')".toList := by
  let item : Token := ⟨.todoItem, .payload (.link ['b'] ['c']), ['b'], .along ⟨1, 3, 2⟩ ['b']⟩
  let tokens : List Token :=
    [⟨.listItem, .text ['a'], ['a'], .along .origin ['a']⟩,
      ⟨.marker .bullet, .stray .nothing, ['-'], .along ⟨1, 2, 1⟩ ['-']⟩, item,
      ⟨.foreign ['x'], .text [], ['d'], .along ⟨1, 4, 3⟩ ['d']⟩]
  obtain ⟨-, first, reports, -⟩ := parser_rejects [] tokens
  have bad : Rejection.Of item ⟨.malformed .todoItem item.value, item.span⟩ := ⟨.payload rfl nofun nofun, rfl⟩
  have written : Rejection.report [] ⟨.malformed .todoItem item.value, item.span⟩ = .ok
      ⟨.error, "malformed todo_item payload: LinkPayload(text='b', url='c')".toList,
        item.span.start, some item.span.stop⟩ := by decide +kernel
  exact ⟨tokens, _, rfl, rfl, first _ rfl, item, _, bad, written, (reports item _ bad).2 _ written, rfl⟩

end Marktex
