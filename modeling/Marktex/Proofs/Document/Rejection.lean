import Marktex.Proofs.Document.Grouping
import Marktex.Proofs.Text.Integer

/-!
# Rejection of tokens

A token is rejected because of itself alone (`Token.Bad`), never because of the tokens around it: the
grouping of items neither passes over a bad token nor puts its rejection off. What a parser is asked for, a
node (`Parser.node_cases`) or a document (`Parser.document_cases`), it makes of tokens that are not bad, or
it rejects the first bad token ahead (`Parser.Rejects`).

The rejection of a token is reported with what is wrong and where, unless that cannot be written
(`Rejection.Of.report_iff`).
-/

namespace Marktex

namespace Token

/-- What is wrong with a token that is not the last one: it is an end token or of a kind without meaning,
it does not carry the text that its kind asks for, or it carries neither a text nor the payload of its
kind. -/
inductive Bad : Token → Fault → Prop where
  | ending {t} :
    t.kind = .ending →
    Bad t .earlyEnding
  | foreign {t name} :
    t.kind = .foreign name →
    Bad t (.unknownKind name)
  | styled {t style} :
    t.kind = .styled style →
    (∀ s, t.value ≠ .text s) →
    Bad t (.notText t.kind t.value)
  | listItem {t} :
    t.kind = .listItem →
    (∀ s, t.value ≠ .text s) →
    Bad t .itemNotText
  | payload {t} :
    t.kind.hasPayload = true →
    (∀ s, t.value ≠ .text s) →
    ¬ t.kind.Carries t.value →
    Bad t (.malformed t.kind t.value)

/-- Nothing is wrong with the token. -/
def Good (t : Token) : Prop :=
  ∀ fault, ¬ t.Bad fault

end Token

/-- The rejection of a bad token tells what is wrong with it and where it stands. -/
structure Rejection.Of (t : Token) (r : Rejection) : Prop where
  fault : t.Bad r.fault
  span : r.span = t.span

/-- The numbers of a value have few enough digits to be written. -/
def Value.isShort : Value → Bool
  | .payload (.header level _) => Text.isShort level
  | .stray (.integer n) => Text.isShort n
  | _ => true

/-- A stretch can be shown in a source: the carets under it and the spaces before them are not more than can be
counted, and the numbers of its line and its column have few enough digits. -/
structure Span.Showable (source : Text) (span : Span) : Prop where
  spaces : Text.isCount (span.start.column - 1) = true
  carets : Text.isCount (Snippet.caretCount span.start (some span.stop)
    (Text.shownLine source span.start.line).length) = true
  line : Text.isShort span.start.line = true
  column : Text.isShort span.start.column = true

/-- A bad token can be reported. Its value is told only if it should have been a payload. -/
structure Token.Reportable (source : Text) (t : Token) : Prop where
  value : t.kind.hasPayload = true → t.value.isShort = true
  place : t.span.Showable source

/-- The report of a rejected token says what is wrong with it and where it stands. -/
structure Rejection.Tells (t : Token) (r : Rejection) (report : Snippet) : Prop where
  severity : report.severity = .error
  message : r.fault.message = .ok report.message
  start : report.start = t.span.start
  stop : report.stop = some t.span.stop

/-- A value is written exactly if its numbers can be. -/
lemma Value.shown_isOk (v : Value) : v.shown.isOk = v.isShort := by
  cases v with
  | text s => rfl
  | payload p =>
    cases p with
    | header level s =>
      have number := Text.written_isOk level
      simp only [shown, Payload.shown, Payload.fields, isShort]
      cases written : Text.written level with
      | error reason => rw [← number, written]; rfl
      | ok digits => rw [← number, written]; rfl
    | _ => rfl
  | stray v =>
    cases v with
    | integer n => exact Text.written_isOk n
    | _ => rfl

/-- The message of a fault is written exactly if the value can be, where it is told. -/
lemma Token.Bad.message_isOk {t : Token} {fault : Fault} (h : t.Bad fault) :
    fault.message.isOk = true ↔ (t.kind.hasPayload = true → t.value.isShort = true) := by
  cases h with
  | payload payload =>
    rw [forall_prop_of_true payload, ← Value.shown_isOk, Fault.message, Except.map_isOk]
  | ending kind | foreign kind | styled kind | listItem kind =>
    rw [kind]
    exact iff_of_true rfl nofun

/-- A snippet has no problem exactly if its stretch can be shown. -/
lemma Span.showable_iff (span : Span) (source message : Text) (severity : Severity) :
    span.Showable source ↔
      (⟨severity, message, span.start, some span.stop⟩ : Snippet).problem? source = none := by
  have table : ∀ spaces carets line column : Bool,
      (if !(spaces && carets) then some Text.Unwritable.stretch
        else if !(line && column) then some .number else none) = none ↔
      spaces = true ∧ carets = true ∧ line = true ∧ column = true := by decide
  rw [Snippet.problem?, table]
  exact ⟨fun ⟨spaces, carets, line, column⟩ => ⟨spaces, carets, line, column⟩,
    fun ⟨spaces, carets, line, column⟩ => ⟨spaces, carets, line, column⟩⟩

/-- A rejection is reported exactly if the token can be reported, and then the report tells of it. -/
lemma Rejection.Of.report_iff {t : Token} {r : Rejection} (h : r.Of t) (source : Text) :
    ((∃ report, r.report source = .ok report) ↔ t.Reportable source) ∧
      ∀ report, r.report source = .ok report → r.Tells t report := by
  obtain ⟨fault, span⟩ := r
  obtain ⟨bad, rfl⟩ := h
  have told := bad.message_isOk
  cases made : fault.message with
  | error reason =>
    rw [made] at told
    have unwritten : Rejection.report source ⟨fault, t.span⟩ = .error reason := by
      rw [report, made]
      rfl
    rw [unwritten]
    exact ⟨⟨nofun, fun can => absurd (told.2 can.value) nofun⟩, nofun⟩
  | ok message =>
    rw [made] at told
    have place := t.span.showable_iff source message .error
    cases problem : (⟨.error, message, t.span.start, some t.span.stop⟩ : Snippet).problem? source with
    | some reason =>
      have unwritten : Rejection.report source ⟨fault, t.span⟩ = .error reason := by
        simp only [report, made, bind, Except.bind, problem]
      rw [unwritten]
      refine ⟨⟨nofun, fun can => ?_⟩, nofun⟩
      cases problem.symm.trans (place.1 can.place)
    | none =>
      have written : Rejection.report source ⟨fault, t.span⟩ =
          .ok ⟨.error, message, t.span.start, some t.span.stop⟩ := by
        simp only [report, made, bind, Except.bind, problem]
      rw [written]
      refine ⟨⟨fun _ => ⟨told.1 rfl, place.2 problem⟩, fun _ => ⟨_, rfl⟩⟩, ?_⟩
      rintro _ ⟨⟩
      exact ⟨rfl, made, rfl, rfl⟩

namespace Token

variable {t : Token} {r : Rejection}

/-- A packed text is read as the payload of its kind, whatever the text. -/
lemma carries_unpack {kind : Kind} (payload : kind.hasPayload = true) (s : Text) :
    kind.Carries (Value.unpack kind s) := by
  cases kind with
  | header => exact .header
  | codeBlock => exact .codeBlock
  | link => exact .link
  | image => exact .image
  | todoItem => exact .todo
  | _ => cases payload

/-- Only texts are unpacked. -/
lemma unpacked_of_not_text (h : ∀ s, t.value ≠ .text s) : t.unpacked = t.value := by
  unfold unpacked
  split
  case h_1 s text => exact absurd text (h s)
  case h_2 => rfl

/-- A token that is malformed carries neither a text nor the payload of its kind. -/
lemma of_malformed {α : Type} (payload : t.kind.hasPayload = true)
    (other : ¬ t.kind.Carries t.unpacked) (h : (t.malformed : Except Rejection α) = .error r) :
    r.Of t := by
  -- a text would have been unpacked to the payload of the kind
  have noText : ∀ s, t.value ≠ .text s := by
    intro s text
    apply other
    unfold unpacked
    rw [text]
    exact carries_unpack payload s
  rw [unpacked_of_not_text noText] at other
  cases h
  refine ⟨?_, rfl⟩
  rw [unpacked_of_not_text noText]
  exact .payload payload noText other

/-- A token from which no node is made is bad. -/
lemma of_content_error (single : t.kind.isListPart = false) (h : t.content = .error r) : r.Of t := by
  unfold content at h
  split at h <;> rename_i kind
  case h_1 =>
    split at h
    case h_1 => cases h
    case h_2 noText =>
      cases h
      exact ⟨.styled kind noText, rfl⟩
  case h_6 => cases h
  case h_10 =>
    cases h
    exact ⟨.ending kind, rfl⟩
  case h_11 =>
    cases h
    exact ⟨.foreign kind, rfl⟩
  case h_7 | h_8 | h_9 =>
    rw [kind] at single
    cases single
  all_goals
    split at h
    case h_1 => cases h
    case h_2 noPayload =>
      refine of_malformed (by rw [kind]; rfl) (fun carries => ?_) h
      rw [kind] at carries
      generalize t.unpacked = v at carries noPayload
      cases carries with
      | text plain => cases plain
      | _ => exact noPayload _ _ rfl

/-- A token of a kind without meaning says nothing, for the reason that it is bad. -/
lemma content_of_not_isKnown (unknown : t.kind.isKnown = false) (bad : r.Of t) :
    t.content = .error r := by
  obtain ⟨fault, span⟩ := r
  obtain ⟨bad, rfl⟩ := bad
  cases bad with
  | ending kind | foreign kind =>
    unfold content
    rw [kind]
    rfl
  | styled kind | listItem kind =>
    rw [kind] at unknown
    cases unknown
  | payload payload => cases kind : t.kind <;> simp_all [Kind.isKnown, Kind.hasPayload]

/-- A token from which no item is made is bad. -/
lemma of_item_error (isItem : t.kind.isItem = true) (h : t.item = .error r) : r.Of t := by
  unfold item at h
  split at h
  case isTrue kind =>
    split at h
    case h_1 => cases h
    case h_2 noPayload =>
      refine of_malformed (by rw [kind]; rfl) (fun carries => ?_) h
      rw [kind] at carries
      generalize t.unpacked = v at carries noPayload
      cases carries with
      | text plain => cases plain
      | _ => exact noPayload _ _ rfl
  case isFalse kind =>
    split at h
    case h_1 => cases h
    case h_2 noText =>
      cases h
      refine ⟨.listItem ?_ noText, rfl⟩
      cases e : t.kind with
      | listItem => rfl
      | todoItem => exact absurd e kind
      | _ =>
        rw [e] at isItem
        cases isItem

/-- A token that carries what its kind asks for, perhaps packed, is not bad. -/
lemma good_of_carries (known : t.kind.isKnown = true) (carries : t.kind.Carries t.unpacked) :
    t.Good := by
  intro fault bad
  cases bad with
  | ending kind | foreign kind =>
    rw [kind] at known
    cases known
  | styled kind noText | listItem kind noText =>
    rw [unpacked_of_not_text noText, kind] at carries
    generalize t.value = v at carries noText
    cases carries
    exact noText _ rfl
  | payload _ noText other =>
    rw [unpacked_of_not_text noText] at carries
    exact other carries

/-- List markers and line breaks are not bad, whatever they carry. -/
lemma good_of_fixed (h : t.kind = .lineBreak ∨ ∃ m, t.kind = .marker m) : t.Good := by
  intro fault bad
  obtain kind | ⟨m, kind⟩ := h <;> cases bad <;> simp_all [Kind.hasPayload]

/-- A token that says something is not bad. -/
lemma Says.good {content : Content} (h : t.Says content) : t.Good := by
  cases h with
  | styled kind text =>
    refine good_of_carries (by rw [kind]; rfl) ?_
    simp only [unpacked, text, kind]
    exact .text rfl
  | lineBreak kind => exact good_of_fixed (.inl kind)
  | header kind payload | codeBlock kind payload | link kind payload | image kind payload =>
    refine good_of_carries (by rw [kind]; rfl) ?_
    rw [kind, payload]
    constructor

/-- A token that says an item is not bad. -/
lemma SaysItem.good {item : Item} (h : t.SaysItem item) : t.Good := by
  cases h with
  | plain kind text =>
    refine good_of_carries (by rw [kind]; rfl) ?_
    simp only [unpacked, text, kind]
    exact .text rfl
  | todo kind payload =>
    refine good_of_carries (by rw [kind]; rfl) ?_
    rw [kind, payload]
    exact .todo

/-- No token of which an item is made is bad. -/
lemma SaysItem.all_good {ts : List Token} {items : List Item} (h : List.Forall₂ SaysItem ts items) :
    ∀ t ∈ ts, t.Good := by
  induction h with
  | nil => simp
  | cons said _ ih => exact List.forall_mem_cons.2 ⟨said.good, ih⟩

end Token

/-- No token of a block that makes a node is bad. -/
lemma Node.Of.good {b : List Token} {node : Node} (h : Node.Of b node) : ∀ t ∈ b, t.Good := by
  cases h with
  | alone _ said => exact List.forall_mem_singleton.2 said.good
  | list run _ _ made =>
    obtain ⟨m, joins⟩ := run
    intro t member
    cases isItem : t.kind.isItem with
    | true => exact Token.SaysItem.all_good made t (Token.mem_itemsOf.2 ⟨member, isItem⟩)
    | false =>
      have joined := joins t member
      cases kind : t.kind with
      | marker n => exact Token.good_of_fixed (.inr ⟨n, kind⟩)
      | listItem | todoItem =>
        rw [kind] at isItem
        cases isItem
      | _ =>
        rw [kind] at joined
        cases joined

namespace Parser

/-- A parser rejects the first bad token that is ahead. It is left behind the token if the kind of the
token has a meaning, and at the token otherwise. -/
def Rejects (parser : Parser) (r : Rejection) (next : Parser) : Prop :=
  ∃ before t after, parser.ahead = before ++ t :: after ∧ (∀ u ∈ before, u.Good) ∧ r.Of t ∧
    next.ahead = if t.kind.isKnown then after else t :: after

/-- In a run, the first bad token is rejected. It is an item, and the parser is left behind it. -/
lemma listRun_rejects {ts rest : List Token} {marker : Option Marker} {stop : Position} {r : Rejection}
    (h : listRun marker stop ts = (.error r, rest)) :
    ∃ before t, ts = before ++ t :: rest ∧ (∀ u ∈ before, u.Good) ∧ r.Of t ∧ t.kind.isKnown = true := by
  induction ts generalizing marker stop with
  | nil => cases h
  | cons t ts ih =>
    unfold listRun at h
    split at h
    case h_1 m kind =>
      split at h
      case isFalse => cases h
      case isTrue =>
        obtain ⟨before, u, rfl, good, bad, known⟩ := ih h
        have marker : t.Good := Token.good_of_fixed (.inr ⟨m, kind⟩)
        exact ⟨t :: before, u, rfl, List.forall_mem_cons.2 ⟨marker, good⟩, bad, known⟩
    case h_4 => cases h
    all_goals
      rename_i kind
      have isItem : t.kind.isItem = true := by rw [kind]; rfl
      split at h
      case h_1 said =>
        cases h
        refine ⟨[], t, rfl, by simp, Token.of_item_error isItem said, ?_⟩
        rw [kind]
        rfl
      case h_2 item said =>
        cases inner : listRun marker t.span.stop ts with
        | mk result left =>
          rw [inner] at h
          cases result with
          | ok => cases h
          | error =>
            cases h
            obtain ⟨before, u, rfl, good, bad, known⟩ := ih inner
            have front : t.Good := (Token.saysItem_of_item isItem said).good
            exact ⟨t :: before, u, rfl, List.forall_mem_cons.2 ⟨front, good⟩, bad, known⟩

/-- A parser is asked for a node. It makes one of tokens that are not bad, or it rejects the first bad
token, or only the last token is left, and that is rejected and stays. -/
lemma node_cases (parser : Parser) :
    (∃ node b, parser.node.1 = .ok node ∧ parser.ahead = b ++ parser.node.2.ahead ∧ b ≠ [] ∧
      ∀ t ∈ b, t.Good) ∨
    (∃ r, parser.node.1 = .error r ∧ parser.Rejects r parser.node.2) ∨
    parser.ahead = [] ∧ parser.node = (.error ⟨.earlyEnding, parser.last.span⟩, parser) := by
  cases made : parser.node with
  | mk result next =>
    cases result with
    | ok node =>
      obtain ⟨b, front, ahead, one, -⟩ := node_block made
      exact .inl ⟨node, b, rfl, ahead, front, one.good⟩
    | error r =>
      right
      unfold Parser.node at made
      split at made
      case h_1 none =>
        cases made
        exact .inr ⟨none, rfl⟩
      case h_2 t ts ahead =>
        refine .inl ⟨r, rfl, ?_⟩
        split at made
        case isTrue =>
          cases loop : listRun none t.span.start (t :: ts) with
          | mk result rest =>
            rw [loop] at made
            cases result with
            | ok => cases made
            | error =>
              cases made
              obtain ⟨before, u, cut, good, bad, known⟩ := listRun_rejects loop
              exact ⟨before, u, rest, ahead.trans cut, good, bad, (if_pos known).symm⟩
        case isFalse part =>
          rw [Bool.not_eq_true] at part
          cases said : t.content with
          | ok =>
            rw [said] at made
            cases made
          | error =>
            rw [said] at made
            cases made
            exact ⟨[], t, ts, ahead, by simp, Token.of_content_error part said, rfl⟩

/-- The last token stays the last one. -/
lemma node_last (parser : Parser) : parser.node.2.last = parser.last := by
  unfold node
  split
  · rfl
  · split <;> rfl

/-- The last token of a parser stays the last one, however many nodes are made. -/
lemma nodes_last (count : Nat) (parser : Parser) : (nodes count parser).2.last = parser.last := by
  induction count generalizing parser with
  | zero => rfl
  | succ count ih =>
    have last := node_last parser
    unfold nodes
    split
    · rfl
    · split
      case h_1 made =>
        rw [made] at last
        exact last
      case h_2 made =>
        rw [made] at last
        rw [ih]
        exact last

/-- A token that is rejected ends the making of nodes. -/
lemma nodes_of_error {parser next : Parser} {r : Rejection} (count : Nat) (front : parser.ahead ≠ [])
    (h : parser.node = (.error r, next)) : nodes (count + 1) parser = (.error r, next) := by
  rw [nodes, if_neg (by simpa [atEnd] using front), h]

/-- After a node the other nodes are made. -/
lemma nodes_of_ok {parser next : Parser} {node : Node} (count : Nat) (front : parser.ahead ≠ [])
    (h : parser.node = (.ok node, next)) :
    nodes (count + 1) parser = ((nodes count next).1.map (node :: ·), (nodes count next).2) := by
  rw [nodes, if_neg (by simpa [atEnd] using front), h]

/-- A parser is asked for all nodes that are ahead. It makes them of tokens that are not bad, or it rejects
the first bad token. -/
lemma nodes_cases {count : Nat} {parser : Parser} (enough : parser.ahead.length ≤ count) :
    (∃ children, (nodes count parser).1 = .ok children ∧ (nodes count parser).2.ahead = [] ∧
      ∀ t ∈ parser.ahead, t.Good) ∨
    ∃ r, (nodes count parser).1 = .error r ∧ parser.Rejects r (nodes count parser).2 := by
  induction count generalizing parser with
  | zero =>
    have none : parser.ahead = [] := List.length_eq_zero_iff.1 (Nat.le_zero.1 enough)
    exact .inl ⟨[], rfl, none, by simp [none]⟩
  | succ count ih =>
    by_cases none : parser.ahead = []
    · have stop : nodes (count + 1) parser = (.ok [], parser) := by simp [nodes, atEnd, none]
      rw [stop]
      exact .inl ⟨[], rfl, none, by simp [none]⟩
    · obtain ⟨node, b, made, cut, front, good⟩ | ⟨r, rejected, rejects⟩ | ⟨last, -⟩ := parser.node_cases
      · rw [nodes_of_ok count none (Prod.ext made rfl)]
        -- the node took a token at least, so that the count suffices for the tokens behind it
        have fewer : parser.node.2.ahead.length ≤ count := by
          have long := List.length_pos_iff.2 front
          rw [cut, List.length_append] at enough
          omega
        obtain ⟨children, more, left, later⟩ | ⟨r, rejected, before, t, after, cut', good', bad, left⟩ :=
          ih fewer
        · refine .inl ⟨node :: children, by rw [more]; rfl, left, ?_⟩
          rw [cut, List.forall_mem_append]
          exact ⟨good, later⟩
        · refine .inr ⟨r, by rw [rejected]; rfl, b ++ before, t, after, ?_, ?_, bad, left⟩
          · rw [cut, cut', List.append_assoc]
          · exact List.forall_mem_append.2 ⟨good, good'⟩
      · rw [nodes_of_error count none (Prod.ext rejected rfl)]
        exact .inr ⟨r, rfl, rejects⟩
      · exact absurd last none

/-- The document that a parser makes consists of all nodes that are ahead. -/
lemma document_eq (parser : Parser) :
    parser.document =
      ((nodes parser.ahead.length parser).1.map fun children =>
        ⟨children, parser.peek.span.start, parser.last.span.stop⟩,
      (nodes parser.ahead.length parser).2) :=
  rfl

/-- A parser is asked for the document of all that is left. It makes it of tokens that are not bad, or it
rejects the first bad token. -/
lemma document_cases (parser : Parser) :
    (∃ document, parser.document.1 = .ok document ∧ parser.document.2.ahead = [] ∧
      ∀ t ∈ parser.ahead, t.Good) ∨
    ∃ r, parser.document.1 = .error r ∧ parser.Rejects r parser.document.2 := by
  rw [document_eq]
  obtain ⟨children, made, none, good⟩ | ⟨r, rejected, rejects⟩ :=
    nodes_cases (Nat.le_refl parser.ahead.length)
  · rw [made]
    exact .inl ⟨_, rfl, none, good⟩
  · rw [rejected]
    exact .inr ⟨r, rfl, rejects⟩

end Parser

/-- Tokens make a document if none is bad before the last one, and otherwise the first bad one is
rejected. -/
lemma Document.ofTokens_cases (tokens : List Token) :
    (∃ document, Document.ofTokens tokens = .ok document ∧ ∀ t ∈ Token.body tokens, t.Good) ∨
    ∃ r before t after, Document.ofTokens tokens = .error r ∧
      Token.body tokens = before ++ t :: after ∧ (∀ u ∈ before, u.Good) ∧ r.Of t := by
  rw [← Parser.start_ahead]
  obtain ⟨document, made, -, good⟩ | ⟨r, rejected, before, t, after, cut, good, bad, -⟩ :=
    (Parser.start tokens).document_cases
  · exact .inl ⟨document, made, good⟩
  · exact .inr ⟨r, before, t, after, rejected, cut, good, bad⟩

end Marktex
