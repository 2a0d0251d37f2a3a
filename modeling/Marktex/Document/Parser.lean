import Marktex.Document.Node
import Marktex.Source.Snippet
import Marktex.Token.Packed
import Marktex.Token.Shown

/-!
# Parsing

A parser makes nodes from a stream of tokens that ends with an end token. Most tokens make a node of
their own. A run of list markers and items makes one list, as long as its markers are all of one kind;
items before the first marker belong to the list that the marker opens. A token that does not fit is
rejected, and the rejection names the first such token. A token whose content does not fit has been
passed when it is rejected, one whose kind does not fit has not.
-/

namespace Marktex

/-- Why a token is rejected. -/
inductive Fault where
  /-- The token should carry the payload of its kind. -/
  | malformed (kind : Kind) (value : Value)
  /-- The token should carry a text. -/
  | notText (kind : Kind) (value : Value)
  /-- The token of a list item should carry a text. -/
  | itemNotText
  /-- An end token that is not the last token. -/
  | earlyEnding
  /-- No node is made from tokens of this kind. -/
  | unknownKind (name : Text)
  deriving DecidableEq, Repr

/-- What is reported of a fault, unless a value that is part of it cannot be written. -/
def Fault.message : Fault → Except Text.Unwritable Text
  | .malformed kind value =>
    value.shown.map fun shown => "malformed ".toList ++ kind.lowerName ++ " payload: ".toList ++ shown
  | .notText kind value =>
    .ok ("expected text for ".toList ++ kind.lowerName ++ ", got ".toList ++ value.typeName)
  | .itemNotText => .ok "expected text for list item".toList
  | .earlyEnding => .ok "end of input marker before last token".toList
  | .unknownKind name => .ok ("unknown token kind '".toList ++ name ++ ['\''])

/-- A token that is rejected. -/
structure Rejection where
  /-- Why it is. -/
  fault : Fault
  /-- Where it stands. -/
  span : Span
  deriving DecidableEq, Repr

/-- The report of a token that is rejected. It is written with the source line as soon as the token is met, and
where it cannot be written, only the reason for that is known. -/
def Rejection.report (source : Text) (r : Rejection) : Except Text.Unwritable Snippet := do
  let message ← r.fault.message
  let snippet : Snippet := ⟨.error, message, r.span.start, some r.span.stop⟩
  match snippet.problem? source with
  | some reason => .error reason
  | none => .ok snippet

namespace Token

/-- The token is rejected for the given reason. -/
def reject {α : Type} (t : Token) (fault : Fault) : Except Rejection α :=
  .error ⟨fault, t.span⟩

/-- The value of a token, with a packed text read as the payload it stands for. -/
def unpacked (t : Token) : Value :=
  match t.value with
  | .text s => Value.unpack t.kind s
  | v => v

/-- The token does not carry the payload of its kind. -/
def malformed {α : Type} (t : Token) : Except Rejection α :=
  t.reject (.malformed t.kind t.unpacked)

/-- The item that the token of a list item makes. -/
def item (t : Token) : Except Rejection Item :=
  if t.kind = .todoItem then
    match t.unpacked with
    | .payload (.todo text checked) => .ok ⟨⟨text, some checked⟩, t.span⟩
    | _ => t.malformed
  else
    match t.value with
    | .text s => .ok ⟨⟨s, none⟩, t.span⟩
    | _ => t.reject .itemNotText

/-- The content of the node that a token makes on its own. -/
def content (t : Token) : Except Rejection Content :=
  match t.kind with
  | .styled style =>
    match t.value with
    | .text s => .ok (.styled style s)
    | v => t.reject (.notText t.kind v)
  | .header =>
    match t.unpacked with
    | .payload (.header level text) => .ok (.header level text)
    | _ => t.malformed
  | .codeBlock =>
    match t.unpacked with
    | .payload (.codeBlock language code) => .ok (.codeBlock language code)
    | _ => t.malformed
  | .link =>
    match t.unpacked with
    | .payload (.link text url) => .ok (.link text url)
    | _ => t.malformed
  | .image =>
    match t.unpacked with
    | .payload (.image alt source) => .ok (.image alt source)
    | _ => t.malformed
  | .lineBreak => .ok .lineBreak
  | .marker _ | .listItem | .todoItem => (t.item).map fun item => .item item.entry
  | .ending => t.reject .earlyEnding
  | .foreign name => t.reject (.unknownKind name)

end Token

namespace Kind

/-- Whether tokens of this kind belong to a list. -/
def isListPart : Kind → Bool
  | .marker _ => true
  | .listItem => true
  | .todoItem => true
  | _ => false

/-- Whether tokens of this kind are passed even if they are rejected. -/
def isKnown : Kind → Bool
  | .ending => false
  | .foreign _ => false
  | _ => true

end Kind

/-- A run of list markers and items. -/
structure ListRun where
  /-- The kind of the markers; none if there is no marker. -/
  marker : Option Marker
  /-- The items. -/
  items : List Item
  deriving DecidableEq, Repr

namespace ListRun

/-- The sort of list that a run makes. -/
def style (run : ListRun) : ListStyle :=
  if run.marker = some .ordinal then .ordered
  else if run.items ≠ [] ∧ run.items.all fun item => item.entry.ticked.isSome then .task
  else .unordered

end ListRun

/-- A parser at some place of a stream of tokens. -/
structure Parser where
  /-- The tokens that are left, without the last one. -/
  ahead : List Token
  /-- The last token, which ends the stream. -/
  last : Token
  deriving DecidableEq, Repr

namespace Parser

/-- A parser at the front of a stream. A stream that does not end with an end token gets one. -/
def start (tokens : List Token) : Parser :=
  match tokens.getLast? with
  | none => ⟨[], Token.ending Position.origin⟩
  | some t =>
    if t.kind = .ending then ⟨tokens.dropLast, t⟩ else ⟨tokens, Token.ending t.span.stop⟩

/-- The token at the place of the parser. -/
def peek (parser : Parser) : Token :=
  parser.ahead.headD parser.last

/-- Whether only the last token is left. -/
def atEnd (parser : Parser) : Bool :=
  parser.ahead.isEmpty

/-- The run of list markers and items at the front of some tokens. `marker` is the kind of the markers
met before and `stop` the place where the last token of the run ended. The result comes with that
place for the whole run and with the tokens that were not passed. -/
def listRun (marker : Option Marker) (stop : Position) :
    List Token → Except Rejection (ListRun × Position) × List Token
  | [] => (.ok (⟨marker, []⟩, stop), [])
  | t :: ts =>
    match t.kind with
    | .marker m =>
      if marker = none ∨ marker = some m then listRun (some m) t.span.stop ts
      else (.ok (⟨marker, []⟩, stop), t :: ts)
    | .listItem | .todoItem =>
      match t.item with
      | .error rejection => (.error rejection, ts)
      | .ok item =>
        let (run, rest) := listRun marker t.span.stop ts
        (run.map fun (run, stop) => ({ run with items := item :: run.items }, stop), rest)
    | _ => (.ok (⟨marker, []⟩, stop), t :: ts)

/-- The next node, with the parser after it. At the last token there is none: it is rejected. -/
def node (parser : Parser) : Except Rejection Node × Parser :=
  match parser.ahead with
  | [] => (parser.last.reject .earlyEnding, parser)
  | t :: ts =>
    if t.kind.isListPart then
      let (run, rest) := listRun none t.span.start (t :: ts)
      (run.map fun (run, stop) => ⟨.list run.style run.items, ⟨t.span.start, stop⟩⟩,
        { parser with ahead := rest })
    else
      (t.content.map fun content => ⟨content, t.span⟩,
        { parser with ahead := if t.kind.isKnown then ts else t :: ts })

/-- At most `count` nodes, up to the last token or the first token that is rejected. -/
def nodes : Nat → Parser → Except Rejection (List Node) × Parser
  | 0, parser => (.ok [], parser)
  | count + 1, parser =>
    if parser.atEnd then (.ok [], parser)
    else
      match parser.node with
      | (.error rejection, next) => (.error rejection, next)
      | (.ok node, next) =>
        let (rest, last) := nodes count next
        (rest.map (node :: ·), last)

/-- The document of all that is left. As every node has a token, there are no more nodes than
tokens. -/
def document (parser : Parser) : Except Rejection Document × Parser :=
  let (children, last) := nodes parser.ahead.length parser
  (children.map fun children => ⟨children, parser.peek.span.start, parser.last.span.stop⟩, last)

/-- A request to a parser. -/
inductive Call where
  /-- To make the next node. -/
  | node
  /-- To make the document of all that is left. -/
  | document
  /-- To say whether only the last token is left. -/
  | atEnd
  deriving DecidableEq, Repr

/-- What a parser answers to a request. -/
inductive Answer where
  | node (node : Node)
  | document (document : Document)
  | atEnd (atEnd : Bool)
  deriving DecidableEq, Repr

/-- The answer to a call, with the parser after it. -/
def call (parser : Parser) : Call → Except Rejection Answer × Parser
  | .node => (parser.node.1.map .node, parser.node.2)
  | .document => (parser.document.1.map .document, parser.document.2)
  | .atEnd => (.ok (.atEnd parser.atEnd), parser)

/-- The parser after some calls, whether tokens were rejected in them or not. -/
def session (parser : Parser) (calls : List Call) : Parser :=
  calls.foldl (fun parser call => (parser.call call).2) parser

end Parser

/-- The document that a stream of tokens makes. -/
def Document.ofTokens (tokens : List Token) : Except Rejection Document :=
  (Parser.start tokens).document.1

/-- A document consists of the nodes of all tokens, and reaches from the first token to the end of the
stream. -/
theorem Document.ofTokens_eq_ok_iff {tokens : List Token} {document : Document} :
    Document.ofTokens tokens = .ok document ↔
      ∃ children last,
        Parser.nodes (Parser.start tokens).ahead.length (Parser.start tokens) = (.ok children, last) ∧
        document =
          ⟨children, (Parser.start tokens).peek.span.start, (Parser.start tokens).last.span.stop⟩ := by
  unfold Document.ofTokens Parser.document
  cases Parser.nodes (Parser.start tokens).ahead.length (Parser.start tokens) with
  | mk result last =>
    cases result with
    | error => simp [Except.map]
    | ok children => simp [Except.map, eq_comm]

end Marktex
