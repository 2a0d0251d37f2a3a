import Marktex.Document.Node
import Marktex.Token.Packed
import Marktex.Token.Shown

/-!
# Listings

For debugging, the tokens of a source and the nodes of its document are listed one on a line. Every
text that comes from the source stands in quotes, so that no character of it can end a line. A listing
ends before a line with a number of too many digits.
-/

namespace Marktex

/-- Lines that are written one after the other. -/
structure Listing where
  /-- The lines that are written. -/
  lines : List Text
  /-- Why the line after them cannot be written, if so. -/
  failure : Option Text.Unwritable
  deriving DecidableEq, Repr

/-- Writes lines up to the first one that cannot be written. -/
def Listing.write : List (Except Text.Unwritable Text) → Listing
  | [] => ⟨[], none⟩
  | .error reason :: _ => ⟨[], some reason⟩
  | .ok line :: rest => ⟨line :: (write rest).lines, (write rest).failure⟩

namespace Token

/-- The packed value of a token. A level of too many digits cannot be packed. -/
def listedValue (t : Token) : Except Text.Unwritable Text :=
  match t.value with
  | .payload (.header level text) => (Text.written level).map fun number => Text.quoted (number ++ ':' :: text)
  | value => value.pack.shown

/-- The line of a token: its place, its kind and its packed value. -/
def listed (t : Token) : Except Text.Unwritable Text := do
  let line ← Text.written t.span.start.line
  let column ← Text.written t.span.start.column
  let value ← t.listedValue
  return line ++ ':' :: column ++ ' ' :: t.kind.name ++ ' ' :: value

/-- The lines of a stream of tokens; the end of the input has no line. -/
def listing (tokens : List Token) : Listing :=
  .write ((tokens.filter fun t => t.kind ≠ .ending).map listed)

end Token

namespace Entry

/-- The line of an item without indentation. -/
def listed (e : Entry) : Text :=
  match e.ticked with
  | none => e.className ++ '(' :: e.text.quoted ++ [')']
  | some ticked => e.className ++ " [".toList ++ (if ticked then 'x' else ' ') :: "] ".toList ++
      e.text.quoted

end Entry

namespace Content

/-- The line of a node without indentation. -/
def listed (c : Content) : Except Text.Unwritable Text :=
  match c with
  | .styled _ s => .ok (c.className ++ '(' :: s.quoted ++ [')'])
  | .header level s =>
    (Text.written level).map fun number => c.className ++ " level=".toList ++ number ++ ' ' :: s.quoted
  | .codeBlock language code =>
    .ok (c.className ++ " language=".toList ++ language.quoted ++ ' ' :: code.quoted)
  | .link s target => .ok (c.className ++ '(' :: s.quoted ++ " -> ".toList ++ target.quoted ++ [')'])
  | .image s target => .ok (c.className ++ '(' :: s.quoted ++ " -> ".toList ++ target.quoted ++ [')'])
  | .list .. => .ok c.className
  | .item entry => .ok entry.listed
  | .lineBreak => .ok c.className
  | .foreign _ s => .ok (c.className ++ '(' :: s.quoted ++ [')'])

/-- The items of a list; other nodes have none. -/
def items : Content → List Item
  | .list _ items => items
  | _ => []

end Content

/-- A line at the given depth below the document. -/
def indented (depth : Nat) (line : Text) : Text :=
  List.replicate (2 * depth) ' ' ++ line

namespace Node

/-- The lines of a node and of its items. -/
def listed (n : Node) : List (Except Text.Unwritable Text) :=
  n.content.listed.map (indented 1) :: n.content.items.map fun item => .ok (indented 2 item.entry.listed)

end Node

namespace Document

/-- The lines of a document. -/
def listing (document : Document) : Listing :=
  .write (.ok "Document".toList :: document.children.flatMap Node.listed)

end Document

/-- Lines as one text, each with a line feed. -/
def Text.ofLines (lines : List Text) : Text :=
  lines.flatMap fun line => line ++ ['\n']

end Marktex
