import Marktex.Token.Basic

/-!
# Documents

A document is a flat sequence of nodes. Only lists have parts of their own, their items. Each node
and each item knows the stretch of the source it was made from.
-/

namespace Marktex

/-- What stands in one item of a list. -/
structure Entry where
  /-- The text of the item. -/
  text : Text
  /-- Whether its box is ticked; none for an item without a box. -/
  ticked : Option Bool
  deriving DecidableEq, Repr

/-- An item of a list. -/
structure Item where
  /-- What stands in the item. -/
  entry : Entry
  /-- Where it stands in the source. -/
  span : Span
  deriving DecidableEq, Repr

/-- The sorts of lists. -/
inductive ListStyle where
  | unordered
  | ordered
  /-- A list without numbers all of whose items have a box. -/
  | task
  deriving DecidableEq, Repr

/-- What a node of a document holds. -/
inductive Content where
  /-- One text, set in the given style. -/
  | styled (style : Style) (text : Text)
  /-- A section heading; level 1 is the outermost. -/
  | header (level : Int) (text : Text)
  /-- Code that is shown as it is. -/
  | codeBlock (language code : Text)
  | link (text url : Text)
  | image (alt source : Text)
  | list (style : ListStyle) (items : List Item)
  /-- An item outside of every list. -/
  | item (entry : Entry)
  | lineBreak
  /-- A node of a class that has no meaning here. -/
  | foreign (className text : Text)
  deriving DecidableEq, Repr

/-- A node of a document. -/
structure Node where
  /-- What the node holds. -/
  content : Content
  /-- Where it stands in the source. -/
  span : Span
  deriving DecidableEq, Repr

/-- A document. -/
structure Document where
  /-- The nodes of the document, one after the other. -/
  children : List Node
  /-- The stretch of the source that the document covers. -/
  span : Span
  deriving DecidableEq, Repr

namespace Style

/-- The class of the nodes that have this style. -/
def className : Style → Text
  | .paragraph => "Paragraph".toList
  | .plain => "Text".toList
  | .bold => "Bold".toList
  | .italic => "Italic".toList
  | .code => "Code".toList
  | .quote => "Blockquote".toList
  | .table => "Table".toList
  | .inlineMath => "InlineMath".toList
  | .displayMath => "BlockMath".toList

end Style

namespace Entry

/-- The class of an item: items with a box have one of their own. -/
def className (e : Entry) : Text :=
  if e.ticked.isSome then "TodoItem".toList else "ListItem".toList

end Entry

namespace ListStyle

/-- The class of the lists of this sort. -/
def className : ListStyle → Text
  | .unordered => "UnorderedList".toList
  | .ordered => "OrderedList".toList
  | .task => "TaskList".toList

end ListStyle

namespace Content

/-- The class of a node. -/
def className : Content → Text
  | .styled style _ => style.className
  | .header .. => "Header".toList
  | .codeBlock .. => "CodeBlock".toList
  | .link .. => "Link".toList
  | .image .. => "Image".toList
  | .list style _ => style.className
  | .item entry => entry.className
  | .lineBreak => "LineBreak".toList
  | .foreign name _ => name

end Content

end Marktex
