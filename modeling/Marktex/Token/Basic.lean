import Marktex.Source.Position

/-!
# Tokens

A token is a piece of a Markdown source together with what it stands for: its kind, its value, the
source text it was made from and the place of that text. Most kinds carry a text, five carry a
payload with several fields, and list markers carry nothing but their kind.
-/

namespace Marktex

/-- What a token or node stands for whose content is one text. -/
inductive Style where
  /-- Text that ends with its line. -/
  | paragraph
  /-- Text that another construct on the same line follows. -/
  | plain
  | bold
  | italic
  | code
  | quote
  | table
  | inlineMath
  | displayMath
  deriving DecidableEq, Repr

/-- What opens a list item: a bullet or a number. -/
inductive Marker where
  | bullet
  | ordinal
  deriving DecidableEq, Repr

/-- The kinds of tokens. -/
inductive Kind where
  /-- One text, set in the given style. -/
  | styled (style : Style)
  | header
  | codeBlock
  | link
  | image
  /-- What opens a list item. -/
  | marker (marker : Marker)
  /-- The text of a list item. -/
  | listItem
  /-- The text and the box of a list item that can be ticked off. -/
  | todoItem
  | lineBreak
  /-- The end of the input. -/
  | ending
  /-- A kind that has no meaning here. -/
  | foreign (name : Text)
  deriving DecidableEq, Repr

/-- The content of a token that has several fields. -/
inductive Payload where
  | header (level : Int) (text : Text)
  | link (text url : Text)
  | image (alt source : Text)
  | codeBlock (language code : Text)
  | todo (text : Text) (checked : Bool)
  deriving DecidableEq, Repr

/-- A value that no token should carry, but that a hand-made token may. -/
inductive Stray where
  | nothing
  | integer (n : Int)
  | boolean (b : Bool)
  deriving DecidableEq, Repr

/-- What a token carries. -/
inductive Value where
  | text (text : Text)
  | payload (payload : Payload)
  | stray (value : Stray)
  deriving DecidableEq, Repr

/-- A token of a source. -/
structure Token where
  /-- What the token stands for. -/
  kind : Kind
  /-- Its content. -/
  value : Value
  /-- The source text it was made from. -/
  raw : Text
  /-- Where that text stands. -/
  span : Span
  deriving DecidableEq, Repr

namespace Style

/-- The name of the kind whose tokens have this style. -/
def kindName : Style → String
  | .paragraph => "PARAGRAPH"
  | .plain => "TEXT"
  | .bold => "BOLD"
  | .italic => "ITALIC"
  | .code => "CODE"
  | .quote => "BLOCKQUOTE"
  | .table => "TABLE"
  | .inlineMath => "INLINE_MATH"
  | .displayMath => "BLOCK_MATH"

end Style

namespace Kind

/-- The kinds that have a meaning here. -/
def known : List Kind :=
  [.header, .styled .paragraph, .styled .quote, .styled .table, .codeBlock, .styled .displayMath,
   .marker .bullet, .marker .ordinal, .listItem, .todoItem, .styled .plain, .styled .bold,
   .styled .italic, .styled .code, .link, .image, .styled .inlineMath, .lineBreak, .ending]

/-- The name of a kind in listings and messages. -/
def name : Kind → Text
  | .styled style => style.kindName.toList
  | .header => "HEADER".toList
  | .codeBlock => "CODE_BLOCK".toList
  | .link => "LINK".toList
  | .image => "IMAGE".toList
  | .marker .bullet => "UNORDERED_LIST".toList
  | .marker .ordinal => "ORDERED_LIST".toList
  | .listItem => "LIST_ITEM".toList
  | .todoItem => "TODO_ITEM".toList
  | .lineBreak => "LINE_BREAK".toList
  | .ending => "EOF".toList
  | .foreign name => name

/-- The kind with the given name; any other name makes a kind without meaning. -/
def ofName (name : Text) : Kind :=
  (known.find? fun kind => kind.name = name).getD (.foreign name)

/-- The name of a kind as messages give it, in lower case. -/
def lowerName (kind : Kind) : Text :=
  kind.name.map Char.toLower

end Kind

namespace Token

/-- The token that ends a stream at `p`. -/
def ending (p : Position) : Token :=
  ⟨.ending, .text [], [], Span.point p⟩

/-- Bold text without any character, between marks without any character. -/
def hollow (p : Position) : Token :=
  ⟨.styled .bold, .text [], [], Span.point p⟩

end Token

end Marktex
