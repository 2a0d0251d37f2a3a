import Marktex.Document.Node

/-!
# Markup

The forms that generated LaTeX is made of: a command with arguments in braces, an environment with lines
between its begin and its end, and a list, which is an environment with one line for each item. User text
is written with a backslash before each special character; backslashes of the text stay as they are, and
`escape_append` says that texts are escaped piece by piece. An item with a box carries a square as its
label, ticked or empty. A list of tasks can also come packed into one text, and `renderTasks` writes that
form.
-/

namespace Marktex

namespace Latex

/-! ## Commands and environments -/

/-- A text in braces. -/
def braced (s : Text) : Text :=
  '{' :: s ++ ['}']

/-- A command with one argument. -/
def command (name : String) (argument : Text) : Text :=
  '\\' :: name.toList ++ braced argument

/-- The line that begins an environment. -/
def opening (name : String) : Text :=
  command "begin" name.toList

/-- The line that ends an environment. -/
def closing (name : String) : Text :=
  command "end" name.toList

/-- An environment: its begin with what belongs to it, the lines, and its end. -/
def environment (name : String) (options : Text) (lines : List Text) : Text :=
  Text.join ['\n'] ((opening name ++ options) :: lines ++ [closing name])

/-! ## Escaped text -/

/-- The characters that LaTeX gives a meaning of their own. -/
def specials : List Char :=
  ['&', '%', '$', '#', '_', '{', '}', '~', '^']

/-- Whether a character is written with a backslash before it. -/
def isSpecial (c : Char) : Bool :=
  specials.contains c

/-- A text with a backslash before each special character. -/
def escape (s : Text) : Text :=
  s.flatMap fun c => if isSpecial c then ['\\', c] else [c]

/-- Nothing is escaped in the empty text. -/
@[simp] theorem escape_nil : escape [] = [] := rfl

/-- A text is escaped character by character, from the front on. -/
theorem escape_cons (c : Char) (s : Text) :
    escape (c :: s) = (if isSpecial c then ['\\', c] else [c]) ++ escape s := rfl

/-- Escaping works character by character. -/
theorem escape_append (s t : Text) : escape (s ++ t) = escape s ++ escape t :=
  List.flatMap_append

end Latex

/-! ## Lists -/

namespace Entry

/-- The label of an item with a box. -/
def label (ticked : Bool) : Text :=
  if ticked then "$\\boxtimes$".toList else "$\\square$".toList

/-- The line of an item. -/
def render (e : Entry) : Text :=
  match e.ticked with
  | none => "\\item ".toList ++ Latex.escape e.text
  | some ticked => "\\item[".toList ++ label ticked ++ "] ".toList ++ Latex.escape e.text

/-- The item that a part of a packed task list stands for: a box in front makes it an item with a
box, and the blanks around the text are dropped. -/
def ofPacked (part : Text) : Entry :=
  match part with
  | '-' :: ' ' :: '[' :: ' ' :: ']' :: r => ⟨Text.trim r, some false⟩
  | '-' :: ' ' :: '[' :: 'x' :: ']' :: r => ⟨Text.trim r, some true⟩
  | '-' :: ' ' :: '[' :: 'X' :: ']' :: r => ⟨Text.trim r, some true⟩
  | _ => ⟨Text.trim part, none⟩

end Entry

namespace Latex

/-- A list of items in the environment of the given name; a list without items is nothing at all. -/
def itemList (name : String) (entries : List Entry) : Text :=
  if entries.isEmpty then [] else environment name [] (entries.map Entry.render)

/-- A task list that is packed into one text, with a bar between two items: a line for each part, between
the begin and the end of a list. -/
def renderTasks (packed : Text) : Text :=
  let lines := (Text.split '|' packed).map fun part => (Entry.ofPacked part).render
  Text.join ['\n'] (opening "itemize" :: lines ++ [closing "itemize"])

end Latex

end Marktex
