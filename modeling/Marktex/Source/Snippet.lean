import Marktex.Source.Position
import Marktex.Text.Digit
import Marktex.Text.Lines

/-!
# Snippets

A snippet is a message about a place in a source, written as five lines: severity and message, an
arrow to the place, an empty gutter, the source line under its number, and carets that underline
the place.
-/

namespace Marktex

/-- How bad the matter is that a message reports. -/
inductive Severity where
  | warning
  | error
  deriving DecidableEq, Repr

/-- The word that a message starts with. -/
def Severity.word : Severity → Text
  | .warning => "warning".toList
  | .error => "error".toList

/-- A message about a place in a source. -/
structure Snippet where
  /-- How bad the matter is. -/
  severity : Severity
  /-- What is reported. -/
  message : Text
  /-- Where the matter begins. -/
  start : Position
  /-- Where it ends, if the message is about a stretch and not about a single place. -/
  stop : Option Position
  deriving DecidableEq, Repr

namespace Snippet

/-- How many carets underline the place, if the line shown has `width` characters. A stretch
within one line is underlined in full, a longer one up to the end of its first line, and a single
place with two carets if the line has room for them. There is always at least one caret. -/
def caretCount (start : Position) (stop : Option Position) (width : Int) : Int :=
  match stop with
  | none => max 1 (min 2 (width - start.column + 1))
  | some stop =>
    if stop.line = start.line then max 1 (stop.column - start.column)
    else max 1 (width - start.column + 1)

/-- The source line on which the matter begins, as it is shown. -/
def sourceLine (s : Snippet) (source : Text) : Text :=
  Text.shownLine source s.start.line

/-- The five lines of the snippet, without a line feed at the end. -/
def layout (s : Snippet) (source fileName : Text) : List Text :=
  let number := Text.ofInt s.start.line
  let gutter := List.replicate (number.length + 1) ' '
  let shown := s.sourceLine source
  let carets := Text.repeated '^' (caretCount s.start s.stop shown.length)
  [s.severity.word ++ ": ".toList ++ s.message,
   gutter ++ "--> ".toList ++ fileName ++ ':' :: number ++ ':' :: Text.ofInt s.start.column,
   gutter ++ ['|'],
   number ++ " | ".toList ++ shown,
   gutter ++ "| ".toList ++ Text.repeated ' ' (s.start.column - 1) ++ carets]

/-- Why the snippet cannot be laid out, if so: the place may be too far to the right to be underlined, or its
numbers may have too many digits. -/
def problem? (s : Snippet) (source : Text) : Option Text.Unwritable :=
  let carets := caretCount s.start s.stop (s.sourceLine source).length
  if !(Text.isCount (s.start.column - 1) && Text.isCount carets) then some .stretch
  else if !(Text.isShort s.start.line && Text.isShort s.start.column) then some .number
  else none

/-- The snippet as one text. -/
def render (s : Snippet) (source fileName : Text) : Text :=
  Text.join ['\n'] (s.layout source fileName)

end Snippet

end Marktex
