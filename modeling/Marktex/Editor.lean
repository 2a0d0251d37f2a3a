import Marktex.Document.Parser
import Marktex.Token.Lexer

/-!
# Editor diagnostics

An editor gets the problems of a text as ranges that count lines and characters from 0: the warnings
of lexing it, and then the token that the parser rejects, if there is one. Each text gets one answer
of its own, which does not depend on earlier ones. There is no answer if the rejection of the token cannot
be written.
-/

namespace Marktex

/-- A place as editors count: lines and characters from 0. -/
structure EditorPosition where
  /-- The number of the line, counted from 0. -/
  line : Int
  /-- The number of the character in the line, counted from 0. -/
  character : Int
  deriving DecidableEq, Repr

/-- A problem of a text. -/
structure Diagnostic where
  /-- Where the problem begins. -/
  start : EditorPosition
  /-- Where it ends. -/
  stop : EditorPosition
  /-- What is reported. -/
  message : Text
  /-- How bad it is. -/
  severity : Severity
  deriving DecidableEq, Repr

namespace EditorPosition

/-- The place as editors count. -/
def ofPosition (p : Position) : EditorPosition :=
  ⟨p.line - 1, p.column - 1⟩

end EditorPosition

namespace Diagnostic

/-- A problem of a stretch of a text. -/
def of (span : Span) (message : Text) (severity : Severity) : Diagnostic :=
  ⟨.ofPosition span.start, .ofPosition span.stop, message, severity⟩

/-- The problem that a warning reports. -/
def ofUnclosed (u : Unclosed) : Diagnostic :=
  of u.span u.message .warning

/-- The problems of a text whose tokens are replaced by those given. -/
def ofTokens (source : Text) (tokens : List Token) : Except Text.Unwritable (List Diagnostic) :=
  let warnings := (tokenize false source).warnings.map ofUnclosed
  match Document.ofTokens tokens with
  | .ok _ => .ok warnings
  | .error r => (r.report source).map fun report => warnings ++ [of r.span report.message .error]

/-- The problems of a text. -/
def ofSource (source : Text) : Except Text.Unwritable (List Diagnostic) :=
  ofTokens source (tokenize false source).tokens

end Diagnostic

/-- What an editor is told about a document, in place of all that it was told before. -/
structure Publication where
  /-- The document. -/
  uri : Text
  /-- The problems of its text. -/
  diagnostics : List Diagnostic
  deriving DecidableEq, Repr

namespace Publication

/-- What is published once a document has got a text whose tokens are replaced by those given. -/
def ofTokens (uri source : Text) (tokens : List Token) : Except Text.Unwritable (List Publication) :=
  (Diagnostic.ofTokens source tokens).map fun diagnostics => [⟨uri, diagnostics⟩]

/-- What is published once a document has got a text. -/
def ofSource (uri source : Text) : Except Text.Unwritable (List Publication) :=
  ofTokens uri source (tokenize false source).tokens

end Publication

end Marktex
