import Marktex.Command.Options
import Marktex.Document.Listing
import Marktex.Document.Parser
import Marktex.Latex.Render
import Marktex.Token.Lexer

/-!
# Conversions

One conversion under given options: from the bytes of the input to the LaTeX text, with what is printed
on the way. A conversion that fails says so and yields no text.
-/

namespace Marktex.Command

/-- Why a source is not converted. -/
inductive Problem where
  | unclosed (unclosed : Unclosed)
  | rejected (rejection : Rejection)
  /-- The document has to load a package without a name. -/
  | namelessPackage
  deriving DecidableEq, Repr

/-- The report of a problem of the source, or why the run breaks off in its place. -/
def Problem.report (source : Text) : Problem → Except Breakdown Snippet
  | .unclosed u => .ok u.error
  | .rejected r => (r.report source).mapError .unwritable
  | .namelessPackage => .error .namelessPackage

/-- Why an input cannot be read. -/
inductive InputError where
  | file (error : FileError)
  | encoding (fault : Utf8.Fault)
  deriving DecidableEq, Repr

/-- Why an input cannot be read, in words. -/
def InputError.reason : InputError → Text
  | .file e => e.message
  | .encoding fault => "not valid UTF-8 (byte ".toList ++ Text.ofInt fault.offset ++ [')']

/-- The source that the bytes of an input hold. In a file every line end is read as a line feed, while the
standard input is read as it is. -/
def sourceOf (o : Options) (input : Except FileError (List UInt8)) : Except InputError Text :=
  match input with
  | .error e => .error (.file e)
  | .ok bytes =>
    match Utf8.decode bytes with
    | .error fault => .error (.encoding fault)
    | .ok s => .ok (if o.input.isSome then Text.withLineFeeds s else s)

/-- What a conversion prints on the standard error, and its text or the problem. -/
structure Conversion where
  /-- Warnings, and the listings if they are asked for. -/
  printed : Text
  /-- The LaTeX text. -/
  result : Except Problem Text

namespace Conversion

/-- The reports of the constructs that are not closed. -/
def warnings (o : Options) (source : Text) (unclosed : List Unclosed) : List Text :=
  unclosed.map fun u => u.warning.render source o.inputName

/-- The text that a document becomes. -/
def latex (o : Options) (document : Document) : Except Problem Text :=
  if o.standalone then
    match o.packageNames? with
    | none => .error .namelessPackage
    | some names => .ok (Latex.standalone document.toLatex o.documentClass.toText names)
  else .ok document.toLatex

/-- The listings that are asked for. No line of them is left out: their numbers count characters of the source,
and a source has far fewer of these than a number of too many digits would count. -/
def listings (o : Options) (tokens : List Token) (document : Document) : List Text :=
  if o.debug then (Token.listing tokens).lines ++ document.listing.lines else []

/-- The conversion of a source. -/
def ofSource (o : Options) (source : Text) : Conversion :=
  let reading := tokenize o.strict source
  match reading.failure with
  | some u => ⟨[], .error (.unclosed u)⟩
  | none =>
    let reports := warnings o source reading.warnings
    match Document.ofTokens reading.tokens with
    | .error r => ⟨Text.ofLines reports, .error (.rejected r)⟩
    | .ok document =>
      ⟨Text.ofLines (reports ++ listings o reading.tokens document), latex o document⟩

end Conversion

/-- What trying to convert an input prints on the standard error, and the text or how the attempt
ends without it. -/
structure Attempt where
  /-- Warnings, listings, and why the attempt failed. -/
  printed : Text
  /-- The LaTeX text. -/
  result : Except Ending Text

namespace Attempt

/-- Tries to convert an input. -/
def ofInput (o : Options) (input : Except FileError (List UInt8)) : Attempt :=
  match sourceOf o input with
  | .error e =>
    ⟨Text.ofLines ["error: cannot read ".toList ++ o.inputName ++ ": ".toList ++ e.reason],
      .error (.exit exitUsage)⟩
  | .ok source =>
    let conversion := Conversion.ofSource o source
    match conversion.result with
    | .ok latex => ⟨conversion.printed, .ok latex⟩
    | .error problem =>
      match problem.report source with
      | .error reason => ⟨conversion.printed, .error (.breakdown reason)⟩
      | .ok snippet =>
        ⟨conversion.printed ++ Text.ofLines [snippet.render source o.inputName],
          .error (.exit exitProblem)⟩

end Attempt

end Marktex.Command
