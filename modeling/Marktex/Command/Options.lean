import Marktex.Command.Ending
import Marktex.Command.Usage
import Marktex.Toml.Reader

/-!
# Options

What a run of the command is to do. The options come from the command line and from a settings file,
which stands beside the input unless the command line names another one; where both speak, the command
line wins, and packages of both are used.
-/

namespace Marktex.Command

/-- What a settings file asks for. -/
structure Settings where
  strict : Bool
  standalone : Bool
  documentClass : Option Text
  packages : List Text
  deriving DecidableEq, Repr

namespace Settings

/-- What holds where no settings file is read. -/
def default : Settings :=
  ⟨false, false, none, []⟩

/-- Whether an entry of a table counts as true; a missing one does not. -/
def isSet (t : Toml.Table) (name : String) : Bool :=
  match t.get? name.toList with
  | some value => value.isTrue
  | none => false

/-- The entries of a settings file that concern standalone documents. -/
def documentTable (t : Toml.Table) : Toml.Table :=
  match t.get? "document".toList with
  | some (.table entries) => entries
  | _ => []

/-- The packages that a settings file asks for, as values. -/
def packageValues (t : Toml.Table) : List Toml.Value :=
  match (documentTable t).get? "packages".toList with
  | some (.array values) => values
  | _ => []

/-- What the entries of a settings file ask for. Entries of a type that is of no use are passed over. -/
def ofTable (t : Toml.Table) : Settings :=
  let inner := documentTable t
  { strict := isSet t "strict"
    standalone := isSet inner "standalone"
    documentClass :=
      match inner.get? "class".toList with
      | some (.string s) => some s
      | _ => none
    packages := (packageValues t).map Toml.Value.toText }

end Settings

/-- Why a settings file is of no use. -/
inductive SettingsError where
  /-- The run breaks off. -/
  | failed (failure : SettingsFailure)
  /-- What is wrong with the file, and where. -/
  | invalid (message : Text)
  deriving DecidableEq, Repr

namespace Settings

/-- The settings of a file with the given bytes. -/
def ofBytes (room : Toml.Room) (bytes : List UInt8) : Except SettingsError Settings :=
  match Utf8.decode bytes with
  | .error fault => .error (.failed (.encoding fault))
  | .ok file =>
    match Toml.document room file with
    | .error (.invalid message) => .error (.invalid message)
    | .error (.longNumber digits) => .error (.failed (.longNumber digits))
    | .error .tooDeep => .error (.failed .tooDeep)
    | .ok table =>
      match Toml.Value.anyUnwritable? room.writing (packageValues table) with
      | some reason => .error (.failed (.package reason))
      | none => .ok (ofTable table)

/-- The settings of the file at a path; if there is no file, nothing is asked for. -/
def ofFile (room : Toml.Room) (path : Path) (file : Except FileError (Option (List UInt8))) :
    Except SettingsError Settings :=
  match file with
  | .error e => .error (.failed (.file e path))
  | .ok none => .ok default
  | .ok (some bytes) => ofBytes room bytes

end Settings

/-- What a run of the command is to do. -/
structure Options where
  /-- The file to read; the standard input if there is none. -/
  input : Option Path
  /-- The file to write; the standard output if there is none. -/
  output : Option Path
  /-- Whether a construct that is not closed is an error. -/
  strict : Bool
  /-- Whether the output is a document of its own. -/
  standalone : Bool
  documentClass : OptionValue
  packages : List OptionValue
  /-- Whether to convert again whenever the input changes. -/
  watch : Bool
  /-- Whether to list tokens and nodes. -/
  debug : Bool
  deriving DecidableEq, Repr

namespace Arguments

/-- The file to read; a dash stands for the standard input. -/
def inputPath (a : Arguments) : Option Path :=
  if a.input = ['-'] then none else some (Path.ofText a.input)

/-- The path that the value of an option names. The empty word names none, and neither does an option
that was left without a word. -/
def pathOf? (value : Option OptionValue) : Option Path :=
  (value.bind OptionValue.word?).bind fun s => if s.isEmpty then none else some (Path.ofText s)

/-- Where the settings file stands. -/
def settingsPath (a : Arguments) : Path :=
  match pathOf? a.config with
  | some path => path
  | none =>
    let directory := (a.inputPath.map Path.parent).getD (Path.ofText [])
    directory.child settingsName.toList

/-- The options that the command line and the settings give together. -/
def options (a : Arguments) (s : Settings) : Options :=
  { input := a.inputPath
    output := pathOf? a.output
    strict := a.strict || s.strict
    standalone := a.standalone || s.standalone
    documentClass := a.documentClass.getD (.word (s.documentClass.getD "article".toList))
    packages := s.packages.map .word ++ a.packages
    watch := a.watch
    debug := a.debug }

end Arguments

namespace Options

/-- The name of the input in messages. -/
def inputName (o : Options) : Text :=
  (o.input.map Path.toText).getD "<stdin>".toList

/-- The names of the packages, if each package has one. -/
def packageNames? (o : Options) : Option (List Text) :=
  o.packages.mapM OptionValue.word?

end Options

end Marktex.Command
