import Marktex.Text.Digit
import Marktex.Text.Quoted

/-!
# Command line arguments

The words of a command line are options, operands, and the separator after which every word is an
operand. An option can be given by a front part of its long spelling, as long as only one option fits.
Its value is the next word, or follows an equals sign or the letter of the short spelling. A separator
that is attached to an option as its value is taken away, and the option is left without a word. There
is one operand, the input.
-/

namespace Marktex.Command

/-- The options of the command. -/
inductive Flag where
  | help
  | output
  | config
  | strict
  | standalone
  | documentClass
  | package
  | watch
  | debug
  deriving DecidableEq, Repr

namespace Flag

/-- All options, in the order in which they are listed. -/
def all : List Flag :=
  [.help, .output, .config, .strict, .standalone, .documentClass, .package, .watch, .debug]

/-- The spellings of an option. -/
def spellings : Flag → List String
  | .help => ["-h", "--help"]
  | .output => ["-o", "--output"]
  | .config => ["--config"]
  | .strict => ["--strict"]
  | .standalone => ["--standalone"]
  | .documentClass => ["--documentclass"]
  | .package => ["--package"]
  | .watch => ["--watch"]
  | .debug => ["--debug"]

/-- Whether an option has a value. -/
def takesValue : Flag → Bool
  | .output => true
  | .config => true
  | .documentClass => true
  | .package => true
  | _ => false

/-- The name of an option in messages: all of its spellings. -/
def name (f : Flag) : Text :=
  Text.join ['/'] (f.spellings.map String.toList)

/-- Every spelling with its option. -/
def spelled : List (Text × Flag) :=
  all.flatMap fun f => f.spellings.map fun s => (s.toList, f)

/-- The option with the given spelling. -/
def ofSpelling? (s : Text) : Option Flag :=
  (spelled.find? fun entry => entry.1 = s).map Prod.snd

end Flag

/-- What is wrong with a command line. -/
inductive UsageError where
  /-- More than one option fits the word. -/
  | ambiguous (word : Text) (spellings : List Text)
  /-- The option has no value, but one is attached. -/
  | ignoredValue (flag : Flag) (value : Text)
  /-- The option has a value, but none follows. -/
  | missingValue (flag : Flag)
  /-- There is no operand. -/
  | missingInput
  /-- Some words have no meaning. -/
  | unrecognized (words : List Text)
  deriving DecidableEq, Repr

/-- What is wrong, in words. -/
def UsageError.message : UsageError → Text
  | .ambiguous word spellings =>
    "ambiguous option: ".toList ++ word ++ " could match ".toList ++ Text.join ", ".toList spellings
  | .ignoredValue flag value =>
    "argument ".toList ++ flag.name ++ ": ignored explicit argument ".toList ++ value.quoted
  | .missingValue flag => "argument ".toList ++ flag.name ++ ": expected one argument".toList
  | .missingInput => "the following arguments are required: input".toList
  | .unrecognized words => "unrecognized arguments: ".toList ++ Text.join [' '] words

/-- A value that is attached to an option. -/
structure Attached where
  /-- Whether the option has its short spelling. -/
  short : Bool
  /-- The value. -/
  value : Text
  deriving DecidableEq, Repr

/-- What an option is given as its value. -/
inductive OptionValue where
  | word (text : Text)
  /-- The separator was attached to the option and taken away: what is left is a list without words. -/
  | withdrawn
  deriving DecidableEq, Repr

namespace OptionValue

/-- What an option is given by a text. -/
def ofText (s : Text) : OptionValue :=
  if s = ['-', '-'] then .withdrawn else .word s

/-- The word, if there is one. -/
def word? : OptionValue → Option Text
  | .word s => some s
  | .withdrawn => none

/-- What is written for a value: the word, or the list without words in its brackets. -/
def toText : OptionValue → Text
  | .word s => s
  | .withdrawn => "[]".toList

end OptionValue

/-- A word of a command line. -/
inductive Word where
  /-- The separator: all words after it are operands. -/
  | separator
  | operand (text : Text)
  | option (flag : Flag) (attached : Option Attached)
  /-- A word in the form of an option that is none. -/
  | unknown (text : Text)
  deriving DecidableEq, Repr

namespace Word

/-- Whether a word is a negative number, whole or with a point; a line feed may follow. -/
def isNegativeNumber : Text → Bool
  | '-' :: s =>
    let s := Text.withoutLast '\n' s
    match s.dropWhile Digit.isDigit with
    | [] => !s.isEmpty
    | '.' :: r => !r.isEmpty && r.all Digit.isDigit
    | _ => false
  | _ => false

/-- The options that fit the word `--rest`: those whose spelling starts with the part before the first
equals sign. -/
def longMatches (rest : Text) : List (Text × Word) :=
  let word := '-' :: '-' :: rest
  let (front, attached) : Text × Option Attached :=
    match Text.cut? ['='] word with
    | some (front, value) => (front, some ⟨false, value⟩)
    | none => (word, none)
  (Flag.spelled.filter fun entry => front.isPrefixOf entry.1).map fun (spelling, flag) =>
    (spelling, .option flag attached)

/-- The options that fit the word `-letter rest`: those with the short spelling `-letter`. -/
def shortMatches (letter : Char) (rest : Text) : List (Text × Word) :=
  (Flag.spelled.filter fun entry => entry.1 = ['-', letter]).map fun (spelling, flag) =>
    (spelling, .option flag (some ⟨true, rest⟩))

/-- The word with a full spelling of an option, alone or with a value after an equals sign. -/
def spelledOut? (word : Text) : Option Word :=
  match Flag.ofSpelling? word with
  | some flag => some (.option flag none)
  | none =>
    (Text.cut? ['='] word).bind fun (front, value) =>
      (Flag.ofSpelling? front).map fun flag => .option flag (some ⟨front.length = 2, value⟩)

/-- What a text stands for before the separator. -/
def ofText (word : Text) : Except UsageError Word :=
  match word with
  | '-' :: second :: rest =>
    match spelledOut? word with
    | some found => .ok found
    | none =>
      match if second = '-' then longMatches rest else shortMatches second rest with
      | [(_, found)] => .ok found
      | [] =>
        if isNegativeNumber word || word.contains ' ' then .ok (.operand word)
        else .ok (.unknown word)
      | several => .error (.ambiguous word (several.map Prod.fst))
  | _ => .ok (.operand word)

/-- What the words of a command line stand for. -/
def ofTexts : List Text → Except UsageError (List Word)
  | [] => .ok []
  | word :: rest =>
    if word = ['-', '-'] then .ok (.separator :: rest.map .operand)
    else (ofText word).bind fun first => (ofTexts rest).map (first :: ·)

end Word

/-- What a command line asks for. -/
structure Arguments where
  /-- The operand. -/
  input : Text
  output : Option OptionValue
  config : Option OptionValue
  strict : Bool
  standalone : Bool
  documentClass : Option OptionValue
  /-- The packages, in order. -/
  packages : List OptionValue
  watch : Bool
  debug : Bool
  deriving DecidableEq, Repr

/-- Why a command line yields no arguments. -/
inductive Stop where
  /-- The command line asks for help. -/
  | help
  | failed (error : UsageError)
  deriving DecidableEq, Repr

/-- The words of a command line that were read so far. -/
structure Gathered where
  /-- The operand, if there was one; the other fields are as in `Arguments`. -/
  input : Option Text
  arguments : Arguments
  /-- The words without a meaning. -/
  extras : List Text
  /-- Whether a separator that comes next belongs to the operand. -/
  afterInput : Bool
  deriving DecidableEq, Repr

namespace Gathered

/-- Nothing is read. -/
def empty : Gathered :=
  ⟨none, ⟨[], none, none, false, false, none, [], false, false⟩, [], false⟩

/-- An option without a value. -/
def flag (g : Gathered) (f : Flag) : Gathered :=
  let a := g.arguments
  { g with
    afterInput := false
    arguments :=
      match f with
      | .strict => { a with strict := true }
      | .standalone => { a with standalone := true }
      | .watch => { a with watch := true }
      | .debug => { a with debug := true }
      | _ => a }

/-- An option with its value. -/
def valued (g : Gathered) (f : Flag) (text : Text) : Gathered :=
  let a := g.arguments
  let value := OptionValue.ofText text
  { g with
    afterInput := false
    arguments :=
      match f with
      | .output => { a with output := some value }
      | .config => { a with config := some value }
      | .documentClass => { a with documentClass := some value }
      | .package => { a with packages := a.packages ++ [value] }
      | _ => a }

/-- A word without a meaning. -/
def extra (g : Gathered) (word : Text) : Gathered :=
  { g with extras := g.extras ++ [word], afterInput := false }

/-- An operand: the first one is the input. -/
def operand (g : Gathered) (word : Text) : Gathered :=
  match g.input with
  | none => { g with input := some word, afterInput := true }
  | some _ => g.extra word

/-- The separator has no meaning if the input was given before other words. -/
def separator (g : Gathered) : Gathered :=
  if g.input.isNone || g.afterInput then { g with afterInput := false } else g.extra ['-', '-']

/-- The arguments, once all words are read. -/
def finish (g : Gathered) : Except Stop Arguments :=
  match g.input, g.extras with
  | none, _ => .error (.failed .missingInput)
  | some input, [] => .ok { g.arguments with input := input }
  | some _, extras => .error (.failed (.unrecognized extras))

end Gathered

/-- What letters attached to the short spelling of the help option ask for: each is a short option of
its own, and what follows the letter of an option with a value is that value. `hasNext` says whether a
value follows as the next word. The help is given only once all letters are read. -/
def helpCluster (hasNext : Bool) (letters : Text) : Stop :=
  match letters with
  | ['h'] => .help
  | 'h' :: rest => helpCluster hasNext rest
  | ['o'] => if hasNext then .help else .failed (.missingValue .output)
  | 'o' :: _ => .help
  | letters => .failed (.ignoredValue .help letters)

/-- Whether the next word can be the value of an option. -/
def startsWithOperand : List Word → Bool
  | .operand _ :: _ => true
  | _ => false

/-- Reads the words of a command line in order. -/
def gather (g : Gathered) : List Word → Except Stop Arguments
  | [] => g.finish
  | .separator :: rest => gather g.separator rest
  | .operand word :: rest => gather (g.operand word) rest
  | .unknown word :: rest => gather (g.extra word) rest
  | .option f (some attached) :: rest =>
    if f.takesValue then gather (g.valued f attached.value) rest
    else if f = .help ∧ attached.short then
      .error (helpCluster (startsWithOperand rest) attached.value)
    else .error (.failed (.ignoredValue f attached.value))
  | [.option f none] =>
    if f.takesValue then .error (.failed (.missingValue f))
    else if f = .help then .error .help
    else gather (g.flag f) []
  | .option f none :: next :: rest =>
    if f.takesValue then
      match next with
      | .operand value => gather (g.valued f value) rest
      | _ => .error (.failed (.missingValue f))
    else if f = .help then .error .help
    else gather (g.flag f) (next :: rest)

namespace Arguments

/-- The arguments that the words of a command line stand for. -/
def ofTexts (words : List Text) : Except Stop Arguments :=
  match Word.ofTexts words with
  | .error e => .error (.failed e)
  | .ok words => gather Gathered.empty words

end Arguments

end Marktex.Command
