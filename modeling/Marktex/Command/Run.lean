import Marktex.Command.Conversion

/-!
# Runs

What a run of the command does to the files and to the console. A run converts its input once, or, if
it watches the input, at every poll that finds the input changed. A run that breaks off leaves what it
has printed before.
-/

namespace Marktex.Command

/-- What is printed on the standard output and on the standard error. -/
structure Transcript where
  out : Text
  err : Text
  deriving DecidableEq, Repr

namespace Transcript

/-- Nothing is printed. -/
def empty : Transcript :=
  ⟨[], []⟩

/-- One transcript and then another one. -/
def append (a b : Transcript) : Transcript :=
  ⟨a.out ++ b.out, a.err ++ b.err⟩

/-- Whether nothing is printed. -/
def isEmpty (t : Transcript) : Bool :=
  t.out.isEmpty && t.err.isEmpty

end Transcript

/-- A text as it is printed: with a line feed at its end, added if there is none. -/
def printedText (latex : Text) : Text :=
  Latex.closedLine latex

/-- Writes the text to where it is asked for. The result is what is printed and the files, or why the
output cannot be written. -/
def deliver (o : Options) (latex : Text) (files : FileTree) : Except Breakdown (Text × FileTree) :=
  match o.output with
  | none => .ok (printedText latex, files)
  | some path =>
    if path.isMalformed then .error (.malformedPath path)
    else
      match files.write path (Utf8.encode latex) with
      | .ok files => .ok ([], files)
      | .error e => .error (.output e path)

/-- What one conversion comes to. -/
structure Result where
  /-- What is printed. -/
  transcript : Transcript
  /-- How the conversion ends if it does not go well. -/
  failure : Option Ending
  /-- The files afterwards. -/
  files : FileTree
  deriving DecidableEq

/-- Converts an input once. -/
def convertOnce (o : Options) (input : Except FileError (List UInt8)) (files : FileTree) : Result :=
  let attempt := Attempt.ofInput o input
  match attempt.result with
  | .error ending => ⟨⟨[], attempt.printed⟩, some ending, files⟩
  | .ok latex =>
    match deliver o latex files with
    | .error reason => ⟨⟨[], attempt.printed⟩, some (.breakdown reason), files⟩
    | .ok (out, files) => ⟨⟨out, attempt.printed⟩, none, files⟩

/-- The bytes of the input: a file, or the standard input. -/
def inputBytes (o : Options) (files : FileTree) (stdin : List UInt8) :
    Except FileError (List UInt8) :=
  match o.input with
  | some path => files.read path
  | none => .ok stdin

/-! ## Watching -/

/-- A run that watches its input. -/
structure Watch where
  /-- When the input was changed, as the latest poll that found it saw. -/
  seen : Stamp
  /-- The files. -/
  files : FileTree
  deriving DecidableEq

/-- The stamp that stands for no change at all: the time zero. -/
def Watch.unseen : Stamp :=
  .set 0

/-- The start of a watch. -/
def Watch.start (files : FileTree) : Watch :=
  ⟨Watch.unseen, files⟩

/-- One poll: what is printed, why the run breaks off if it does, and the watch afterwards. -/
structure Poll where
  transcript : Transcript
  breakdown : Option Breakdown
  watch : Watch
  deriving DecidableEq

/-- The line that says what is watched. -/
def watchingLine (path : Path) : Text :=
  Text.ofLines ["Watching ".toList ++ path.toText ++ " for changes...".toList]

/-- The line that says that the input was converted. -/
def convertedLine (path : Path) : Text :=
  Text.ofLines ["Converted ".toList ++ path.toText]

/-- Looks at the input and converts it if it was changed since the latest poll that found it. -/
def poll (o : Options) (path : Path) (w : Watch) : Poll :=
  match w.files.stamp? path with
  | none => ⟨.empty, none, w⟩
  | some stamp =>
    if stamp = w.seen then ⟨.empty, none, w⟩
    else
      let result := convertOnce o (w.files.read path) w.files
      let watch : Watch := ⟨stamp, result.files⟩
      match result.failure with
      | none => ⟨result.transcript.append ⟨[], convertedLine path⟩, none, watch⟩
      | some (.breakdown reason) => ⟨result.transcript, some reason, watch⟩
      | some _ => ⟨result.transcript, none, watch⟩

/-- What happens to the files between two polls. -/
abbrev Change := FileTree → FileTree

/-- A run over several polls: what is printed at each, and how the run ends. -/
structure Polls where
  transcripts : List Transcript
  ending : Ending
  /-- The files at the end. -/
  files : FileTree
  /-- The files as they would be had the run not touched them. -/
  untouched : FileTree

/-- Polls until no change is left, which ends the run, or until the run breaks off. What the run prints
when it breaks off is left out if it is nothing. -/
def pollAll (o : Options) (path : Path) (w : Watch) (untouched : FileTree) : List Change → Polls
  | [] => last (poll o path w)
  | change :: changes =>
    let now := poll o path w
    match now.breakdown with
    | some _ => last now
    | none =>
      let rest := pollAll o path { now.watch with files := change now.watch.files } (change untouched)
        changes
      { rest with transcripts := now.transcript :: rest.transcripts }
where
  /-- A run that ends with the given poll. -/
  last (now : Poll) : Polls :=
    match now.breakdown with
    | some reason =>
      ⟨if now.transcript.isEmpty then [] else [now.transcript], .breakdown reason, now.watch.files,
        untouched⟩
    | none => ⟨[now.transcript], .exit exitDone, now.watch.files, untouched⟩

/-- A run that watches its input; the first poll follows the line that says so. -/
def watchAll (o : Options) (path : Path) (files : FileTree) (changes : List Change) : Polls :=
  let polls := pollAll o path (Watch.start files) files changes
  let lead : Transcript := ⟨[], watchingLine path⟩
  match polls.transcripts with
  | [] => { polls with transcripts := [lead] }
  | first :: rest => { polls with transcripts := lead.append first :: rest }

/-! ## Whole runs -/

/-- The line that says what is wrong with a settings file. -/
def settingsReport (message : Text) : Text :=
  Text.ofLines ["error: invalid config file: ".toList ++ message]

/-- The line that says that the standard input cannot be watched. -/
def watchReport : Text :=
  Text.ofLines ["error: --watch needs an input file, not stdin".toList]

/-- A run in one go: what is printed, and how it ends. -/
def single (transcript : Transcript) (ending : Ending) (files : FileTree) : Polls :=
  ⟨if transcript.isEmpty then [] else [transcript], ending, files, files⟩

/-- Why a run has no options. -/
inductive Refusal where
  /-- The command line yields no arguments. -/
  | stopped (stop : Stop)
  /-- The settings file is of no use. -/
  | unsettled (error : SettingsError)
  deriving DecidableEq, Repr

namespace Refusal

/-- What a run without options prints. -/
def transcript : Refusal → Transcript
  | .stopped .help => ⟨help, []⟩
  | .stopped (.failed e) => ⟨[], usageFailure e⟩
  | .unsettled (.invalid message) => ⟨[], settingsReport message⟩
  | .unsettled (.failed _) => .empty

/-- How a run without options ends. -/
def ending : Refusal → Ending
  | .stopped .help => .usage exitDone
  | .stopped (.failed _) => .usage exitUsage
  | .unsettled (.invalid _) => .exit exitUsage
  | .unsettled (.failed failure) => .breakdown (.settings failure)

end Refusal

/-- The options of a run. -/
def optionsOf (room : Toml.Room) (words : List Text) (files : FileTree) : Except Refusal Options :=
  match Arguments.ofTexts words with
  | .error stop => .error (.stopped stop)
  | .ok arguments =>
    let path := arguments.settingsPath
    let file := if path.isMalformed then .ok none else files.regular? path
    match Settings.ofFile room path file with
    | .error e => .error (.unsettled e)
    | .ok settings => .ok (arguments.options settings)

/-- A run that watches its input. The standard input cannot be watched, and a malformed path breaks the
run off at the first poll. -/
def watchRun (o : Options) (files : FileTree) (changes : List Change) : Polls :=
  match o.input with
  | none => single ⟨[], watchReport⟩ (.exit exitUsage) files
  | some path =>
    if path.isMalformed then
      single ⟨[], watchingLine path⟩ (.breakdown (.malformedPath path)) files
    else watchAll o path files changes

/-- A run that converts its input once. A malformed path breaks it off before anything else. -/
def oneRun (o : Options) (files : FileTree) (stdin : List UInt8) : Polls :=
  match o.input.filter Path.isMalformed with
  | some path => single .empty (.breakdown (.malformedPath path)) files
  | none =>
    let result := convertOnce o (inputBytes o files stdin) files
    { single result.transcript (result.failure.getD (.exit exitDone)) files with
      files := result.files }

/-- A run of the command: the room for values within values, the words of the command line, the files in
the current directory, the standard input, and what happens to the files between polls. -/
def run (room : Toml.Room) (words : List Text) (files : FileTree) (stdin : List UInt8)
    (changes : List Change) : Polls :=
  match optionsOf room words files with
  | .error refusal => single refusal.transcript refusal.ending files
  | .ok o => if o.watch then watchRun o files changes else oneRun o files stdin

end Marktex.Command
