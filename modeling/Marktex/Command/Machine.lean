import Marktex.Command.Run

/-!
# Runs on a machine

The command as a program: what it asks of the machine that it runs on, and in which order. The program is
the same on every machine (`Machine`); the command line runs it on the operating system.
-/

namespace Marktex.Command

/-- What the command needs of the machine that it runs on. -/
structure Machine (m : Type → Type) where
  /-- When the file or directory at a path was last changed, if there is one. -/
  stamp? : Path → m (Option Stamp)
  /-- The bytes of a file. -/
  read : Path → m (Except FileError (List UInt8))
  /-- The bytes of a file that need not exist. -/
  regular? : Path → m (Except FileError (Option (List UInt8)))
  /-- The bytes of the standard input. -/
  stdin : m (List UInt8)
  /-- Writes a file anew. -/
  write : Path → List UInt8 → m (Except FileError Unit)
  /-- Prints on the standard output and on the standard error. -/
  print : Transcript → m Unit
  /-- Waits for the next poll; the result is whether the run goes on. -/
  pause : m Bool

namespace Machine

variable {m : Type → Type} [Monad m] (machine : Machine m)

/-- Writes the text to where it is asked for. The result is why the output cannot be written, if so. -/
def deliver (o : Options) (latex : Text) : m (Option Breakdown) :=
  match o.output with
  | none => do
    machine.print ⟨printedText latex, []⟩
    return none
  | some path =>
    if path.isMalformed then return some (.malformedPath path)
    else do
      match ← machine.write path (Utf8.encode latex) with
      | .ok () => return none
      | .error e => return some (.output e path)

/-- Converts an input once. The result is how the conversion ends if it does not go well. -/
def convert (o : Options) (input : Except FileError (List UInt8)) : m (Option Ending) := do
  let attempt := Attempt.ofInput o input
  machine.print ⟨[], attempt.printed⟩
  match attempt.result with
  | .error ending => return some ending
  | .ok latex =>
    let failure ← machine.deliver o latex
    return failure.map .breakdown

/-- Looks at the input and converts it if it was changed since it was `seen`. The result is when it was
changed, and why the run breaks off, if so. -/
def poll (o : Options) (path : Path) (seen : Stamp) : m (Stamp × Option Breakdown) := do
  match ← machine.stamp? path with
  | none => return (seen, none)
  | some stamp =>
    if stamp = seen then return (seen, none)
    else
      match ← machine.convert o (← machine.read path) with
      | none =>
        machine.print ⟨[], convertedLine path⟩
        return (stamp, none)
      | some (.breakdown reason) => return (stamp, some reason)
      | some _ => return (stamp, none)

/-- Polls the input until the run is interrupted or breaks off, but `polls` times at most. -/
def watch (o : Options) (path : Path) : Nat → Stamp → m Ending
  | 0, _ => return .exit exitDone
  | polls + 1, seen => do
    match ← machine.poll o path seen with
    | (_, some reason) => return .breakdown reason
    | (seen, none) => if ← machine.pause then watch o path polls seen else return .exit exitDone

/-- A run that watches its input. -/
def watchRun (polls : Nat) (o : Options) : m Ending :=
  match o.input with
  | none => do
    machine.print ⟨[], watchReport⟩
    return .exit exitUsage
  | some path => do
    machine.print ⟨[], watchingLine path⟩
    if path.isMalformed then return .breakdown (.malformedPath path)
    else machine.watch o path polls Watch.unseen

/-- The bytes of the input: a file, or the standard input. -/
def inputBytes (o : Options) : m (Except FileError (List UInt8)) :=
  match o.input with
  | some path => machine.read path
  | none => do return .ok (← machine.stdin)

/-- A run that converts its input once. -/
def oneRun (o : Options) : m Ending :=
  match o.input.filter Path.isMalformed with
  | some path => return .breakdown (.malformedPath path)
  | none => do
    let failure ← machine.convert o (← machine.inputBytes o)
    return failure.getD (.exit exitDone)

/-- What is found where the settings file should stand. No file has a malformed path. -/
def settingsFile (path : Path) : m (Except FileError (Option (List UInt8))) :=
  if path.isMalformed then return .ok none else machine.regular? path

/-- The options of a run. -/
def optionsOf (room : Toml.Room) (words : List Text) : m (Except Refusal Options) :=
  match Arguments.ofTexts words with
  | .error stop => return .error (.stopped stop)
  | .ok arguments => do
    let path := arguments.settingsPath
    match Settings.ofFile room path (← machine.settingsFile path) with
    | .error e => return .error (.unsettled e)
    | .ok settings => return .ok (arguments.options settings)

/-- A run of the command, with at most `polls` polls if it watches its input. -/
def run (room : Toml.Room) (polls : Nat) (words : List Text) : m Ending := do
  match ← machine.optionsOf room words with
  | .error refusal =>
    machine.print refusal.transcript
    return refusal.ending
  | .ok o => if o.watch then machine.watchRun polls o else machine.oneRun o

end Machine

end Marktex.Command
