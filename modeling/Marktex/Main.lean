import Marktex.Command.Machine

/-!
# The command

The outer layer of the command: the operating system as a machine that the command runs on. What the command
asks of it, and in which order, is defined in `Marktex.Command.Machine`.
-/

namespace Marktex.Console

open Marktex.Command

/-- A path as the operating system takes it. -/
def spelled (path : Path) : String :=
  String.ofList path.toText

/-- Why the operating system refuses a path. -/
def fileError : IO.Error → FileError
  | .noFileOrDirectory .. => .notFound
  | .inappropriateType .. => .notDirectory
  | .invalidArgument .. => .nameTooLong
  | _ => .denied

/-- What is known about a path: whether it leads to a directory, and when that was last changed. -/
def look (path : Path) : IO (Option (Bool × Stamp)) := do
  try
    let place ← IO.FS.realPath (spelled path)
    let known ← place.metadata
    let seconds : Int := known.modified.sec
    let directory := match known.type with
      | .dir => true
      | _ => false
    return some (directory, .set (seconds * 1000000000 + known.modified.nsec.toNat))
  catch _ => return none

/-- The bytes of a file. -/
def readBytes (path : Path) : IO (Except FileError (List UInt8)) := do
  match ← look path with
  | some (true, _) => return .error .isDirectory
  | _ =>
    try
      return .ok (← IO.FS.readBinFile (spelled path)).toList
    catch e => return .error (fileError e)

/-- The bytes of a stream up to its end. -/
partial def drain (stream : IO.FS.Stream) (before : ByteArray) : IO ByteArray := do
  let more ← stream.read 65536
  if more.isEmpty then return before else drain stream (before ++ more)

/-- The bytes of the settings file, if there is one. -/
def readSettings (path : Path) : IO (Except FileError (Option (List UInt8))) := do
  match ← readBytes path with
  | .ok bytes => return .ok (some bytes)
  | .error .nameTooLong => return .error .nameTooLong
  | .error _ => return .ok none

/-- Prints a text on the standard output. -/
def printOut (s : Text) : IO Unit := do
  let out ← IO.getStdout
  out.putStr (String.ofList s)
  out.flush

/-- Prints a text on the standard error. -/
def printErr (s : Text) : IO Unit := do
  let err ← IO.getStderr
  err.putStr (String.ofList s)
  err.flush

/-- Writes a file anew. -/
def writeBytes (path : Path) (bytes : List UInt8) : IO (Except FileError Unit) := do
  match ← look path with
  | some (true, _) => return .error .isDirectory
  | _ =>
    try
      IO.FS.writeBinFile (spelled path) (ByteArray.mk bytes.toArray)
      return .ok ()
    catch e => return .error (fileError e)

/-- How long to wait between two polls, in milliseconds. -/
def rest : UInt32 := 500

/-- The operating system as a machine. It interrupts a run by ending the process, so that a pause always goes
on. -/
def system : Machine IO where
  stamp? path := return (← look path).map Prod.snd
  read := readBytes
  regular? := readSettings
  stdin := return (← drain (← IO.getStdin) .empty).toList
  write := writeBytes
  print transcript := do
    printOut transcript.out
    printErr transcript.err
  pause := do
    IO.sleep rest
    return true

/-- The room on the stack of a process that has just started. -/
def room : Toml.Room :=
  ⟨980, 990⟩

/-- More polls than any process makes. -/
def polls : Nat := UInt64.size

/-- The exit code for an ending. The operating system gets a code even if a run breaks off. -/
def exitCode : Ending → Nat
  | .exit code => code
  | .usage code => code
  | .breakdown _ => exitProblem

end Marktex.Console

/-- The command line of the converter. -/
def main (words : List String) : IO UInt32 := do
  let ending ← Marktex.Console.system.run Marktex.Console.room Marktex.Console.polls (words.map String.toList)
  return (Marktex.Console.exitCode ending).toUInt32
