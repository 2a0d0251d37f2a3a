import Marktex.File.Tree
import Marktex.Text.Utf8
import Marktex.Toml.Value

/-!
# Endings

How a run of the command ends: with an exit code, with usage or help in place of a run, or by breaking
off. A run breaks off where nothing sensible can be said to the user: it has no exit code of its own, and
nothing is printed about the reason.
-/

namespace Marktex.Command

/-- The exit code of a run that did what it was asked for. -/
def exitDone : Nat := 0

/-- The exit code of a run whose source has a problem. -/
def exitProblem : Nat := 1

/-- The exit code of a run that cannot read its settings or its input, or that makes no sense. -/
def exitUsage : Nat := 2

/-- Why a settings file breaks a run off. -/
inductive SettingsFailure where
  /-- The operating system refuses to look for the file. -/
  | file (error : FileError) (path : Path)
  /-- The file is not UTF-8. -/
  | encoding (fault : Utf8.Fault)
  /-- The file holds a decimal number with too many digits. -/
  | longNumber (digits : Nat)
  /-- The file holds too many values within each other. -/
  | tooDeep
  /-- The name of a package would be a value that is not written out. -/
  | package (reason : Toml.Value.Unwritable)
  deriving DecidableEq, Repr

/-- Why a run breaks off. -/
inductive Breakdown where
  | settings (failure : SettingsFailure)
  /-- The output cannot be written. -/
  | output (error : FileError) (path : Path)
  /-- No file can have the path. -/
  | malformedPath (path : Path)
  /-- A package has to be loaded whose option was left without a word. -/
  | namelessPackage
  /-- A report cannot be written. -/
  | unwritable (reason : Text.Unwritable)
  deriving DecidableEq, Repr

/-- How a run ends. -/
inductive Ending where
  | exit (code : Nat)
  /-- The command line asks for no run: usage or help is printed. -/
  | usage (code : Nat)
  | breakdown (reason : Breakdown)
  deriving DecidableEq, Repr

end Marktex.Command
