import Marktex.Toml.Value

/-!
# Faults of a settings file

What can be wrong with a settings file, and how a message says so: what is wrong, and the line and the
column where it was noticed.
-/

namespace Marktex.Toml

/-- What is wrong with a settings file. -/
inductive Fault where
  | invalidStatement
  | expectedLineEnd
  | declaredTwice (key : Key)
  | immutable (key : Key)
  | redefined (key : Key)
  | overwritten
  | expectedTableEnd
  | expectedTableArrayEnd
  | expectedEquals
  | keyStart
  | unclosedArray
  | unclosedTable
  | duplicateName (name : Text)
  | expectedDelimiter (delimiter : Text)
  | invalidCharacter (c : Char)
  | illegalCharacter (c : Char)
  | unterminatedString
  | unescapedBackslash
  | invalidHexadecimal
  | notScalar
  | invalidMoment
  | invalidValue
  /-- A decimal number with so many digits is not read. -/
  | longNumber (digits : Nat)
  /-- A value within so many other ones is not read. -/
  | tooDeep
  deriving DecidableEq, Repr

namespace Fault

/-- What is wrong, in words. -/
def message : Fault → Text
  | .invalidStatement => "Invalid statement".toList
  | .expectedLineEnd => "Expected newline or end of document after a statement".toList
  | .declaredTwice key => "Cannot declare ".toList ++ shownKey key ++ " twice".toList
  | .immutable key => "Cannot mutate immutable namespace ".toList ++ shownKey key
  | .redefined key => "Cannot redefine namespace ".toList ++ shownKey key
  | .overwritten => "Cannot overwrite a value".toList
  | .expectedTableEnd => "Expected ']' at the end of a table declaration".toList
  | .expectedTableArrayEnd => "Expected ']]' at the end of an array declaration".toList
  | .expectedEquals => "Expected '=' after a key in a key/value pair".toList
  | .keyStart => "Invalid initial character for a key part".toList
  | .unclosedArray => "Unclosed array".toList
  | .unclosedTable => "Unclosed inline table".toList
  | .duplicateName name => "Duplicate inline table key ".toList ++ name.quoted
  | .expectedDelimiter delimiter => "Expected ".toList ++ delimiter.quoted
  | .invalidCharacter c => "Found invalid character ".toList ++ Text.quoted [c]
  | .illegalCharacter c => "Illegal character ".toList ++ Text.quoted [c]
  | .unterminatedString => "Unterminated string".toList
  | .unescapedBackslash => "Unescaped '\\' in a string".toList
  | .invalidHexadecimal => "Invalid hex value".toList
  | .notScalar => "Escaped character is not a Unicode scalar value".toList
  | .invalidMoment => "Invalid date or datetime".toList
  | .invalidValue => "Invalid value".toList
  | .longNumber digits => "Number with ".toList ++ Text.ofInt digits ++ " digits".toList
  | .tooDeep => "Too many values within each other".toList

end Fault

/-- A fault, noticed where `rest` is what is left of the file. -/
structure Failure where
  /-- What is wrong. -/
  fault : Fault
  /-- The file from the place on where it was noticed. -/
  rest : Text
  deriving DecidableEq, Repr

namespace Failure

/-- The place of a failure: line and column, counted from 1, or the end of the file. -/
def place (f : Failure) (source : Text) : Text :=
  if f.rest.isEmpty then "end of document".toList
  else
    let before := source.take (source.length - f.rest.length)
    let column := (before.reverse.takeWhile (· != '\n')).length + 1
    "line ".toList ++ Text.ofInt (before.count '\n' + 1) ++ ", column ".toList ++ Text.ofInt column

/-- What is wrong and where. -/
def message (f : Failure) (source : Text) : Text :=
  f.fault.message ++ " (at ".toList ++ f.place source ++ [')']

end Failure

/-- What reading the front of a file yields: a value and the rest, or a failure. -/
abbrev Read (α : Type) := Except Failure (α × Text)

/-- Reading fails where `rest` is left. -/
def fail {α : Type} (fault : Fault) (rest : Text) : Except Failure α :=
  .error ⟨fault, rest⟩

end Marktex.Toml
