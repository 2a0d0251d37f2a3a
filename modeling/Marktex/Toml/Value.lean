import Marktex.Decimal.Shortest
import Marktex.Text.Digit
import Marktex.Toml.Moment

/-!
# Settings values

The values that a settings file can hold. A table keeps its entries in the order in which they were
first written. A value counts as true unless it is false, zero or empty, and every value can be turned
into a text.
-/

namespace Marktex.Toml

/-- The names that lead to an entry, from the outermost table on. -/
abbrev Key := List Text

/-- A value of a settings file. -/
inductive Value where
  | string (s : Text)
  | integer (n : Int)
  | float (x : Binary64)
  | boolean (b : Bool)
  | moment (m : Moment)
  | array (values : List Value)
  | table (entries : List (Text × Value))
  deriving Repr

/-- The entries of a table, in the order in which they were first written. -/
abbrev Table := List (Text × Value)

namespace Table

/-- The value of the entry with the given name. -/
def get? (t : Table) (name : Text) : Option Value :=
  (t.find? fun entry => entry.1 = name).map Prod.snd

/-- The table with a value for a name, at the end if the name is new. -/
def set (t : Table) (name : Text) (value : Value) : Table :=
  match t with
  | [] => [(name, value)]
  | (other, old) :: rest =>
    if other = name then (name, value) :: rest else (other, old) :: set rest name value

end Table

namespace Value

/-- Whether a value counts as true. -/
def isTrue : Value → Bool
  | .string s => !s.isEmpty
  | .integer n => n ≠ 0
  | .float x => !x.isZero
  | .boolean b => b
  | .moment _ => true
  | .array values => !values.isEmpty
  | .table entries => !entries.isEmpty

mutual

/-- A value, written so that its type can be told. -/
def shown : Value → Text
  | .string s => s.quoted
  | .integer n => Text.ofInt n
  | .float x => x.toText
  | .boolean b => if b then "True".toList else "False".toList
  | .moment m => m.shown
  | .array values => '[' :: Text.join ", ".toList (shownValues values) ++ [']']
  | .table entries => '{' :: Text.join ", ".toList (shownEntries entries) ++ ['}']

/-- Each of some values, written so that its type can be told. -/
def shownValues : List Value → List Text
  | [] => []
  | value :: rest => shown value :: shownValues rest

/-- Each of some entries: its name in quotes and its value. -/
def shownEntries : List (Text × Value) → List Text
  | [] => []
  | (name, value) :: rest => (name.quoted ++ ": ".toList ++ shown value) :: shownEntries rest

end

/-- Why a value is not written out. -/
inductive Unwritable where
  /-- A number has too many digits. -/
  | longNumber
  /-- Too many values stand within each other. -/
  | tooDeep
  deriving DecidableEq, Repr

mutual

/-- Why a value is not written out, if so; `room` is how many more values may stand around a part of it. -/
def unwritable? (room : Nat) : Value → Option Unwritable
  | .integer n => if Text.isShort n then none else some .longNumber
  | .array values =>
    match room with
    | 0 => some .tooDeep
    | room + 1 => anyUnwritable? room values
  | .table entries =>
    match room with
    | 0 => some .tooDeep
    | room + 1 => entriesUnwritable? room entries
  | _ => none

/-- Why one of some values is not written out: the reason for the first such value. -/
def anyUnwritable? (room : Nat) : List Value → Option Unwritable
  | [] => none
  | value :: rest => (unwritable? room value).or (anyUnwritable? room rest)

/-- Why the value of one of some entries is not written out. -/
def entriesUnwritable? (room : Nat) : List (Text × Value) → Option Unwritable
  | [] => none
  | (_, value) :: rest => (unwritable? room value).or (entriesUnwritable? room rest)

end

/-- A value as a plain text: a string is that text, all else is written out. -/
def toText : Value → Text
  | .string s => s
  | .moment m => m.toText
  | value => value.shown

end Value

/-- A key as messages give it: its names in quotes, in parentheses. -/
def shownKey (key : Key) : Text :=
  match key with
  | [name] => '(' :: name.quoted ++ ",)".toList
  | names => '(' :: Text.join ", ".toList (names.map Text.quoted) ++ [')']

end Marktex.Toml
