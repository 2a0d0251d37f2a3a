import Marktex.Toml.Scalar

/-!
# Reading a settings file

A settings file is a sequence of statements: a table header, a header of a table in an array, or a key
with a value. Names may be declared once only: a table that a header has opened is not opened again, and
arrays and tables that were written as values are not extended. `document` reads a whole file.

Values are read within values as far as there is room on the stack, which is counted in calls (`Room`).
-/

namespace Marktex.Toml

/-- What is known about the keys of a file while it is read. -/
structure Declared where
  /-- Tables that no header may open. -/
  opened : List Key
  /-- Values that nothing below may change. -/
  frozen : List Key
  /-- Tables that no header after the next one may open. -/
  pending : List Key
  deriving DecidableEq, Repr

namespace Declared

/-- Nothing is declared. -/
def empty : Declared :=
  ⟨[], [], []⟩

/-- Whether the key or one that leads to it is frozen. -/
def isFrozen (d : Declared) (key : Key) : Bool :=
  d.frozen.any fun root => root.isPrefixOf key

/-- Whether no header may open the table. -/
def isOpened (d : Declared) (key : Key) : Bool :=
  d.opened.contains key

/-- The table is opened by a header. -/
def opening (d : Declared) (key : Key) : Declared :=
  { d with opened := key :: d.opened }

/-- The value is frozen. -/
def freezing (d : Declared) (key : Key) : Declared :=
  { d with frozen := key :: d.frozen }

/-- All that is declared at the key and below is forgotten, as for a new table in an array. -/
def forgetting (d : Declared) (key : Key) : Declared :=
  { d with
    opened := d.opened.filter fun other => !key.isPrefixOf other
    frozen := d.frozen.filter fun other => !key.isPrefixOf other }

/-- The pending tables are opened from now on. -/
def settled (d : Declared) : Declared :=
  { d with opened := d.pending ++ d.opened, pending := [] }

end Declared

namespace Table

/-- Changes the table that a key leads to. Tables on the way are made if they are missing; if
`throughArrays` is set, an array on the way stands for its last table. There is no result if another
value is in the way, or if `change` has none. -/
def alter? (throughArrays : Bool) (change : Table → Option Table) : Key → Table → Option Table
  | [], t => change t
  | name :: rest, t =>
    match t.get? name with
    | none => (alter? throughArrays change rest []).map fun inner => t.set name (.table inner)
    | some (.table inner) =>
      (alter? throughArrays change rest inner).map fun inner => t.set name (.table inner)
    | some (.array values) =>
      if throughArrays then
        match values.getLast? with
        | some (.table inner) =>
          (alter? throughArrays change rest inner).map fun inner =>
            t.set name (.array (values.dropLast ++ [.table inner]))
        | _ => none
      else none
    | some _ => none

/-- Adds an entry with a new name. -/
def add? (name : Text) (value : Value) (t : Table) : Option Table :=
  if (t.get? name).isSome then none else some (t.set name value)

/-- Adds an empty table to an array of tables, which is made if it is missing. -/
def extend? (name : Text) (t : Table) : Option Table :=
  match t.get? name with
  | none => some (t.set name (.array [.table []]))
  | some (.array values) => some (t.set name (.array (values ++ [.table []])))
  | some _ => none

end Table

/-- The key without its last name, and that name. -/
def stem (key : Key) : Key × Text :=
  (key.dropLast, key.getLast?.getD [])

/-- The result, or a failure if there is none. -/
def orFail {α : Type} (result : Option α) (fault : Fault) (rest : Text) : Except Failure α :=
  match result with
  | some a => .ok a
  | none => fail fault rest

/-! ## Values -/

/-- How deep values may stand within each other. It depends on how much of the stack is used when a file is
read; the few calls that a value without parts takes are not counted. -/
structure Room where
  /-- The calls for which there is room where values are read. -/
  reading : Nat
  /-- The values for which there is room where they are written out within each other. -/
  writing : Nat
  deriving DecidableEq, Repr

/-- The calls that an array takes: one for the value that it is, and one for its items. -/
def arrayCalls : Nat := 2

/-- The calls that a table in braces takes: for the value that it is, for its entries, and for one of them. -/
def tableCalls : Nat := 3

/-- The key of an entry up to the value: the equals sign and the spaces after it are passed. -/
def entryKey (s : Text) : Except Failure (Key × Text) := do
  let (key, rest) ← key s
  match rest with
  | '=' :: r => .ok (key, skipSpaces r)
  | _ => fail .expectedEquals rest

/-- Whether nothing below the value may be changed. -/
def Value.isContainer : Value → Bool
  | .array _ => true
  | .table _ => true
  | _ => false

/-- Adds an entry to a table that is written in braces. -/
def addInline (t : Table) (frozen : List Key) (key : Key) (value : Value) (rest : Text) :
    Except Failure Table := do
  let (parent, name) := stem key
  if (Declared.mk [] frozen []).isFrozen key then fail (.immutable key) rest
  else
    match t.alter? false some parent with
    | none => fail .overwritten rest
    | some _ => orFail (t.alter? false (Table.add? name value) parent) (.duplicateName name) rest

mutual

/-- The value at the front of a file; `fuel` bounds the depth and the number of its parts, of which there
are at most two for each character, and `room` is how many calls there is room for. -/
def value : Nat → Nat → Text → Except Failure (Value × Text)
  | 0, _, s => fail .invalidValue s
  | fuel + 1, room, s =>
    match s with
    | '"' :: r => (string '"' r).map fun (s, rest) => (.string s, rest)
    | '\'' :: r => (string '\'' r).map fun (s, rest) => (.string s, rest)
    | '[' :: r =>
      if room < arrayCalls then fail .tooDeep s
      else (skipBetween r.length r).bind fun r => arrayItems fuel (room - arrayCalls) [] r
    | '{' :: r =>
      if room < tableCalls then fail .tooDeep s
      else
        match skipSpaces r with
        | '}' :: rest => .ok (.table [], rest)
        | r => tableEntries fuel (room - tableCalls) [] [] r
    | 't' :: 'r' :: 'u' :: 'e' :: rest => .ok (.boolean true, rest)
    | 'f' :: 'a' :: 'l' :: 's' :: 'e' :: rest => .ok (.boolean false, rest)
    | _ => scalar s

/-- The values of an array that are left, up to its closing bracket. -/
def arrayItems : Nat → Nat → List Value → Text → Except Failure (Value × Text)
  | 0, _, _, s => fail .unclosedArray s
  | fuel + 1, room, values, s =>
    match s with
    | ']' :: rest => .ok (.array values, rest)
    | _ => do
      let (item, rest) ← value fuel room s
      let values := values ++ [item]
      match ← skipBetween rest.length rest with
      | ']' :: rest => .ok (.array values, rest)
      | ',' :: r => arrayItems fuel room values (← skipBetween r.length r)
      | rest => fail .unclosedArray rest

/-- The entries of a table in braces that are left, up to its closing brace. -/
def tableEntries : Nat → Nat → Table → List Key → Text → Except Failure (Value × Text)
  | 0, _, _, _, s => fail .unclosedTable s
  | fuel + 1, room, entries, frozen, s => do
    let (key, s) ← entryKey s
    let (item, rest) ← value fuel room s
    let entries ← addInline entries frozen key item rest
    match skipSpaces rest with
    | '}' :: rest => .ok (.table entries, rest)
    | ',' :: r =>
      tableEntries fuel room entries (if item.isContainer then key :: frozen else frozen) (skipSpaces r)
    | rest => fail .unclosedTable rest

end

/-! ## Statements -/

/-- A file while it is read. -/
structure State where
  /-- The entries so far. -/
  entries : Table
  /-- What is known about the keys. -/
  declared : Declared
  /-- The table that the last header opened. -/
  header : Key

/-- A header of a table; `s` is what follows its bracket. -/
def tableHeader (state : State) (s : Text) : Except Failure (State × Text) := do
  let (key, rest) ← key (skipSpaces s)
  let declared := state.declared.settled
  if declared.isOpened key || declared.isFrozen key then fail (.declaredTwice key) rest
  else
    let entries ← orFail (state.entries.alter? true some key) .overwritten rest
    match rest with
    | ']' :: rest => .ok (⟨entries, declared.opening key, key⟩, rest)
    | _ => fail .expectedTableEnd rest

/-- A header of a table in an array; `s` is what follows its brackets. -/
def tableArrayHeader (state : State) (s : Text) : Except Failure (State × Text) := do
  let (key, rest) ← key (skipSpaces s)
  let declared := state.declared.settled
  if declared.isFrozen key then fail (.immutable key) rest
  else
    let (parent, name) := stem key
    let entries ← orFail (state.entries.alter? true (Table.extend? name) parent) .overwritten rest
    match rest with
    | ']' :: ']' :: rest => .ok (⟨entries, (declared.forgetting key).opening key, key⟩, rest)
    | _ => fail .expectedTableArrayEnd rest

/-- The keys that lead to a key, without the empty one and the key itself, below a header. -/
def leading (header key : Key) : List Key :=
  (List.range key.length).tail.map fun count => header ++ key.take count

/-- A key with its value. -/
def entry (room : Nat) (state : State) (s : Text) : Except Failure (State × Text) := do
  let (key, s) ← entryKey s
  let (item, rest) ← value (2 * s.length + 2) room s
  let (parent, name) := stem key
  let parent := state.header ++ parent
  let ways := leading state.header key
  match ways.find? state.declared.isOpened with
  | some way => fail (.redefined way) rest
  | none =>
    let declared := { state.declared with pending := ways ++ state.declared.pending }
    if declared.isFrozen parent then fail (.immutable parent) rest
    else
      let entries ← orFail (state.entries.alter? true (Table.add? name item) parent) .overwritten rest
      let declared := if item.isContainer then declared.freezing (state.header ++ key) else declared
      .ok (⟨entries, declared, state.header⟩, rest)

/-- The statement at the front of a file, or nothing where a comment or the end of a line stands. -/
def statement (room : Nat) (state : State) (s : Text) : Except Failure (State × Text) :=
  match s with
  | [] => .ok (state, [])
  | '\n' :: _ => .ok (state, s)
  | '#' :: _ => .ok (state, s)
  | '[' :: '[' :: r => tableArrayHeader state r
  | '[' :: r => tableHeader state r
  | c :: _ =>
    if isBare c || c == '"' || c == '\'' then entry room state s else fail .invalidStatement s

/-- The statements that are left; `fuel` bounds their number. -/
def statements (room : Nat) : Nat → State → Text → Except Failure State
  | 0, state, _ => .ok state
  | fuel + 1, state, s => do
    let (state, rest) ← statement room state (skipSpaces s)
    match ← skipComment (skipSpaces rest) with
    | [] => .ok state
    | '\n' :: rest => statements room fuel state rest
    | rest => fail .expectedLineEnd rest

/-- A file with each carriage return left out that stands before a line feed. -/
def withPlainLineEnds : Text → Text
  | [] => []
  | '\r' :: '\n' :: r => '\n' :: withPlainLineEnds r
  | c :: r => c :: withPlainLineEnds r

/-- Why a settings file has no entries. -/
inductive Unreadable where
  /-- What is wrong with the file, and where. -/
  | invalid (message : Text)
  /-- A decimal number has too many digits. -/
  | longNumber (digits : Nat)
  /-- Too many values stand within each other. -/
  | tooDeep
  deriving DecidableEq, Repr

/-- The entries of a settings file. -/
def document (room : Room) (file : Text) : Except Unreadable Table :=
  let source := withPlainLineEnds file
  match statements room.reading (source.length + 1) ⟨[], Declared.empty, []⟩ source with
  | .ok state => .ok state.entries
  | .error ⟨.longNumber digits, _⟩ => .error (.longNumber digits)
  | .error ⟨.tooDeep, _⟩ => .error .tooDeep
  | .error failure => .error (.invalid (failure.message source))

end Marktex.Toml
