import Marktex.File.Path

/-!
# File trees

The files that a command works on, each under the names that lead to it from the current directory.
Names that lead out of the current directory begin with double dots or with the root. The directories
above the current one and the root exist whatever the tree holds, and the root leads to the null device.
Paths are followed name by name, and each name has to stand in a directory that exists.
-/

namespace Marktex

/-- Why a file cannot be read or written. -/
inductive FileError where
  | notFound
  | isDirectory
  | notDirectory
  | nameTooLong
  | denied
  deriving DecidableEq, Repr

namespace FileError

/-- The error in words. -/
def message : FileError → Text
  | .notFound => "No such file or directory".toList
  | .isDirectory => "Is a directory".toList
  | .notDirectory => "Not a directory".toList
  | .nameTooLong => "File name too long".toList
  | .denied => "Permission denied".toList

/-- The number of the error. -/
def number : FileError → Nat
  | .notFound => 2
  | .denied => 13
  | .notDirectory => 20
  | .isDirectory => 21
  | .nameTooLong => 36

end FileError

/-- When a file was last changed. -/
inductive Stamp where
  /-- At a time that was set. -/
  | set (time : Int)
  /-- By the command itself, or at a time that nobody set; later changes have higher ticks. -/
  | clock (tick : Nat := 0)
  deriving DecidableEq, Repr

/-- How far the clock had got when a file was last changed; at times that were set the clock stands. -/
def Stamp.tick : Stamp → Nat
  | .set _ => 0
  | .clock tick => tick

/-- What a name in a directory stands for. -/
inductive Entity where
  | file (bytes : List UInt8) (stamp : Stamp)
  | directory (stamp : Stamp := .clock)
  deriving DecidableEq, Repr

/-- When an entity was last changed. -/
def Entity.stamp : Entity → Stamp
  | .file _ stamp => stamp
  | .directory stamp => stamp

/-- A tree of files. Each entity is found under the names that lead to it from the current directory, or
from the root. -/
structure FileTree where
  /-- The entities with the names that lead to them. -/
  entities : List (List Text × Entity)
  deriving DecidableEq, Repr

/-- Where a path leads. -/
inductive Location where
  /-- To an entity. -/
  | found (names : List Text) (entity : Entity)
  /-- To nothing, in a directory that exists. -/
  | vacant (names : List Text)
  /-- To the null device, which holds nothing and keeps nothing. -/
  | nullDevice
  deriving DecidableEq, Repr

namespace FileTree

/-- A tree without files. -/
def empty : FileTree :=
  ⟨[]⟩

/-- The name that stands for the root. -/
def rootName : Text :=
  ['/']

/-- The name that leads to the directory above. -/
def upName : Text :=
  ['.', '.']

/-- Whether a directory exists whatever the tree holds: the current one, one above it, or the root. -/
def isGiven (names : List Text) : Bool :=
  names = [rootName] || names.all (· = upName)

/-- The names of the directory above a directory; the root is above itself. -/
def above (names : List Text) : List Text :=
  if names = [rootName] then names
  else if isGiven names then names ++ [upName]
  else names.dropLast

/-- Whether names lead to something below the current directory. -/
def isInside (names : List Text) : Bool :=
  names.head? ≠ some rootName && names.head? ≠ some upName

/-- The entity under the given names. -/
def get? (t : FileTree) (names : List Text) : Option Entity :=
  if isGiven names then some (.directory .clock)
  else (t.entities.find? fun entry => entry.1 = names).map Prod.snd

/-- Where the given names lead, in a directory that exists. -/
def lookUp (t : FileTree) (names : List Text) : Location :=
  match t.get? names with
  | some entity => .found names entity
  | none => .vacant names

/-- The tree without what the given names lead to and all below it. -/
def remove (t : FileTree) (names : List Text) : FileTree :=
  ⟨t.entities.filter fun entry => !names.isPrefixOf entry.1⟩

/-- The tree with an entity under the given names, in place of what was there. -/
def put (t : FileTree) (names : List Text) (entity : Entity) : FileTree :=
  ⟨t.entities.filter (fun entry => entry.1 ≠ names) ++ [(names, entity)]⟩

/-- The tree with an entity under the given names and the directories that lead to it. -/
def make (t : FileTree) (names : List Text) (entity : Entity) : FileTree :=
  let parents := (List.range names.length).tail.map names.take
  let withParents := parents.foldl (fun t parent =>
    if (t.get? parent).isSome then t else t.put parent (.directory .clock)) t
  withParents.put names entity

/-- The most bytes that a name may have. -/
def nameLimit : Nat := 255

/-- The most bytes that a path may have. -/
def pathLimit : Nat := 4095

/-- The path of the null device. -/
def nullDevice : Path :=
  ⟨['/'], ["dev".toList, "null".toList]⟩

/-- Follows one name. -/
def step (t : FileTree) (location : Location) (name : Text) : Except FileError Location :=
  match location with
  | .vacant _ => .error .notFound
  | .nullDevice => .error .notDirectory
  | .found _ (.file ..) => .error .notDirectory
  | .found names (.directory _) =>
    if name = upName then .ok (t.lookUp (above names))
    else if name.byteSize > nameLimit then .error .nameTooLong
    else .ok (t.lookUp (names ++ [name]))

/-- Follows a path from the current directory or from the root. -/
def locate (t : FileTree) (path : Path) : Except FileError Location :=
  if path.size > pathLimit then .error .nameTooLong
  else if path = nullDevice then .ok .nullDevice
  else path.names.foldlM t.step (t.lookUp (if path.root.isEmpty then [] else [rootName]))

/-- The bytes of a file. -/
def read (t : FileTree) (path : Path) : Except FileError (List UInt8) :=
  match t.locate path with
  | .error e => .error e
  | .ok (.found _ (.file bytes _)) => .ok bytes
  | .ok (.found _ (.directory _)) => .error .isDirectory
  | .ok (.vacant _) => .error .notFound
  | .ok .nullDevice => .ok []

/-- The bytes of a file, if there is one. It is an error if a name on the way is too long, but not if
there is no such name. -/
def regular? (t : FileTree) (path : Path) : Except FileError (Option (List UInt8)) :=
  match t.locate path with
  | .error .nameTooLong => .error .nameTooLong
  | .ok (.found _ (.file bytes _)) => .ok (some bytes)
  | _ => .ok none

/-- When the file or directory was last changed, if there is one. -/
def stamp? (t : FileTree) (path : Path) : Option Stamp :=
  match t.locate path with
  | .ok (.found _ entity) => some entity.stamp
  | .ok .nullDevice => some .clock
  | _ => none

/-- The time now, which is later than all times of the clock that the tree has seen. -/
def now (t : FileTree) : Stamp :=
  .clock ((t.entities.map fun entry => entry.2.stamp.tick).max?.getD 0 + 1)

/-- The tree with the file at a path written anew. -/
def write (t : FileTree) (path : Path) (bytes : List UInt8) : Except FileError FileTree :=
  match t.locate path with
  | .error e => .error e
  | .ok (.found names (.file ..)) => .ok (t.put names (.file bytes t.now))
  | .ok (.vacant names) => .ok (t.put names (.file bytes t.now))
  | .ok .nullDevice => .ok t
  | .ok (.found _ (.directory _)) => .error .isDirectory

/-- The files below the current directory that another tree does not have with the same bytes. -/
def changedFrom (t before : FileTree) : List (List Text × List UInt8) :=
  (t.entities.filter fun entry => isInside entry.1).filterMap fun (names, entity) =>
    match entity, before.get? names with
    | .file bytes _, some (.file old _) => if bytes = old then none else some (names, bytes)
    | .file bytes _, _ => some (names, bytes)
    | .directory _, _ => none

end FileTree

end Marktex
