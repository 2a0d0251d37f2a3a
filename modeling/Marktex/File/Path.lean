import Marktex.Text.Basic

/-!
# Paths

A path is a root and the names below it. Reading a path drops empty names and single dots, so that
different spellings of one path are equal; double dots stay, since what they mean depends on the file
system.
-/

namespace Marktex

/-- A path in a file system. -/
structure Path where
  /-- Empty for a relative path, otherwise one slash, or two if exactly two stood in front. -/
  root : Text
  /-- The names on the way, from the root on. -/
  names : List Text
  deriving DecidableEq, Repr

namespace Path

/-- The path that a text spells. -/
def ofText (s : Text) : Path :=
  let slashes := s.takeWhile (· == '/')
  let root :=
    if slashes.length = 2 then ['/', '/'] else if slashes.isEmpty then [] else ['/']
  ⟨root, (Text.split '/' s).filter fun name => name ≠ [] ∧ name ≠ ['.']⟩

/-- The text of a path; the path to the current directory is a single dot. -/
def toText (p : Path) : Text :=
  if p.root.isEmpty ∧ p.names.isEmpty then ['.'] else p.root ++ Text.join ['/'] p.names

/-- Whether no file can have the path: the character that ends a name cannot stand in one. -/
def isMalformed (p : Path) : Bool :=
  p.names.any fun name => name.contains '\x00'

/-- The number of bytes that the path takes. -/
def size (p : Path) : Nat :=
  p.toText.byteSize

/-- The path without its last name, if it has a name. -/
def parent (p : Path) : Path :=
  { p with names := p.names.dropLast }

/-- The path with one more name. -/
def child (p : Path) (name : Text) : Path :=
  { p with names := p.names ++ [name] }

end Path

end Marktex
