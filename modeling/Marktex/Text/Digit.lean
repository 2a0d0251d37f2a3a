import Marktex.Text.Basic

/-!
# Decimal digits and integers

A decimal digit is a character of any script that stands for a number from 0 to 9 in positional
notation (Unicode 14, general category Nd). These characters come in runs of ten in the order of
their values, so the table holds only where each run starts. `Text.integer?` reads an integer
written in such digits. Integers of very many digits are neither read nor written (`Text.written`).
-/

namespace Marktex

namespace Digit

/-- The code points of the characters for zero; each is followed by those for one to nine. -/
def zeros : List Nat :=
  [0x30, 0x660, 0x6f0, 0x7c0, 0x966, 0x9e6, 0xa66, 0xae6, 0xb66, 0xbe6,
   0xc66, 0xce6, 0xd66, 0xde6, 0xe50, 0xed0, 0xf20, 0x1040, 0x1090, 0x17e0,
   0x1810, 0x1946, 0x19d0, 0x1a80, 0x1a90, 0x1b50, 0x1bb0, 0x1c40, 0x1c50, 0xa620,
   0xa8d0, 0xa900, 0xa9d0, 0xa9f0, 0xaa50, 0xabf0, 0xff10, 0x104a0, 0x10d30, 0x11066,
   0x110f0, 0x11136, 0x111d0, 0x112f0, 0x11450, 0x114d0, 0x11650, 0x116c0, 0x11730, 0x118e0,
   0x11950, 0x11c50, 0x11d50, 0x11da0, 0x16a60, 0x16ac0, 0x16b50, 0x1d7ce, 0x1d7d8, 0x1d7e2,
   0x1d7ec, 0x1d7f6, 0x1e140, 0x1e2f0, 0x1e950, 0x1fbf0]

/-- The number from 0 to 9 that a decimal digit stands for. -/
def value? (c : Char) : Option Nat :=
  (zeros.find? fun base => base ≤ c.toNat && c.toNat < base + 10).map fun base => c.toNat - base

/-- Whether `c` is a decimal digit of some script. -/
def isDigit (c : Char) : Bool :=
  (value? c).isSome

/-- The number that a list of digit values denotes, the leading digit first. -/
def number (digits : List Nat) : Nat :=
  digits.foldl (fun n d => 10 * n + d) 0

end Digit

namespace Text

/-- The most digits that an integer may be written with. -/
def digitLimit : Nat := 4300

/-- The largest number that may count the characters of a text. -/
def indexLimit : Int := 9223372036854775807

/-- Why a text cannot be written. -/
inductive Unwritable where
  /-- A number has too many digits. -/
  | number
  /-- A stretch of equal characters is too long to be counted. -/
  | stretch
  deriving DecidableEq, Repr

/-- Whether an integer has few enough digits to be written. -/
def isShort (n : Int) : Bool :=
  n.natAbs < Nat.pow 10 digitLimit

/-- Whether an integer can count characters; below zero it counts none. -/
def isCount (n : Int) : Bool :=
  -indexLimit - 1 ≤ n && n ≤ indexLimit

/-- The text of an integer, unless it has too many digits. -/
def written (n : Int) : Except Unwritable Text :=
  if isShort n then .ok (ofInt n) else .error .number

/-- A blank that may surround an integer: any blank but the four information separators. -/
def isNumberBlank (c : Char) : Bool :=
  isBlank c && !inRanges [(0x1c, 0x1f)] c

/-- The values of the digits of an unsigned integer. There is at least one digit, and between two
digits an underscore may stand. -/
def digits? : Text → Option (List Nat)
  | [] => none
  | [c] => (Digit.value? c).map fun d => [d]
  | c :: '_' :: r => (Digit.value? c).bind fun d => (digits? r).map (d :: ·)
  | c :: r => (Digit.value? c).bind fun d => (digits? r).map (d :: ·)

/-- The value of an unsigned integer of at most `digitLimit` digits, leading zeros counted. -/
def natural? (s : Text) : Option Nat :=
  (digits? s).bind fun digits =>
    if digits.length ≤ digitLimit then some (Digit.number digits) else none

/-- The integer that a text denotes: digits after an optional sign, with blanks around both. -/
def integer? (s : Text) : Option Int :=
  match dropEndWhile isNumberBlank (s.dropWhile isNumberBlank) with
  | '-' :: r => (natural? r).map fun n => -(n : Int)
  | '+' :: r => (natural? r).map fun n => (n : Int)
  | r => (natural? r).map fun n => (n : Int)

end Text

end Marktex
