import Marktex.Text.Basic

/-!
# Strict UTF-8

Bytes are read as UTF-8 without repair: the first sequence that is not well formed is a fault. The
fault says where the sequence starts, how many of its bytes are to blame and why. Overlong forms,
surrogates and code points beyond U+10FFFF are not well formed.
-/

namespace Marktex.Utf8

/-- Why a byte sequence is not well formed. -/
inductive Reason where
  /-- No character starts with this byte. -/
  | start
  /-- A byte that should continue the character does not. -/
  | continuation
  /-- The bytes end within a character. -/
  | ending
  deriving DecidableEq, Repr

/-- The first sequence of bytes that is not well formed: its offset, its bytes, and the reason. -/
structure Fault where
  /-- The offset of the first byte of the sequence. -/
  offset : Nat
  /-- The bytes that are to blame; there is at least one. -/
  bytes : List UInt8
  /-- Why they are. -/
  reason : Reason
  deriving DecidableEq, Repr

/-- What stands at the start of some bytes. -/
inductive Unit where
  /-- A character of the given number of bytes. -/
  | char (c : Char) (size : Nat)
  /-- A sequence of the given number of bytes that is not well formed. -/
  | bad (size : Nat) (reason : Reason)

/-- A byte that continues a character. -/
def isContinuation (b : UInt8) : Bool :=
  0x80 ≤ b && b < 0xc0

/-- The bytes that may follow the first byte of a character: fewer than all continuations where
others would make an overlong form, a surrogate or a code point that is too large. -/
def maySecond (first second : UInt8) : Bool :=
  isContinuation second &&
    (if first = 0xe0 then 0xa0 ≤ second
     else if first = 0xed then second < 0xa0
     else if first = 0xf0 then 0x90 ≤ second
     else if first = 0xf4 then second < 0x90
     else true)

/-- The code point made of the low bits of the first byte and six bits of each other byte. -/
def codePoint (lead : Nat) (others : List UInt8) : Nat :=
  others.foldl (fun n b => n * 64 + (b.toNat - 0x80)) lead

/-- How many bytes a character takes that starts with the byte; none starts with some bytes. -/
def width? (first : UInt8) : Option Nat :=
  if first < 0x80 then some 1
  else if first < 0xc2 then none
  else if first < 0xe0 then some 2
  else if first < 0xf0 then some 3
  else if first < 0xf5 then some 4
  else none

/-- The first character of bytes that start with `first`, or the first bytes that are to blame. -/
def unit (first : UInt8) (following : List UInt8) : Unit :=
  let char (size lead : Nat) (others : List UInt8) : Unit :=
    .char (Char.ofNat (codePoint lead others)) size
  match width? first, following with
  | none, _ => .bad 1 .start
  | some 1, _ => char 1 first.toNat []
  | some 2, b :: _ =>
    if maySecond first b then char 2 (first.toNat - 0xc0) [b] else .bad 1 .continuation
  | some 3, b :: c :: _ =>
    if !maySecond first b then .bad 1 .continuation
    else if !isContinuation c then .bad 2 .continuation
    else char 3 (first.toNat - 0xe0) [b, c]
  | some 3, [b] => if maySecond first b then .bad 2 .ending else .bad 1 .continuation
  | some _, b :: c :: d :: _ =>
    if !maySecond first b then .bad 1 .continuation
    else if !isContinuation c then .bad 2 .continuation
    else if !isContinuation d then .bad 3 .continuation
    else char 4 (first.toNat - 0xf0) [b, c, d]
  | some _, [b, c] =>
    if !maySecond first b then .bad 1 .continuation
    else if !isContinuation c then .bad 2 .continuation
    else .bad 3 .ending
  | some _, [b] => if maySecond first b then .bad 2 .ending else .bad 1 .continuation
  | some _, [] => .bad 1 .ending

/-- Reads bytes at the given offset; the first argument counts the bytes of the last character
that are still to be passed over. -/
def decodeFrom (pending offset : Nat) : List UInt8 → Except Fault Text
  | [] => .ok []
  | b :: r =>
    match pending with
    | skipped + 1 => decodeFrom skipped (offset + 1) r
    | 0 =>
      match unit b r with
      | .char c size => (decodeFrom (size - 1) (offset + 1) r).map (c :: ·)
      | .bad size reason => .error ⟨offset, (b :: r).take size, reason⟩

/-- The text that the bytes encode, or the first fault. -/
def decode (bytes : List UInt8) : Except Fault Text :=
  decodeFrom 0 0 bytes

/-- The UTF-8 bytes of a text. -/
def encode (s : Text) : List UInt8 :=
  (String.ofList s).toUTF8.toList

end Marktex.Utf8
