import Marktex.Text.Digit
import Marktex.Token.Basic

/-!
# Packed payloads

A payload can be carried as one text in which a delimiter stands between the fields. Packing writes
this text and unpacking reads it. Links and images are also read from their Markdown form, wherever
in the text that form first occurs. Packing does not protect delimiters inside of a field, so a
payload with such a field is read back differently.
-/

namespace Marktex

namespace Payload

/-- The text of a payload: its fields with the delimiter of its type between them. -/
def pack : Payload → Text
  | .header level text => Text.ofInt level ++ ':' :: text
  | .link text url => text ++ '|' :: url
  | .image alt source => alt ++ '|' :: source
  | .codeBlock language code => language ++ ':' :: code
  | .todo text checked => "- [".toList ++ (if checked then 'x' else ' ') :: "] ".toList ++ text

/-- Label and target of the Markdown link `[label](target)` at the start of a text. The label
reaches to the first closing bracket, the target to the first closing parenthesis. -/
def labelled? : Text → Option (Text × Text)
  | '[' :: s =>
    match Text.cut? [']'] s with
    | some (label, '(' :: r) => (Text.cut? [')'] r).map fun (target, _) => (label, target)
    | _ => none
  | _ => none

/-- Label and target of the first Markdown link that stands right after an occurrence of `lead`. -/
def firstLabelled? (lead : Text) : Text → Option (Text × Text)
  | [] => none
  | c :: r =>
    match (Text.skip? lead (c :: r)).bind labelled? with
    | some found => some found
    | none => firstLabelled? lead r

/-- The mark inside of a box that can be ticked: ticked for `x` or `X`, open for a space. -/
def tick? : Char → Option Bool
  | ' ' => some false
  | 'x' => some true
  | 'X' => some true
  | _ => none

/-- A to-do item as written in a list: a dash, a box, and the text with blanks around it. -/
def todoLine? : Text → Option (Text × Bool)
  | '-' :: s =>
    match s.dropWhile Text.isBlank with
    | '[' :: mark :: ']' :: r => (tick? mark).map fun checked => (Text.trim r, checked)
    | _ => none
  | _ => none

/-- The payload of the given kind that a packed text stands for; kinds without payload have none. A
level that is not a number counts as zero. -/
def unpack? (kind : Kind) (packed : Text) : Option Payload :=
  match kind with
  | .header =>
    let (level, text) := packed.divide ':'
    some (.header (level.integer?.getD 0) text)
  | .link =>
    let (text, url) := (firstLabelled? [] packed).getD (packed.divide '|')
    some (.link text url)
  | .image =>
    let (alt, source) := (firstLabelled? ['!'] packed).getD (packed.divide '|')
    some (.image alt source)
  | .codeBlock =>
    let (language, code) := packed.divide ':'
    some (.codeBlock language code)
  | .todoItem =>
    let (text, checked) := (todoLine? packed).getD (packed.trim, false)
    some (.todo text checked)
  | _ => none

end Payload

namespace Value

/-- The value with a payload replaced by its packed text. -/
def pack : Value → Value
  | .payload p => .text p.pack
  | v => v

/-- The value that a packed text stands for in a token of the given kind. -/
def unpack (kind : Kind) (packed : Text) : Value :=
  match Payload.unpack? kind packed with
  | some p => .payload p
  | none => .text packed

end Value

end Marktex
