import Marktex.Toml.Fault

/-!
# Reading keys, strings and numbers

Readers for the parts of a settings file that hold no other value. Each takes the front of the file and
returns what it read with the rest, or the failure at the place where it was noticed.
-/

namespace Marktex.Toml

/-- Controls may not stand in comments and strings, except for tabs. -/
def isIllegal (c : Char) : Bool :=
  (c.toNat < 32 || c.toNat = 127) && c ≠ '\t'

/-- In strings of several lines, line feeds may stand too. -/
def isIllegalInLines (c : Char) : Bool :=
  isIllegal c && c ≠ '\n'

/-- The text without the spaces and tabs in front. -/
def skipSpaces (s : Text) : Text :=
  s.dropWhile Text.isSpaceOrTab

/-- `s` is accepted up to `rest` if no character of it, up to there, is refused. -/
def withoutRefused (refused : Char → Bool) (taken s : Text) : Except Failure Unit :=
  match taken.find? refused with
  | none => .ok ()
  | some c => fail (.invalidCharacter c) (s.dropWhile fun c => !refused c)

/-- The rest after a comment, which reaches to the end of the line, if one stands here. -/
def skipComment (s : Text) : Except Failure Text :=
  match s with
  | '#' :: r =>
    let taken := r.takeWhile (· != '\n')
    (withoutRefused isIllegal taken r).map fun _ => r.dropWhile (· != '\n')
  | _ => .ok s

/-- The rest after blanks, line feeds and comments; `fuel` bounds the number of comments. -/
def skipBetween : Nat → Text → Except Failure Text
  | 0, s => .ok s
  | fuel + 1, s =>
    let r := s.dropWhile fun c => Text.isSpaceOrTab c || c == '\n'
    match r with
    | '#' :: _ => (skipComment r).bind (skipBetween fuel)
    | _ => .ok r

/-! ## Strings -/

/-- The text up to a delimiter, which is taken as it is. -/
def literalUpTo (delimiter : Text) (refused : Char → Bool) (s : Text) : Read Text :=
  match Text.cut? delimiter s with
  | none => fail (.expectedDelimiter delimiter) []
  | some (taken, rest) => (withoutRefused refused taken s).map fun _ => (taken, rest)

/-- The value of a hexadecimal digit. -/
def hexValue? (c : Char) : Option Nat :=
  if '0' ≤ c ∧ c ≤ '9' then some (c.toNat - 48)
  else if 'a' ≤ c ∧ c ≤ 'f' then some (c.toNat - 87)
  else if 'A' ≤ c ∧ c ≤ 'F' then some (c.toNat - 55)
  else none

/-- The number that some digits denote in the given base. -/
def inBase (base : Nat) (digits : Text) : Nat :=
  digits.foldl (fun n c => n * base + (hexValue? c).getD 0) 0

/-- The character with the code point that the first `count` characters denote. -/
def escapedPoint (count : Nat) (s : Text) : Read Char :=
  let digits := s.take count
  if digits.length ≠ count ∨ digits.any fun c => (hexValue? c).isNone then
    fail .invalidHexadecimal s
  else
    let point := inBase 16 digits
    let rest := s.drop count
    if point.isValidChar then .ok (Char.ofNat point, rest) else fail .notScalar rest

/-- What a backslash and the text `s` after it stand for. In strings of several lines a backslash at
the end of a line stands for nothing, and neither do the blanks after it. -/
def escaped (severalLines : Bool) (s : Text) : Read Text :=
  let blankLines (r : Text) : Text := r.dropWhile fun c => Text.isSpaceOrTab c || c == '\n'
  let other : Read Text :=
    match s with
    | 'b' :: r => .ok (['\x08'], r)
    | 't' :: r => .ok (['\t'], r)
    | 'n' :: r => .ok (['\n'], r)
    | 'f' :: r => .ok (['\x0c'], r)
    | 'r' :: r => .ok (['\r'], r)
    | '"' :: r => .ok (['"'], r)
    | '\\' :: r => .ok (['\\'], r)
    | 'u' :: r => (escapedPoint 4 r).map fun (c, rest) => ([c], rest)
    | 'U' :: r => (escapedPoint 8 r).map fun (c, rest) => ([c], rest)
    | _ => fail .unescapedBackslash (s.drop 1)
  if !severalLines then other
  else
    match s with
    | '\n' :: r => .ok ([], blankLines r)
    | c :: r =>
      if !Text.isSpaceOrTab c then other
      else
        match skipSpaces r with
        | [] => .ok ([], [])
        | '\n' :: after => .ok ([], blankLines after)
        | after => fail .unescapedBackslash after
    | [] => other

/-- A string with escapes, up to its closing quotes. `fuel` bounds the number of its characters. -/
def basicString (severalLines : Bool) : Nat → Text → Read Text
  | 0, s => fail .unterminatedString s
  | _ + 1, [] => fail .unterminatedString []
  | fuel + 1, c :: r =>
    let continued (taken : Text) (rest : Text) : Read Text :=
      (basicString severalLines fuel rest).map fun (s, rest) => (taken ++ s, rest)
    if c = '"' then
      if !severalLines then .ok ([], r)
      else
        match r with
        | '"' :: '"' :: rest => .ok ([], rest)
        | _ => continued ['"'] r
    else if c = '\\' then (escaped severalLines r).bind fun (taken, rest) => continued taken rest
    else if (if severalLines then isIllegalInLines c else isIllegal c) then
      fail (.illegalCharacter c) (c :: r)
    else continued [c] r

/-- Up to two more quotes right after the closing ones belong to a string of several lines. -/
def extraQuotes (quote : Char) (s rest : Text) : Text × Text :=
  match rest with
  | c :: r =>
    if c ≠ quote then (s, rest)
    else
      match r with
      | d :: after => if d = quote then (s ++ [quote, quote], after) else (s ++ [quote], r)
      | [] => (s ++ [quote], [])
  | [] => (s, [])

/-- The string that starts with the given quote; `s` is what follows that quote. -/
def string (quote : Char) (s : Text) : Read Text :=
  match Text.skip? [quote, quote] s with
  | some inner =>
    let inner := Text.withoutFirst '\n' inner
    let body : Read Text :=
      if quote = '"' then basicString true (inner.length + 1) inner
      else literalUpTo [quote, quote, quote] isIllegalInLines inner
    body.map fun (s, rest) => extraQuotes quote s rest
  | none => if quote = '"' then basicString false (s.length + 1) s else literalUpTo [quote] isIllegal s

/-! ## Keys -/

/-- The characters that may stand in a name without quotes. -/
def isBare (c : Char) : Bool :=
  c.isAlphanum || c == '-' || c == '_'

/-- One name of a key. -/
def name (s : Text) : Read Text :=
  match s with
  | '\'' :: r => literalUpTo ['\''] isIllegal r
  | '"' :: r => basicString false (r.length + 1) r
  | c :: _ => if isBare c then .ok (s.takeWhile isBare, s.dropWhile isBare) else fail .keyStart s
  | [] => fail .keyStart s

/-- The names of a key with points between them, and the spaces after it; `fuel` bounds their
number. -/
def names : Nat → Text → Read Key
  | 0, s => fail .keyStart s
  | fuel + 1, s =>
    (name s).bind fun (first, rest) =>
      match skipSpaces rest with
      | '.' :: r => (names fuel (skipSpaces r)).map fun (more, rest) => (first :: more, rest)
      | rest => .ok ([first], rest)

/-- A key with the spaces after it. -/
def key (s : Text) : Read Key :=
  names (s.length + 1) s

/-! ## Numbers -/

/-- Whether `c` is a digit of the given base. -/
def isDigitOf (base : Nat) (c : Char) : Bool :=
  match hexValue? c with
  | some value => value < base
  | none => false

/-- Digits of the given base after another digit; an underscore may stand before each. -/
def moreDigits (base : Nat) : Text → Text × Text
  | [] => ([], [])
  | '_' :: c :: r =>
    if isDigitOf base c then
      let (digits, rest) := moreDigits base r
      (c :: digits, rest)
    else ([], '_' :: c :: r)
  | c :: r =>
    if isDigitOf base c then
      let (digits, rest) := moreDigits base r
      (c :: digits, rest)
    else ([], c :: r)

/-- At least one digit of the given base, with underscores between digits. -/
def someDigits? (base : Nat) : Text → Option (Text × Text)
  | [] => none
  | c :: r =>
    if isDigitOf base c then
      let (digits, rest) := moreDigits base r
      some (c :: digits, rest)
    else none

/-- A whole number after a mark for its base. -/
def marked? : Text → Option (Value × Text)
  | '0' :: 'x' :: r => (someDigits? 16 r).map fun (digits, rest) => (.integer (inBase 16 digits), rest)
  | '0' :: 'b' :: r => (someDigits? 2 r).map fun (digits, rest) => (.integer (inBase 2 digits), rest)
  | '0' :: 'o' :: r => (someDigits? 8 r).map fun (digits, rest) => (.integer (inBase 8 digits), rest)
  | _ => none

/-- The whole part of a decimal number: a zero, or digits that do not start with one. -/
def wholePart? : Text → Option (Text × Text)
  | '0' :: r => some (['0'], r)
  | s => someDigits? 10 s

/-- The digits after a point, if digits follow one. -/
def fraction? : Text → Option (Text × Text)
  | '.' :: r => someDigits? 10 r
  | _ => none

/-- A sign in front of a text, and whether it is a minus sign. -/
def sign : Text → Bool × Text
  | '-' :: r => (true, r)
  | '+' :: r => (false, r)
  | s => (false, s)

/-- The power of ten after the letter e, if digits follow one. -/
def power? : Text → Option (Int × Text)
  | c :: r =>
    if c = 'e' ∨ c = 'E' then
      let (negative, r) := sign r
      (someDigits? 10 r).map fun (digits, rest) =>
        let value : Int := inBase 10 digits
        (if negative then -value else value, rest)
    else none
  | [] => none

/-- A decimal number with an optional sign. It is a whole number unless it has a fraction or a power
of ten. -/
def decimal? (s : Text) : Option (Value × Text) :=
  let (negative, r) := sign s
  (wholePart? r).map fun (whole, afterWhole) =>
    let (fraction, afterFraction) := (fraction? afterWhole).getD ([], afterWhole)
    let (power, rest) := (power? afterFraction).getD (0, afterFraction)
    if rest.length = afterWhole.length then
      let value : Int := inBase 10 whole
      (.integer (if negative then -value else value), rest)
    else
      (.float (Binary64.ofDecimal negative (inBase 10 (whole ++ fraction)) (power - fraction.length)),
        rest)

/-- How many digits the whole part of a decimal number has, underscores not counted. -/
def wholeDigits (s : Text) : Nat :=
  ((wholePart? (sign s).2).map fun (whole, _) => whole.length).getD 0

/-- A number, if it does not have more digits than are read. There is no such limit on numbers that are
not decimal or not whole. -/
def limited (s : Text) (number : Value) (rest : Text) : Read Value :=
  match number with
  | .integer _ =>
    if wholeDigits s > Text.digitLimit then fail (.longNumber (wholeDigits s)) s
    else .ok (number, rest)
  | _ => .ok (number, rest)

/-- A number that has no digits. -/
def special? (s : Text) : Option (Value × Text) :=
  let (negative, r) := sign s
  match r with
  | 'i' :: 'n' :: 'f' :: rest => some (.float (.infinite negative), rest)
  | 'n' :: 'a' :: 'n' :: rest => some (.float .undefined, rest)
  | _ => none

/-! ## Dates and times -/

/-- A number of exactly `count` digits. -/
def fixedDigits? (count : Nat) (s : Text) : Option (Nat × Text) :=
  let digits := s.take count
  if digits.length = count ∧ digits.all fun c => isDigitOf 10 c then
    some (inBase 10 digits, s.drop count)
  else none

/-- A number of two digits between two bounds. -/
def between? (least greatest : Nat) (s : Text) : Option (Nat × Text) :=
  (fixedDigits? 2 s).bind fun (n, rest) =>
    if least ≤ n ∧ n ≤ greatest then some (n, rest) else none

/-- The fraction of a second after a point, in millionths; further digits are dropped. -/
def micros : Text → Nat × Text
  | '.' :: r =>
    let digits := r.takeWhile (isDigitOf 10)
    if digits.isEmpty then (0, '.' :: r)
    else
      let kept := digits.take 6
      (inBase 10 kept * Nat.pow 10 (6 - kept.length), r.dropWhile (isDigitOf 10))
  | s => (0, s)

/-- A time of day. -/
def time? (s : Text) : Option (Time × Text) := do
  let (hour, s) ← between? 0 23 s
  let s ← Text.skip? [':'] s
  let (minute, s) ← between? 0 59 s
  let s ← Text.skip? [':'] s
  let (second, s) ← between? 0 59 s
  let (micro, s) := micros s
  some (⟨hour, minute, second, micro⟩, s)

/-- The distance from universal time. -/
def offset? : Text → Option (Int × Text)
  | 'Z' :: r => some (0, r)
  | 'z' :: r => some (0, r)
  | c :: r =>
    if c = '+' ∨ c = '-' then do
      let (hours, s) ← between? 0 23 r
      let s ← Text.skip? [':'] s
      let (minutes, s) ← between? 0 59 s
      let total : Int := hours * 60 + minutes
      some (if c = '-' then -total else total, s)
    else none
  | [] => none

/-- The digits and dashes of a date, which the calendar need not have. -/
def date? (s : Text) : Option (Date × Text) := do
  let (year, s) ← fixedDigits? 4 s
  let s ← Text.skip? ['-'] s
  let (month, s) ← between? 1 12 s
  let s ← Text.skip? ['-'] s
  let (day, s) ← between? 1 31 s
  some (⟨year, month, day⟩, s)

/-- The time of day that follows a date after a separator. -/
def timeOfDate? : Text → Option (Time × Text)
  | c :: r => if c = 'T' ∨ c = 't' ∨ c = ' ' then time? r else none
  | [] => none

/-- A date, alone or with a time of day and a distance from universal time. -/
def dateTime? (s : Text) : Option (Moment × Date × Text) :=
  (date? s).map fun (date, rest) =>
    match timeOfDate? rest with
    | none => (.date date, date, rest)
    | some (time, rest) =>
      match offset? rest with
      | none => (.dateTime date time none, date, rest)
      | some (offset, rest) => (.dateTime date time (some offset), date, rest)

/-- The date, time or number at the front of a file. -/
def scalar (s : Text) : Read Value :=
  match dateTime? s with
  | some (moment, date, rest) =>
    if date.isValid then .ok (.moment moment, rest) else fail .invalidMoment s
  | none =>
    match time? s with
    | some (time, rest) => .ok (.moment (.time time), rest)
    | none =>
      match (marked? s).or ((decimal? s).or (special? s)) with
      | some (number, rest) => limited s number rest
      | none => fail .invalidValue s

end Marktex.Toml
