import Marktex.Source.Snippet
import Marktex.Token.Piece

/-!
# Lexing

A source is read piece by piece, and each lexeme gets its place. A construct that is not closed before
the end of the input is a warning, and its token stands for what there is; strict reading fails
instead. What reading a stretch yields is a `Reading`; readings of stretches that follow one another
combine by `Reading.andThen`. A `Lexer` keeps what was read so far.
-/

namespace Marktex

/-- A construct that is not closed before the end of the input, and the stretch it covers. -/
structure Unclosed where
  /-- What is not closed. -/
  construct : Construct
  /-- From where it opens to where the end of the input was met. -/
  span : Span
  deriving DecidableEq, Repr

/-- The report of a construct that opens at `p`. -/
def OpenEnd.place (p : Position) (e : OpenEnd) : Unclosed :=
  ⟨e.construct, Span.along p e.raw⟩

namespace Unclosed

/-- What is reported of the construct. -/
def message (u : Unclosed) : Text :=
  "unterminated ".toList ++ u.construct.name

/-- The report of a lexer that goes on. -/
def warning (u : Unclosed) : Snippet :=
  ⟨.warning, u.message, u.span.start, some u.span.stop⟩

/-- The report of a strict lexer: only the place where the construct opens is underlined. -/
def error (u : Unclosed) : Snippet :=
  ⟨.error, u.message, u.span.start, none⟩

end Unclosed

/-- The tokens for lexemes that stand one after the other, from `p` on. -/
def Lexeme.place (p : Position) : List Lexeme → List Token
  | [] => []
  | l :: ls => ⟨l.kind, l.value, l.raw, Span.along p l.raw⟩ :: place (p.after l.raw) ls

/-- A place in a source, with what is left of the source there. -/
structure Cursor where
  /-- Whether the place is at the start of a line. -/
  lineStart : Bool
  /-- The place. -/
  position : Position
  /-- The source from there on. -/
  rest : Text
  deriving DecidableEq, Repr

namespace Cursor

/-- The place at the front of a source. -/
def start (source : Text) : Cursor :=
  ⟨true, Position.origin, source⟩

/-- The place after the piece that stands here. -/
def past (cursor : Cursor) (piece : Piece) : Cursor :=
  ⟨piece.raw.getLast? = some '\n', cursor.position.after piece.raw, piece.rest⟩

/-- The place at the end of the input. -/
def atEnd (cursor : Cursor) : Cursor :=
  ⟨cursor.rest.getLast? = some '\n', cursor.position.after cursor.rest, []⟩

end Cursor

/-- What reading a stretch of a source yields. -/
structure Reading where
  /-- The tokens of the stretch. -/
  tokens : List Token
  /-- The constructs that the end of the input closed. -/
  warnings : List Unclosed
  /-- The construct at which strict reading failed. -/
  failure : Option Unclosed
  /-- The place where the stretch ends. -/
  cursor : Cursor
  deriving DecidableEq, Repr

namespace Reading

/-- Nothing is read. -/
def idle (cursor : Cursor) : Reading :=
  ⟨[], [], none, cursor⟩

/-- What stands at the end of the input: nothing, which is read as bold text that is closed as soon as it
is opened. -/
def hollow (cursor : Cursor) : Reading :=
  ⟨[Token.hollow cursor.position], [], none, cursor⟩

/-- One stretch and then, unless it failed, the next one. -/
def andThen (first : Reading) (next : Cursor → Reading) : Reading :=
  match first.failure with
  | some _ => first
  | none =>
    let second := next first.cursor
    { second with
      tokens := first.tokens ++ second.tokens
      warnings := first.warnings ++ second.warnings }

/-- One piece. Strict reading fails at the first thing that is not closed, without a token and at the end
of the input, while otherwise the tokens come with a warning for each. A step at the end of the input, which
no loop over pieces takes, makes a token of nothing. -/
def step (strict : Bool) (cursor : Cursor) : Reading :=
  match cursor.rest with
  | [] => hollow cursor
  | c :: r =>
    let piece := Piece.read cursor.lineStart c r
    let unclosed := piece.openEnds.map (OpenEnd.place cursor.position)
    match if strict then unclosed.head? else none with
    | some u => ⟨[], [], some u, cursor.atEnd⟩
    | none => ⟨Lexeme.place cursor.position piece.lexemes, unclosed, none, cursor.past piece⟩

/-- At most `count` pieces, up to the end of the input or the first failure. -/
def steps (strict : Bool) : Nat → Cursor → Reading
  | 0, cursor => idle cursor
  | count + 1, cursor =>
    if cursor.rest.isEmpty then idle cursor
    else (step strict cursor).andThen (steps strict count)

/-- All pieces that are left. As every piece has a character, there are no more of them than
characters. -/
def all (strict : Bool) (cursor : Cursor) : Reading :=
  steps strict cursor.rest.length cursor

end Reading

/-- A lexer that can be asked for single pieces and for all that is left, in any order. -/
structure Lexer where
  /-- Whether a construct that is not closed is a failure. -/
  strict : Bool
  /-- The place in the source. -/
  cursor : Cursor
  /-- All tokens so far. -/
  tokens : List Token
  /-- All warnings so far. -/
  warnings : List Unclosed
  deriving DecidableEq, Repr

namespace Lexer

/-- A lexer at the front of a source. -/
def start (strict : Bool) (source : Text) : Lexer :=
  ⟨strict, Cursor.start source, [], []⟩

/-- The lexer after a stretch was read. -/
def add (lexer : Lexer) (reading : Reading) : Lexer :=
  { lexer with
    cursor := reading.cursor
    tokens := lexer.tokens ++ reading.tokens
    warnings := lexer.warnings ++ reading.warnings }

/-- The piece that a loop over all pieces reads next; none at the end of the input. -/
def next? (lexer : Lexer) : Option Reading :=
  if lexer.cursor.rest.isEmpty then none else some (Reading.step lexer.strict lexer.cursor)

/-- All that is left and, unless reading it failed, the token that ends the stream. -/
def finish (lexer : Lexer) : Reading :=
  (Reading.all lexer.strict lexer.cursor).andThen fun cursor =>
    ⟨[Token.ending cursor.position], [], none, cursor⟩

/-- A request that moves a lexer. -/
inductive Call where
  /-- To read the next piece, also at the end of the input. -/
  | next
  /-- To read all that is left and to end the stream. -/
  | finish
  deriving DecidableEq, Repr

/-- What a call reads. -/
def reading (lexer : Lexer) : Call → Reading
  | .next => Reading.step lexer.strict lexer.cursor
  | .finish => lexer.finish

/-- The lexer after a call, unless strict reading failed. -/
def call? (lexer : Lexer) (call : Call) : Option Lexer :=
  match (lexer.reading call).failure with
  | some _ => none
  | none => some (lexer.add (lexer.reading call))

/-- The lexer after some calls, unless strict reading failed in one of them. -/
def session? (lexer : Lexer) (calls : List Call) : Option Lexer :=
  calls.foldlM call? lexer

end Lexer

/-- All of a source, with the token that ends the stream unless strict reading failed. -/
def tokenize (strict : Bool) (source : Text) : Reading :=
  (Lexer.start strict source).finish

end Marktex
