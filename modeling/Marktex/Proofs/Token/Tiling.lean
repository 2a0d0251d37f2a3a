import Mathlib.Tactic.Lemma
import Marktex.Proofs.Source.Places
import Marktex.Proofs.Token.Strictness

/-!
# Tokens tile the source

Whatever calls a lexer has answered, its tokens stand one right after the other from the front of the
source to the place of the lexer. `Reading.Covers` says this of what one call reads and is shown piece
by piece; `Lexer.Tiled` is the invariant that a session keeps from it, and `session_lossless` draws
from it what can be said of a lexer's tokens and positions by looking at the source.
-/

namespace Marktex

/-- Tokens that stand one after the other: the first starts at `p`, every later one where the token
before it stops, and the last one stops at `q`. Each covers its own source text. -/
inductive Token.Tiles : Position → List Token → Position → Prop where
  | nil {p} :
    Tiles p [] p
  | cons {p t ts q} :
    t.span = Span.along p t.raw →
    Tiles t.span.stop ts q →
    Tiles p (t :: ts) q

namespace Token.Tiles

/-- Tokens that tile two stretches one after the other tile both. -/
lemma append {p q r : Position} {ts us : List Token} (first : Tiles p ts q)
    (second : Tiles q us r) : Tiles p (ts ++ us) r := by
  induction first with
  | nil => exact second
  | cons span _ ih => exact .cons span (ih second)

/-- Every token covers its text inside of the text of all tokens. -/
lemma covers {p q : Position} {ts : List Token} {t : Token} (h : Tiles p ts q) (member : t ∈ ts) :
    ∃ before after, ts.flatMap Token.raw = before ++ t.raw ++ after ∧
      t.span = Span.along (p.after before) t.raw := by
  induction h with
  | nil => cases member
  | @cons p u ts q span _ ih =>
    rw [List.mem_cons] at member
    obtain rfl | member := member
    · exact ⟨[], ts.flatMap Token.raw, by simp, span⟩
    · obtain ⟨before, after, whole, here⟩ := ih member
      refine ⟨u.raw ++ before, after, by simp [whole], ?_⟩
      rw [here, span, Position.after_append]
      rfl

/-- The place where the last token stops is the place after the text of all tokens. -/
lemma stop_eq {p q : Position} {ts : List Token} (h : Tiles p ts q) :
    q = p.after (ts.flatMap Token.raw) := by
  induction h with
  | nil => rfl
  | @cons p t ts q span _ ih =>
    rw [ih, List.flatMap_cons, Position.after_append, span]
    rfl

/-- A token of a tiling starts where the one before it stops. -/
lemma start_eq {p q : Position} {ts : List Token} {i : Nat} {t u : Token} (h : Tiles p ts q)
    (here : ts[i]? = some t) (next : ts[i + 1]? = some u) : u.span.start = t.span.stop := by
  induction h generalizing i with
  | nil => cases here
  | @cons p v ts q span tiles ih =>
    cases i with
    | succ i => exact ih here next
    | zero =>
      cases here
      cases tiles with
      | nil => cases next
      | cons span' _ =>
        cases next
        exact congrArg Span.start span'

end Token.Tiles

namespace Lexeme

/-- Lexemes become tokens one after the other. -/
lemma place_tiles (p : Position) (ls : List Lexeme) :
    Token.Tiles p (place p ls) (p.after (ls.flatMap Lexeme.raw)) := by
  induction ls generalizing p with
  | nil => exact .nil
  | cons l ls ih =>
    rw [List.flatMap_cons, Position.after_append]
    exact .cons rfl (ih (p.after l.raw))

/-- Lexemes keep their source text when they become tokens. -/
lemma raw_place (p : Position) (ls : List Lexeme) :
    (place p ls).flatMap Token.raw = ls.flatMap Lexeme.raw := by
  induction ls generalizing p with
  | nil => rfl
  | cons l ls ih => simp [place, ih]

end Lexeme

namespace Reading

/-- A reading accounts for what it passed: its tokens stand one after the other from the place where
it began to the place where it ended, what they are made from and what is left make up what there
was, and each warning is about one of them. -/
structure Covers (cursor : Cursor) (reading : Reading) : Prop where
  tiles : Token.Tiles cursor.position reading.tokens reading.cursor.position
  whole : reading.tokens.flatMap Token.raw ++ reading.cursor.rest = cursor.rest
  warned : ∀ u ∈ reading.warnings, ∃ t ∈ reading.tokens, u.span = t.span

/-- A reading that does nothing covers nothing. -/
lemma idle_covers (cursor : Cursor) : Covers cursor (idle cursor) :=
  ⟨.nil, rfl, by simp [idle]⟩

/-- A token of nothing accounts for nothing that is passed. -/
lemma hollow_covers (cursor : Cursor) : Covers cursor (hollow cursor) :=
  ⟨.cons rfl .nil, rfl, by simp [hollow]⟩

/-- The end token covers nothing. -/
lemma ending_covers (cursor : Cursor) :
    Covers cursor ⟨[Token.ending cursor.position], [], none, cursor⟩ :=
  ⟨.cons rfl .nil, rfl, by simp⟩

/-- Readings that follow one another account for what they passed together. -/
lemma Covers.andThen {cursor : Cursor} {first : Reading} {next : Cursor → Reading}
    (h : Covers cursor first) (h' : Covers first.cursor (next first.cursor))
    (success : first.failure = none) : Covers cursor (first.andThen next) := by
  simp only [Reading.andThen, success]
  refine ⟨h.tiles.append h'.tiles, ?_, fun u member => ?_⟩
  · rw [List.flatMap_append, List.append_assoc, h'.whole, h.whole]
  · obtain member | member := List.mem_append.1 member
    · obtain ⟨t, token, same⟩ := h.warned u member
      exact ⟨t, List.mem_append_left _ token, same⟩
    · obtain ⟨t, token, same⟩ := h'.warned u member
      exact ⟨t, List.mem_append_right _ token, same⟩

/-- Lenient reading accounts for the piece that it reads. -/
lemma step_covers {cursor : Cursor} {c : Char} {r : Text} (h : cursor.rest = c :: r) :
    Covers cursor (step false cursor) := by
  have covers : (Piece.read cursor.lineStart c r).Covers (c :: r) := Piece.read_covers _ c r
  have ends := Piece.read_ends cursor.lineStart c r
  rw [step_lenient h]
  generalize Piece.read cursor.lineStart c r = piece at *
  refine ⟨Lexeme.place_tiles _ _, ?_, ?_⟩
  · rw [Lexeme.raw_place, h]
    exact covers
  · cases ends with
    | closed => simp
    | cut => simp [Lexeme.place, OpenEnd.place]

/-- Reading to the end covers all that was left. -/
lemma all_covers (cursor : Cursor) : Covers cursor (all false cursor) := by
  induction cursor using Cursor.pieces_rec with
  | ending cursor h =>
    rw [all_ending false h]
    exact idle_covers cursor
  | piece cursor c r h ih =>
    have front : cursor.rest ≠ [] := by simp [h]
    have step := step_lenient h
    rw [all_piece false front]
    apply (step_covers h).andThen
    · rw [step]
      exact ih
    · rw [step]

/-- The tokens of all that is left make it up. -/
lemma all_raws (cursor : Cursor) : (all false cursor).tokens.flatMap Token.raw = cursor.rest := by
  have whole := (all_covers cursor).whole
  rwa [(all_lenient cursor).2.1, List.append_nil] at whole

end Reading

namespace Lexer

/-- Every call that succeeds accounts for what it passed, whether reading is strict or not. -/
lemma reading_covers {lexer : Lexer} {call : Call} (h : (lexer.reading call).failure = none) :
    Reading.Covers lexer.cursor (lexer.reading call) := by
  cases call with
  | next =>
    rw [reading] at h ⊢
    cases front : lexer.cursor.rest with
    | nil =>
      rw [Reading.step_ending lexer.strict front]
      exact Reading.hollow_covers lexer.cursor
    | cons c r =>
      rw [Reading.step_strict_eq_lenient h]
      exact Reading.step_covers front
  | finish =>
    simp only [reading, finish] at h ⊢
    cases failure : (Reading.all lexer.strict lexer.cursor).failure with
    | some u => simp [Reading.andThen, failure] at h
    | none =>
      refine Reading.Covers.andThen ?_ (Reading.ending_covers _) failure
      rw [Reading.all_strict_eq_lenient failure]
      exact Reading.all_covers lexer.cursor

/-- What a lexer has read so far. -/
def history (lexer : Lexer) : Reading :=
  ⟨lexer.tokens, lexer.warnings, none, lexer.cursor⟩

/-- The invariant of a session on a source: what the lexer has read so far accounts for the source from
its front to the place of the lexer. -/
def Tiled (source : Text) (lexer : Lexer) : Prop :=
  Reading.Covers (Cursor.start source) lexer.history

/-- At first nothing has been read. -/
lemma start_tiled (strict : Bool) (source : Text) : Tiled source (start strict source) :=
  Reading.idle_covers (Cursor.start source)

/-- Every call that succeeds keeps the invariant. -/
lemma Tiled.call {source : Text} {lexer next : Lexer} {call : Call} (h : Tiled source lexer)
    (step : lexer.call? call = some next) : Tiled source next := by
  unfold call? at step
  split at step
  case h_1 => cases step
  case h_2 success =>
    cases step
    have longer : (lexer.add (lexer.reading call)).history =
        lexer.history.andThen fun _ => lexer.reading call := by
      simp [history, add, Reading.andThen, success]
    rw [Tiled, longer]
    exact Reading.Covers.andThen h (reading_covers success) rfl

/-- Whatever is called, the tokens so far tile what has been read. -/
theorem Tiled.session {source : Text} {lexer last : Lexer} {calls : List Call}
    (h : Tiled source lexer) (run : lexer.session? calls = some last) : Tiled source last := by
  induction calls generalizing lexer with
  | nil =>
    cases run
    exact h
  | cons call calls ih =>
    rw [session?, List.foldlM_cons] at run
    obtain ⟨next, step, run⟩ := Option.bind_eq_some_iff.1 run
    exact ih (h.call step) run

/-- All positions that a lexer holds: its place, and where its tokens and warnings start and stop. -/
def positions (lexer : Lexer) : List Position :=
  lexer.cursor.position ::
    (lexer.tokens.map Token.span ++ lexer.warnings.map Unclosed.span).flatMap fun span =>
      [span.start, span.stop]

/-- What a lexer's tokens and positions are to the source: the tokens are made from the source up to the
place of the lexer and stand one after the other, each is made from what its offsets say, and line
and column of every position are what the source says. -/
structure Lossless (source : Text) (lexer : Lexer) : Prop where
  raws : lexer.tokens.flatMap Token.raw = source.slice 0 lexer.cursor.position.offset
  tiles : Token.Tiles Position.origin lexer.tokens lexer.cursor.position
  slices : ∀ t ∈ lexer.tokens, t.raw = source.slice t.span.start.offset t.span.stop.offset
  positions : ∀ p ∈ lexer.positions, p.Marks source

/-- Under the invariant every token covers its text in the source. -/
lemma Tiled.covers {source : Text} {lexer : Lexer} {t : Token} (h : Tiled source lexer)
    (member : t ∈ lexer.tokens) : Span.Covers source t.span t.raw := by
  obtain ⟨tiles, whole, -⟩ := h
  obtain ⟨before, after, tokens, span⟩ := tiles.covers member
  refine ⟨before, after ++ lexer.cursor.rest, ?_, span⟩
  calc source
      = lexer.history.tokens.flatMap Token.raw ++ lexer.cursor.rest := whole.symm
    _ = before ++ t.raw ++ (after ++ lexer.cursor.rest) := by rw [tokens, List.append_assoc]

/-- The invariant says what tokens and positions are to the source. -/
lemma Tiled.lossless {source : Text} {lexer : Lexer} (h : Tiled source lexer) :
    Lossless source lexer := by
  have whole : lexer.tokens.flatMap Token.raw ++ lexer.cursor.rest = source := h.whole
  have place : lexer.cursor.position = Position.origin.after (lexer.tokens.flatMap Token.raw) :=
    h.tiles.stop_eq
  refine ⟨?_, h.tiles, fun t member => (h.covers member).slice, fun p member => ?_⟩
  · rw [place, Position.offset_origin_after, ← whole]
    exact (Text.slice_front _ _).symm
  · rw [positions, List.mem_cons, List.mem_flatMap] at member
    obtain rfl | ⟨span, listed, side⟩ := member
    · rw [place, ← whole]
      exact Position.after_marks _ _
    · -- the span of a warning is the span of a token too
      obtain ⟨t, token, rfl⟩ : ∃ t ∈ lexer.tokens, span = t.span := by
        obtain token | warning := List.mem_append.1 listed
        · obtain ⟨t, member, rfl⟩ := List.mem_map.1 token
          exact ⟨t, member, rfl⟩
        · obtain ⟨u, member, rfl⟩ := List.mem_map.1 warning
          exact h.warned u member
      have covers := h.covers token
      simp only [List.mem_cons, List.not_mem_nil, or_false] at side
      obtain rfl | rfl := side
      · exact covers.start_marks
      · exact covers.stop_marks

end Lexer

/-- The tokens of a source stand one after the other from its front to the place where reading ended. -/
lemma tokenize_tiles (source : Text) :
    Token.Tiles Position.origin (tokenize false source).tokens
      (tokenize false source).cursor.position := by
  have success : ((Lexer.start false source).reading .finish).failure = none := tokenize_lenient source
  exact (Lexer.reading_covers success).tiles

/-- Every token of a source covers its text there. -/
lemma tokenize_covers (source : Text) {t : Token} (member : t ∈ (tokenize false source).tokens) :
    Span.Covers source t.span t.raw := by
  have success : ((Lexer.start false source).reading .finish).failure = none := tokenize_lenient source
  obtain ⟨tiles, whole, -⟩ := Lexer.reading_covers success
  obtain ⟨before, after, tokens, span⟩ := tiles.covers member
  refine ⟨before, after ++ (tokenize false source).cursor.rest, ?_, span⟩
  calc source
      = (tokenize false source).tokens.flatMap Token.raw ++ (tokenize false source).cursor.rest :=
        whole.symm
    _ = before ++ t.raw ++ (after ++ (tokenize false source).cursor.rest) := by
        rw [← List.append_assoc (before ++ t.raw), ← tokens]
        rfl

/-- After every session in which reading did not fail, the tokens are made from the source up to the
place of the lexer, without loss and with exact positions; in particular the tokens of a whole source
make it up. -/
theorem session_lossless (source : Text) :
    (∀ strict calls lexer, (Lexer.start strict source).session? calls = some lexer →
      lexer.Lossless source) ∧
    (tokenize false source).tokens.flatMap Token.raw = source := by
  constructor
  · intro strict calls lexer run
    exact ((Lexer.start_tiled strict source).session run).lossless
  · obtain ⟨success, ending, -⟩ := Reading.all_lenient (Cursor.start source)
    have whole := (Reading.all_covers (Cursor.start source)).whole
    rw [ending, List.append_nil] at whole
    simp only [tokenize, Lexer.finish, Lexer.start, Reading.andThen, success]
    rw [List.flatMap_append, whole]
    simp [Token.ending, Cursor.start]

/-- A session over several lines with single pieces, a whole rest, a step at the end and a second end. The step
makes a token of nothing, which stands between the two end tokens. -/
theorem session_lossless_over_lines :
    ∃ lexer, (Lexer.start true "- [x] a\n`b\nc`\n> d".toList).session?
        [.next, .next, .finish, .next, .finish] = some lexer ∧
      lexer.tokens.map (fun t => (t.kind, t.raw, t.span.start)) =
        [(.marker .bullet, "- ".toList, ⟨1, 1, 0⟩), (.todoItem, "[x] a\n".toList, ⟨1, 3, 2⟩),
          (.styled .code, "`b\nc`".toList, ⟨2, 1, 8⟩), (.lineBreak, ['\n'], ⟨3, 3, 13⟩),
          (.styled .quote, "> d".toList, ⟨4, 1, 14⟩), (.ending, [], ⟨4, 4, 17⟩),
          (.styled .bold, [], ⟨4, 4, 17⟩), (.ending, [], ⟨4, 4, 17⟩)] ∧
      lexer.Lossless "- [x] a\n`b\nc`\n> d".toList :=
  ⟨_, rfl, by decide +kernel, (session_lossless _).1 true [.next, .next, .finish, .next, .finish] _ rfl⟩

end Marktex
