import Mathlib.Tactic.Lemma
import Marktex.Proofs.Source.Places
import Marktex.Proofs.Text.Parts
import Marktex.Proofs.Token.Progress

/-!
# What lexemes say

What holds of every lexeme that a piece of a source can have holds of every token of a stream
(`tokenize_lexemes`). One such thing is shown here: a lexeme makes up nothing, since all characters of
its texts stand in the source text it was made from, line feeds apart (`Piece.read_quotes`). What holds of a
lexeme in its place, between the texts before and after it, holds of the token in the same place
(`tokenize_inPlace`).
-/

namespace Marktex

/-- The texts that a value holds. -/
def Value.texts : Value → List Text
  | .text s => [s]
  | .payload (.header _ s) => [s]
  | .payload (.link s url) => [s, url]
  | .payload (.image alt source) => [alt, source]
  | .payload (.codeBlock language code) => [language, code]
  | .payload (.todo s _) => [s]
  | .stray _ => []

/-- A lexeme makes up nothing: the texts that it holds are made of characters of its source text, and of
line feeds that join them. -/
def Lexeme.Quotes (l : Lexeme) : Prop :=
  ∀ s ∈ l.value.texts, ∀ c ∈ s, c ∈ l.raw ∨ c = '\n'

namespace Piece

/-- A text taken from the source text of a lexeme makes up nothing. -/
lemma quotes_text {kind : Kind} {s raw : Text} (h : ∀ c ∈ s, c ∈ raw ∨ c = '\n') :
    Lexeme.Quotes ⟨kind, .text s, raw⟩ := by
  simpa [Lexeme.Quotes, Value.texts] using h

/-- Text between delimiters is quoted from the source. -/
lemma enclosed_quotes (style : Style) (construct : Construct) (delimiter s : Text) :
    ∀ l ∈ (enclosed style construct delimiter s).lexemes, l.Quotes := by
  intro l member
  obtain rfl := List.mem_singleton.1 member
  apply quotes_text
  intro c inside
  exact .inl (List.mem_append_right _ (Segment.mem_raw_of_mem_text inside))

/-- The language and the code of a code block are quoted from the source. -/
lemma codeBlock_quotes (s : Text) : ∀ l ∈ (codeBlock s).lexemes, l.Quotes := by
  intro l member
  obtain rfl := List.mem_singleton.1 member
  simp only [Lexeme.Quotes, Value.texts, List.forall_mem_cons, List.not_mem_nil, List.mem_append]
  refine ⟨fun c inside => ?_, fun c inside => ?_, by simp⟩
  · have language := Segment.mem_raw_of_mem_text (Text.mem_of_trim inside)
    exact .inl (.inl (.inl (.inr language)))
  · have code := Segment.mem_raw_of_mem_text (Text.mem_of_withoutLast (Text.mem_of_withoutLast inside))
    exact .inl (.inl (.inr code))

/-- Math is quoted from the source. -/
lemma math_quotes (r : Text) : ∀ l ∈ (math r).lexemes, l.Quotes := by
  unfold math
  split
  case h_1 =>
    intro l member
    obtain rfl := List.mem_singleton.1 member
    apply quotes_text
    intro c inside
    have text := Segment.mem_raw_of_mem_text (Text.mem_of_trim inside)
    exact .inl (List.mem_append_left _ (List.mem_append_right _ text))
  case h_2 => exact enclosed_quotes _ _ _ _

/-- The label and the target of a link or an image are quoted from the source. -/
lemma targeted_quotes (kind : Kind) {construct : Construct} {payload : Text → Text → Payload}
    {lead : Text} (s : Text) (two : ∀ label target,
      Value.texts (.payload (payload label target)) = [label, target]) :
    ∀ l ∈ (targeted kind construct payload lead s).lexemes, l.Quotes := by
  intro l member
  obtain rfl := List.mem_singleton.1 member
  simp only [Lexeme.Quotes, two, List.forall_mem_cons, List.not_mem_nil, List.mem_append]
  refine ⟨fun c inside => ?_, fun c inside => ?_, by simp⟩
  · exact .inl (.inl (.inl (.inr (Segment.mem_raw_of_mem_text inside))))
  · exact .inl (.inr (Segment.mem_raw_of_mem_text (Text.mem_of_trim inside)))

/-- The text of a header is quoted from the source. -/
lemma header_quotes (s : Text) : ∀ l ∈ (header s).lexemes, l.Quotes := by
  intro l member
  obtain rfl := List.mem_singleton.1 member
  simp only [Lexeme.Quotes, Value.texts, List.forall_mem_cons, List.not_mem_nil, List.mem_append]
  refine ⟨fun c inside => ?_, by simp⟩
  exact .inl (.inr (Segment.mem_raw_of_mem_text (Text.mem_of_trim inside)))

/-- The text of an item is quoted from the source. -/
lemma item_quotes (s : Text) : (item s).1.Quotes := by
  unfold item
  split
  case h_1 =>
    simp only [Lexeme.Quotes, Value.texts, List.forall_mem_cons, List.not_mem_nil, List.mem_append]
    refine ⟨fun c inside => ?_, by simp⟩
    exact .inl (.inr (Segment.mem_raw_of_mem_text (Text.mem_of_trim inside)))
  case h_2 =>
    apply quotes_text
    intro c inside
    exact .inl (Segment.mem_raw_of_mem_text (Text.mem_of_trim inside))

/-- Marked lines are joined by line feeds of their own. -/
lemma lines_quotes {raw : Text} {f : Text → Text} (part : ∀ line, ∀ c ∈ f line, c ∈ line) :
    ∀ c ∈ Text.join ['\n'] ((Text.lines raw).map f), c ∈ raw ∨ c = '\n' := by
  intro c inside
  obtain between | ⟨line, member, inside⟩ := Text.mem_of_join inside
  · exact .inr (List.mem_singleton.1 between)
  · obtain ⟨source, found, rfl⟩ := List.mem_map.1 member
    exact .inl (Text.mem_of_lines found (part source c inside))

/-- The characters of a quotation are those of its lines in the source. -/
lemma quote_quotes (s : Text) : ∀ l ∈ (quote s).lexemes, l.Quotes := by
  intro l member
  obtain rfl := List.mem_singleton.1 member
  apply quotes_text
  intro c inside
  refine lines_quotes (fun line c inside => ?_) c (Text.mem_of_trim inside)
  exact List.mem_of_mem_drop (Text.mem_of_trim inside)

/-- The characters of a table are those of its lines in the source. -/
lemma table_quotes (s : Text) : ∀ l ∈ (table s).lexemes, l.Quotes := by
  intro l member
  obtain rfl := List.mem_singleton.1 member
  apply quotes_text
  exact lines_quotes fun line c inside => Text.mem_of_trim inside

/-- Running text is quoted from the source. -/
lemma text_quotes (c : Char) (r : Text) : ∀ l ∈ (text c r).lexemes, l.Quotes := by
  unfold text
  dsimp only
  split <;> intro l member <;> obtain rfl := List.mem_singleton.1 member <;> apply quotes_text <;>
    intro d inside
  · exact .inl (Text.mem_of_withoutLast inside)
  · exact .inl (List.mem_append_left _ (Text.mem_of_withoutLast inside))
  · exact .inl inside

/-- No lexeme of a piece makes up anything. -/
theorem read_quotes (lineStart : Bool) (c : Char) (r : Text) :
    ∀ l ∈ (read lineStart c r).lexemes, l.Quotes := by
  unfold read
  split
  case h_1 => exact header_quotes _
  case h_2 m _ =>
    intro l member
    simp only [list, List.mem_cons, List.not_mem_nil, or_false] at member
    obtain rfl | rfl := member
    · exact quotes_text (by simp)
    · exact item_quotes m.rest
  case h_3 =>
    unfold emphasis
    split <;> exact enclosed_quotes _ _ _ _
  case h_4 =>
    unfold code
    split
    · exact codeBlock_quotes _
    · exact enclosed_quotes _ _ _ _
  case h_5 => exact targeted_quotes _ _ fun _ _ => rfl
  case h_6 => exact targeted_quotes _ _ fun _ _ => rfl
  case h_7 => exact quote_quotes _
  case h_8 => exact table_quotes _
  case h_9 => exact math_quotes r
  case h_10 =>
    intro l member
    obtain rfl := List.mem_singleton.1 member
    exact quotes_text (by simp)
  case h_11 => exact text_quotes c r

end Piece

/-- The lexeme that a token was made from. -/
def Token.lexeme (t : Token) : Lexeme :=
  ⟨t.kind, t.value, t.raw⟩

/-- Lexemes stay what they are when they get their places. -/
lemma Lexeme.lexeme_place (p : Position) (ls : List Lexeme) :
    (place p ls).map Token.lexeme = ls := by
  induction ls generalizing p with
  | nil => rfl
  | cons l ls ih =>
    rw [place, List.map_cons, ih]
    rfl

/-- Lenient reading of a source is reading of all pieces and of the end of the input. -/
lemma tokenize_eq (source : Text) :
    (tokenize false source).tokens = (Reading.all false (Cursor.start source)).tokens ++
        [Token.ending (Position.origin.after source)] ∧
      (tokenize false source).warnings = (Reading.all false (Cursor.start source)).warnings := by
  obtain ⟨success, -, position⟩ := Reading.all_lenient (Cursor.start source)
  simp only [tokenize, Lexer.finish, Lexer.start, Reading.andThen, success, position,
    List.append_nil]
  exact ⟨rfl, trivial⟩

section Streams

variable {P : Lexeme → Prop}

/-- What holds of the lexemes of all pieces holds of the tokens of all that is left. -/
lemma Reading.all_lexemes (h : ∀ lineStart c r, ∀ l ∈ (Piece.read lineStart c r).lexemes, P l)
    (cursor : Cursor) : ∀ t ∈ (all false cursor).tokens, P t.lexeme := by
  induction cursor using Cursor.pieces_rec with
  | ending cursor none => simp [all_ending false none, idle]
  | piece cursor c r front ih =>
    have left : cursor.rest ≠ [] := by simp [front]
    rw [all_piece false left, step_lenient front]
    intro t member
    obtain here | later := List.mem_append.1 member
    · apply h cursor.lineStart c r
      rw [← Lexeme.lexeme_place cursor.position (Piece.read cursor.lineStart c r).lexemes]
      exact List.mem_map_of_mem here
    · exact ih t later

/-- What holds of the lexemes of all pieces and of the end of the input holds of the tokens of a
source. -/
lemma tokenize_lexemes (h : ∀ lineStart c r, ∀ l ∈ (Piece.read lineStart c r).lexemes, P l)
    (ending : P ⟨.ending, .text [], []⟩) (source : Text) :
    ∀ t ∈ (tokenize false source).tokens, P t.lexeme := by
  rw [(tokenize_eq source).1]
  intro t member
  obtain here | last := List.mem_append.1 member
  · exact Reading.all_lexemes h _ t here
  · obtain rfl := List.mem_singleton.1 last
    exact ending

end Streams

section Places

variable (P : Text → Lexeme → Text → Prop)

/-- Lexemes one after the other, between two texts. For each of them `P` holds, with all that stands before it
and after it. -/
inductive Lexeme.InPlace : Text → List Lexeme → Text → Prop where
  | nil {before after} :
    InPlace before [] after
  | cons {before l ls after} :
    P before l (ls.flatMap Lexeme.raw ++ after) →
    InPlace (before ++ l.raw) ls after →
    InPlace before (l :: ls) after

/-- A token covers its text in a source, and `P` holds of what it was made from, with all that stands before
it and after it. -/
def Token.InPlace (source : Text) (t : Token) : Prop :=
  ∃ before after, source = before ++ t.raw ++ after ∧
    t.span = Span.along (Position.origin.after before) t.raw ∧ P before t.lexeme after

variable {P}

/-- Lexemes in place become tokens in place. -/
lemma Lexeme.InPlace.place {before after : Text} {ls : List Lexeme} (h : InPlace P before ls after) :
    ∀ t ∈ Lexeme.place (Position.origin.after before) ls,
      t.InPlace P (before ++ (ls.flatMap Lexeme.raw ++ after)) := by
  induction h with
  | nil => simp [Lexeme.place]
  | @cons before l ls after here _ ih =>
    intro t member
    rcases List.mem_cons.1 member with rfl | later
    · exact ⟨before, ls.flatMap Lexeme.raw ++ after, by simp, rfl, here⟩
    · rw [Position.after_append] at ih
      simpa using ih t later

/-- What holds of the lexemes of all pieces in their places holds of the tokens of all that is left. -/
lemma Reading.all_inPlace
    (h : ∀ before lineStart c r, (lineStart = true ↔ before.EndsLine) →
      Lexeme.InPlace P before (Piece.read lineStart c r).lexemes (Piece.read lineStart c r).rest)
    {source : Text} {cursor : Cursor} (before : Text) (whole : source = before ++ cursor.rest)
    (place : cursor.position = Position.origin.after before)
    (atStart : cursor.lineStart = true ↔ before.EndsLine) :
    ∀ t ∈ (all false cursor).tokens, t.InPlace P source := by
  induction cursor using Cursor.pieces_rec generalizing before with
  | ending cursor none => simp [all_ending false none, idle]
  | piece cursor c r start ih =>
    have left : cursor.rest ≠ [] := by simp [start]
    have covers : (Piece.read cursor.lineStart c r).Covers (c :: r) := Piece.read_covers _ c r
    have taken := Piece.read_raw_ne_nil cursor.lineStart c r
    have lexemes := h before cursor.lineStart c r atStart
    rw [all_piece false left, step_lenient start]
    intro t member
    rcases List.mem_append.1 member with here | later
    · rw [place] at here
      rw [whole, start, ← covers]
      exact lexemes.place t here
    · refine ih (before ++ (Piece.read cursor.lineStart c r).raw) ?_ ?_ ?_ t later
      · rw [whole, start, ← covers, List.append_assoc]
        rfl
      · rw [Position.after_append, ← place]
        rfl
      · rw [Text.endsLine_append before taken]
        simp [Cursor.past]

/-- What holds of the lexemes of all pieces in their places, and of the end of the input, holds of the tokens
of a source. -/
lemma tokenize_inPlace
    (h : ∀ before lineStart c r, (lineStart = true ↔ before.EndsLine) →
      Lexeme.InPlace P before (Piece.read lineStart c r).lexemes (Piece.read lineStart c r).rest)
    (ending : ∀ source, P source ⟨.ending, .text [], []⟩ []) (source : Text) :
    ∀ t ∈ (tokenize false source).tokens, t.InPlace P source := by
  rw [(tokenize_eq source).1]
  intro t member
  rcases List.mem_append.1 member with here | last
  · exact Reading.all_inPlace h [] rfl rfl (by simp [Cursor.start, Text.EndsLine]) t here
  · obtain rfl := List.mem_singleton.1 last
    exact ⟨source, [], by simp [Token.ending], rfl, ending source⟩

/-- Where one token begins at the place where another one stops, it stands right behind it. -/
lemma Token.InPlace.next {source : Text} {t u : Token} (h : t.InPlace P source) (h' : u.InPlace P source)
    (place : u.span.start = t.span.stop) :
    ∃ before after, P before t.lexeme (u.raw ++ after) ∧ P (before ++ t.raw) u.lexeme after := by
  obtain ⟨before, after, whole, span, here⟩ := h
  obtain ⟨before', after', whole', span', there⟩ := h'
  have length : (before ++ t.raw).length = before'.length := by
    rw [span, span'] at place
    have same : Position.origin.after before' = (Position.origin.after before).after t.raw := place
    have offset := congrArg Position.offset same
    rw [← Position.after_append, Position.offset_origin_after, Position.offset_origin_after] at offset
    exact Int.ofNat_inj.1 offset.symm
  rw [whole, List.append_assoc before'] at whole'
  obtain ⟨rfl, rfl⟩ := List.append_inj whole' length
  exact ⟨before, after', here, there⟩

end Places

end Marktex
