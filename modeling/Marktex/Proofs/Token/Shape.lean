import Marktex.Proofs.Token.Kinds
import Marktex.Proofs.Token.Progress

/-!
# The shape of a stream

Lenient reading yields tokens in a certain order: a marker always comes with an item right after it,
and an item comes nowhere else (`Token.Orderly`). Each token carries what its kind asks for. Both are
shown of the lexemes of every piece (`Piece.read_shape`) and then of all that is read, piece by piece
(`Reading.all_orderly`). What kinds of lexemes an opening leads to is said by `Opening.Yields`.
-/

namespace Marktex

namespace Token

/-- Tokens in order: each is no part of a list, or it is a marker with an item right after it. None
of them ends the stream, and all of them carry what they should. -/
inductive Orderly : List Token → Prop where
  | nil :
    Orderly []
  | alone {t ts} :
    t.kind.isListPart = false →
    t.kind.isKnown = true →
    t.kind.Carries t.value →
    Orderly ts →
    Orderly (t :: ts)
  | item {t u m ts} :
    t.kind = .marker m →
    t.kind.Carries t.value →
    u.kind.isItem = true →
    u.kind.Carries u.value →
    Orderly ts →
    Orderly (t :: u :: ts)

/-- The markers and the items of a stream are pairs: right after a marker comes an item, but not a
second one, and right before an item comes a marker. -/
structure Paired (ts : List Token) : Prop where
  item_after : ∀ i t m, ts[i]? = some t → t.kind = .marker m →
    ∃ u, ts[i + 1]? = some u ∧ u.kind.isItem = true ∧
      ∀ v, ts[i + 2]? = some v → v.kind.isItem = false
  marker_before : ∀ i u, ts[i]? = some u → u.kind.isItem = true →
    ∃ j t m, i = j + 1 ∧ ts[j]? = some t ∧ t.kind = .marker m

namespace Orderly

/-- Tokens in order stand for something. -/
lemma wellMade {ts : List Token} (h : Orderly ts) : ∀ t ∈ ts, t.WellMade := by
  induction h with
  | nil => simp
  | alone _ known carries _ ih =>
    rw [List.forall_mem_cons]
    exact ⟨⟨known, carries⟩, ih⟩
  | item marker carries item carries' _ ih =>
    rw [List.forall_mem_cons, List.forall_mem_cons]
    have known := Kind.isKnown_of_isListPart (Kind.isListPart_of_isItem item)
    exact ⟨⟨by rw [marker]; rfl, carries⟩, ⟨known, carries'⟩, ih⟩

/-- Orderly tokens do not begin with an item. -/
lemma head_not_isItem {ts : List Token} (h : Orderly ts) :
    ∀ t ∈ ts.head?, t.kind.isItem = false := by
  rintro t front
  cases h with
  | nil => cases front
  | alone single =>
    cases front
    exact Kind.not_isItem_of_not_isListPart single
  | item marker =>
    cases front
    rw [marker]
    rfl

/-- What follows tokens in order is in order, if it does not start with an item. -/
lemma of_append {b ts : List Token} (h : Orderly (b ++ ts))
    (front : ∀ t ∈ ts.head?, t.kind.isItem = false) : Orderly ts := by
  generalize whole : b ++ ts = us at h
  induction h generalizing b with
  | nil =>
    rw [(List.append_eq_nil_iff.1 whole).2]
    exact .nil
  | alone single known carries rest ih =>
    cases b with
    | nil =>
      rw [List.nil_append] at whole
      rw [whole]
      exact .alone single known carries rest
    | cons t b =>
      cases whole
      exact ih rfl
  | @item t u m us marker carries isItem carries' rest ih =>
    obtain _ | ⟨t, _ | ⟨u, b⟩⟩ := b
    · rw [List.nil_append] at whole
      rw [whole]
      exact .item marker carries isItem carries' rest
    · cases whole
      rw [front u rfl] at isItem
      cases isItem
    · cases whole
      exact ih rfl

/-- Tokens in order, and then one that is no part of a list, do not start with an item. -/
lemma concat_head_not_isItem {ts : List Token} {e : Token} (h : Orderly ts)
    (last : e.kind.isListPart = false) : ∀ t, (ts ++ [e])[0]? = some t → t.kind.isItem = false := by
  intro t front
  cases ts with
  | nil =>
    cases front
    exact Kind.not_isItem_of_not_isListPart last
  | cons u ts => exact h.head_not_isItem t front

/-- In a stream whose tokens are in order up to the last one, a marker comes with one item. -/
lemma item_after {ts : List Token} {e : Token} (h : Orderly ts) (last : e.kind.isListPart = false) :
    ∀ i t m, (ts ++ [e])[i]? = some t → t.kind = .marker m →
      ∃ u, (ts ++ [e])[i + 1]? = some u ∧ u.kind.isItem = true ∧
        ∀ v, (ts ++ [e])[i + 2]? = some v → v.kind.isItem = false := by
  induction h with
  | nil =>
    rintro (_ | i) t m found kind
    · cases found
      rw [kind] at last
      cases last
    · cases found
  | alone single _ _ _ ih =>
    rintro (_ | i) t m found kind
    · cases found
      rw [kind] at single
      cases single
    · exact ih i t m found kind
  | @item _ u _ _ _ _ item _ order ih =>
    -- the marker stands at 0 and its item at 1, so that the stream goes on from 2
    rintro (_ | _ | i) t m found kind
    · exact ⟨u, rfl, item, order.concat_head_not_isItem last⟩
    · cases found
      rw [kind] at item
      cases item
    · exact ih i t m found kind

/-- In a stream whose tokens are in order up to the last one, an item comes after a marker. -/
lemma marker_before {ts : List Token} {e : Token} (h : Orderly ts)
    (last : e.kind.isListPart = false) :
    ∀ i u, (ts ++ [e])[i]? = some u → u.kind.isItem = true →
      ∃ j t m, i = j + 1 ∧ (ts ++ [e])[j]? = some t ∧ t.kind = .marker m := by
  induction h with
  | nil =>
    rintro (_ | i) u found isItem
    · cases found
      rw [Kind.isListPart_of_isItem isItem] at last
      cases last
    · cases found
  | alone single _ _ _ ih =>
    rintro (_ | i) u found isItem
    · cases found
      rw [Kind.isListPart_of_isItem isItem] at single
      cases single
    · obtain ⟨j, t, m, rfl, before, kind⟩ := ih i u found isItem
      exact ⟨j + 1, t, m, rfl, before, kind⟩
  | @item t _ m _ marker _ _ _ _ ih =>
    rintro (_ | _ | i) u found isItem
    · cases found
      rw [marker] at isItem
      cases isItem
    · exact ⟨0, t, m, rfl, rfl, marker⟩
    · obtain ⟨j, t', n, rfl, before, kind⟩ := ih i u found isItem
      exact ⟨j + 2, t', n, rfl, before, kind⟩

end Orderly

/-- A stream whose tokens are in order up to the last one, which is no part of a list, has its markers
and items in pairs. -/
theorem Orderly.paired {ts : List Token} {e : Token} (h : Orderly ts)
    (last : e.kind.isListPart = false) : Paired (ts ++ [e]) :=
  ⟨h.item_after last, h.marker_before last⟩

end Token

namespace Piece

/-- What a piece consists of: one lexeme that is no part of a list, or a marker and its item. -/
inductive Shape : List Lexeme → Prop where
  | alone {l} :
    l.kind.isListPart = false →
    l.kind.isKnown = true →
    l.kind.Carries l.value →
    Shape [l]
  | item {l l' m} :
    l.kind = .marker m →
    l.kind.Carries l.value →
    l'.kind.isItem = true →
    l'.kind.Carries l'.value →
    Shape [l, l']

/-- A styled text is a piece. -/
lemma Shape.styled {style : Style} {s raw : Text} : Shape [⟨.styled style, .text s, raw⟩] :=
  .alone rfl rfl (.text rfl)

/-- What is read after a list marker is an item, whether there is a box or not. -/
lemma item_isItem (s : Text) :
    (item s).1.kind.isItem = true ∧ (item s).1.kind.Carries (item s).1.value := by
  unfold item
  split
  · exact ⟨rfl, .todo⟩
  · exact ⟨rfl, .text rfl⟩

/-- Every piece consists of the right lexemes. -/
theorem read_shape (lineStart : Bool) (c : Char) (r : Text) :
    Shape (read lineStart c r).lexemes := by
  unfold read
  split
  case h_1 => exact .alone rfl rfl .header
  case h_2 m _ =>
    obtain ⟨isItem, carries⟩ := item_isItem m.rest
    exact .item rfl (.text rfl) isItem carries
  case h_3 =>
    unfold emphasis
    split <;> exact .styled
  case h_4 =>
    unfold code
    split
    · exact .alone rfl rfl .codeBlock
    · exact .styled
  case h_5 => exact .alone rfl rfl .link
  case h_6 => exact .alone rfl rfl .image
  case h_7 => exact .styled
  case h_8 => exact .styled
  case h_9 =>
    unfold math
    split <;> exact .styled
  case h_10 => exact .alone rfl rfl (.text rfl)
  case h_11 =>
    unfold text
    dsimp only
    split <;> exact .styled

end Piece

/-- What kinds of lexemes an opening can lead to. -/
inductive Opening.Yields : Opening → Kind → Prop where
  | header : Yields .header .header
  | marker {m} : Yields (.list m) (.marker m.marker)
  | item {m kind} : kind.isItem = true → Yields (.list m) kind
  | bold {mark} : Yields (.emphasis mark) (.styled .bold)
  | italic {mark} : Yields (.emphasis mark) (.styled .italic)
  | codeBlock : Yields .code .codeBlock
  | code : Yields .code (.styled .code)
  | link : Yields .link .link
  | image : Yields .image .image
  | quote : Yields .quote (.styled .quote)
  | table : Yields .table (.styled .table)
  | displayMath : Yields .math (.styled .displayMath)
  | inlineMath : Yields .math (.styled .inlineMath)
  | lineBreak : Yields .lineBreak .lineBreak
  | paragraph : Yields .text (.styled .paragraph)
  | plain : Yields .text (.styled .plain)

/-- The openings of what stands between two delimiters. -/
def Opening.isDelimited : Opening → Bool
  | .emphasis _ => true
  | .code => true
  | .link => true
  | .image => true
  | .math => true
  | _ => false

/-- The opening tells whether a lexeme stands between two delimiters. -/
lemma Opening.Yields.isDelimited {opening : Opening} {kind : Kind} (h : opening.Yields kind) :
    kind.isDelimited = opening.isDelimited := by
  cases h with
  | item isItem =>
    cases kind with
    | listItem | todoItem => rfl
    | _ => cases isItem
  | _ => rfl

/-- The lexemes of a piece are of the kinds that its opening leads to. -/
theorem Piece.read_yields (lineStart : Bool) (c : Char) (r : Text) :
    ∀ l ∈ (read lineStart c r).lexemes, (Opening.of lineStart c r).Yields l.kind := by
  unfold read
  cases opening : Opening.of lineStart c r
  case list m =>
    simp only [list, List.forall_mem_cons, List.not_mem_nil, false_implies, implies_true, and_true]
    exact ⟨.marker, .item (item_isItem m.rest).1⟩
  case emphasis =>
    dsimp only
    unfold emphasis
    split <;> exact List.forall_mem_singleton.2 (by constructor)
  case code =>
    dsimp only
    unfold code
    split <;> exact List.forall_mem_singleton.2 (by constructor)
  case math =>
    dsimp only
    unfold math
    split <;> exact List.forall_mem_singleton.2 (by constructor)
  case text =>
    dsimp only
    unfold text
    dsimp only
    split <;> exact List.forall_mem_singleton.2 (by constructor)
  all_goals exact List.forall_mem_singleton.2 (by constructor)

/-- The tokens of a piece come before tokens in order. -/
lemma Token.Orderly.place {p : Position} {ls : List Lexeme} {ts : List Token}
    (shape : Piece.Shape ls) (h : Orderly ts) : Orderly (Lexeme.place p ls ++ ts) := by
  cases shape with
  | alone single known carries => exact .alone single known carries h
  | item marker carries item carries' => exact .item marker carries item carries' h

/-- The tokens that are read to the end of a source are orderly. -/
theorem Reading.all_orderly (cursor : Cursor) : Token.Orderly (all false cursor).tokens := by
  induction cursor using Cursor.pieces_rec with
  | ending cursor h =>
    rw [all_ending false h]
    exact .nil
  | piece cursor c r h ih =>
    have front : cursor.rest ≠ [] := by simp [h]
    rw [all_piece false front, step_lenient h]
    exact ih.place (Piece.read_shape cursor.lineStart c r)

/-- Lenient reading of a source yields tokens in order, and the token that ends them. -/
lemma tokenize_orderly (source : Text) :
    ∃ ts p, (tokenize false source).tokens = ts ++ [Token.ending p] ∧ Token.Orderly ts := by
  obtain ⟨failure, -, -⟩ := Reading.all_lenient (Cursor.start source)
  have order := Reading.all_orderly (Cursor.start source)
  refine ⟨_, (Reading.all false (Cursor.start source)).cursor.position, ?_, order⟩
  simp only [tokenize, Lexer.finish, Lexer.start, Reading.andThen, failure]

end Marktex
