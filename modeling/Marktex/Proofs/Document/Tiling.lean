import Marktex.Proofs.Document.Acceptance
import Marktex.Proofs.Token.LineStarts
import Marktex.Proofs.Token.Tiling

/-!
# Documents tile the source

The nodes of a document stand one right after the other from the front of the source to its end, as the
tokens do that they are made of: a node reaches from where its block of tokens starts to where the block
stops (`Node.Of.span_eq`), and blocks are cut from tokens that tile the source. Inside of a list the items
stand one behind the other, and apart from each other, since a marker comes before each of them and takes
a character at least (`Token.Orderly.items_apart`).
-/

namespace Marktex

namespace Span

/-- Stretches that follow one another: the first starts at `p`, every later one where the stretch before
it stops, and the last one stops at `q`. -/
inductive Chain : Position → List Span → Position → Prop where
  | nil {p} :
    Chain p [] p
  | cons {p s ss q} :
    s.start = p →
    Chain s.stop ss q →
    Chain p (s :: ss) q

/-- Stretches in a stretch: they are in order, no two of them meet, and none reaches out. -/
structure Holds (outer : Span) (spans : List Span) : Prop where
  ordered : spans.Pairwise fun a b => a.stop.offset < b.start.offset
  within : ∀ s ∈ spans, outer.start.offset ≤ s.start.offset ∧ s.start.offset ≤ s.stop.offset ∧
    s.stop.offset ≤ outer.stop.offset

end Span

namespace Token.Tiles

variable {p q : Position} {ts us : List Token}

/-- Tokens one after the other can be parted. -/
lemma split (h : Tiles p (ts ++ us) q) : ∃ m, Tiles p ts m ∧ Tiles m us q := by
  induction ts generalizing p with
  | nil => exact ⟨p, .nil, h⟩
  | cons t ts ih =>
    cases h with
    | cons span rest =>
      obtain ⟨m, first, second⟩ := ih rest
      exact ⟨m, .cons span first, second⟩

/-- The first of some tokens that tile a stretch starts where the stretch does. -/
lemma start_head {t : Token} (h : Tiles p ts q) (first : ts.head? = some t) : t.span.start = p := by
  cases h with
  | nil => cases first
  | cons span =>
    cases first
    rw [span]
    rfl

/-- The last of some tokens that tile a stretch stops where the stretch does. -/
lemma stop_getLast {t : Token} (h : Tiles p ts q) (last : ts.getLast? = some t) : t.span.stop = q := by
  induction h with
  | nil => cases last
  | @cons p u ts q _ rest ih =>
    cases ts with
    | nil =>
      cases last
      cases rest
      rfl
    | cons => exact ih (by rwa [List.getLast?_cons_cons] at last)

/-- No token reaches out of the stretch of all tokens. -/
lemma within {t : Token} (h : Tiles p ts q) (member : t ∈ ts) :
    p.offset ≤ t.span.start.offset ∧ t.span.start.offset ≤ t.span.stop.offset ∧
      t.span.stop.offset ≤ q.offset := by
  obtain ⟨before, after, whole, span⟩ := h.covers member
  rw [h.stop_eq, whole, span]
  simp only [Span.along, Position.offset_after, List.length_append]
  omega

end Token.Tiles

namespace Piece

/-- Only items can be empty. -/
lemma read_solid (lineStart : Bool) (c : Char) (r : Text) :
    ∀ l ∈ (read lineStart c r).lexemes, l.kind.isItem = false → l.raw ≠ [] := by
  intro l member other
  have taken := read_raw_ne_nil lineStart c r
  have fronted := read_fronted lineStart c r
  rw [raw] at taken
  generalize (read lineStart c r).lexemes = ls at *
  cases fronted with
  | alone =>
    obtain rfl := List.mem_singleton.1 member
    simpa using taken
  | item _ nonempty _ isItem =>
    simp only [List.mem_cons, List.not_mem_nil, or_false] at member
    obtain rfl | rfl := member
    · exact nonempty
    · rw [isItem] at other
      cases other

end Piece

namespace Token

/-- In tokens in order that stand one after the other, every item stands behind the front and behind the
item before it, if markers are not empty. -/
lemma Orderly.items_apart {p q : Position} {ts : List Token} (order : Orderly ts) (tiles : Tiles p ts q)
    (solid : ∀ t ∈ ts, t.kind.isItem = false → t.raw ≠ []) :
    (∀ u ∈ itemsOf ts, p.offset < u.span.start.offset) ∧
      (itemsOf ts).Pairwise fun u v => u.span.stop.offset < v.span.start.offset := by
  induction order generalizing p with
  | nil => exact ⟨by simp [itemsOf], .nil⟩
  | alone single _ _ _ ih =>
    rw [itemsOf_cons_of_not (Kind.not_isItem_of_not_isListPart single)]
    cases tiles with
    | cons span rest =>
      obtain ⟨_, later⟩ := List.forall_mem_cons.1 solid
      obtain ⟨behind, apart⟩ := ih rest later
      refine ⟨fun u member => ?_, apart⟩
      have after := behind u member
      rw [span, Span.along, Position.offset_after] at after
      omega
  | @item t u m ts marker _ isItem _ _ ih =>
    have other : t.kind.isItem = false := by rw [marker]; rfl
    rw [itemsOf_cons_of_not other, itemsOf_cons isItem]
    cases tiles with
    | cons span rest =>
      cases rest with
      | cons span' rest =>
        obtain ⟨nonempty, later⟩ := List.forall_mem_cons.1 solid
        obtain ⟨behind, apart⟩ := ih rest (List.forall_mem_cons.1 later).2
        have length := List.length_pos_iff.2 (nonempty other)
        have start : u.span.start = t.span.stop := by rw [span']; rfl
        have stop : t.span.stop.offset = p.offset + t.raw.length := by
          rw [span, Span.along, Position.offset_after]
        have next : u.span.stop.offset = t.span.stop.offset + u.raw.length := by
          rw [span', Span.along, Position.offset_after]
        refine ⟨List.forall_mem_cons.2 ⟨?_, fun v member => ?_⟩, .cons behind apart⟩
        · rw [start]
          omega
        · have after := behind v member
          omega

/-- The tokens of a source without the one that ends it are those that all pieces have. -/
lemma body_of_source (source : Text) :
    body (tokenize false source).tokens = (Reading.all false (Cursor.start source)).tokens := by
  simp [(tokenize_eq source).1, body, ending]

/-- The tokens of a source tile it also without the one that ends it. -/
lemma body_tiles (source : Text) :
    Tiles Position.origin (body (tokenize false source).tokens) (Position.origin.after source) := by
  have tiles := (Reading.all_covers (Cursor.start source)).tiles
  rwa [(Reading.all_lenient (Cursor.start source)).2.2, ← body_of_source] at tiles

/-- In a source, every item stands behind the item before it. -/
lemma items_apart_of_source (source : Text) :
    (itemsOf (body (tokenize false source).tokens)).Pairwise fun u v =>
      u.span.stop.offset < v.span.start.offset := by
  have tiles := body_tiles source
  rw [body_of_source] at tiles ⊢
  have order := Reading.all_orderly (Cursor.start source)
  exact (order.items_apart tiles (Reading.all_lexemes Piece.read_solid _)).2

/-- Items stand where their tokens stand. -/
lemma SaysItem.spans_eq {ts : List Token} {items : List Item} (h : List.Forall₂ SaysItem ts items) :
    items.map Item.span = ts.map Token.span := by
  induction h with
  | nil => rfl
  | cons said _ ih =>
    rw [List.map_cons, List.map_cons, ih]
    cases said <;> rfl

end Token

namespace Node

/-- A node covers the text of the tokens that it is made of. -/
lemma Of.span_eq {b : List Token} {node : Node} {p q : Position} (h : Of b node)
    (tiles : Token.Tiles p b q) : node.span = Span.along p (b.flatMap Token.raw) := by
  cases h with
  | alone =>
    cases tiles with
    | cons span => simpa using span
  | list _ first last =>
    rw [Span.along, ← tiles.stop_eq, tiles.start_head first, tiles.stop_getLast last]

/-- The items of a list are in the stretch of the list as their tokens are. -/
lemma Of.holds_items {b : List Token} {node : Node} {p q : Position} {style : ListStyle}
    {items : List Item} (h : Of b node) (list : node.content = .list style items)
    (tiles : Token.Tiles p b q)
    (apart : (Token.itemsOf b).Pairwise fun u v => u.span.stop.offset < v.span.start.offset) :
    node.span.Holds (items.map Item.span) := by
  have span := h.span_eq tiles
  rw [Span.along, ← tiles.stop_eq] at span
  cases h with
  | alone _ said =>
    cases list
    cases said
  | list _ _ _ made =>
    cases list
    rw [Token.SaysItem.spans_eq made, span]
    refine ⟨List.pairwise_map.2 apart, ?_⟩
    rw [List.forall_mem_map]
    exact fun t member => tiles.within (Token.mem_itemsOf.1 member).1

/-- The nodes that blocks make follow one another, and cover the text of their tokens. -/
lemma chain_of_blocks {bs : List (List Token)} {nodes : List Node} (h : List.Forall₂ Of bs nodes)
    {q : Position} (before after : Text)
    (tiles : Token.Tiles (Position.origin.after before) bs.flatten q) :
    Span.Chain (Position.origin.after before) (nodes.map Node.span) q ∧
      ∀ source, source = before ++ bs.flatten.flatMap Token.raw ++ after →
        nodes.flatMap (fun node => source.slice node.span.start.offset node.span.stop.offset) =
          bs.flatten.flatMap Token.raw := by
  induction h generalizing before with
  | nil =>
    cases tiles
    exact ⟨.nil, fun _ _ => rfl⟩
  | @cons b node bs nodes one _ ih =>
    obtain ⟨m, here, rest⟩ := tiles.split
    have span := one.span_eq here
    rw [here.stop_eq, ← Position.after_append] at rest
    obtain ⟨chain, slices⟩ := ih (before ++ b.flatMap Token.raw) rest
    constructor
    · rw [Position.after_append] at chain
      rw [List.map_cons, span]
      exact .cons rfl chain
    · intro source whole
      rw [List.flatten_cons, List.flatMap_append] at whole ⊢
      have covers : Span.Covers source node.span (b.flatMap Token.raw) :=
        ⟨before, bs.flatten.flatMap Token.raw ++ after, by simp [whole], span⟩
      rw [List.flatMap_cons, ← covers.slice, slices source (by simp [whole])]

end Node

/-- A document tiles a source: its nodes follow one another over the stretch of the document, which is the
whole source, what they cover makes up the source, and the items of every list are in the stretch of the
list, in order and apart from each other. -/
structure Document.Tiles (source : Text) (document : Document) : Prop where
  span : document.span = Span.along Position.origin source
  chain : Span.Chain document.span.start (document.children.map Node.span) document.span.stop
  slices : document.children.flatMap (fun node =>
    source.slice node.span.start.offset node.span.stop.offset) = source
  items : ∀ node ∈ document.children, ∀ style items, node.content = .list style items →
    node.span.Holds (items.map Item.span)

/-- The document of a source covers the source. -/
lemma Document.span_of_source {source : Text} {document : Document}
    (made : Document.ofTokens (tokenize false source).tokens = .ok document) :
    document.span = Span.along Position.origin source := by
  have tiles := Token.body_tiles source
  rw [Token.body_of_source] at tiles
  obtain ⟨children, last, -, rfl⟩ := Document.ofTokens_eq_ok_iff.1 made
  rw [(tokenize_eq source).1]
  generalize (Reading.all false (Cursor.start source)).tokens = ts at tiles
  have start : Parser.start (ts ++ [Token.ending (Position.origin.after source)]) =
      ⟨ts, Token.ending (Position.origin.after source)⟩ := by simp [Parser.start, Token.ending]
  have front : (Parser.mk ts (Token.ending (Position.origin.after source))).peek.span.start =
      Position.origin := by
    cases ts with
    | nil =>
      -- without tokens the end of the source is its front
      exact tiles.stop_eq
    | cons t ts => exact tiles.start_head rfl
  rw [start, front]
  rfl

/-- Every source has a document that tiles it. -/
theorem source_tiles (source : Text) :
    ∃ document, Document.ofSource false source = .ok document ∧ document.Tiles source := by
  obtain ⟨document, made, -⟩ := Document.exists_of_source source
  obtain ⟨bs, blocks, nodes⟩ := Document.blocks_of_ofTokens made
  have span := Document.span_of_source made
  have tiles := Token.body_tiles source
  have whole : (Token.body (tokenize false source).tokens).flatMap Token.raw = source := by
    rw [Token.body_of_source, Reading.all_raws]
    rfl
  have apart := Token.items_apart_of_source source
  rw [← blocks.flatten_eq] at tiles whole apart
  obtain ⟨chain, slices⟩ := Node.chain_of_blocks nodes [] [] tiles
  refine ⟨document, Document.ofSource_of_ofTokens made, span, ?_, ?_, ?_⟩
  · rw [span]
    exact chain
  · rw [slices source (by simp [whole]), whole]
  · intro node member style items list
    obtain ⟨b, found, one⟩ := exists_of_forall₂ nodes node member
    have part : (Token.itemsOf b).Sublist (Token.itemsOf bs.flatten) :=
      (List.sublist_flatten_of_mem found).filter _
    obtain ⟨left, right, cut⟩ := List.append_of_mem found
    rw [cut, List.flatten_append, List.flatten_cons] at tiles
    obtain ⟨_, -, rest⟩ := tiles.split
    obtain ⟨_, here, -⟩ := rest.split
    exact one.holds_items list here (apart.sublist part)

end Marktex
