import Marktex.Latex.Render
import Marktex.Proofs.Document.Grouping
import Marktex.Proofs.Token.Shape

/-!
# Acceptance of streams

A parser rejects a token only if its kind has no meaning or if it does not carry what it should, so
tokens that are `WellMade` always make a document (`Document.exists_of_wellMade`). What lenient
reading yields is well made, and in order: therefore every source has a document and a LaTeX text, and
the lists of the document are not empty (`tokenize_parses`).
-/

namespace Marktex

namespace Token

/-- A token that is well made says something: it is not rejected. -/
lemma WellMade.exists_content {t : Token} (h : t.WellMade) (single : t.kind.isListPart = false) :
    ∃ content, t.content = .ok content := by
  obtain ⟨kind, value, raw, span⟩ := t
  obtain ⟨known, carries⟩ := h
  cases carries with
  | header | codeBlock | link | image => exact ⟨_, rfl⟩
  | todo => cases single
  | text plain =>
    cases kind with
    | styled | lineBreak => exact ⟨_, rfl⟩
    | header | codeBlock | link | image | todoItem => cases plain
    | marker | listItem => cases single
    | ending | foreign => cases known

/-- An item is made of each well-made token of an item. -/
lemma WellMade.exists_item {t : Token} (h : t.WellMade) (isItem : t.kind.isItem = true) :
    ∃ item, t.item = .ok item := by
  obtain ⟨kind, value, raw, span⟩ := t
  obtain ⟨known, carries⟩ := h
  cases carries with
  | header | codeBlock | link | image => cases isItem
  | todo => exact ⟨_, rfl⟩
  | text plain =>
    cases kind with
    | listItem => exact ⟨_, rfl⟩
    | todoItem => cases plain
    | _ => cases isItem

end Token

namespace Parser

/-- The parser passes a run of tokens that are well made. -/
lemma exists_listRun {ts : List Token} (h : ∀ t ∈ ts, t.WellMade) (marker : Option Marker)
    (stop : Position) :
    ∃ run stop' rest, listRun marker stop ts = (.ok (run, stop'), rest) := by
  induction ts generalizing marker stop with
  | nil => exact ⟨_, _, _, rfl⟩
  | cons t ts ih =>
    obtain ⟨made, later⟩ := List.forall_mem_cons.1 h
    unfold listRun
    split
    case h_1 =>
      split
      · exact ih later _ _
      · exact ⟨_, _, _, rfl⟩
    case h_4 => exact ⟨_, _, _, rfl⟩
    all_goals
      rename_i kind
      obtain ⟨item, said⟩ := made.exists_item (by rw [kind]; rfl)
      obtain ⟨run, stop', rest, passed⟩ := ih later marker t.span.stop
      rw [said, passed]
      exact ⟨_, _, _, rfl⟩

/-- The parser makes a node if there are tokens ahead that are well made. -/
lemma exists_node {parser : Parser} (h : ∀ t ∈ parser.ahead, t.WellMade)
    (front : parser.ahead ≠ []) : ∃ node next, parser.node = (.ok node, next) := by
  unfold Parser.node
  split
  case h_1 none => exact absurd none front
  case h_2 t ts ahead =>
    rw [ahead] at h
    split <;> rename_i part
    · obtain ⟨run, stop, rest, passed⟩ := exists_listRun h none t.span.start
      rw [passed]
      exact ⟨_, _, rfl⟩
    · rw [Bool.not_eq_true] at part
      obtain ⟨content, said⟩ := (h t List.mem_cons_self).exists_content part
      rw [said]
      exact ⟨_, _, rfl⟩

/-- Nodes are made of well-made tokens without a rejection. -/
lemma exists_nodes {count : Nat} {parser : Parser} (h : ∀ t ∈ parser.ahead, t.WellMade) :
    ∃ children last, nodes count parser = (.ok children, last) := by
  induction count generalizing parser with
  | zero => exact ⟨_, _, rfl⟩
  | succ count ih =>
    unfold nodes
    split <;> rename_i atEnd
    · exact ⟨_, _, rfl⟩
    · have front : parser.ahead ≠ [] := mt List.isEmpty_iff.2 atEnd
      obtain ⟨node, next, made⟩ := exists_node h front
      obtain ⟨b, -, ahead, -⟩ := node_block made
      obtain ⟨children, last, rest⟩ := @ih next fun t member =>
        h t (ahead ▸ List.mem_append_right b member)
      rw [made]
      simp only [rest]
      exact ⟨_, _, rfl⟩

end Parser

/-- Tokens that are well made, up to an end token, make a document. -/
theorem Document.exists_of_wellMade {tokens : List Token}
    (h : ∀ t ∈ Token.body tokens, t.WellMade) :
    ∃ document, Document.ofTokens tokens = .ok document := by
  rw [← Parser.start_ahead] at h
  obtain ⟨children, last, made⟩ := Parser.exists_nodes h
  exact ⟨_, Document.ofTokens_eq_ok_iff.2 ⟨children, last, made, rfl⟩⟩

/-- The tokens of a source carry what they should. -/
lemma Token.carries_of_source {source : Text} :
    ∀ t ∈ (tokenize false source).tokens, t.kind.Carries t.value := by
  obtain ⟨ts, p, stream, order⟩ := tokenize_orderly source
  rw [stream]
  intro t member
  obtain here | last := List.mem_append.1 member
  · exact (order.wellMade t here).carries
  · obtain rfl := List.mem_singleton.1 last
    exact .text rfl

/-- The document of the tokens of a source is the document of the source. -/
lemma Document.ofSource_of_ofTokens {source : Text} {document : Document}
    (made : Document.ofTokens (tokenize false source).tokens = .ok document) :
    Document.ofSource false source = .ok document := by
  simp only [Document.ofSource, tokenize_lenient, made]
  rfl

/-- The tokens of a source make a document, and its LaTeX text is that of the source. -/
lemma Document.exists_of_source (source : Text) :
    ∃ document, Document.ofTokens (tokenize false source).tokens = .ok document ∧
      Latex.convert false source = .ok document.toLatex := by
  obtain ⟨ts, p, stream, order⟩ := tokenize_orderly source
  have body : Token.body (tokenize false source).tokens = ts := by
    simp [stream, Token.body, Token.ending]
  obtain ⟨document, made⟩ := Document.exists_of_wellMade (body.symm ▸ order.wellMade)
  refine ⟨document, made, ?_⟩
  simp only [Latex.convert, Document.ofSource, tokenize_lenient, made]
  rfl

namespace Token

/-- A run of tokens in order that is not empty and that the next token does not go on has an item: the
item after its first marker cannot be left out of it. -/
lemma Orderly.exists_isItem {b ts : List Token} (h : Orderly (b ++ ts)) (front : b ≠ [])
    (run : Run b) (maximal : ∀ t ∈ ts.head?, ¬ Run (b ++ [t])) : ∃ t ∈ b, t.kind.isItem = true := by
  obtain ⟨t, b, rfl⟩ := List.exists_cons_of_ne_nil front
  rw [List.cons_append] at h
  generalize after : b ++ ts = us at h
  cases h with
  | alone single =>
    exact absurd run (not_run_cons single)
  | @item _ u m us marker _ item =>
    cases b with
    | nil =>
      -- a run that is only the marker would go on with the item
      rw [List.nil_append] at after
      subst after
      exact absurd (run.concat item) (maximal u rfl)
    | cons v b =>
      cases after
      exact ⟨u, List.mem_cons_of_mem _ List.mem_cons_self, item⟩

/-- What is behind a maximal run of orderly tokens is orderly: it does not begin with an item. -/
lemma Orderly.after_run {b ts : List Token} (h : Orderly (b ++ ts)) (run : Run b)
    (maximal : ∀ t ∈ ts.head?, ¬ Run (b ++ [t])) : Orderly ts := by
  refine h.of_append fun t front => ?_
  rw [← Bool.not_eq_true]
  exact fun item => maximal t front (run.concat item)

/-- Every list block of tokens in order has an item. -/
lemma Blocks.exists_isItem {ts : List Token} {bs : List (List Token)} (h : Blocks ts bs)
    (order : Orderly ts) : ∀ b ∈ bs, Run b → ∃ t ∈ b, t.kind.isItem = true := by
  induction h with
  | nil => simp
  | @alone t ts bs single _ ih =>
    have rest : Orderly ts := by
      cases order with
      | alone _ _ _ rest => exact rest
      | item marker =>
        rw [marker] at single
        cases single
    rw [List.forall_mem_cons]
    exact ⟨fun run => absurd run (not_run_cons single), ih rest⟩
  | list front run maximal _ ih =>
    rw [List.forall_mem_cons]
    exact ⟨fun _ => order.exists_isItem front run maximal, ih (order.after_run run maximal)⟩

end Token

namespace Node

/-- A list is made of a run, and it is not empty if there is an item in the run. -/
lemma Of.list_run {b : List Token} {node : Node} {style : ListStyle} {items : List Item}
    (h : Of b node) (list : node.content = .list style items) :
    Token.Run b ∧ ((∃ t ∈ b, t.kind.isItem = true) → items ≠ []) := by
  cases h with
  | alone _ said =>
    cases list
    cases said
  | list run _ _ made =>
    cases list
    exact ⟨run, (Token.exists_isItem_iff made).1⟩

/-- No block makes an item outside of a list. -/
lemma Of.ne_item {b : List Token} {node : Node} (h : Of b node) (entry : Entry) :
    node.content ≠ .item entry := by
  intro item
  cases h with
  | alone _ said =>
    cases item
    cases said
  | list => cases item

end Node

/-- Lenient reading of a source never fails, and what it yields always makes a document and a LaTeX
text. The tokens end with the only end token, each carries what its kind asks for, and markers and
items are pairs. No list of the document is empty, and no item stands outside of a list. -/
theorem tokenize_parses (source : Text) :
    (tokenize false source).failure = none ∧
    (∃ ts t, (tokenize false source).tokens = ts ++ [t] ∧ t.kind = .ending ∧
      ∀ u ∈ ts, u.kind ≠ .ending) ∧
    (∀ t ∈ (tokenize false source).tokens, t.kind.Carries t.value) ∧
    Token.Paired (tokenize false source).tokens ∧
    ∃ document,
      Document.ofTokens (tokenize false source).tokens = .ok document ∧
      Latex.convert false source = .ok document.toLatex ∧
      (∀ node ∈ document.children, ∀ style items,
        node.content = .list style items → items ≠ []) ∧
      ∀ node ∈ document.children, ∀ entry, node.content ≠ .item entry := by
  have lenient := tokenize_lenient source
  obtain ⟨ts, p, stream, order⟩ := tokenize_orderly source
  have body : Token.body (tokenize false source).tokens = ts := by
    simp [stream, Token.body, Token.ending]
  obtain ⟨document, made⟩ := Document.exists_of_wellMade (body.symm ▸ order.wellMade)
  obtain ⟨bs, blocks, nodes⟩ := Document.blocks_of_ofTokens made
  rw [body] at blocks
  have nonempty := blocks.exists_isItem order
  refine ⟨lenient, ⟨ts, _, stream, rfl, ?_⟩, ?_, stream ▸ order.paired rfl, document, made, ?_, ?_, ?_⟩
  · -- an end token would not be well made
    intro u member ending
    have known := (order.wellMade u member).isKnown
    rw [ending] at known
    cases known
  · rw [stream]
    intro t member
    rw [List.mem_append, List.mem_singleton] at member
    obtain member | rfl := member
    · exact (order.wellMade t member).carries
    · exact .text rfl
  · simp only [Latex.convert, Document.ofSource, lenient, made]
    rfl
  · intro node member style items list
    obtain ⟨b, found, one⟩ := exists_of_forall₂ nodes node member
    obtain ⟨run, full⟩ := one.list_run list
    exact full (nonempty b found run)
  · intro node member entry
    obtain ⟨b, _, one⟩ := exists_of_forall₂ nodes node member
    exact one.ne_item entry

end Marktex
