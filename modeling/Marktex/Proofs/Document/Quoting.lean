import Marktex.Proofs.Document.Acceptance
import Marktex.Proofs.Token.Lexemes
import Marktex.Proofs.Token.Tiling

/-!
# Where the texts of a document come from

A node makes up nothing: if the tokens of its block carry what they should, its texts are texts of these
tokens (`Node.Of.texts_of_tokens`). As the tokens of a source make up nothing either, all texts of the
document of a source are made of characters of the source and of line feeds (`Document.quotes_source`).
-/

namespace Marktex

/-- The texts of a node. -/
def Content.texts : Content → List Text
  | .styled _ s => [s]
  | .header _ s => [s]
  | .codeBlock language code => [language, code]
  | .link s url => [s, url]
  | .image alt source => [alt, source]
  | .list _ items => items.map fun item => item.entry.text
  | .item entry => [entry.text]
  | .lineBreak => []
  | .foreign _ s => [s]

namespace Token

variable {t : Token}

/-- What a token says is in the value that it carries. -/
lemma Says.texts_subset {content : Content} (h : t.Says content) (carries : t.kind.Carries t.value) :
    content.texts ⊆ t.value.texts := by
  obtain ⟨kind, value, raw, span⟩ := t
  cases h with
  | styled _ said =>
    cases said
    exact List.Subset.refl _
  | lineBreak => exact List.nil_subset _
  | header kind said | codeBlock kind said | link kind said | image kind said =>
    cases kind
    cases carries with
    | text plain => cases plain
    | _ =>
      cases said
      exact List.Subset.refl _

/-- What an item says is in the value that it carries. -/
lemma SaysItem.text_mem {item : Item} (h : t.SaysItem item) (carries : t.kind.Carries t.value) :
    item.entry.text ∈ t.value.texts := by
  obtain ⟨kind, value, raw, span⟩ := t
  cases h with
  | plain _ said =>
    cases said
    exact List.mem_cons_self
  | todo kind said =>
    cases kind
    cases carries with
    | text plain => cases plain
    | todo =>
      cases said
      exact List.mem_cons_self

/-- The tokens of a source make up nothing. -/
lemma quotes_source {source : Text} (member : t ∈ (tokenize false source).tokens) :
    ∀ s ∈ t.value.texts, ∀ c ∈ s, c ∈ source ∨ c = '\n' := by
  intro s text c inside
  have quotes : t.lexeme.Quotes :=
    tokenize_lexemes Piece.read_quotes (by simp [Lexeme.Quotes, Value.texts]) source t member
  refine (quotes s text c inside).imp_left fun raw => ?_
  rw [(tokenize_eq source).1, List.mem_append, List.mem_singleton] at member
  obtain here | rfl := member
  · -- the source texts of the tokens make up the source
    rw [show source = _ from (Reading.all_raws (Cursor.start source)).symm]
    exact List.mem_flatMap.2 ⟨t, here, raw⟩
  · cases raw

end Token

/-- The texts of a node are texts of the tokens that it is made of. -/
lemma Node.Of.texts_of_tokens {b : List Token} {node : Node} (h : Node.Of b node)
    (carries : ∀ t ∈ b, t.kind.Carries t.value) :
    ∀ s ∈ node.content.texts, ∃ t ∈ b, s ∈ t.value.texts := by
  intro s text
  cases h with
  | @alone t content _ said =>
    exact ⟨t, List.mem_cons_self, said.texts_subset (carries t List.mem_cons_self) text⟩
  | list _ _ _ made =>
    obtain ⟨item, found, rfl⟩ := List.mem_map.1 text
    obtain ⟨t, member, said⟩ := exists_of_forall₂ made item found
    have inside := (Token.mem_itemsOf.1 member).1
    exact ⟨t, inside, said.text_mem (carries t inside)⟩

/-- All texts of the document of a source are made of characters of the source and of line feeds. -/
theorem Document.quotes_source {source : Text} {document : Document}
    (made : Document.ofTokens (tokenize false source).tokens = .ok document) :
    ∀ node ∈ document.children, ∀ s ∈ node.content.texts, ∀ c ∈ s, c ∈ source ∨ c = '\n' := by
  intro node member s text
  obtain ⟨bs, blocks, nodes⟩ := Document.blocks_of_ofTokens made
  obtain ⟨b, found, one⟩ := exists_of_forall₂ nodes node member
  have inStream : ∀ t ∈ b, t ∈ (tokenize false source).tokens := fun t inside =>
    Token.body_subset _ (blocks.flatten_eq ▸ List.mem_flatten.2 ⟨b, found, inside⟩)
  obtain ⟨t, inside, said⟩ := one.texts_of_tokens
    (fun t inside => Token.carries_of_source t (inStream t inside)) s text
  exact Token.quotes_source (inStream t inside) s said

/-- What a source does not hold is not in the texts of its document, line feeds apart. -/
lemma Document.not_mem_texts {source : Text} {document : Document} {c : Char}
    (made : Document.ofTokens (tokenize false source).tokens = .ok document) (h : c ∉ source)
    (other : c ≠ '\n') : ∀ node ∈ document.children, ∀ s ∈ node.content.texts, c ∉ s := by
  intro node member s text inside
  obtain quoted | feed := Document.quotes_source made node member s text c inside
  · exact h quoted
  · exact other feed

end Marktex
