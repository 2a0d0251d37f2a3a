import Mathlib.Data.List.Forall2
import Mathlib.Tactic.Lemma
import Marktex.Document.Parser

/-!
# Documents that are alike

A parser looks at nothing but the kinds of tokens and at what they say. So if two streams have the same
kinds of tokens and what is said by the tokens is related, then a document that is made of the first is
related in the same way to one that is made of the second (`Document.ofTokens_alike`). The two relations,
on texts and on places, are arbitrary.
-/

namespace Marktex

section Relations

variable (E : Text → Text → Prop) (Q : Position → Position → Prop)

/-- Stretches whose ends are related. -/
structure Span.Alike (a b : Span) : Prop where
  start : Q a.start b.start
  stop : Q a.stop b.stop

/-- Items with the same box whose texts and places are related. -/
structure Item.Alike (a b : Item) : Prop where
  text : E a.entry.text b.entry.text
  ticked : a.entry.ticked = b.entry.ticked
  span : Span.Alike Q a.span b.span

/-- Contents of one sort whose texts and places are related. -/
inductive Content.Alike : Content → Content → Prop where
  | styled {style s s'} :
    E s s' →
    Alike (.styled style s) (.styled style s')
  | header {level s s'} :
    E s s' →
    Alike (.header level s) (.header level s')
  | codeBlock {language language' code code'} :
    E language language' →
    E code code' →
    Alike (.codeBlock language code) (.codeBlock language' code')
  | link {s s' url url'} :
    E s s' →
    E url url' →
    Alike (.link s url) (.link s' url')
  | image {alt alt' source source'} :
    E alt alt' →
    E source source' →
    Alike (.image alt source) (.image alt' source')
  | list {style items items'} :
    List.Forall₂ (Item.Alike E Q) items items' →
    Alike (.list style items) (.list style items')
  | item {s s' ticked} :
    E s s' →
    Alike (.item ⟨s, ticked⟩) (.item ⟨s', ticked⟩)
  | lineBreak :
    Alike .lineBreak .lineBreak
  | foreign {name s s'} :
    E s s' →
    Alike (.foreign name s) (.foreign name s')

/-- Nodes whose contents and places are related. -/
structure Node.Alike (a b : Node) : Prop where
  content : Content.Alike E Q a.content b.content
  span : Span.Alike Q a.span b.span

/-- Documents whose nodes and places are related. -/
structure Document.Alike (a b : Document) : Prop where
  children : List.Forall₂ (Node.Alike E Q) a.children b.children
  span : Span.Alike Q a.span b.span

/-- Tokens of one kind whose places are related. Whatever the first one says, the second one says
something that is related to it. -/
structure Token.Alike (t u : Token) : Prop where
  kind : u.kind = t.kind
  span : Span.Alike Q t.span u.span
  content : ∀ c, t.content = .ok c → ∃ c', u.content = .ok c' ∧ Content.Alike E Q c c'
  item : ∀ i, t.item = .ok i → ∃ i', u.item = .ok i' ∧ Item.Alike E Q i i'

/-- Runs with the same markers whose items are related. -/
structure ListRun.Alike (a b : ListRun) : Prop where
  marker : b.marker = a.marker
  items : List.Forall₂ (Item.Alike E Q) a.items b.items

end Relations

section Equality

/-- Where only what is equal is related, all that is alike is equal. -/
lemma Span.alike_eq : Span.Alike Eq = Eq := by
  funext a b
  rw [eq_iff_iff]
  constructor
  · rintro ⟨start, stop⟩
    cases a
    cases b
    cases start
    cases stop
    rfl
  · rintro rfl
    exact ⟨rfl, rfl⟩

/-- Items that are alike in equal texts and equal positions are equal. -/
lemma Item.alike_eq : Item.Alike Eq Eq = Eq := by
  funext a b
  rw [eq_iff_iff]
  constructor
  · rintro ⟨text, ticked, span⟩
    rw [Span.alike_eq] at span
    obtain ⟨⟨_, _⟩, _⟩ := a
    obtain ⟨⟨_, _⟩, _⟩ := b
    cases text
    cases ticked
    cases span
    rfl
  · rintro rfl
    exact ⟨rfl, rfl, rfl, rfl⟩

/-- Contents that are alike in equal texts and equal positions are equal. -/
lemma Content.alike_eq : Content.Alike Eq Eq = Eq := by
  funext a b
  rw [eq_iff_iff]
  constructor
  · intro h
    cases h with
    | list items =>
      rw [Item.alike_eq, List.forall₂_eq_eq_eq] at items
      rw [items]
    | _ => simp_all
  · rintro rfl
    cases a with
    | styled => exact .styled rfl
    | header => exact .header rfl
    | codeBlock => exact .codeBlock rfl rfl
    | link => exact .link rfl rfl
    | image => exact .image rfl rfl
    | list => exact .list (by rw [Item.alike_eq, List.forall₂_eq_eq_eq])
    | item => exact .item rfl
    | lineBreak => exact .lineBreak
    | foreign => exact .foreign rfl

/-- Nodes that are alike in equal texts and equal positions are equal. -/
lemma Node.alike_eq : Node.Alike Eq Eq = Eq := by
  funext a b
  rw [eq_iff_iff]
  constructor
  · rintro ⟨content, span⟩
    rw [Content.alike_eq] at content
    rw [Span.alike_eq] at span
    cases a
    cases b
    cases content
    cases span
    rfl
  · rintro rfl
    exact ⟨Content.alike_eq ▸ rfl, rfl, rfl⟩

/-- Documents that are alike in equal texts and equal positions are equal. -/
lemma Document.Alike.eq {a b : Document} (h : Document.Alike Eq Eq a b) : a = b := by
  obtain ⟨children, span⟩ := h
  rw [Node.alike_eq, List.forall₂_eq_eq_eq] at children
  rw [Span.alike_eq] at span
  cases a
  cases b
  cases children
  cases span
  rfl

end Equality

variable {E : Text → Text → Prop} {Q : Position → Position → Prop}

/-- Related lists end with related elements. -/
lemma forall₂_eq_nil_or_concat {α β : Type} {R : α → β → Prop} {as : List α} {bs : List β}
    (h : List.Forall₂ R as bs) :
    as = [] ∧ bs = [] ∨
      ∃ as' a bs' b, as = as' ++ [a] ∧ bs = bs' ++ [b] ∧ List.Forall₂ R as' bs' ∧ R a b := by
  induction h with
  | nil => exact .inl ⟨rfl, rfl⟩
  | cons one _ ih =>
    obtain ⟨rfl, rfl⟩ | ⟨as', a, bs', b, rfl, rfl, before, last⟩ := ih
    · exact .inr ⟨[], _, [], _, rfl, rfl, .nil, one⟩
    · exact .inr ⟨_ :: as', a, _ :: bs', b, rfl, rfl, .cons one before, last⟩

/-- Related items have boxes in the same places. -/
lemma Item.Alike.all_ticked {as bs : List Item} (h : List.Forall₂ (Item.Alike E Q) as bs) :
    (bs.all fun item => item.entry.ticked.isSome) = as.all fun item => item.entry.ticked.isSome := by
  induction h with
  | nil => rfl
  | cons one _ ih => rw [List.all_cons, List.all_cons, one.ticked, ih]

/-- Related runs make lists of one sort. -/
lemma ListRun.Alike.style_eq {a b : ListRun} (h : ListRun.Alike E Q a b) : b.style = a.style := by
  have front : b.items ≠ [] ↔ a.items ≠ [] := by
    rw [← List.length_pos_iff, ← List.length_pos_iff, h.items.length_eq]
  simp only [ListRun.style, h.marker, front, Item.Alike.all_ticked h.items]

namespace Parser

variable {ts us : List Token}

/-- The parser passes runs of related tokens in the same way. -/
lemma listRun_alike {rest : List Token} {marker : Option Marker} {stop stop' near : Position}
    {run : ListRun} (h : List.Forall₂ (Token.Alike E Q) ts us) (place : Q stop near)
    (made : listRun marker stop ts = (.ok (run, stop'), rest)) :
    ∃ run' near' rest', listRun marker near us = (.ok (run', near'), rest') ∧
      ListRun.Alike E Q run run' ∧ Q stop' near' ∧ List.Forall₂ (Token.Alike E Q) rest rest' := by
  induction h generalizing marker stop near run with
  | nil =>
    cases made
    exact ⟨_, _, _, rfl, ⟨rfl, .nil⟩, place, .nil⟩
  | @cons t u ts us one more ih =>
    -- where the run ends at `t` it ends at `u` too
    have stays : ∃ run' near' rest', ((.ok (⟨marker, []⟩, near), u :: us) :
          Except Rejection (ListRun × Position) × List Token) = (.ok (run', near'), rest') ∧
        ListRun.Alike E Q ⟨marker, []⟩ run' ∧ Q stop near' ∧
        List.Forall₂ (Token.Alike E Q) (t :: ts) rest' :=
      ⟨_, _, _, rfl, ⟨rfl, .nil⟩, place, .cons one more⟩
    unfold listRun at made ⊢
    rw [one.kind]
    split at made
    case h_1 m kind =>
      split at made
      case isTrue same =>
        simp only [same, if_true]
        exact ih one.span.stop made
      case isFalse other =>
        cases made
        simp only [other, if_false]
        exact stays
    case h_4 =>
      cases made
      exact stays
    all_goals
      split at made
      case h_1 => cases made
      case h_2 item said =>
        obtain ⟨item', said', alike⟩ := one.item item said
        cases inner : listRun marker t.span.stop ts with
        | mk result left =>
          rw [inner] at made
          cases result with
          | error => cases made
          | ok found =>
            cases made
            obtain ⟨run', near', rest', passed, runs, places, tokens⟩ := ih one.span.stop inner
            rw [said', passed]
            exact ⟨_, _, _, rfl, ⟨runs.marker, .cons alike runs.items⟩, places, tokens⟩

/-- The parser makes related nodes of related tokens. -/
lemma node_alike {parser next other : Parser} {node : Node}
    (h : List.Forall₂ (Token.Alike E Q) parser.ahead other.ahead)
    (made : parser.node = (.ok node, next)) :
    ∃ node' next', other.node = (.ok node', next') ∧ Node.Alike E Q node node' ∧
      List.Forall₂ (Token.Alike E Q) next.ahead next'.ahead := by
  obtain ⟨ahead, last⟩ := parser
  obtain ⟨ahead', last'⟩ := other
  dsimp only at h
  cases h with
  | nil => cases made
  | @cons t u ts us one more =>
    simp only [Parser.node] at made ⊢
    rw [one.kind]
    split at made
    case isTrue part =>
      cases loop : listRun none t.span.start (t :: ts) with
      | mk result rest =>
        rw [loop] at made
        cases result with
        | error => cases made
        | ok found =>
          obtain ⟨run, stop⟩ := found
          cases made
          obtain ⟨run', near', rest', passed, runs, places, tokens⟩ :=
            listRun_alike (.cons one more) one.span.start loop
          have content : Content.Alike E Q (.list run.style run.items) (.list run'.style run'.items) :=
            runs.style_eq ▸ .list runs.items
          rw [if_pos part, passed]
          exact ⟨_, _, rfl, ⟨content, one.span.start, places⟩, tokens⟩
    case isFalse part =>
      cases said : t.content with
      | error =>
        rw [said] at made
        cases made
      | ok content =>
        rw [said] at made
        cases made
        obtain ⟨content', said', alike⟩ := one.content content said
        rw [if_neg part, said']
        refine ⟨_, _, rfl, ⟨alike, one.span⟩, ?_⟩
        dsimp only
        split
        · exact more
        · exact .cons one more

/-- The parser makes related nodes of all related tokens. -/
lemma nodes_alike {count : Nat} {parser last other : Parser} {children : List Node}
    (h : List.Forall₂ (Token.Alike E Q) parser.ahead other.ahead)
    (made : nodes count parser = (.ok children, last)) :
    ∃ children' last', nodes count other = (.ok children', last') ∧
      List.Forall₂ (Node.Alike E Q) children children' := by
  induction count generalizing parser other children with
  | zero =>
    cases made
    exact ⟨_, _, rfl, .nil⟩
  | succ count ih =>
    have atEnd : other.atEnd = parser.atEnd := by
      rw [atEnd, atEnd, Bool.eq_iff_iff, List.isEmpty_iff_length_eq_zero,
        List.isEmpty_iff_length_eq_zero, h.length_eq]
    unfold nodes at made ⊢
    rw [atEnd]
    split at made
    case isTrue ending =>
      cases made
      rw [if_pos ending]
      exact ⟨_, _, rfl, .nil⟩
    case isFalse ahead =>
      rw [if_neg ahead]
      split at made
      case h_1 => cases made
      case h_2 node next one =>
        cases rest : nodes count next with
        | mk result last' =>
          rw [rest] at made
          cases result with
          | error => cases made
          | ok found =>
            cases made
            obtain ⟨node', next', one', alike, tokens⟩ := node_alike h one
            obtain ⟨children', last', rest', more⟩ := ih tokens rest
            rw [one']
            simp only [rest']
            exact ⟨_, _, rfl, .cons alike more⟩

/-- Parsers start with related tokens if the streams are related. -/
lemma start_alike (h : List.Forall₂ (Token.Alike E Q) ts us)
    (origin : Q Position.origin Position.origin) :
    List.Forall₂ (Token.Alike E Q) (start ts).ahead (start us).ahead ∧
      Span.Alike Q (start ts).last.span (start us).last.span := by
  obtain ⟨rfl, rfl⟩ | ⟨b, t, c, u, rfl, rfl, before, last⟩ := forall₂_eq_nil_or_concat h
  · exact ⟨.nil, origin, origin⟩
  · simp only [start, List.getLast?_concat, List.dropLast_concat, last.kind]
    split
    · exact ⟨before, last.span⟩
    · exact ⟨h, last.span.stop, last.span.stop⟩

end Parser

/-- Streams that are related make related documents. -/
theorem Document.ofTokens_alike {ts us : List Token} {document : Document}
    (h : List.Forall₂ (Token.Alike E Q) ts us) (origin : Q Position.origin Position.origin)
    (made : Document.ofTokens ts = .ok document) :
    ∃ document', Document.ofTokens us = .ok document' ∧ Document.Alike E Q document document' := by
  obtain ⟨ahead, last⟩ := Parser.start_alike h origin
  have peek : Span.Alike Q (Parser.start ts).peek.span (Parser.start us).peek.span := by
    unfold Parser.peek
    revert ahead
    generalize (Parser.start ts).ahead = before, (Parser.start us).ahead = after
    intro ahead
    cases ahead with
    | nil => exact last
    | cons one _ => exact one.span
  obtain ⟨children, final, all, rfl⟩ := Document.ofTokens_eq_ok_iff.1 made
  obtain ⟨children', final', all', alike⟩ := Parser.nodes_alike ahead all
  rw [ahead.length_eq] at all'
  exact ⟨_, Document.ofTokens_eq_ok_iff.2 ⟨children', final', all', rfl⟩, alike, peek.start, last.stop⟩

end Marktex
