import Mathlib.Data.List.Forall2
import Marktex.Proofs.Token.Blocks

/-!
# Grouping of tokens

The parser makes one node of each block of a stream (`Node.Of`), in order: a token that is no part of
a list makes a node that holds what the token says (`Token.Says`), and a run makes a list of what its
items say. So nothing is lost, repeated or moved (`ofTokens_groups`).

The loop of the parser over a run carries the sort of the markers met so far, which is open until the
first marker. `Parser.Passes` is that loop as a relation, and the lemmas about it say what the carried
sort means in terms of the tokens passed.
-/

namespace Marktex

/-- Each element of the second of two related lists is related to one of the first. -/
lemma exists_of_forall₂ {α β : Type} {R : α → β → Prop} {as : List α} {bs : List β}
    (h : List.Forall₂ R as bs) : ∀ b ∈ bs, ∃ a ∈ as, R a b := by
  induction h with
  | nil => simp
  | @cons a b as bs one _ ih =>
    rw [List.forall_mem_cons]
    refine ⟨⟨a, List.mem_cons_self, one⟩, fun c member => ?_⟩
    obtain ⟨d, found, related⟩ := ih c member
    exact ⟨d, List.mem_cons_of_mem a found, related⟩

namespace Token

/-- What a token that is no part of a list says: its text, or the payload of its kind, which may be
packed. -/
inductive Says : Token → Content → Prop where
  | styled {t style s} :
    t.kind = .styled style →
    t.value = .text s →
    Says t (.styled style s)
  | header {t level s} :
    t.kind = .header →
    t.unpacked = .payload (.header level s) →
    Says t (.header level s)
  | codeBlock {t language code} :
    t.kind = .codeBlock →
    t.unpacked = .payload (.codeBlock language code) →
    Says t (.codeBlock language code)
  | link {t s url} :
    t.kind = .link →
    t.unpacked = .payload (.link s url) →
    Says t (.link s url)
  | image {t alt source} :
    t.kind = .image →
    t.unpacked = .payload (.image alt source) →
    Says t (.image alt source)
  | lineBreak {t} :
    t.kind = .lineBreak →
    Says t .lineBreak

/-- What the token of an item says: its text, with a box if the kind has one. -/
inductive SaysItem : Token → Item → Prop where
  | plain {t s} :
    t.kind = .listItem →
    t.value = .text s →
    SaysItem t ⟨⟨s, none⟩, t.span⟩
  | todo {t s checked} :
    t.kind = .todoItem →
    t.unpacked = .payload (.todo s checked) →
    SaysItem t ⟨⟨s, some checked⟩, t.span⟩

/-- The content that is made from a token is what the token says. -/
lemma says_of_content {t : Token} {content : Content} (single : t.kind.isListPart = false)
    (h : t.content = .ok content) : Says t content := by
  unfold Token.content at h
  split at h <;> rename_i kind
  case h_1 =>
    split at h
    · cases h
      exact .styled kind (by assumption)
    · cases h
  case h_2 =>
    split at h
    · cases h
      exact .header kind (by assumption)
    · cases h
  case h_3 =>
    split at h
    · cases h
      exact .codeBlock kind (by assumption)
    · cases h
  case h_4 =>
    split at h
    · cases h
      exact .link kind (by assumption)
    · cases h
  case h_5 =>
    split at h
    · cases h
      exact .image kind (by assumption)
    · cases h
  case h_6 =>
    cases h
    exact .lineBreak kind
  case h_10 => cases h
  case h_11 => cases h
  all_goals
    rw [kind] at single
    cases single

/-- A token that says something has a kind with a meaning. -/
lemma Says.isKnown {t : Token} {content : Content} (h : Says t content) : t.kind.isKnown = true := by
  cases h with
  | styled kind | header kind | codeBlock kind | link kind | image kind | lineBreak kind =>
    rw [kind]
    rfl

/-- The item that is made of a token is what the token says. -/
lemma saysItem_of_item {t : Token} {item : Item} (isItem : t.kind.isItem = true)
    (h : t.item = .ok item) : SaysItem t item := by
  unfold Token.item at h
  split at h <;> rename_i kind
  · split at h
    · cases h
      exact .todo kind (by assumption)
    · cases h
  · split at h
    · cases h
      refine .plain ?_ (by assumption)
      cases e : t.kind with
      | listItem => rfl
      | todoItem => exact absurd e kind
      | _ =>
        rw [e] at isItem
        cases isItem
    · cases h

/-- An item with a box is said by a token with a box. -/
lemma SaysItem.ticked_iff {t : Token} {item : Item} (h : SaysItem t item) :
    item.entry.ticked.isSome = true ↔ t.kind = .todoItem := by
  cases h with
  | plain kind => simp [kind]
  | todo kind => simp [kind]

/-- A token that says an item is the token of an item. -/
lemma SaysItem.isItem {t : Token} {item : Item} (h : SaysItem t item) : t.kind.isItem = true := by
  cases h with
  | plain kind => rw [kind]; rfl
  | todo kind => rw [kind]; rfl

end Token

namespace ListStyle

/-- The sort of list that a run makes: it is ordered if there is a number among the markers, and
otherwise a task list if there are items and all of them have a box. -/
structure Of (b : List Token) (style : ListStyle) : Prop where
  ordered : style = .ordered ↔ ∃ t ∈ b, t.kind = .marker .ordinal
  task : style = .task ↔ (¬ ∃ t ∈ b, t.kind = .marker .ordinal) ∧
    (∃ t ∈ b, t.kind.isItem = true) ∧ ∀ t ∈ b, t.kind.isItem = true → t.kind = .todoItem

end ListStyle

/-- The node that a block makes. A token that is no part of a list makes a node of its own, at its
place. A run makes a list of what its items say, in order, from where its first token starts to
where its last one stops. -/
inductive Node.Of : List Token → Node → Prop where
  | alone {t content} :
    t.kind.isListPart = false →
    t.Says content →
    Node.Of [t] ⟨content, t.span⟩
  | list {b first last style items} :
    Token.Run b →
    b.head? = some first →
    b.getLast? = some last →
    List.Forall₂ Token.SaysItem (Token.itemsOf b) items →
    ListStyle.Of b style →
    Node.Of b ⟨.list style items, ⟨first.span.start, last.span.stop⟩⟩

namespace Parser

/-- How the parser passes the tokens of a run: `marker` is the sort of the markers met before and
`stop` the place where the token before stopped; then come the tokens, what they make, and the place
where the last one stops. -/
inductive Passes : Option Marker → Position → List Token → ListRun → Position → Prop where
  | nil {marker stop} :
    Passes marker stop [] ⟨marker, []⟩ stop
  | marker {marker m stop stop' t b run} :
    t.kind = .marker m →
    marker = none ∨ marker = some m →
    Passes (some m) t.span.stop b run stop' →
    Passes marker stop (t :: b) run stop'
  | item {marker stop stop' t item b run} :
    t.SaysItem item →
    Passes marker t.span.stop b run stop' →
    Passes marker stop (t :: b) { run with items := item :: run.items } stop'

/-- Where the parser stops in a run: at a token that is no part of a list or at a marker of the other
sort than those met before. -/
def Stops (marker : Option Marker) (t : Token) : Prop :=
  t.kind.isListPart = false ∨ ∃ m, t.kind = .marker m ∧ marker ≠ none ∧ marker ≠ some m

/-- The loop over a run passes tokens and stops. -/
lemma listRun_passes {ts rest : List Token} {marker : Option Marker} {stop stop' : Position}
    {run : ListRun} (h : listRun marker stop ts = (.ok (run, stop'), rest)) :
    ∃ b, ts = b ++ rest ∧ Passes marker stop b run stop' ∧ ∀ t ∈ rest.head?, Stops run.marker t := by
  induction ts generalizing marker stop run with
  | nil =>
    cases h
    exact ⟨[], rfl, .nil, by simp⟩
  | cons t ts ih =>
    unfold listRun at h
    split at h
    case h_1 m kind =>
      split at h <;> rename_i same
      · obtain ⟨b, rfl, passes, stops⟩ := ih h
        exact ⟨t :: b, rfl, .marker kind same passes, stops⟩
      · cases h
        refine ⟨[], rfl, .nil, fun u front => ?_⟩
        cases front
        rw [not_or] at same
        exact .inr ⟨m, kind, same⟩
    case h_4 notMarker notItem notTodo =>
      -- any other kind ends the run, since it is no part of a list
      cases h
      refine ⟨[], rfl, .nil, fun u front => ?_⟩
      cases front
      left
      cases e : t.kind with
      | marker m => exact absurd e (notMarker m)
      | listItem => exact absurd e notItem
      | todoItem => exact absurd e notTodo
      | _ => rfl
    all_goals
      rename_i kind
      split at h
      · cases h
      · rename_i item made
        cases inner : listRun marker t.span.stop ts with
        | mk result left =>
          rw [inner] at h
          cases result with
          | error => cases h
          | ok found =>
            obtain ⟨run', last⟩ := found
            cases h
            obtain ⟨b, rfl, passes, stops⟩ := ih inner
            refine ⟨t :: b, rfl, .item (Token.saysItem_of_item ?_ made) passes, stops⟩
            rw [kind]
            rfl

namespace Passes

variable {marker : Option Marker} {stop stop' : Position} {b : List Token} {run : ListRun}

/-- The sort of the markers does not change once it is known. -/
lemma keeps {m : Marker} (h : Passes marker stop b run stop') (known : marker = some m) :
    run.marker = some m := by
  induction h generalizing m with
  | nil => exact known
  | marker _ same _ ih =>
    obtain same | same := same
    · rw [same] at known
      cases known
    · exact ih (same.symm.trans known)
  | item _ _ ih => exact ih known

/-- Every token that is passed is an item or a marker of the sort that is known at the end. -/
lemma sorted (h : Passes marker stop b run stop') :
    ∀ t ∈ b, t.kind.isItem = true ∨ ∃ m, t.kind = .marker m ∧ run.marker = some m := by
  induction h with
  | nil => simp
  | marker kind _ rest ih =>
    rw [List.forall_mem_cons]
    exact ⟨.inr ⟨_, kind, rest.keeps rfl⟩, ih⟩
  | item said _ ih =>
    rw [List.forall_mem_cons]
    exact ⟨.inl said.isItem, ih⟩

/-- The sort that is known at the end was known before or is the sort of a marker that is passed. -/
lemma exists_marker {m : Marker} (h : Passes marker stop b run stop') (known : run.marker = some m) :
    marker = some m ∨ ∃ t ∈ b, t.kind = .marker m := by
  induction h with
  | nil => exact .inl known
  | marker kind _ _ ih =>
    obtain same | ⟨u, member, found⟩ := ih known
    · cases same
      exact .inr ⟨_, List.mem_cons_self, kind⟩
    · exact .inr ⟨u, List.mem_cons_of_mem _ member, found⟩
  | item _ _ ih =>
    obtain same | ⟨u, member, found⟩ := ih known
    · exact .inl same
    · exact .inr ⟨u, List.mem_cons_of_mem _ member, found⟩

/-- The tokens that the loop passes make a run. -/
lemma isRun (h : Passes marker stop b run stop') : Token.Run b := by
  cases known : run.marker with
  | none =>
    refine ⟨.bullet, fun t member => ?_⟩
    obtain item | ⟨m, _, other⟩ := h.sorted t member
    · exact Kind.joins_of_isItem _ item
    · rw [known] at other
      cases other
  | some m =>
    refine ⟨m, fun t member => ?_⟩
    obtain item | ⟨n, kind, other⟩ := h.sorted t member
    · exact Kind.joins_of_isItem _ item
    · rw [known] at other
      cases other
      rw [kind]
      rfl

/-- A token at which the parser stops does not go on with the run before it. -/
lemma maximal {t : Token} (h : Passes none stop b run stop') (stops : Stops run.marker t) :
    ¬ Token.Run (b ++ [t]) := by
  rintro ⟨m, joins⟩
  have last : t.kind.Joins m := joins t (by simp)
  obtain single | ⟨n, kind, known, other⟩ := stops
  · rw [last.isListPart] at single
    cases single
  · obtain ⟨k, known⟩ := Option.ne_none_iff_exists'.1 known
    obtain none | ⟨u, member, found⟩ := h.exists_marker known
    · cases none
    · have before : u.kind.Joins m := joins u (List.mem_append_left _ member)
      rw [found] at before
      rw [kind] at last
      cases before
      cases last
      exact other known

/-- The items of a run are what the tokens of items among those passed say, in order. -/
lemma items (h : Passes marker stop b run stop') :
    List.Forall₂ Token.SaysItem (Token.itemsOf b) run.items := by
  induction h with
  | nil => exact .nil
  | marker kind _ _ ih =>
    rw [Token.itemsOf_cons_of_not (by rw [kind]; rfl)]
    exact ih
  | item said _ ih =>
    rw [Token.itemsOf_cons said.isItem]
    exact .cons said ih

/-- A run stops where the last of the tokens passed stops. -/
lemma stop_eq (h : Passes marker stop b run stop') :
    stop' = (b.getLast?.map fun t => t.span.stop).getD stop := by
  induction h with
  | nil => rfl
  | marker _ _ _ ih =>
    rw [ih, List.getLast?_cons]
    cases List.getLast? _ <;> rfl
  | item _ _ ih =>
    rw [ih, List.getLast?_cons]
    cases List.getLast? _ <;> rfl

end Passes

end Parser

namespace Token

/-- There is an item to be made if there is one that is made. -/
lemma exists_isItem_iff {b : List Token} {items : List Item}
    (h : List.Forall₂ SaysItem (itemsOf b) items) :
    (∃ t ∈ b, t.kind.isItem = true) ↔ items ≠ [] := by
  rw [← List.length_pos_iff, ← h.length_eq, List.length_pos_iff_exists_mem]
  simp only [mem_itemsOf]

/-- All items that are made have a box if all tokens that make them have one. -/
lemma forall_todoItem_iff {ts : List Token} {items : List Item}
    (h : List.Forall₂ SaysItem ts items) :
    (∀ t ∈ ts, t.kind = .todoItem) ↔
      (items.all fun item => item.entry.ticked.isSome) = true := by
  induction h with
  | nil => simp
  | cons said _ ih => rw [List.all_cons, Bool.and_eq_true, List.forall_mem_cons, said.ticked_iff, ih]

end Token

namespace ListStyle

/-- The sort of list that a run makes depends on its tokens as it should. -/
lemma of_passes {b : List Token} {stop stop' : Position} {run : ListRun}
    (h : Parser.Passes none stop b run stop') : Of b run.style := by
  have ordinal : run.marker = some .ordinal ↔ ∃ t ∈ b, t.kind = .marker .ordinal := by
    constructor
    · intro known
      obtain none | found := h.exists_marker known
      · cases none
      · exact found
    · rintro ⟨t, member, kind⟩
      obtain item | ⟨m, other, known⟩ := h.sorted t member
      · rw [kind] at item
        cases item
      · rw [kind] at other
        cases other
        exact known
  have items := Token.exists_isItem_iff h.items
  have ticked := Token.forall_todoItem_iff h.items
  simp only [Token.mem_itemsOf, and_imp] at ticked
  unfold ListRun.style
  constructor
  · rw [← ordinal]
    split_ifs <;> simp_all
  · rw [← ordinal, items, ticked]
    clear ordinal items ticked
    split_ifs <;> simp_all

end ListStyle

namespace Parser

/-- The run at the front of some tokens is a block, and the list that is made of it is the one that
the block makes. -/
lemma listRun_block {t : Token} {ts rest : List Token} {run : ListRun} {stop : Position}
    (part : t.kind.isListPart = true)
    (h : listRun none t.span.start (t :: ts) = (.ok (run, stop), rest)) :
    ∃ b, b ≠ [] ∧ t :: ts = b ++ rest ∧
      Node.Of b ⟨.list run.style run.items, ⟨t.span.start, stop⟩⟩ ∧
      ∀ bs, Token.Blocks rest bs → Token.Blocks (t :: ts) (b :: bs) := by
  obtain ⟨b, cut, passes, stops⟩ := listRun_passes h
  -- before the first marker the sort is open, so the parser does not stop at once
  have front : b ≠ [] := by
    rintro rfl
    rw [List.nil_append] at cut
    subst cut
    cases passes
    obtain single | ⟨m, _, known, _⟩ := stops t rfl
    · rw [part] at single
      cases single
    · exact known rfl
  have first : b.head? = some t := by
    rw [← List.head?_append_of_ne_nil b front, ← cut]
    rfl
  obtain ⟨last, final⟩ := Option.ne_none_iff_exists'.1 (mt List.getLast?_eq_none_iff.1 front)
  have stop_eq : stop = last.span.stop := by
    rw [passes.stop_eq, final]
    rfl
  refine ⟨b, front, cut, ?_, fun bs blocks => ?_⟩
  · rw [stop_eq]
    exact .list passes.isRun first final passes.items (ListStyle.of_passes passes)
  · rw [cut]
    exact .list front passes.isRun (fun u next => passes.maximal (stops u next)) blocks

/-- The parser makes its next node of the first of the blocks that are ahead. -/
lemma node_block {parser next : Parser} {node : Node} (h : parser.node = (.ok node, next)) :
    ∃ b, b ≠ [] ∧ parser.ahead = b ++ next.ahead ∧ Node.Of b node ∧
      ∀ bs, Token.Blocks next.ahead bs → Token.Blocks parser.ahead (b :: bs) := by
  unfold Parser.node at h
  split at h
  case h_1 => cases h
  case h_2 t ts ahead =>
    rw [ahead]
    split at h <;> rename_i part
    · cases loop : listRun none t.span.start (t :: ts) with
      | mk result rest =>
        rw [loop] at h
        cases result with
        | error => cases h
        | ok found =>
          cases h
          exact listRun_block part loop
    · rw [Bool.not_eq_true] at part
      cases made : t.content with
      | error rejection =>
        rw [made] at h
        cases h
      | ok content =>
        rw [made] at h
        cases h
        have said := Token.says_of_content part made
        rw [if_pos said.isKnown]
        exact ⟨[t], List.cons_ne_nil _ _, rfl, .alone part said, fun bs blocks => .alone part blocks⟩

/-- The nodes that a parser makes are those that the blocks ahead make. -/
lemma nodes_blocks {count : Nat} {parser last : Parser} {children : List Node}
    (h : nodes count parser = (.ok children, last)) (enough : parser.ahead.length ≤ count) :
    ∃ bs, Token.Blocks parser.ahead bs ∧ List.Forall₂ Node.Of bs children := by
  induction count generalizing parser children with
  | zero =>
    cases h
    rw [List.length_eq_zero_iff.1 (Nat.le_zero.1 enough)]
    exact ⟨[], .nil, .nil⟩
  | succ count ih =>
    unfold nodes at h
    split at h <;> rename_i atEnd
    · cases h
      rw [List.isEmpty_iff.1 atEnd]
      exact ⟨[], .nil, .nil⟩
    · split at h
      case h_1 => cases h
      case h_2 node next made =>
        cases rest : nodes count next with
        | mk result last' =>
          rw [rest] at h
          cases result with
          | error => cases h
          | ok found =>
            cases h
            obtain ⟨b, front, ahead, one, cons⟩ := node_block made
            have fewer : next.ahead.length ≤ count := by
              have long := List.length_pos_iff.2 front
              rw [ahead, List.length_append] at enough
              omega
            obtain ⟨bs, blocks, others⟩ := ih rest fewer
            exact ⟨b :: bs, cons bs blocks, .cons one others⟩

/-- A parser at the front of a stream has all tokens ahead but the last one. -/
lemma start_ahead (tokens : List Token) : (start tokens).ahead = Token.body tokens := by
  unfold start Token.body
  split
  case h_1 none => rw [none, List.getLast?_eq_none_iff.1 none]; rfl
  case h_2 t last =>
    simp only [last, Option.map_some, Option.some.injEq]
    split_ifs <;> rfl

end Parser

/-- The nodes of a document are those that the blocks of its tokens make. -/
lemma Document.blocks_of_ofTokens {tokens : List Token} {document : Document}
    (h : Document.ofTokens tokens = .ok document) :
    ∃ bs, Token.Blocks (Token.body tokens) bs ∧ List.Forall₂ Node.Of bs document.children := by
  obtain ⟨children, last, made, rfl⟩ := Document.ofTokens_eq_ok_iff.1 h
  rw [← Parser.start_ahead]
  exact Parser.nodes_blocks made (Nat.le_refl _)

/-- If a document is made from tokens, with or without an end token, then it has one node for each
block of them, in order, and that node is the one that the block makes. The blocks are all of the
tokens, in order, and there is no other way to cut them. -/
theorem ofTokens_groups {tokens : List Token} {document : Document}
    (h : Document.ofTokens tokens = .ok document) :
    ∃ blocks, Token.Blocks (Token.body tokens) blocks ∧
      (∀ other, Token.Blocks (Token.body tokens) other → other = blocks) ∧
      blocks.flatten = Token.body tokens ∧
      List.Forall₂ Node.Of blocks document.children := by
  obtain ⟨blocks, cut, made⟩ := Document.blocks_of_ofTokens h
  exact ⟨blocks, cut, fun other again => again.unique cut, cut.flatten_eq, made⟩

/-- An item before its marker, a packed box, markers of two sorts and a line break: three blocks. -/
theorem ofTokens_groups_two_lists :
    ∃ tokens document,
      tokens.map Token.kind =
        [.listItem, .marker .ordinal, .todoItem, .marker .bullet, .lineBreak, .ending] ∧
      Document.ofTokens tokens = .ok document ∧
      ∃ blocks, Token.Blocks (Token.body tokens) blocks ∧
        (∀ other, Token.Blocks (Token.body tokens) other → other = blocks) ∧
        blocks.flatten = Token.body tokens ∧
        List.Forall₂ Node.Of blocks document.children :=
  ⟨[⟨.listItem, .text ['a'], ['a'], .along .origin ['a']⟩,
    ⟨.marker .ordinal, .text [], ['1', '.'], .along ⟨1, 2, 1⟩ ['1', '.']⟩,
    ⟨.todoItem, .text "- [x] b".toList, ['b'], .along ⟨1, 4, 3⟩ ['b']⟩,
    ⟨.marker .bullet, .text [], ['-'], .along ⟨1, 5, 4⟩ ['-']⟩,
    ⟨.lineBreak, .text [], ['\n'], .along ⟨1, 6, 5⟩ ['\n']⟩,
    .ending ⟨2, 1, 6⟩],
    _, rfl, rfl, ofTokens_groups rfl⟩

end Marktex
