import Marktex.Latex.Render
import Marktex.Proofs.Text.Parts
import Marktex.Proofs.Token.Packed

/-!
# Packed task lists

A task list can come as one text, with its items packed and joined by bars. An item is read back from its part
of that text if nothing in the item is taken for something else (`Entry.ofPacked_packed`): no bar, no blanks
around it, and no box where there is none. As a packed list is written like the items that its parts stand for
(`Latex.renderTasks_eq_itemList`), it is then written like a list of the items themselves (`renderTasks_packed`).
-/

namespace Marktex

namespace Entry

/-- The boxes that the part of an item with a box begins with. -/
def boxes : List Text :=
  ["- [ ]".toList, "- [x]".toList, "- [X]".toList]

/-- The part of a packed task list that stands for an item: its payload if it has a box, and its text if it has
none. -/
def packed (e : Entry) : Text :=
  match e.ticked with
  | none => e.text
  | some ticked => Payload.pack (.todo e.text ticked)

/-- An item that is not mistaken for something else where it is packed. -/
structure Packable (e : Entry) : Prop where
  trimmed : e.text.trim = e.text
  whole : '|' ∉ e.text
  bare : e.ticked = none → ∀ box ∈ boxes, ¬ box <+: e.text

/-- What does not begin with a box is an item without one. -/
lemma ofPacked_bare {s : Text} (bare : ∀ box ∈ boxes, ¬ box <+: s) : ofPacked s = ⟨s.trim, none⟩ := by
  simp only [boxes, List.forall_mem_cons] at bare
  obtain ⟨empty, ticked, ticked', -⟩ := bare
  unfold ofPacked
  split
  case h_1 r => exact absurd (List.prefix_append "- [ ]".toList r) empty
  case h_2 r => exact absurd (List.prefix_append "- [x]".toList r) ticked
  case h_3 r => exact absurd (List.prefix_append "- [X]".toList r) ticked'
  case h_4 => rfl

/-- A payload with a box stands for an item with that box. -/
lemma ofPacked_todo (s : Text) (ticked : Bool) :
    ofPacked (Payload.pack (.todo s ticked)) = ⟨s.trim, some ticked⟩ := by
  have blank : Text.trim (' ' :: s) = s.trim := Text.trim_cons_of_isBlank s (by decide)
  rw [← blank]
  cases ticked <;> rfl

/-- An item is read back from its part of a packed task list. -/
lemma ofPacked_packed {e : Entry} (h : e.Packable) : ofPacked e.packed = e := by
  obtain ⟨s, box⟩ := e
  have trimmed : s.trim = s := h.trimmed
  cases box with
  | none => exact (ofPacked_bare (h.bare rfl)).trans (by rw [trimmed])
  | some ticked => exact (ofPacked_todo s ticked).trans (by rw [trimmed])

/-- No bar stands in the part of an item. -/
lemma bar_not_mem_packed {e : Entry} (h : e.Packable) : '|' ∉ e.packed := by
  have whole := h.whole
  unfold packed
  split
  case h_1 => exact whole
  case h_2 ticked _ => cases ticked <;> simp [Payload.pack, whole]

end Entry

/-- A packed task list is written like the list of the items that its parts stand for. -/
lemma Latex.renderTasks_eq_itemList (packed : Text) :
    renderTasks packed = itemList "itemize" ((Text.split '|' packed).map Entry.ofPacked) := by
  have parts : (Text.split '|' packed).map Entry.ofPacked ≠ [] :=
    mt List.map_eq_nil_iff.1 (Text.split_ne_nil '|' packed)
  rw [itemList, if_neg (mt List.isEmpty_iff.1 parts), environment, List.append_nil, List.map_map]
  rfl

/-- A packed task list is written as a list node with its items would be, without numbers. -/
theorem renderTasks_packed {items : List Item} (some : items ≠ [])
    (h : ∀ item ∈ items, item.entry.Packable) {style : ListStyle} (unnumbered : style ≠ .ordered)
    (span : Span) :
    Latex.renderTasks (Text.join ['|'] (items.map fun item => item.entry.packed)) =
      Latex.render [⟨.list style items, span⟩] := by
  have parts : Text.split '|' (Text.join ['|'] (items.map fun item => item.entry.packed)) =
      items.map fun item => item.entry.packed := by
    refine Text.split_join ?_ (mt List.map_eq_nil_iff.1 some)
    rw [List.forall_mem_map]
    exact fun item member => Entry.bar_not_mem_packed (h item member)
  have entries : (items.map fun item => item.entry.packed).map Entry.ofPacked = items.map Item.entry := by
    rw [List.map_map]
    exact List.map_congr_left fun item member => Entry.ofPacked_packed (h item member)
  have name : style.environmentName = "itemize" := by
    cases style with
    | ordered => exact absurd rfl unnumbered
    | unordered | task => rfl
  calc Latex.renderTasks (Text.join ['|'] (items.map fun item => item.entry.packed))
      = Latex.itemList "itemize" (items.map Item.entry) := by
        rw [Latex.renderTasks_eq_itemList, parts, entries]
    _ = Latex.render [⟨.list style items, span⟩] := by
        rw [Latex.render, List.map_singleton, Text.join, List.intercalate_singleton, Content.render, name]

/-- Boxes with and without a text behind them, a box that is not one, and an item without a text. -/
theorem renderTasks_packed_boxes :
    ∃ items : List Item, items ≠ [] ∧ (∀ item ∈ items, item.entry.Packable) ∧
      items.map Item.entry =
        [⟨[], some false⟩, ⟨"[ ] a & b".toList, some true⟩, ⟨"-[x]".toList, none⟩, ⟨[], none⟩] ∧
      ListStyle.unordered ≠ .ordered ∧
      Latex.renderTasks "- [ ] |- [x] [ ] a & b|-[x]|".toList =
        ("\\begin\x7bitemize\x7d\n\\item[$\\square$] \n\\item[$\\boxtimes$] [ ] a \\& b\n" ++
          "\\item -[x]\n\\item \n\\end\x7bitemize\x7d").toList ∧
      ∀ span, Latex.renderTasks "- [ ] |- [x] [ ] a & b|-[x]|".toList =
        Latex.render [⟨.list .unordered items, span⟩] := by
  let item (s : Text) (box : Option Bool) : Item := ⟨⟨s, box⟩, .point .origin⟩
  let items :=
    [item [] (some false), item "[ ] a & b".toList (some true), item "-[x]".toList none, item [] none]
  have packable : ∀ item ∈ items, item.entry.Packable := by
    simp only [items, List.forall_mem_cons]
    exact ⟨⟨by decide, by decide, by decide⟩, ⟨by decide, by decide, by decide⟩,
      ⟨by decide, by decide, by decide⟩, ⟨by decide, by decide, by decide⟩, by simp⟩
  exact ⟨items, List.cons_ne_nil _ _, packable, rfl, by decide, by decide,
    renderTasks_packed (List.cons_ne_nil _ _) packable (by decide)⟩

end Marktex
