import Marktex.Latex.Markup
import Marktex.Proofs.Latex.Escape
import Marktex.Proofs.Text.Parts

/-!
# What lists tell

Each item of a list has a line of its own, and the line tells the item (`Entry.render_inj`): what stands behind
the command is a space for an item without a box, and a label otherwise. A list can therefore be told from its
text as long as no item breaks its line (`itemList_lossless`).
-/

namespace Marktex

namespace Entry

/-- What stands behind the backslash of a label tells whether the box is ticked. -/
lemma label_inj {ticked ticked' : Bool} {s t : Text} (h : label ticked ++ s = label ticked' ++ t) :
    ticked = ticked' := by
  have letter (b : Bool) (s : Text) : (label b ++ s)[2]? = some (if b then 'b' else 's') := by
    cases b <;> rfl
  have tells : ∀ b b' : Bool, some (if b then 'b' else 's') = some (if b' then 'b' else 's') → b = b' := by
    decide
  exact tells _ _ (by rw [← letter ticked s, h, letter])

/-- What stands behind the command of an item tells whether it has a box. -/
lemma isSome_of_render_eq {e e' : Entry} (h : e.render = e'.render) : e.ticked.isSome = e'.ticked.isSome := by
  have letter (e : Entry) : e.render[5]? = some (if e.ticked.isSome then '[' else ' ') := by
    obtain ⟨s, box⟩ := e
    cases box <;> rfl
  have tells : ∀ b b' : Bool, some (if b then '[' else ' ') = some (if b' then '[' else ' ') → b = b' := by
    decide
  exact tells _ _ (by rw [← letter e, h, letter])

/-- Items that are written in the same way are the same. -/
lemma render_inj {e e' : Entry} (h : e.render = e'.render) : e = e' := by
  have boxes := isSome_of_render_eq h
  obtain ⟨s, box⟩ := e
  obtain ⟨s', box'⟩ := e'
  cases box with
  | none =>
    obtain rfl : box' = none := Option.isNone_iff_eq_none.1 (Option.isSome_eq_false_iff.1 boxes.symm)
    have same : s = s' := Latex.escape_inj (List.append_cancel_left h)
    rw [same]
  | some ticked =>
    obtain ⟨ticked', rfl⟩ := Option.isSome_iff_exists.1 boxes.symm
    simp only [render, List.append_assoc] at h
    have labels := List.append_cancel_left h
    obtain rfl := label_inj labels
    have same : s = s' := Latex.escape_inj (List.append_cancel_left (List.append_cancel_left labels))
    rw [same]

/-- The item of a text without line feeds is written on one line. -/
lemma render_plain {e : Entry} (h : '\n' ∉ e.text) : '\n' ∉ e.render := by
  have escaped : '\n' ∉ Latex.escape e.text := fun feed => h (Latex.mem_of_escape feed (by decide))
  unfold render
  split
  case h_1 => simp [escaped]
  case h_2 ticked _ => cases ticked <;> simp [escaped, label]

end Entry

namespace Latex

/-- An environment with lines: the line that begins it, the lines, and the line that ends it. -/
lemma environment_eq (name : String) (options : Text) {lines : List Text} (some : lines ≠ []) :
    environment name options lines =
      opening name ++ options ++ '\n' :: (Text.join ['\n'] lines ++ '\n' :: closing name) := by
  have more : lines ++ [closing name] ≠ [] := List.concat_ne_nil _ lines
  have joined := Text.join_concat some ['\n'] (closing name)
  rw [environment, List.cons_append, Text.join, List.intercalate_cons_of_ne_nil more, ← Text.join, joined]
  simp

/-- A list without items is nothing. -/
lemma itemList_nil (name : String) : itemList name [] = [] := rfl

/-- A list with items: between the line that begins it and the line that ends it stand the items. -/
lemma itemList_eq (name : String) {entries : List Entry} (some : entries ≠ []) :
    itemList name entries =
      opening name ++ '\n' :: (Text.join ['\n'] (entries.map Entry.render) ++ '\n' :: closing name) := by
  have lines : entries.map Entry.render ≠ [] := mt List.map_eq_nil_iff.1 some
  rw [itemList, if_neg (mt List.isEmpty_iff.1 some), environment_eq name [] lines, List.append_nil]

/-- A list is nothing only if it has no items. -/
lemma itemList_eq_nil_iff {name : String} {entries : List Entry} :
    itemList name entries = [] ↔ entries = [] := by
  constructor
  · intro nothing
    by_contra some
    rw [itemList_eq name some] at nothing
    cases nothing
  · rintro rfl
    exact itemList_nil name

/-- The lines of the items can be told from the text between them. -/
lemma split_items {entries : List Entry} (some : entries ≠ []) (plain : ∀ e ∈ entries, '\n' ∉ e.text) :
    Text.split '\n' (Text.join ['\n'] (entries.map Entry.render)) = entries.map Entry.render := by
  refine Text.split_join ?_ (mt List.map_eq_nil_iff.1 some)
  rw [List.forall_mem_map]
  exact fun e member => Entry.render_plain (plain e member)

/-- The text of a list tells its items. -/
lemma itemList_inj {name : String} {entries entries' : List Entry} (plain : ∀ e ∈ entries, '\n' ∉ e.text)
    (plain' : ∀ e ∈ entries', '\n' ∉ e.text) (h : itemList name entries = itemList name entries') :
    entries = entries' := by
  by_cases some : entries = []
  · rw [some, itemList_nil] at h
    rw [some, itemList_eq_nil_iff.1 h.symm]
  · have some' : entries' ≠ [] := by
      rintro rfl
      exact some (itemList_eq_nil_iff.1 h)
    rw [itemList_eq name some, itemList_eq name some'] at h
    have between := List.append_cancel_right (List.cons.inj (List.append_cancel_left h)).2
    have lines : entries.map Entry.render = entries'.map Entry.render := by
      rw [← split_items some plain, between, split_items some' plain']
    exact List.map_injective_iff.2 (fun _ _ => Entry.render_inj) lines

/-- A list loses nothing of its items. Nothing is written exactly if there are no items. Otherwise there is one
line for each item, in order, between the line that begins the list and the line that ends it, if no text of an
item breaks its line. Two such lists are written in the same way exactly if they have the same items. -/
theorem itemList_lossless (name : String) :
    (∀ entries, itemList name entries = [] ↔ entries = []) ∧
    ∀ entries, (∀ e ∈ entries, '\n' ∉ e.text) →
      (entries ≠ [] → ∃ items,
        itemList name entries = opening name ++ '\n' :: (items ++ '\n' :: closing name) ∧
        Text.split '\n' items = entries.map Entry.render) ∧
      ∀ entries', (∀ e ∈ entries', '\n' ∉ e.text) →
        (itemList name entries = itemList name entries' ↔ entries = entries') := by
  refine ⟨fun entries => itemList_eq_nil_iff, fun entries plain =>
    ⟨fun some => ⟨_, itemList_eq name some, split_items some plain⟩, fun entries' plain' => ?_⟩⟩
  exact ⟨itemList_inj plain plain', fun same => by rw [same]⟩

/-- An item whose text looks like the label of an empty box, and an item that has such a box. -/
theorem itemList_lossless_label :
    ∃ entries entries' : List Entry,
      (∀ e ∈ entries, '\n' ∉ e.text) ∧ (∀ e ∈ entries', '\n' ∉ e.text) ∧
      (∃ items, itemList "itemize" entries =
          opening "itemize" ++ '\n' :: (items ++ '\n' :: closing "itemize") ∧
        (Text.split '\n' items).length = 2) ∧
      itemList "itemize" entries ≠ itemList "itemize" entries' := by
  let entries : List Entry := [⟨"[$\\square$] ]".toList, none⟩, ⟨"\\item".toList, some true⟩]
  let entries' : List Entry := [⟨"]".toList, some false⟩, ⟨"\\item".toList, some true⟩]
  have plain : ∀ e ∈ entries, '\n' ∉ e.text := by decide
  have plain' : ∀ e ∈ entries', '\n' ∉ e.text := by decide
  obtain ⟨-, lossless⟩ := itemList_lossless "itemize"
  obtain ⟨lines, tells⟩ := lossless entries plain
  obtain ⟨items, whole, split⟩ := lines (List.cons_ne_nil _ _)
  refine ⟨entries, entries', plain, plain', ⟨items, whole, by rw [split]; rfl⟩, fun same => ?_⟩
  have equal := (tells entries' plain').1 same
  revert equal
  decide

end Latex

end Marktex
