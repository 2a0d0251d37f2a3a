import Marktex.Proofs.Document.Acceptance
import Marktex.Proofs.Document.Alike
import Marktex.Proofs.Token.LineEnds

/-!
# Documents and line ends

A source with carriage returns before its line feeds says what it says without them: it has the same tokens
and warnings, in the same lines and columns, and the same LaTeX text up to line ends (`tokenize_crlf`).
Rendering keeps lines, since it writes no carriage returns (`Document.Alike.toLatex`); in a table, rows are
trimmed, so that they are equal.
-/

namespace Marktex

variable {s t : Text}

namespace Text.SameLines

/-- Texts with the same lines are escaped alike. -/
lemma escape (h : SameLines s t) : SameLines (Latex.escape s) (Latex.escape t) := by
  induction h with
  | nil => exact .nil
  | @cons c s t other _ ih =>
    rw [Latex.escape_cons, Latex.escape_cons]
    split
    · exact .cons (by decide) (.cons other ih)
    · exact .cons other ih
  | pair _ ih => exact .pair ih

/-- Parts with the same lines are joined to texts with the same lines. -/
lemma join {separator : Text} (plain : '\r' ∉ separator) {ls ms : List Text}
    (h : List.Forall₂ SameLines ls ms) :
    SameLines (Text.join separator ls) (Text.join separator ms) := by
  induction h with
  | nil => exact .nil
  | cons one more ih =>
    cases more with
    | nil => simpa [Text.join] using one
    | cons =>
      rw [Text.join, Text.join, List.intercalate_cons_cons, List.intercalate_cons_cons]
      exact (one.append (.refl plain)).append ih

/-- Braces go around texts with the same lines alike. -/
lemma braced (h : SameLines s t) : SameLines (Latex.braced s) (Latex.braced t) :=
  .cons (by decide) (h.append (.cons (by decide) .nil))

/-- The argument of a command may have its lines ended in either way. -/
lemma command {name : String} (plain : '\r' ∉ name.toList) (h : SameLines s t) :
    SameLines (Latex.command name s) (Latex.command name t) :=
  .cons (by decide) ((SameLines.refl plain).append h.braced)

/-- The options and the lines of an environment may have their lines ended in either way. -/
lemma environment {name : String} (plain : '\r' ∉ name.toList) {options options' : Text}
    (h : SameLines options options') {ls ms : List Text} (lines : List.Forall₂ SameLines ls ms) :
    SameLines (Latex.environment name options ls) (Latex.environment name options' ms) := by
  have begins : SameLines (Latex.opening name) (Latex.opening name) := command (by decide) (.refl plain)
  have ends : SameLines (Latex.closing name) (Latex.closing name) := command (by decide) (.refl plain)
  exact join (by decide) (.cons (begins.append h) (List.rel_append lines (.cons ends .nil)))

end Text.SameLines

namespace Latex

open Text (SameLine SameLines)

/-- Rows are trimmed, so that the same lines are kept and have the same cells. -/
lemma keptRows_eq (h : SameLines s t) : keptRows t = keptRows s := by
  have kept {ls ms : List Text} (lines : List.Forall₂ SameLine ls ms) :
      (ms.filter fun row => !isAlignmentRow row).map cells =
        (ls.filter fun row => !isAlignmentRow row).map cells := by
    induction lines with
    | nil => rfl
    | @cons l m _ _ line _ ih =>
      have aligns : isAlignmentRow m = isAlignmentRow l := by
        rw [isAlignmentRow, isAlignmentRow, line.trim_eq]
      have same : cells m = cells l := by rw [cells, cells, line.trim_eq]
      rw [List.filter_cons, List.filter_cons, aligns]
      split
      · rw [List.map_cons, List.map_cons, same, ih]
      · exact ih
  exact kept h.split

/-- Tables with the same lines are rendered alike. -/
lemma table_sameLines (h : SameLines s t) : SameLines (table s) (table t) := by
  have plain : ∀ row ∈ keptRows s, ∀ cell ∈ row, SameLines cell cell := fun row kept cell member =>
    h.refl_of_subset fun c inside => mem_of_keptRows kept member inside
  have line : ∀ row ∈ keptRows s, SameLines (tableRow row) (tableRow row) := by
    intro row kept
    refine (SameLines.join (by decide) ?_).append (.refl (by decide))
    rw [List.forall₂_same]
    intro cell member
    obtain ⟨source, found, rfl⟩ := List.mem_map.1 member
    exact (plain row kept source found).escape
  unfold table
  rw [keptRows_eq h]
  cases rows : keptRows s with
  | nil => exact .nil
  | cons first more =>
    rw [rows] at line
    have columns : SameLines (List.replicate first.length 'c') (List.replicate first.length 'c') :=
      .refl fun member => absurd (List.eq_of_mem_replicate member) (by decide)
    have rule : SameLines "\\hline".toList "\\hline".toList := .refl (by decide)
    have body : List.Forall₂ SameLines ((first :: more).map tableRow) ((first :: more).map tableRow) := by
      rw [List.forall₂_map_left_iff, List.forall₂_map_right_iff, List.forall₂_same]
      exact line
    exact .environment (by decide) columns.braced (List.rel_append (.cons rule body) (.cons rule .nil))

end Latex

/-- Items whose texts have the same lines, both with or without a tick, are rendered alike. -/
lemma Entry.render_sameLines {e f : Entry} (text : Text.SameLines e.text f.text)
    (ticked : e.ticked = f.ticked) : Text.SameLines e.render f.render := by
  obtain ⟨s, box⟩ := e
  obtain ⟨t, box'⟩ := f
  cases ticked
  cases box with
  | none => exact (Text.SameLines.refl (by decide)).append text.escape
  | some ticked =>
    have label : Text.SameLines (label ticked) (label ticked) := by
      cases ticked <;> exact .refl (by decide)
    exact (((Text.SameLines.refl (by decide)).append label).append (.refl (by decide))).append text.escape

/-- Lists of items that are alike are rendered alike. -/
lemma Latex.itemList_sameLines {style : ListStyle} {items items' : List Item}
    (h : List.Forall₂ (Item.Alike Text.SameLines Position.Aligned) items items') :
    Text.SameLines (itemList style.environmentName (items.map Item.entry))
      (itemList style.environmentName (items'.map Item.entry)) := by
  have name : '\r' ∉ style.environmentName.toList := by cases style <;> decide
  have lines : List.Forall₂ Text.SameLines ((items.map Item.entry).map Entry.render)
      ((items'.map Item.entry).map Entry.render) := by
    rw [List.map_map, List.map_map, List.forall₂_map_left_iff, List.forall₂_map_right_iff]
    exact h.imp fun item item' same => Entry.render_sameLines same.text same.ticked
  unfold itemList
  cases h with
  | nil => exact .nil
  | cons => exact .environment name .nil lines

/-- The forms of contents with the same lines have the same lines. -/
lemma Content.Alike.render {a b : Content} (h : Content.Alike Text.SameLines Position.Aligned a b) :
    Text.SameLines a.render b.render := by
  cases h with
  | @styled style s t text =>
    cases style with
    | paragraph => exact text.escape.append (.refl (by decide))
    | plain => exact text.escape
    | bold => exact .command (by decide) text.escape
    | italic => exact .command (by decide) text.escape
    | code => exact .command (by decide) text.escape
    | quote => exact .environment (by decide) .nil (.cons text.escape .nil)
    | table => exact Latex.table_sameLines text
    | inlineMath => exact .cons (by decide) (text.append (.refl (by decide)))
    | displayMath =>
      have begins : Text.SameLines "\\[\n".toList "\\[\n".toList := .refl (by decide)
      exact (begins.append text).append (.refl (by decide))
  | @header level s t text =>
    have command : '\r' ∉ (sectionCommand level).toList := by
      unfold sectionCommand
      split_ifs <;> decide
    exact .command command text.escape
  | @codeBlock language language' _ _ same code =>
    have option : Text.SameLines (languageOption language) (languageOption language') := by
      cases same with
      | nil => exact .nil
      | cons other rest =>
        have begins : Text.SameLines "[language=".toList "[language=".toList := .refl (by decide)
        exact (begins.append (.cons other rest)).append (.refl (by decide))
      | pair rest =>
        have begins : Text.SameLines "[language=".toList "[language=".toList := .refl (by decide)
        exact (begins.append (.pair rest)).append (.refl (by decide))
    exact .environment (by decide) option (.cons code .nil)
  | link text url => exact (Text.SameLines.command (by decide) url).append text.escape.braced
  | image alt source =>
    have options : Text.SameLines "[h]".toList "[h]".toList := .refl (by decide)
    have centering : Text.SameLines "\\centering".toList "\\centering".toList := .refl (by decide)
    have graphics := (Text.SameLines.refl (s := "\\includegraphics[width=0.8\\textwidth]".toList)
      (by decide)).append source.braced
    have caption : Text.SameLines (Latex.command "caption" _) (Latex.command "caption" _) :=
      .command (by decide) alt.escape
    exact .environment (by decide) options (.cons centering (.cons graphics (.cons caption .nil)))
  | list items => exact Latex.itemList_sameLines items
  | item text => exact Entry.render_sameLines text rfl
  | lineBreak => exact .refl (by decide)
  | foreign => exact .nil

/-- Documents with the same lines have LaTeX texts with the same lines. -/
lemma Document.Alike.toLatex {a b : Document}
    (h : Document.Alike Text.SameLines Position.Aligned a b) : Text.SameLines a.toLatex b.toLatex := by
  apply Text.SameLines.join (by decide)
  rw [List.forall₂_map_left_iff, List.forall₂_map_right_iff]
  exact h.children.imp fun node node' same => same.content.render

/-- The text of a value, changed. -/
def Value.map (f : Text → Text) : Value → Value
  | .text s => .text (f s)
  | .payload (.header level s) => .payload (.header level (f s))
  | .payload (.link s url) => .payload (.link (f s) (f url))
  | .payload (.image alt source) => .payload (.image (f alt) (f source))
  | .payload (.codeBlock language code) => .payload (.codeBlock (f language) (f code))
  | .payload (.todo s checked) => .payload (.todo (f s) checked)
  | .stray v => .stray v

/-- Without its carriage returns, the second value is the first one. -/
lemma Value.SameLines.map_ofCrlf {v w : Value} (h : Value.SameLines v w) : w.map Text.ofCrlf = v := by
  cases h with
  | text s => rw [Value.map, s.ofCrlf_eq]
  | header s => rw [Value.map, s.ofCrlf_eq]
  | codeBlock language code => rw [Value.map, language.ofCrlf_eq, code.ofCrlf_eq]
  | link s url => rw [Value.map, s.ofCrlf_eq, url.ofCrlf_eq]
  | image alt source => rw [Value.map, alt.ofCrlf_eq, source.ofCrlf_eq]
  | todo s => rw [Value.map, s.ofCrlf_eq]

namespace Token

/-- What a token says on its own is related to what a token with the same lines says. -/
lemma content_sameLines {t u : Token} (h : t.SameLines u) (carries : t.kind.Carries t.value)
    {c : Content} (said : t.content = .ok c) :
    ∃ c', u.content = .ok c' ∧ Content.Alike Text.SameLines Position.Aligned c c' := by
  obtain ⟨_, value, raw, span⟩ := t
  obtain ⟨sort, value', raw', span'⟩ := u
  obtain ⟨rfl, same, -⟩ := h
  cases carries with
  | text plain =>
    cases same with
    | text text =>
      cases sort with
      | styled =>
        cases said
        exact ⟨_, rfl, .styled text⟩
      | marker | listItem =>
        cases said
        exact ⟨_, rfl, .item text⟩
      | lineBreak =>
        cases said
        exact ⟨_, rfl, .lineBreak⟩
      | header | codeBlock | link | image | todoItem => cases plain
      | ending | foreign => cases said
  | header =>
    cases said
    cases same with
    | header text => exact ⟨_, rfl, .header text⟩
  | codeBlock =>
    cases said
    cases same with
    | codeBlock language code => exact ⟨_, rfl, .codeBlock language code⟩
  | link =>
    cases said
    cases same with
    | link text url => exact ⟨_, rfl, .link text url⟩
  | image =>
    cases said
    cases same with
    | image alt source => exact ⟨_, rfl, .image alt source⟩
  | todo =>
    cases said
    cases same with
    | todo text => exact ⟨_, rfl, .item text⟩

/-- Tokens with the same lines make items that are alike. -/
lemma item_sameLines {t u : Token} (h : t.SameLines u) (carries : t.kind.Carries t.value)
    {i : Item} (said : t.item = .ok i) :
    ∃ i', u.item = .ok i' ∧ Item.Alike Text.SameLines Position.Aligned i i' := by
  obtain ⟨_, value, raw, span⟩ := t
  obtain ⟨sort, value', raw', span'⟩ := u
  obtain ⟨rfl, same, places⟩ := h
  cases carries with
  | text plain =>
    have other : sort ≠ .todoItem := by
      rintro rfl
      cases plain
    cases same with
    | text text =>
      simp only [item, other, if_false] at said ⊢
      cases said
      exact ⟨_, rfl, text, rfl, places⟩
  | header | codeBlock | link | image => cases said
  | todo =>
    cases said
    cases same with
    | todo text => exact ⟨_, rfl, text, rfl, places⟩

end Token

/-- The same construct is reported in the same words. -/
lemma Unclosed.SameLines.message_eq {v w : Unclosed} (h : Unclosed.SameLines v w) :
    w.message = v.message := by
  unfold message
  rw [h.construct]

/-- A source with carriage returns before its line feeds has the tokens and the warnings of the source
without them: they are of the same kinds, hold the same up to line ends, and stand in the same lines and
columns. Its LaTeX text is the same up to line ends, too. -/
theorem tokenize_crlf {source : Text} (plain : '\r' ∉ source) :
    List.Forall₂ (fun t u : Token => u.kind = t.kind ∧ u.value.map Text.ofCrlf = t.value ∧
        t.span.start.Aligned u.span.start ∧ t.span.stop.Aligned u.span.stop)
      (tokenize false source).tokens (tokenize false source.toCrlf).tokens ∧
    List.Forall₂ (fun v w : Unclosed => w.message = v.message ∧
        v.span.start.Aligned w.span.start ∧ v.span.stop.Aligned w.span.stop)
      (tokenize false source).warnings (tokenize false source.toCrlf).warnings ∧
    ∃ latex latex', Latex.convert false source = .ok latex ∧
      Latex.convert false source.toCrlf = .ok latex' ∧ latex'.ofCrlf = latex := by
  obtain ⟨tokens, warnings⟩ := tokenize_sameLines (Text.SameLines.toCrlf plain)
  obtain ⟨document, made, latex⟩ := Document.exists_of_source source
  obtain ⟨document', made', latex'⟩ := Document.exists_of_source source.toCrlf
  have alike : List.Forall₂ (Token.Alike Text.SameLines Position.Aligned)
      (tokenize false source).tokens (tokenize false source.toCrlf).tokens := by
    refine ((List.forall₂_and_left _ _).2 ⟨Token.carries_of_source, tokens⟩).imp fun t u h => ?_
    obtain ⟨carries, same⟩ := h
    exact ⟨same.kind, same.span, fun _ => Token.content_sameLines same carries,
      fun _ => Token.item_sameLines same carries⟩
  obtain ⟨other, again, same⟩ := Document.ofTokens_alike alike ⟨rfl, rfl⟩ made
  obtain rfl : document' = other := Except.ok.inj (made'.symm.trans again)
  refine ⟨?_, ?_, _, _, latex, latex', same.toLatex.ofCrlf_eq⟩
  · exact tokens.imp fun t u h => ⟨h.kind, h.value.map_ofCrlf, h.span.start, h.span.stop⟩
  · exact warnings.imp fun v w h => ⟨h.message_eq, h.span.start, h.span.stop⟩

/-- Line ends in blocks of every kind, and in a link that is left open. -/
theorem tokenize_crlf_blocks :
    ∃ source, '\r' ∉ source ∧
      (tokenize false source).tokens.map Token.kind =
        [.header, .marker .bullet, .todoItem, .codeBlock, .styled .table, .styled .quote,
          .styled .paragraph, .lineBreak, .link, .ending] ∧
      List.Forall₂ (fun t u : Token => u.kind = t.kind ∧ u.value.map Text.ofCrlf = t.value ∧
          t.span.start.Aligned u.span.start ∧ t.span.stop.Aligned u.span.stop)
        (tokenize false source).tokens (tokenize false source.toCrlf).tokens ∧
      List.Forall₂ (fun v w : Unclosed => w.message = v.message ∧
          v.span.start.Aligned w.span.start ∧ v.span.stop.Aligned w.span.stop)
        (tokenize false source).warnings (tokenize false source.toCrlf).warnings ∧
      ∃ latex latex', Latex.convert false source = .ok latex ∧
        Latex.convert false source.toCrlf = .ok latex' ∧ latex'.ofCrlf = latex :=
  have plain : '\r' ∉ "# a\n- [x] b\n```c\nd\ne\n```\n|f\n> g\n>\nh\n\n[i](j\nk".toList := by decide
  ⟨_, plain, rfl, tokenize_crlf plain⟩

end Marktex
