import Marktex.Latex.Render
import Marktex.Proofs.Document.Quoting
import Marktex.Proofs.Text.Parts

/-!
# What rendered text is made of

All LaTeX text that is written for a document is made in few ways: escaped texts, texts that are written as
they are, commands, braces, line breaks at the ends of lines, and environments that hold no environments.
`Latex.Flow` is the grammar of such texts, and `Content.render_flow` says that the form of every node belongs
to it. Which texts may be written as they are is left open; this makes up the parameter of the grammar.
-/

namespace Marktex

namespace Latex

/-- Whether a character neither begins a command nor groups text. -/
def isPlain (c : Char) : Bool :=
  c != '\\' && c != '{' && c != '}'

/-- A text without the characters that begin a command or group text. -/
def Plain (s : Text) : Prop :=
  ∀ c ∈ s, isPlain c = true

instance (s : Text) : Decidable (Plain s) :=
  List.decidableBAll (fun c => isPlain c = true) s

/-- The commands that are written, apart from those that begin and end environments. -/
def commandNames : List String :=
  ["section", "subsection", "subsubsection", "paragraph", "subparagraph", "textbf", "textit", "texttt",
    "href", "centering", "includegraphics", "textwidth", "caption", "item", "square", "boxtimes", "hline",
    "[", "]"]

variable (V : Text → Prop)

/-- Texts without environments and line breaks, where the texts with `V` are written as they are. -/
inductive Inline : Text → Prop where
  | plain {s} :
    Plain s →
    Inline s
  | verbatim {s} :
    V s →
    Inline s
  | escaped {s} :
    '\\' ∉ s →
    Inline (escape s)
  | command (name) :
    name ∈ commandNames →
    Inline ('\\' :: name.toList)
  | braced {s} :
    Inline s →
    Inline (braced s)
  | append {s t} :
    Inline s →
    Inline t →
    Inline (s ++ t)

/-- Texts without environments, with a line break at most at the end. -/
inductive Line : Text → Prop where
  | inline {s} :
    Inline V s →
    Line s
  | broken {s} :
    Inline V s →
    Line (s ++ "\\\\".toList)

/-- Lines and environments, one after the other. In an environment there are lines only. -/
inductive Flow : Text → Prop where
  | line {s} :
    Line V s →
    Flow s
  | environment {name options lines} :
    Plain name.toList →
    Inline V options →
    (∀ s ∈ lines, Line V s) →
    Flow (environment name options lines)
  | join {parts} :
    (∀ s ∈ parts, Flow s) →
    Flow (Text.join ['\n'] parts)

variable {V}

/-- Nothing is a text. -/
lemma Inline.nil : Inline V [] :=
  .plain (by decide)

/-- Parts that stay within a line do so when they are joined by a plain text. -/
lemma Inline.join {separator : Text} (plain : Plain separator) {parts : List Text}
    (h : ∀ s ∈ parts, Inline V s) : Inline V (Text.join separator parts) :=
  Text.join_of_append .nil .append (.plain plain) h

/-- A command with an argument. -/
lemma Inline.applied (name : String) {s : Text} (known : name ∈ commandNames) (h : Inline V s) :
    Inline V (Latex.command name s) :=
  (Inline.command name known).append h.braced

/-- The line of a row is broken at its end. -/
lemma tableRow_line {row : List Text} (h : ∀ cell ∈ row, '\\' ∉ cell) : Line V (tableRow row) := by
  have cells : Inline V (Text.join " & ".toList (row.map escape)) := by
    refine .join (by decide) fun s member => ?_
    obtain ⟨cell, found, rfl⟩ := List.mem_map.1 member
    exact .escaped (h cell found)
  have row := Line.broken (cells.append (.plain (s := " ".toList) (by decide)))
  rwa [List.append_assoc] at row

/-- A table is an environment with rules and rows as its lines, or nothing. -/
lemma table_flow {s : Text} (h : '\\' ∉ s) : Flow V (table s) := by
  have lines : ∀ row ∈ keptRows s, Line V (tableRow row) := fun row kept =>
    tableRow_line fun cell member inside => h (mem_of_keptRows kept member inside)
  unfold table
  cases rows : keptRows s with
  | nil => exact .line (.inline .nil)
  | cons first more =>
    rw [rows] at lines
    have columns : Plain (List.replicate first.length 'c') := by
      intro c member
      rw [List.eq_of_mem_replicate member]
      decide
    have rule : Line V "\\hline".toList := .inline (.command "hline" (by decide))
    refine .environment (by decide) (.braced (.plain columns)) fun line member => ?_
    rcases List.mem_append.1 member with above | below
    · rcases List.mem_cons.1 above with rfl | inner
      · exact rule
      · obtain ⟨row, found, rfl⟩ := List.mem_map.1 inner
        exact lines row found
    · rw [List.mem_singleton.1 below]
      exact rule

end Latex

variable {V : Text → Prop}

namespace Content

/-- The texts of a node that are written as they are: addresses, code and math. -/
def verbatim : Content → List Text
  | .styled .inlineMath s => [s]
  | .styled .displayMath s => [s]
  | .codeBlock language code => [language, code]
  | .link _ url => [url]
  | .image _ source => [source]
  | _ => []

/-- A text that is written as it is belongs to the node. -/
lemma verbatim_subset_texts (c : Content) : c.verbatim ⊆ c.texts := by
  cases c with
  | styled style s => cases style <;> simp [verbatim, texts]
  | _ => simp [verbatim, texts]

end Content

namespace Latex

/-- The box of an item stays within a line. -/
lemma label_inline (ticked : Bool) : Inline V (Entry.label ticked) := by
  have dollar : Inline V ['$'] := .plain (by decide)
  cases ticked with
  | false => exact (dollar.append (.command "square" (by decide))).append dollar
  | true => exact (dollar.append (.command "boxtimes" (by decide))).append dollar

/-- An item is a line. -/
lemma item_inline {e : Entry} (h : '\\' ∉ e.text) : Inline V e.render := by
  have item : Inline V "\\item".toList := .command "item" (by decide)
  cases box : e.ticked with
  | none =>
    have form : e.render = ("\\item".toList ++ " ".toList) ++ escape e.text := by
      rw [Entry.render, box]
      rfl
    rw [form]
    exact (item.append (.plain (by decide))).append (.escaped h)
  | some ticked =>
    have form : e.render =
        ((("\\item".toList ++ "[".toList) ++ Entry.label ticked) ++ "] ".toList) ++ escape e.text := by
      rw [Entry.render, box]
      rfl
    rw [form]
    exact (((item.append (.plain (by decide))).append (label_inline ticked)).append
      (.plain (by decide))).append (.escaped h)

/-- A list is an environment with its items as lines, or nothing. -/
lemma itemList_flow {name : String} {entries : List Entry} (plain : Plain name.toList)
    (h : ∀ e ∈ entries, '\\' ∉ e.text) : Flow V (itemList name entries) := by
  unfold itemList
  split
  · exact .line (.inline .nil)
  · refine .environment plain .nil fun line member => ?_
    obtain ⟨e, found, rfl⟩ := List.mem_map.1 member
    exact .inline (item_inline (h e found))

/-- The option that names a language stays within a line. -/
lemma languageOption_inline {language : Text} (h : V language) :
    Inline V (Content.languageOption language) := by
  unfold Content.languageOption
  split
  · exact .nil
  · exact ((Inline.plain (by decide)).append (.verbatim h)).append (.plain (by decide))

/-- A node that holds a text is a line or an environment. -/
lemma style_flow {style : Style} {s : Text} (written : ∀ t ∈ (Content.styled style s).verbatim, V t)
    (h : '\\' ∉ s) : Flow V (style.render s) := by
  have escaped : Inline V (escape s) := .escaped h
  cases style with
  | paragraph => exact .line (.inline (escaped.append (.plain (by decide))))
  | plain => exact .line (.inline escaped)
  | bold | italic | code => exact .line (.inline (.applied _ (by decide) escaped))
  | quote =>
    refine .environment (by decide) .nil fun line member => ?_
    rw [List.mem_singleton.1 member]
    exact .inline escaped
  | table => exact table_flow h
  | inlineMath =>
    have dollar : Inline V ['$'] := .plain (by decide)
    exact .line (.inline ((dollar.append (.verbatim (written s List.mem_cons_self))).append dollar))
  | displayMath =>
    have feed : Inline V ['\n'] := .plain (by decide)
    have begins := (Inline.command (V := V) "[" (by decide)).append feed
    have ends := feed.append (Inline.command "]" (by decide))
    exact .line (.inline ((begins.append (.verbatim (written s List.mem_cons_self))).append ends))

end Latex

/-- Texts without a backslash make forms of the grammar. -/
theorem Content.render_flow {c : Content} (written : ∀ s ∈ c.verbatim, V s)
    (plain : ∀ s ∈ c.texts, '\\' ∉ s) : Latex.Flow V c.render := by
  cases c with
  | styled style s => exact Latex.style_flow written (plain s List.mem_cons_self)
  | header level s =>
    have known : sectionCommand level ∈ Latex.commandNames := by
      unfold sectionCommand
      split_ifs <;> decide
    exact .line (.inline (.applied _ known (.escaped (plain s List.mem_cons_self))))
  | codeBlock language code =>
    have body : V code := written code (List.mem_cons_of_mem language List.mem_cons_self)
    refine .environment (by decide) (Latex.languageOption_inline (written language List.mem_cons_self))
      fun line member => ?_
    rw [List.mem_singleton.1 member]
    exact .inline (.verbatim body)
  | link s url =>
    have address := Latex.Inline.applied "href" (by decide)
      (.verbatim (written url List.mem_cons_self))
    exact .line (.inline (address.append (.braced (.escaped (plain s List.mem_cons_self)))))
  | image alt source =>
    have graphics : Latex.Inline V "\\includegraphics[width=0.8\\textwidth]".toList :=
      (((Latex.Inline.command "includegraphics" (by decide)).append
        (.plain (s := "[width=0.8".toList) (by decide))).append
        (.command "textwidth" (by decide))).append (.plain (s := "]".toList) (by decide))
    have file := graphics.append (.braced (.verbatim (written source List.mem_cons_self)))
    have caption := Latex.Inline.applied (V := V) "caption" (by decide)
      (.escaped (plain alt List.mem_cons_self))
    refine .environment (by decide) (.plain (by decide)) ?_
    exact List.forall_mem_cons.2 ⟨.inline (.command "centering" (by decide)),
      List.forall_mem_cons.2 ⟨.inline file, List.forall_mem_singleton.2 (.inline caption)⟩⟩
  | list style items =>
    refine Latex.itemList_flow (by cases style <;> decide) fun e member => ?_
    obtain ⟨item, found, rfl⟩ := List.mem_map.1 member
    exact plain item.entry.text (List.mem_map_of_mem found)
  | item entry => exact .line (.inline (Latex.item_inline (plain entry.text List.mem_cons_self)))
  | lineBreak => exact .line (.broken .nil)
  | foreign => exact .line (.inline .nil)

/-- The forms of the nodes stand on successive lines. -/
lemma Document.toLatex_flow {document : Document}
    (written : ∀ node ∈ document.children, ∀ s ∈ node.content.verbatim, V s)
    (plain : ∀ node ∈ document.children, ∀ s ∈ node.content.texts, '\\' ∉ s) :
    Latex.Flow V document.toLatex := by
  refine .join fun s member => ?_
  obtain ⟨node, found, rfl⟩ := List.mem_map.1 member
  exact Content.render_flow (written node found) (plain node found)

end Marktex
