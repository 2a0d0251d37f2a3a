import Marktex.Latex.Render
import Marktex.Proofs.Document.Acceptance
import Marktex.Proofs.Document.Quoting
import Marktex.Proofs.Latex.Brackets

/-!
# Optional arguments

Where a command takes a bracket of the text for its argument, what stands in the brackets is lost. The bracket
is the first character of an item without a box, of a row of a table other than the first, or of the text behind
a line break (`Document.exposesOption`); for documents without backslashes there are no other such places
(`Document.readsOption_toLatex`). What stands behind a line break is found node by node, since a node need not
write anything.
-/

namespace Marktex

namespace Content

/-- Whether a node is text that starts with a bracket. -/
def bracketFirst : Content → Bool
  | .styled .paragraph s => Latex.bracketFirst s
  | .styled .plain s => Latex.bracketFirst s
  | _ => false

/-- Whether nothing but spaces and line feeds is written for a node. -/
def isGap : Content → Bool
  | .styled .paragraph s => s.all Latex.isGap
  | .styled .plain s => s.all Latex.isGap
  | .styled .table s => (Latex.keptRows s).isEmpty
  | .list _ items => items.isEmpty
  | .foreign .. => true
  | _ => false

/-- Whether the last command of a node looks for an argument in what follows the node. -/
def looksOn : Content → Bool
  | .lineBreak => true
  | .item e => e.looksOn
  | _ => false

/-- Whether a command of a node takes a bracket of its own text for an argument. -/
def exposesOption : Content → Bool
  | .styled .table s => (Latex.keptRows s).tail.any fun row => row.head?.any Latex.bracketFirst
  | .list _ items => items.any fun item => item.entry.exposesOption
  | .item e => e.exposesOption
  | _ => false

end Content

namespace Document

/-- Whether the first text of some nodes starts with a bracket, and nothing but spaces and line feeds is
written before it. -/
def bracketLeads : List Node → Bool
  | [] => false
  | node :: rest => node.content.bracketFirst || node.content.isGap && bracketLeads rest

/-- Whether a command takes a bracket of some text for its argument where nodes are written one after the
other. -/
def exposesOption : List Node → Bool
  | [] => false
  | node :: rest =>
    node.content.exposesOption || node.content.looksOn && bracketLeads rest || exposesOption rest

/-- A node is exposed by its own text, or by the nodes behind it. -/
lemma exposesOption_iff {nodes : List Node} :
    exposesOption nodes = true ↔
      (∃ node ∈ nodes, node.content.exposesOption = true) ∨
      ∃ node below, node :: below <:+ nodes ∧ node.content.looksOn = true ∧ bracketLeads below = true := by
  induction nodes with
  | nil => simp [exposesOption]
  | cons node rest ih =>
    have behind {P : Node → List Node → Prop} :
        (∃ n below, n :: below <:+ node :: rest ∧ P n below) ↔
          P node rest ∨ ∃ n below, n :: below <:+ rest ∧ P n below := by
      constructor
      · rintro ⟨n, below, stands, found⟩
        obtain same | later := List.suffix_cons_iff.1 stands
        · obtain ⟨rfl, rfl⟩ := List.cons.inj same
          exact .inl found
        · exact .inr ⟨n, below, later, found⟩
      · rintro (found | ⟨n, below, later, found⟩)
        · exact ⟨node, rest, List.suffix_rfl, found⟩
        · exact ⟨n, below, later.trans (List.suffix_cons node rest), found⟩
    rw [exposesOption, Bool.or_eq_true, Bool.or_eq_true, Bool.and_eq_true, ih, List.exists_mem_cons_iff, behind]
    exact or_or_or_comm

end Document

namespace Latex

/-- What the form of a node starts with. -/
lemma bracketFirst_render (c : Content) (t : Text) :
    bracketFirst (c.render ++ '\n' :: t) = (c.bracketFirst || c.isGap && bracketFirst t) := by
  cases c with
  | styled style s =>
    cases style with
    | paragraph =>
      show bracketFirst (escape s ++ ['\n', '\n'] ++ '\n' :: t) = _
      rw [List.append_assoc]
      exact bracketFirst_escape s ('\n' :: '\n' :: '\n' :: t)
    | plain => exact bracketFirst_escape s ('\n' :: t)
    | table =>
      show bracketFirst (table s ++ '\n' :: t) = ((keptRows s).isEmpty && bracketFirst t)
      cases kept : keptRows s with
      | nil =>
        rw [table, kept]
        rfl
      | cons first rows =>
        rw [table, kept]
        exact bracketFirst_environment _ _ _ _
    | _ => rfl
  | list style items =>
    cases items with
    | nil => rfl
    | cons item items => exact bracketFirst_environment _ _ _ _
  | item e => exact bracketFirst_item e _
  | codeBlock => exact bracketFirst_environment _ _ _ _
  | image => exact bracketFirst_environment _ _ _ _
  | _ => rfl

/-- Texts that are not tables have neither items nor broken lines. -/
lemma silent_style {style : Style} {s : Text} (plain : '\\' ∉ s) (other : style ≠ .table) :
    Silent (style.render s) := by
  have written : Silent s := silent_of_not_mem plain
  have escaped : Silent (escape s) := silent_escape plain
  cases style with
  | paragraph => exact escaped.append (silent_of_not_mem (by decide))
  | plain => exact escaped
  | bold | italic | code => exact silent_command (by decide) (fun _ => rfl) escaped
  | quote =>
    exact silent_environment (by decide) (silent_of_not_mem (by decide)) (List.forall_mem_singleton.2 escaped)
  | table => exact absurd rfl other
  | inlineMath =>
    have dollar : Silent ['$'] := silent_of_not_mem (by decide)
    exact (dollar.append written).append dollar
  | displayMath =>
    have begins : Silent "\\[\n".toList := silent_backslash (s := "[\n".toList) (by decide) fun _ => rfl
    have feed : Silent ['\n'] := silent_of_not_mem (by decide)
    have ends : Silent "\\]".toList := silent_backslash (s := [']']) (by decide) fun _ => rfl
    exact (begins.append written).append (feed.append ends)

/-- The command of a header reads no option. -/
lemma silent_header (level : Int) {s : Text} (plain : '\\' ∉ s) :
    Silent (command (Content.sectionCommand level) (escape s)) := by
  unfold Content.sectionCommand
  split_ifs <;> exact silent_command (by decide) (fun _ => rfl) (silent_escape plain)

/-- A code block reads no option. -/
lemma silent_codeBlock {language code : Text} (plain : '\\' ∉ language) (plain' : '\\' ∉ code) :
    Silent (Content.codeBlock language code).render := by
  have option : Silent (Content.languageOption language) := by
    apply silent_of_not_mem
    unfold Content.languageOption
    split <;> simp [plain]
  exact silent_environment (by decide) option (List.forall_mem_singleton.2 (silent_of_not_mem plain'))

/-- A link reads no option. -/
lemma silent_link {s url : Text} (plain : '\\' ∉ s) (plain' : '\\' ∉ url) :
    Silent (Content.link s url).render := by
  have address : Silent (command "href" url) :=
    silent_command (by decide) (fun _ => rfl) (silent_of_not_mem plain')
  exact address.append (silent_escape plain).braced

/-- The commands of an image read no option. -/
lemma silent_image {alt source : Text} (plain : '\\' ∉ alt) (plain' : '\\' ∉ source) :
    Silent (Content.image alt source).render := by
  have centering : Silent "\\centering".toList :=
    silent_backslash (s := "centering".toList) (by decide) fun _ => rfl
  have width : Silent "\\includegraphics[width=0.8\\textwidth]".toList :=
    (silent_backslash (s := "includegraphics[width=0.8".toList) (by decide) fun _ => rfl).append
      (silent_backslash (s := "textwidth]".toList) (by decide) fun _ => rfl)
  have file := width.append (silent_of_not_mem plain').braced
  have caption : Silent (command "caption" (escape alt)) :=
    silent_command (by decide) (fun _ => rfl) (silent_escape plain)
  refine silent_environment (by decide) (silent_of_not_mem (by decide)) ?_
  exact List.forall_mem_cons.2 ⟨centering, List.forall_mem_cons.2 ⟨file, List.forall_mem_singleton.2 caption⟩⟩

/-- What is found in the form of a node. -/
lemma readsOption_render {c : Content} (plain : ∀ s ∈ c.texts, '\\' ∉ s) (t : Text) :
    readsOption (c.render ++ '\n' :: t) =
      (c.exposesOption || c.looksOn && bracketFirst t || readsOption t) := by
  cases c with
  | styled style s =>
    have here : '\\' ∉ s := plain s List.mem_cons_self
    have silent : style ≠ .table → Silent (style.render s) := silent_style here
    cases style with
    | table =>
      rw [show Content.looksOn (.styled .table s) = false from rfl, Bool.false_and, Bool.or_false]
      exact readsOption_table here t
    | _ => exact silent_feed (silent nofun) t
  | header level s => exact silent_feed (silent_header level (plain s List.mem_cons_self)) t
  | codeBlock language code =>
    have both : '\\' ∉ language ∧ '\\' ∉ code := by simpa [Content.texts] using plain
    exact silent_feed (silent_codeBlock both.1 both.2) t
  | link s url =>
    have both : '\\' ∉ s ∧ '\\' ∉ url := by simpa [Content.texts] using plain
    exact silent_feed (silent_link both.1 both.2) t
  | image alt source =>
    have both : '\\' ∉ alt ∧ '\\' ∉ source := by simpa [Content.texts] using plain
    exact silent_feed (silent_image both.1 both.2) t
  | list style items =>
    have entries : ∀ e ∈ items.map Item.entry, '\\' ∉ e.text := by
      simpa [Content.texts] using plain
    have known : '\\' ∉ style.environmentName.toList := by cases style <;> decide
    rw [show Content.looksOn (.list style items) = false from rfl, Bool.false_and, Bool.or_false]
    refine (readsOption_itemList known entries t).trans ?_
    rw [List.any_map]
    rfl
  | item e => exact readsOption_entry (plain e.text List.mem_cons_self) t
  | lineBreak => exact readsOption_break t
  | foreign => exact readsOption_cons (by decide) t

/-- What is found in the forms of some nodes on successive lines. -/
lemma readsOption_nodes {nodes : List Node} (plain : ∀ node ∈ nodes, ∀ s ∈ node.content.texts, '\\' ∉ s) :
    bracketFirst (nodes.flatMap fun node => node.content.render ++ ['\n']) = Document.bracketLeads nodes ∧
    readsOption (nodes.flatMap fun node => node.content.render ++ ['\n']) = Document.exposesOption nodes := by
  induction nodes with
  | nil => exact ⟨rfl, rfl⟩
  | cons node rest ih =>
    obtain ⟨here, later⟩ := List.forall_mem_cons.1 plain
    obtain ⟨first, found⟩ := ih later
    rw [List.flatMap_cons, List.append_assoc, List.singleton_append]
    constructor
    · rw [bracketFirst_render, first, Document.bracketLeads]
    · rw [readsOption_render here, first, found, Document.exposesOption]

end Latex

/-- In the LaTeX text of a document without backslashes, a command takes a bracket of some text for its argument
exactly where an item without a box, a row of a table behind another one, or the text behind a line break starts
with a bracket. -/
theorem Document.readsOption_toLatex {document : Document}
    (plain : ∀ node ∈ document.children, ∀ s ∈ node.content.texts, '\\' ∉ s) :
    Latex.readsOption document.toLatex = Document.exposesOption document.children := by
  rw [toLatex, Latex.render]
  by_cases some : document.children = []
  · rw [some]
    rfl
  · have forms : (document.children.map fun node => node.content.render) ≠ [] :=
      mt List.map_eq_nil_iff.1 some
    have lines := Text.join_feed forms []
    rw [List.append_nil, List.flatMap_map] at lines
    rw [← Latex.readsOption_concat, lines, (Latex.readsOption_nodes plain).2]

/-- A command takes a bracket of the text for its argument. For a source without backslashes this is so exactly
if in its document some item without a box starts with a bracket, or some row of a table other than the first
one, or the first text behind some line break that is not blank. -/
theorem convert_reads_option_iff {source : Text} (h : '\\' ∉ source) :
    ∃ document,
      Document.ofSource false source = .ok document ∧
      Latex.convert false source = .ok document.toLatex ∧
      (Latex.readsOption document.toLatex = true ↔
        (∃ node ∈ document.children, node.content.exposesOption = true) ∨
        ∃ node below, node :: below <:+ document.children ∧ node.content = .lineBreak ∧
          Document.bracketLeads below = true) := by
  obtain ⟨document, made, latex⟩ := Document.exists_of_source source
  refine ⟨document, Document.ofSource_of_ofTokens made, latex, ?_⟩
  -- there are no items outside of lists, and so only line breaks look on
  obtain ⟨bs, -, nodes⟩ := Document.blocks_of_ofTokens made
  have breaks : ∀ node ∈ document.children, node.content.looksOn = true ↔ node.content = .lineBreak := by
    intro node member
    obtain ⟨b, -, one⟩ := exists_of_forall₂ nodes node member
    cases content : node.content with
    | item entry => exact absurd content (one.ne_item entry)
    | _ => simp [Content.looksOn]
  rw [Document.readsOption_toLatex (Document.not_mem_texts made h (by decide)), Document.exposesOption_iff]
  refine or_congr_right (exists_congr fun node => exists_congr fun below => and_congr_right fun stands => ?_)
  rw [breaks node (stands.mem List.mem_cons_self)]

/-- A bracket on the next line but one, over a table of which nothing is written. -/
theorem convert_reads_option_over_table :
    ∃ (source : Text) (document : Document), '\\' ∉ source ∧
      Latex.convert false source = .ok document.toLatex ∧
      (¬∃ node ∈ document.children, node.content.exposesOption = true) ∧
      Latex.readsOption document.toLatex = true := by
  obtain ⟨source, plain, known⟩ : ∃ source : Text, '\\' ∉ source ∧
      ∀ document ∈ (Document.ofSource false source).toOption,
        (∀ node ∈ document.children, node.content.exposesOption = false) ∧
        document.children.head?.map Node.content = some .lineBreak ∧
        Document.bracketLeads document.children.tail = true :=
    ⟨"\n|-|\n[a".toList, by decide, by decide +kernel⟩
  obtain ⟨document, made, latex, found⟩ := convert_reads_option_iff plain
  obtain ⟨silent, front, leads⟩ := known document (by rw [made]; rfl)
  obtain ⟨node, first, breaks⟩ := Option.map_eq_some_iff.1 front
  have stands : node :: document.children.tail <:+ document.children := by
    rw [List.cons_head?_tail first]
  refine ⟨source, document, plain, latex, ?_, found.2 (.inr ⟨node, _, stands, breaks, leads⟩)⟩
  rintro ⟨n, member, exposed⟩
  cases (silent n member).symm.trans exposed

/-- A bracket at the start of an item. -/
theorem not_all_options_plain :
    ¬∀ source latex, '\\' ∉ source → Latex.convert false source = .ok latex →
      Latex.readsOption latex = false := by
  intro all
  have never := all "- [a] b".toList "\\begin\x7bitemize\x7d\n\\item [a] b\n\\end\x7bitemize\x7d".toList
    (by decide) rfl
  revert never
  decide

end Marktex
