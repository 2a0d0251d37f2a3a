import Mathlib.Tactic.FinCases
import Marktex.Proofs.Document.Acceptance
import Marktex.Proofs.Latex.Escape
import Marktex.Proofs.Latex.Form
import Marktex.Proofs.Source.Lookahead

/-!
# Balanced text

A source without backslashes makes balanced LaTeX (`convert_balanced`): each environment ends, with its own
name, before another one begins, and braces match if no text that is written as it is holds one.

Environments are found by their bounds, wherever a text looks like one. Inline text has no bounds, also
together with any text behind it. A line that is broken at its end keeps this up only before a line feed, as
the backslash of the break could begin a command with the letters that follow; so for the texts that are
joined by line feeds it is said what their bounds are there (`Latex.Marks`). For braces there is no such
difference, since the two backslashes of a break belong together.
-/

namespace Marktex

namespace Latex

/-- One end of an environment. -/
structure Bound where
  /-- Whether the environment begins here. -/
  begins : Bool
  /-- The name that stands in braces there; none if no braces follow. -/
  name : Option Text
  deriving DecidableEq, Repr

/-- The text in the braces that a text starts with. -/
def bracedName? (s : Text) : Option Text :=
  match s with
  | '{' :: r => (Text.cut? ['}'] r).map Prod.fst
  | _ => none

/-- The end of an environment that a text starts with. -/
def bound? (s : Text) : Option Bound :=
  match s with
  | '\\' :: 'b' :: 'e' :: 'g' :: 'i' :: 'n' :: r => some ⟨true, bracedName? r⟩
  | '\\' :: 'e' :: 'n' :: 'd' :: r => some ⟨false, bracedName? r⟩
  | _ => none

/-- The ends of environments in a text, in order. -/
def bounds : Text → List Bound
  | [] => []
  | c :: s => (bound? (c :: s)).toList ++ bounds s

/-- Each environment is ended, by its own name, before another one begins, and nothing else is ended. -/
inductive Flat : List Bound → Prop where
  | nil :
    Flat []
  | environment {name bs} :
    Flat bs →
    Flat (⟨true, some name⟩ :: ⟨false, some name⟩ :: bs)

/-- How many braces are open after a text if `depth` were open before it; none if at some place more are
closed than are open. A backslash takes the character after it along. -/
def depth? (depth : Nat) : Text → Option Nat
  | [] => some depth
  | '\\' :: _ :: s => depth? depth s
  | '{' :: s => depth? (depth + 1) s
  | '}' :: s =>
    match depth with
    | 0 => none
    | depth + 1 => depth? depth s
  | _ :: s => depth? depth s

/-- The name of a command is plain. -/
lemma plain_of_commandNames {name : String} (known : name ∈ commandNames) : Plain name.toList := by
  unfold commandNames at known
  fin_cases known <;> decide

/-- Plain texts have no backslash. -/
lemma Plain.not_mem {s : Text} (h : Plain s) : '\\' ∉ s :=
  fun inside => absurd (h _ inside) (by decide)

section Bounds

variable {V : Text → Prop}

/-- A character at which no bound stands is passed. -/
lemma bounds_of_bound?_eq_none {c : Char} {t : Text} (none : bound? (c :: t) = none) :
    bounds (c :: t) = bounds t := by
  rw [bounds, none]
  rfl

/-- No environment begins or ends at other characters than backslashes. -/
lemma bounds_cons {c : Char} (h : c ≠ '\\') (t : Text) : bounds (c :: t) = bounds t := by
  apply bounds_of_bound?_eq_none
  unfold bound?
  split <;> simp_all

/-- No environment begins or ends where another command is written. -/
lemma bound?_command {name : String} (known : name ∈ commandNames) (t : Text) :
    bound? ('\\' :: (name.toList ++ t)) = none := by
  unfold commandNames at known
  fin_cases known <;> rfl

/-- A special character that is escaped is no bound. -/
lemma bound?_special {c : Char} (h : isSpecial c = true) (t : Text) : bound? ('\\' :: c :: t) = none := by
  unfold bound?
  split <;> simp_all [isSpecial, specials]

/-- A text without a backslash has no bounds. -/
lemma bounds_neutral {s : Text} (h : '\\' ∉ s) : Neutral bounds s :=
  .of_forall fun _ inside => bounds_cons (ne_of_mem_of_not_mem inside h)

/-- Text within a line has no bounds. -/
lemma Inline.bounds_neutral {s : Text} (h : Inline V s) (written : ∀ s, V s → '\\' ∉ s) :
    Neutral bounds s := by
  induction h with
  | plain plain => exact Latex.bounds_neutral plain.not_mem
  | verbatim v => exact Latex.bounds_neutral (written _ v)
  | @escaped s plain =>
    refine .escape (fun c special t => ?_) fun c inside _ => bounds_cons (ne_of_mem_of_not_mem inside plain)
    -- the backslash that is put in meets a special character, never one of the text
    have ne : c ≠ '\\' := by
      rintro rfl
      cases special
    rw [bounds_of_bound?_eq_none (bound?_special special t), bounds_cons ne]
  | command name known =>
    intro t
    have none : bound? ('\\' :: (name.toList ++ t)) = none := bound?_command known t
    exact (bounds_of_bound?_eq_none none).trans
      (Latex.bounds_neutral (plain_of_commandNames known).not_mem t)
  | braced _ ih =>
    exact ((Latex.bounds_neutral (s := ['{']) (by decide)).append ih).append
      (Latex.bounds_neutral (s := ['}']) (by decide))
  | append _ _ ih ih' => exact ih.append ih'

/-- The bounds of a text are `bs`, also where a line feed follows. -/
structure Marks (s : Text) (bs : List Bound) : Prop where
  whole : bounds s = bs
  onward : ∀ t, bounds (s ++ '\n' :: t) = bs ++ bounds t

/-- Texts on successive lines. -/
lemma Marks.feed {s t : Text} {bs cs : List Bound} (h : Marks s bs) (h' : Marks t cs) :
    Marks (s ++ '\n' :: t) (bs ++ cs) := by
  constructor
  · rw [h.onward, h'.whole]
  · intro u
    rw [List.append_assoc, List.cons_append, h.onward, h'.onward, List.append_assoc]

/-- A text without bounds before a text whose bounds are known. -/
lemma Marks.after {s t : Text} {bs : List Bound} (h : Neutral bounds s) (h' : Marks t bs) :
    Marks (s ++ t) bs := by
  constructor
  · rw [h, h'.whole]
  · intro u
    rw [List.append_assoc, h, h'.onward]

/-- A text that is the same whatever follows it. -/
lemma Marks.of_forall {s : Text} {bs : List Bound} (h : ∀ t, bounds (s ++ t) = bs ++ bounds t) :
    Marks s bs := by
  constructor
  · simpa [bounds] using h []
  · intro t
    rw [h, bounds_cons (by decide)]

/-- The empty text has no bounds. -/
lemma Marks.nil : Marks [] [] :=
  .of_forall fun _ => rfl

/-- A line has no bounds. -/
lemma Line.marks {s : Text} (h : Line V s) (written : ∀ s, V s → '\\' ∉ s) : Marks s [] := by
  cases h with
  | inline inline => exact .of_forall (inline.bounds_neutral written)
  | broken inline =>
    refine .after (inline.bounds_neutral written) ⟨rfl, fun t => ?_⟩
    -- neither of the two backslashes begins a command
    rw [show "\\\\".toList ++ '\n' :: t = '\\' :: '\\' :: '\n' :: t from rfl,
      bounds_of_bound?_eq_none rfl, bounds_of_bound?_eq_none rfl, bounds_cons (by decide)]
    rfl

/-- The name in braces at one end of an environment. -/
lemma bracedName?_braced {s : Text} (plain : Plain s) (t : Text) :
    bracedName? (braced s ++ t) = some s := by
  have closes : '}' ∉ s := fun inside => absurd (plain _ inside) (by decide)
  have form : braced s ++ t = '{' :: (s ++ '}' :: t) := by simp [braced]
  rw [form, bracedName?, Text.cut?_of_not_mem t closes]
  rfl

/-- A plain text in braces has no bounds. -/
lemma bounds_braced {s : Text} (plain : Plain s) : Neutral bounds (braced s) :=
  Inline.bounds_neutral (V := fun _ => False) (.braced (.plain plain)) fun _ never => never.elim

/-- A command that begins or ends environments is the only bound in its text. -/
lemma bounds_command {name : String} {begins : Bool}
    (front : ∀ t, bound? ('\\' :: (name.toList ++ t)) = some ⟨begins, bracedName? t⟩)
    (known : Plain name.toList) {s : Text} (plain : Plain s) (t : Text) :
    bounds (command name s ++ t) = ⟨begins, some s⟩ :: bounds t := by
  have form : command name s ++ t = '\\' :: (name.toList ++ (braced s ++ t)) := by simp [command]
  have behind : bounds (name.toList ++ (braced s ++ t)) = bounds t := by
    rw [Latex.bounds_neutral known.not_mem, bounds_braced plain]
  rw [form, bounds, front, bracedName?_braced plain, behind]
  rfl

/-- Lines without bounds before a text. -/
lemma Marks.lines {lines : List Text} {t : Text} {bs : List Bound} (inner : ∀ s ∈ lines, Marks s [])
    (h : Marks t bs) : Marks (Text.join ['\n'] (lines ++ [t])) bs := by
  induction lines with
  | nil => simpa [Text.join] using h
  | cons s lines ih =>
    obtain ⟨here, later⟩ := List.forall_mem_cons.1 inner
    have more : lines ++ [t] ≠ [] := List.concat_ne_nil t lines
    rw [List.cons_append, Text.join, List.intercalate_cons_of_ne_nil more, List.append_assoc]
    exact here.feed (ih later)

/-- The bounds of an environment are its own. -/
lemma environment_marks {name : String} {options : Text} {lines : List Text} (plain : Plain name.toList)
    (neutral : Neutral bounds options) (inner : ∀ s ∈ lines, Marks s []) :
    Marks (environment name options lines)
      [⟨true, some name.toList⟩, ⟨false, some name.toList⟩] := by
  have opens (t : Text) : bounds (opening name ++ t) = ⟨true, some name.toList⟩ :: bounds t :=
    bounds_command (fun _ => rfl) (by decide) plain t
  have closes (t : Text) : bounds (closing name ++ t) = ⟨false, some name.toList⟩ :: bounds t :=
    bounds_command (fun _ => rfl) (by decide) plain t
  have front : Marks (opening name ++ options) [⟨true, some name.toList⟩] :=
    .of_forall fun t => by rw [List.append_assoc, opens, neutral, List.singleton_append]
  have back : Marks (closing name) [⟨false, some name.toList⟩] := .of_forall closes
  have more : lines ++ [closing name] ≠ [] := List.concat_ne_nil _ lines
  rw [environment, List.cons_append, Text.join, List.intercalate_cons_of_ne_nil more, List.append_assoc]
  exact front.feed (back.lines inner)

/-- Environments that stand one after the other are flat if they are on each side. -/
lemma Flat.append {bs cs : List Bound} (h : Flat bs) (h' : Flat cs) : Flat (bs ++ cs) := by
  induction h with
  | nil => exact h'
  | environment _ ih => exact .environment ih

/-- Texts on successive lines are flat if each of them is. -/
lemma exists_flat_join {parts : List Text} (h : ∀ s ∈ parts, ∃ bs, Flat bs ∧ Marks s bs) :
    ∃ bs, Flat bs ∧ Marks (Text.join ['\n'] parts) bs := by
  induction parts with
  | nil => exact ⟨[], .nil, .nil⟩
  | cons s parts ih =>
    obtain ⟨⟨bs, flat, marks⟩, later⟩ := List.forall_mem_cons.1 h
    cases parts with
    | nil => exact ⟨bs, flat, by simpa [Text.join] using marks⟩
    | cons t parts =>
      obtain ⟨cs, flat', marks'⟩ := ih later
      refine ⟨bs ++ cs, flat.append flat', ?_⟩
      rw [Text.join, List.intercalate_cons_cons, List.append_assoc]
      exact marks.feed marks'

/-- In a flow of lines and environments each environment is ended before another one begins. -/
lemma Flow.exists_flat {s : Text} (h : Flow V s) (written : ∀ s, V s → '\\' ∉ s) :
    ∃ bs, Flat bs ∧ Marks s bs := by
  induction h with
  | line line => exact ⟨[], .nil, line.marks written⟩
  | environment plain options lines =>
    exact ⟨_, .environment .nil, environment_marks plain (options.bounds_neutral written)
      fun s member => (lines s member).marks written⟩
  | join _ ih => exact exists_flat_join ih

end Bounds

section Depth

variable {V : Text → Prop}

/-- Reading a text leaves the depth of braces as it was. -/
def Level (s : Text) : Prop :=
  ∀ depth, Neutral (depth? depth) s

/-- Only backslashes and braces change the depth. -/
lemma depth?_cons {c : Char} (h : isPlain c = true) (depth : Nat) (t : Text) :
    depth? depth (c :: t) = depth? depth t := by
  have known : (c ≠ '\\' ∧ c ≠ '{') ∧ c ≠ '}' := by simpa [isPlain] using h
  rw [depth?] <;> simp [known]

/-- Text without braces and backslashes leaves the depth of braces as it is. -/
lemma level_of_plain {s : Text} (h : Plain s) : Level s :=
  fun depth => .of_forall fun c inside => depth?_cons (h c inside) depth

/-- Two texts that leave the depth of braces as it is do so together. -/
lemma Level.append {s t : Text} (h : Level s) (h' : Level t) : Level (s ++ t) :=
  fun depth => (h depth).append (h' depth)

/-- Braces around a text are of the same depth. -/
lemma Level.braced {s : Text} (h : Level s) : Level (braced s) := by
  intro depth t
  have form : Latex.braced s ++ t = '{' :: (s ++ '}' :: t) := by simp [Latex.braced]
  rw [form, depth?, h (depth + 1), depth?]

/-- A backslash before a text with one more character. -/
lemma level_backslash {c : Char} {s : Text} (h : Level s) : Level ('\\' :: c :: s) := by
  intro depth t
  rw [List.cons_append, List.cons_append, depth?, h depth]

/-- Escaped text leaves the depth of braces as it is. -/
lemma level_escape {s : Text} (h : '\\' ∉ s) : Level (escape s) := by
  intro depth
  refine .escape (fun c _ t => by rw [depth?]) fun c inside other t => depth?_cons ?_ depth t
  have ne : c ≠ '\\' := ne_of_mem_of_not_mem inside h
  simp_all [isPlain, isSpecial, specials]

/-- A command whose name is plain. -/
lemma level_command {name : Text} (plain : Plain name) (front : name ≠ []) : Level ('\\' :: name) := by
  obtain ⟨c, s, rfl⟩ := List.exists_cons_of_ne_nil front
  exact level_backslash (level_of_plain (List.forall_mem_cons.1 plain).2)

/-- The names of commands are not empty. -/
lemma ne_nil_of_commandNames {name : String} (known : name ∈ commandNames) : name.toList ≠ [] := by
  unfold commandNames at known
  fin_cases known <;> decide

/-- Text within a line leaves the depth of braces as it is. -/
lemma Inline.level {s : Text} (h : Inline V s) (written : ∀ s, V s → Plain s) : Level s := by
  induction h with
  | plain plain => exact level_of_plain plain
  | verbatim v => exact level_of_plain (written _ v)
  | escaped plain => exact level_escape plain
  | command name known =>
    exact level_command (plain_of_commandNames known) (ne_nil_of_commandNames known)
  | braced _ ih => exact ih.braced
  | append _ _ ih ih' => exact ih.append ih'

/-- A line leaves the depth of braces as it is. -/
lemma Line.level {s : Text} (h : Line V s) (written : ∀ s, V s → Plain s) : Level s := by
  cases h with
  | inline inline => exact inline.level written
  | broken inline => exact (inline.level written).append (level_backslash fun _ _ => rfl)

/-- Lines that leave the depth of braces as it is do so one after the other. -/
lemma level_join {parts : List Text} (h : ∀ s ∈ parts, Level s) : Level (Text.join ['\n'] parts) :=
  Text.join_of_append (fun _ _ => rfl) Level.append (level_of_plain (by decide)) h

/-- A flow of lines and environments leaves no brace open and closes none that it has not opened. -/
lemma Flow.level {s : Text} (h : Flow V s) (written : ∀ s, V s → Plain s) : Level s := by
  induction h with
  | line line => exact line.level written
  | @environment name options lines plain inline inner =>
    have bound {command : String} (known : Plain command.toList) (front : command.toList ≠ []) :
        Level (Latex.command command name.toList) :=
      (level_command known front).append (level_of_plain plain).braced
    refine level_join fun s member => ?_
    obtain above | below := List.mem_append.1 member
    · obtain rfl | within := List.mem_cons.1 above
      · exact (bound (by decide) (by decide)).append (inline.level written)
      · exact (inner s within).level written
    · obtain rfl := List.mem_singleton.1 below
      exact bound (by decide) (by decide)
  | join _ ih => exact level_join ih

end Depth

end Latex

/-- The LaTeX text of a source without backslashes is balanced. Each environment is ended by its own name
before another one begins, and nothing else is ended. If no address, code or math of the document holds a
brace, then the braces that are left without those behind a backslash match. -/
theorem convert_balanced {source : Text} (h : '\\' ∉ source) :
    ∃ document,
      Document.ofSource false source = .ok document ∧
      Latex.convert false source = .ok document.toLatex ∧
      Latex.Flat (Latex.bounds document.toLatex) ∧
      ((∀ node ∈ document.children, ∀ s ∈ node.content.verbatim, '{' ∉ s ∧ '}' ∉ s) →
        Latex.depth? 0 document.toLatex = some 0) := by
  obtain ⟨document, made, latex⟩ := Document.exists_of_source source
  have texts := Document.not_mem_texts made h (by decide)
  refine ⟨document, Document.ofSource_of_ofTokens made, latex, ?_, fun free => ?_⟩
  · have written : ∀ node ∈ document.children, ∀ s ∈ node.content.verbatim, '\\' ∉ s :=
      fun node member s v => texts node member s (node.content.verbatim_subset_texts v)
    obtain ⟨bs, flat, marks⟩ := (Document.toLatex_flow written texts).exists_flat fun _ v => v
    exact marks.whole ▸ flat
  · have written : ∀ node ∈ document.children, ∀ s ∈ node.content.verbatim, Latex.Plain s := by
      intro node member s v c inside
      have backslash : c ≠ '\\' :=
        ne_of_mem_of_not_mem inside (texts node member s (node.content.verbatim_subset_texts v))
      obtain ⟨opens, closes⟩ := free node member s v
      have brace : c ≠ '{' := ne_of_mem_of_not_mem inside opens
      have brace' : c ≠ '}' := ne_of_mem_of_not_mem inside closes
      simp [Latex.isPlain, backslash, brace, brace']
    have level := (Document.toLatex_flow written texts).level (fun _ v => v) 0 []
    rwa [List.append_nil] at level

/-- Braces in texts that are escaped, and all environments there are. -/
theorem convert_balanced_all_environments :
    ∃ (source : Text) (document : Document), '\\' ∉ source ∧
      Latex.convert false source = .ok document.toLatex ∧
      (Latex.bounds document.toLatex).filterMap Latex.Bound.name =
        ["lstlisting", "lstlisting", "tabular", "tabular", "quote", "quote", "itemize", "itemize",
          "enumerate", "enumerate", "figure", "figure"].map String.toList ∧
      Latex.Flat (Latex.bounds document.toLatex) ∧
      (∀ node ∈ document.children, ∀ s ∈ node.content.verbatim, '{' ∉ s ∧ '}' ∉ s) ∧
      Latex.depth? 0 document.toLatex = some 0 := by
  obtain ⟨source, plain, known⟩ : ∃ source : Text, '\\' ∉ source ∧
      ∀ document ∈ (Document.ofSource false source).toOption,
        (Latex.bounds document.toLatex).filterMap Latex.Bound.name =
          ["lstlisting", "lstlisting", "tabular", "tabular", "quote", "quote", "itemize", "itemize",
            "enumerate", "enumerate", "figure", "figure"].map String.toList ∧
        ∀ node ∈ document.children, ∀ s ∈ node.content.verbatim, '{' ∉ s ∧ '}' ∉ s :=
    ⟨"# a\x7d\n```b\nc\n```\n|d|\x7b\n|-|-|\n> \x7de\n- [x] f\x7b\n1. g\n![\x7dh](i)$j$".toList,
      by decide, by decide +kernel⟩
  obtain ⟨document, made, latex, flat, level⟩ := convert_balanced plain
  obtain ⟨names, free⟩ := known document (by rw [made]; rfl)
  exact ⟨source, document, plain, latex, names, flat, free, level free⟩

/-- With a backslash, an address can begin an environment that nothing ends. -/
example : (Latex.convert false "[a](\\begin\x7bb\x7d)".toList).map Latex.bounds = .ok [⟨true, some ['b']⟩] :=
  rfl

/-- A brace in math is written as it is, and so stays open. -/
example : (Latex.convert false "$\x7b$".toList).map (Latex.depth? 0) = .ok (some 1) := rfl

end Marktex
