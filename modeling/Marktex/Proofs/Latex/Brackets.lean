import Mathlib.Tactic.FinCases
import Marktex.Latex.Markup
import Marktex.Proofs.Latex.Escape
import Marktex.Proofs.Latex.Table
import Marktex.Proofs.Source.Delimiters

/-!
# Brackets behind commands

The commands that begin an item and that break a line look for an argument in brackets, over spaces and line
feeds, and take a bracket of the text for it if they find one there. `readsOption` says whether this happens
somewhere in a text. Texts without these commands do not matter for it (`Silent`), whatever follows them; in a
list it happens at the items whose text starts with a bracket (`readsOption_itemList`), and in a table at the
rows below another one whose first cell does (`readsOption_table`).
-/

namespace Marktex

namespace Latex

/-- Whether a character is passed over where a command looks for an argument in brackets. -/
def isGap (c : Char) : Bool :=
  c == ' ' || c == '\n'

/-- Whether the first character of a text behind spaces and line feeds opens a bracket. -/
def bracketFirst : Text → Bool
  | [] => false
  | c :: s => if isGap c then bracketFirst s else c == '['

/-- The commands that look for an argument in brackets and are written without one: those of an item without
a box, and of a line that is broken. -/
def optionCommands : List Text :=
  ["\\item ".toList, "\\\\".toList]

/-- Whether a text starts with a command that finds an argument in brackets. -/
def takesOption (s : Text) : Bool :=
  optionCommands.any fun command => (Text.skip? command s).any bracketFirst

/-- Whether some command of a text finds an argument in brackets. -/
def readsOption : Text → Bool
  | [] => false
  | c :: s => takesOption (c :: s) || readsOption s

end Latex

namespace Entry

/-- Whether the text of an item is taken for the argument of the command before it. -/
def exposesOption (e : Entry) : Bool :=
  e.ticked.isNone && Latex.bracketFirst e.text

/-- Whether the command of an item looks for an argument in what follows the item. -/
def looksOn (e : Entry) : Bool :=
  e.ticked.isNone && e.text.all Latex.isGap

end Entry

namespace Latex

section Gaps

/-- A bracket is first in a text or, if there are only gaps before it, in what follows. -/
lemma bracketFirst_append (s t : Text) :
    bracketFirst (s ++ t) = (bracketFirst s || s.all isGap && bracketFirst t) := by
  induction s with
  | nil => rfl
  | cons c s ih =>
    rw [List.cons_append, bracketFirst, bracketFirst, List.all_cons]
    cases isGap c with
    | true => exact ih
    | false => simp

/-- A line feed at the end of a text is no bracket. -/
lemma bracketFirst_concat (s : Text) : bracketFirst (s ++ ['\n']) = bracketFirst s := by
  rw [bracketFirst_append, show bracketFirst ['\n'] = false from rfl, Bool.and_false, Bool.or_false]

/-- Special characters are neither passed over nor brackets. -/
lemma bracketFirst_special {c : Char} (h : isSpecial c = true) (t : Text) : bracketFirst (c :: t) = false := by
  have known : c ∈ specials := List.contains_iff_mem.1 h
  unfold specials at known
  fin_cases known <;> rfl

/-- Escaping does not change whether a text starts with a bracket. -/
lemma bracketFirst_escape (s t : Text) :
    bracketFirst (escape s ++ t) = (bracketFirst s || s.all isGap && bracketFirst t) := by
  rw [← bracketFirst_append]
  induction s with
  | nil => rfl
  | cons c s ih =>
    rw [escape_cons, List.cons_append]
    cases special : isSpecial c with
    | true =>
      rw [bracketFirst_special special]
      rfl
    | false =>
      show bracketFirst (c :: (escape s ++ t)) = bracketFirst (c :: (s ++ t))
      rw [bracketFirst, bracketFirst, ih]

end Gaps

section Options

/-- Commands begin with a backslash. -/
lemma takesOption_cons {c : Char} (h : c ≠ '\\') (t : Text) : takesOption (c :: t) = false := by
  simp [takesOption, optionCommands, Text.skip?, h.symm]

/-- Only a backslash can begin what reads an option. -/
lemma readsOption_cons {c : Char} (h : c ≠ '\\') (t : Text) : readsOption (c :: t) = readsOption t := by
  rw [readsOption, takesOption_cons h, Bool.false_or]

/-- A line feed at the end of a text does not change what its front takes. -/
lemma takesOption_concat (s : Text) : takesOption (s ++ ['\n']) = takesOption s := by
  have same (command : Text) (plain : '\n' ∉ command) :
      (Text.skip? command (s ++ ['\n'])).any bracketFirst = (Text.skip? command s).any bracketFirst := by
    rw [Text.skip?_append_cons plain, Option.any_map]
    exact congrArg (Option.any · _) (funext bracketFirst_concat)
  simp only [takesOption, optionCommands, List.any_cons, List.any_nil]
  rw [same _ (by decide), same _ (by decide)]

/-- A line feed at the end of a text does not change what is read in it. -/
lemma readsOption_concat (s : Text) : readsOption (s ++ ['\n']) = readsOption s := by
  induction s with
  | nil => rfl
  | cons c s ih => rw [List.cons_append, readsOption, readsOption, ih, ← List.cons_append, takesOption_concat]

/-- A text in which no command looks for an argument, whatever follows. -/
abbrev Silent (s : Text) : Prop :=
  Neutral readsOption s

/-- A text without a backslash reads no option. -/
lemma silent_of_not_mem {s : Text} (h : '\\' ∉ s) : Silent s :=
  .of_forall fun _ inside => readsOption_cons (ne_of_mem_of_not_mem inside h)

/-- The break of a line. -/
lemma readsOption_break (t : Text) :
    readsOption ("\\\\".toList ++ '\n' :: t) = (bracketFirst t || readsOption t) := by
  have second : readsOption ('\\' :: '\n' :: t) = readsOption t := by
    rw [readsOption, show takesOption ('\\' :: '\n' :: t) = false from rfl, Bool.false_or,
      readsOption_cons (by decide)]
  show readsOption ('\\' :: '\\' :: '\n' :: t) = _
  rw [readsOption, second, show takesOption ('\\' :: '\\' :: '\n' :: t) = (bracketFirst t || false) from rfl,
    Bool.or_false]

/-- The front of an item without a box. -/
lemma readsOption_item (t : Text) :
    readsOption ("\\item ".toList ++ t) = (bracketFirst t || readsOption t) := by
  have name : Silent "item ".toList := silent_of_not_mem (by decide)
  show readsOption ('\\' :: ("item ".toList ++ t)) = _
  rw [readsOption, name,
    show takesOption ('\\' :: ("item ".toList ++ t)) = (bracketFirst t || false) from rfl, Bool.or_false]

/-- Special characters have no part in the names of commands. -/
lemma readsOption_special {c : Char} (h : isSpecial c = true) (t : Text) :
    readsOption ('\\' :: c :: t) = readsOption t := by
  have letter : c ≠ 'i' := by
    rintro rfl
    cases h
  have backslash : c ≠ '\\' := by
    rintro rfl
    cases h
  have front : takesOption ('\\' :: c :: t) = false := by
    simp [takesOption, optionCommands, Text.skip?, letter.symm, backslash.symm]
  rw [readsOption, front, Bool.false_or, readsOption_cons backslash]

/-- Escaped text reads no option. -/
lemma silent_escape {s : Text} (h : '\\' ∉ s) : Silent (escape s) :=
  .escape (fun _ => readsOption_special) fun _ inside _ => readsOption_cons (ne_of_mem_of_not_mem inside h)

/-- A text that reads no option reads none in braces. -/
lemma Silent.braced {s : Text} (h : Silent s) : Silent (braced s) :=
  ((silent_of_not_mem (s := ['{']) (by decide)).append h).append (silent_of_not_mem (s := ['}']) (by decide))

/-- The name of a command other than those of items and line breaks. -/
lemma silent_backslash {s : Text} (plain : '\\' ∉ s) (front : ∀ t, takesOption ('\\' :: (s ++ t)) = false) :
    Silent ('\\' :: s) := by
  intro t
  rw [List.cons_append, readsOption, front, Bool.false_or, silent_of_not_mem plain]

/-- A command that takes no option reads none, if its argument reads none. -/
lemma silent_command {name : String} {s : Text} (plain : '\\' ∉ name.toList)
    (front : ∀ t, takesOption ('\\' :: (name.toList ++ t)) = false) (h : Silent s) :
    Silent (command name s) :=
  (silent_backslash plain front).append h.braced

/-- Behind a text that reads no option, all that is read is read in what follows the line feed. -/
lemma silent_feed {s : Text} (h : Silent s) (t : Text) : readsOption (s ++ '\n' :: t) = readsOption t := by
  rw [h, readsOption_cons (by decide)]

/-- Texts that read no option read none when they are joined. -/
lemma silent_join {separator : Text} (plain : '\\' ∉ separator) {parts : List Text}
    (h : ∀ s ∈ parts, Silent s) : Silent (Text.join separator parts) :=
  Text.join_of_append (fun _ => rfl) Neutral.append (silent_of_not_mem plain) h

/-- The line that opens an environment reads no option. -/
lemma silent_opening {name : String} (plain : '\\' ∉ name.toList) : Silent (opening name) :=
  silent_command (by decide) (fun _ => rfl) (silent_of_not_mem plain)

/-- The line that closes an environment reads no option. -/
lemma silent_closing {name : String} (plain : '\\' ∉ name.toList) : Silent (closing name) :=
  silent_command (by decide) (fun _ => rfl) (silent_of_not_mem plain)

/-- An environment reads no option if none of its lines does. -/
lemma silent_environment {name : String} {options : Text} {lines : List Text} (plain : '\\' ∉ name.toList)
    (option : Silent options) (inner : ∀ s ∈ lines, Silent s) : Silent (environment name options lines) := by
  refine silent_join (by decide) fun s member => ?_
  obtain above | below := List.mem_append.1 member
  · obtain rfl | within := List.mem_cons.1 above
    · exact (silent_opening plain).append option
    · exact inner s within
  · obtain rfl := List.mem_singleton.1 below
    exact silent_closing plain

/-- Where an environment begins no argument is looked for, only in its lines and behind it. -/
lemma readsOption_environment {name : String} {options : Text} (plain : '\\' ∉ name.toList)
    (option : Silent options) (lines : List Text) (t : Text) :
    readsOption (environment name options lines ++ '\n' :: t) =
      readsOption (lines.flatMap (fun line => line ++ ['\n']) ++ (closing name ++ '\n' :: t)) := by
  have feed := Text.join_feed (List.cons_ne_nil (opening name ++ options) (lines ++ [closing name])) t
  have front : Silent (opening name ++ options ++ ['\n']) :=
    ((silent_opening plain).append option).append (silent_of_not_mem (by decide))
  show readsOption (Text.join ['\n'] ((opening name ++ options) :: (lines ++ [closing name])) ++ '\n' :: t) = _
  rw [feed, List.flatMap_cons, List.flatMap_append, List.append_assoc, front]
  simp

/-- No bracket is first in an environment. -/
lemma bracketFirst_environment (name : String) (options : Text) (lines : List Text) (t : Text) :
    bracketFirst (environment name options lines ++ t) = false := by
  rw [environment, List.cons_append, Text.join, List.intercalate_cons_of_ne_nil (List.concat_ne_nil _ lines)]
  rfl

end Options

section Items

/-- An item begins with a command. -/
lemma bracketFirst_item (e : Entry) (t : Text) : bracketFirst (e.render ++ t) = false := by
  obtain ⟨s, box⟩ := e
  cases box <;> rfl

/-- The box of an item reads no option. -/
lemma silent_label (ticked : Bool) : Silent (Entry.label ticked) := by
  have dollar : Silent ['$'] := silent_of_not_mem (by decide)
  cases ticked with
  | false => exact dollar.append (silent_backslash (s := "square$".toList) (by decide) fun _ => rfl)
  | true => exact dollar.append (silent_backslash (s := "boxtimes$".toList) (by decide) fun _ => rfl)

/-- An item reads an option if its own text does, or if it looks on to a bracket behind it, or in what
follows. -/
lemma readsOption_entry {e : Entry} (plain : '\\' ∉ e.text) (t : Text) :
    readsOption (e.render ++ '\n' :: t) =
      (e.exposesOption || e.looksOn && bracketFirst t || readsOption t) := by
  obtain ⟨s, box⟩ := e
  cases box with
  | none =>
    have first := bracketFirst_escape s ('\n' :: t)
    show readsOption ("\\item ".toList ++ escape s ++ '\n' :: t) = _
    rw [List.append_assoc, readsOption_item, first, silent_feed (silent_escape plain)]
    rfl
  | some ticked =>
    have item : Silent "\\item[".toList := silent_backslash (s := "item[".toList) (by decide) fun _ => rfl
    have space : Silent "] ".toList := silent_of_not_mem (by decide)
    exact silent_feed (((item.append (silent_label ticked)).append space).append (silent_escape plain)) t

/-- Successive items before a text that does not start with a bracket. -/
lemma readsOption_items {entries : List Entry} (plain : ∀ e ∈ entries, '\\' ∉ e.text) {t : Text}
    (solid : bracketFirst t = false) :
    bracketFirst ((entries.map Entry.render).flatMap (fun line => line ++ ['\n']) ++ t) = false ∧
    readsOption ((entries.map Entry.render).flatMap (fun line => line ++ ['\n']) ++ t) =
      (entries.any Entry.exposesOption || readsOption t) := by
  induction entries with
  | nil => exact ⟨solid, rfl⟩
  | cons e entries ih =>
    obtain ⟨here, later⟩ := List.forall_mem_cons.1 plain
    obtain ⟨first, rest⟩ := ih later
    rw [List.map_cons, List.flatMap_cons, List.append_assoc, List.append_assoc, List.singleton_append]
    refine ⟨bracketFirst_item e _, ?_⟩
    rw [readsOption_entry here, first, rest, Bool.and_false, Bool.or_false, List.any_cons, Bool.or_assoc]

/-- A list reads an option if the text of one of its items does, or in what follows. -/
lemma readsOption_itemList {name : String} {entries : List Entry} (known : '\\' ∉ name.toList)
    (plain : ∀ e ∈ entries, '\\' ∉ e.text) (t : Text) :
    readsOption (itemList name entries ++ '\n' :: t) = (entries.any Entry.exposesOption || readsOption t) := by
  cases entries with
  | nil => exact readsOption_cons (by decide) t
  | cons e entries =>
    show readsOption (environment name [] _ ++ _) = _
    rw [readsOption_environment known (silent_of_not_mem List.not_mem_nil),
      (readsOption_items plain rfl).2, silent_feed (silent_closing known)]

end Items

section Rows

/-- A row starts with its first cell. -/
lemma bracketFirst_tableRow (row : List Text) (t : Text) :
    bracketFirst (tableRow row ++ t) = row.head?.any bracketFirst := by
  have cell (s : Text) {t : Text} (solid : bracketFirst t = false) :
      bracketFirst (escape s ++ t) = bracketFirst s := by
    rw [bracketFirst_escape, solid, Bool.and_false, Bool.or_false]
  match row with
  | [] => rfl
  | [s] =>
    rw [tableRow_singleton, List.append_assoc]
    exact cell s rfl
  | s :: next :: cells =>
    rw [tableRow_cons_cons, List.append_assoc]
    exact cell s rfl

/-- A row ends with a line break. -/
lemma readsOption_tableRow {row : List Text} (plain : ∀ cell ∈ row, '\\' ∉ cell) (t : Text) :
    readsOption (tableRow row ++ '\n' :: t) = (bracketFirst t || readsOption t) := by
  have cells : Silent (Text.join " & ".toList (row.map escape)) := by
    refine silent_join (by decide) fun s member => ?_
    obtain ⟨cell, found, rfl⟩ := List.mem_map.1 member
    exact silent_escape (plain cell found)
  have space : Silent [' '] := silent_of_not_mem (by decide)
  rw [tableRow, List.append_assoc, cells]
  exact (space _).trans (readsOption_break t)

/-- Successive rows before a text that does not start with a bracket. -/
lemma readsOption_rows {rows : List (List Text)} (plain : ∀ row ∈ rows, ∀ cell ∈ row, '\\' ∉ cell) {t : Text}
    (solid : bracketFirst t = false) :
    bracketFirst ((rows.map tableRow).flatMap (fun line => line ++ ['\n']) ++ t) =
      rows.head?.any (fun row => row.head?.any bracketFirst) ∧
    readsOption ((rows.map tableRow).flatMap (fun line => line ++ ['\n']) ++ t) =
      (rows.tail.any (fun row => row.head?.any bracketFirst) || readsOption t) := by
  induction rows with
  | nil => exact ⟨solid, rfl⟩
  | cons row rows ih =>
    obtain ⟨here, later⟩ := List.forall_mem_cons.1 plain
    obtain ⟨first, rest⟩ := ih later
    rw [List.map_cons, List.flatMap_cons, List.append_assoc, List.append_assoc, List.singleton_append]
    refine ⟨bracketFirst_tableRow row _, ?_⟩
    rw [readsOption_tableRow here, first, rest, List.tail_cons]
    cases rows with
    | nil => rfl
    | cons next rows =>
      rw [List.any_cons, Bool.or_assoc]
      rfl

/-- A table reads an option if a row behind another one begins with a bracket, or in what follows. -/
lemma readsOption_table {s : Text} (plain : '\\' ∉ s) (t : Text) :
    readsOption (table s ++ '\n' :: t) =
      ((keptRows s).tail.any (fun row => row.head?.any bracketFirst) || readsOption t) := by
  have cells : ∀ row ∈ keptRows s, ∀ cell ∈ row, '\\' ∉ cell :=
    fun row kept cell member inside => plain (mem_of_keptRows kept member inside)
  cases kept : keptRows s with
  | nil =>
    rw [table, kept]
    exact readsOption_cons (by decide) t
  | cons first rows =>
    rw [kept] at cells
    have columns : '\\' ∉ List.replicate first.length 'c' :=
      fun inside => absurd (List.eq_of_mem_replicate inside) (by decide)
    have rule : Silent "\\hline\n".toList :=
      silent_backslash (s := "hline\n".toList) (by decide) fun _ => rfl
    have below := (readsOption_rows cells
      (t := "\\hline\n".toList ++ (closing "tabular" ++ '\n' :: t)) rfl).2
    rw [table, kept]
    show readsOption
      (environment "tabular" _ ("\\hline".toList :: ((first :: rows).map tableRow ++ _)) ++ _) = _
    rw [readsOption_environment (by decide) (silent_of_not_mem columns).braced, List.flatMap_cons,
      List.append_assoc, List.flatMap_append, List.append_assoc, List.flatMap_singleton, List.append_assoc]
    refine (rule _).trans (below.trans ?_)
    rw [rule, silent_feed (silent_closing (by decide))]

end Rows

end Latex

end Marktex
