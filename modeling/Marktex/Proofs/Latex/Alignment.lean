import Marktex.Proofs.Text.Integer
import Marktex.Proofs.Text.Patterns

/-!
# Alignment rows

A row aligns the columns if it fits a pattern, and the pattern is read character by character. For each state of
the reading there is a pattern for what may still come (`AlignmentState.rest`); a character of the row takes it
to the pattern of the next state (`AlignmentState.cons_mem_rest`), so that the rows that are accepted are those
that fit (`isAlignmentRow_iff`).

A row is cut into cells in another way: bars are taken away at its ends, it is split at the other ones, and the
parts are trimmed. Each of these steps goes with one part of the pattern. The rows that fit are therefore those
whose cells all align their column (`alignmentRow_iff_cells`), and a table loses no other row.
-/

namespace Marktex.Latex

open Pattern
open scoped Computability

/-- At least one dash. -/
def alignmentDashes : Pattern :=
  literal '-' * (literal '-')∗

/-- A cell that aligns its column: dashes with an optional colon at either end. -/
def alignmentCell : Pattern :=
  (literal ':').optional * alignmentDashes * (literal ':').optional

/-- A row that aligns the columns: such cells between blanks, with bars between them and an optional bar at
either end. -/
def alignmentRow : Pattern :=
  (literal '|').optional * separated '|' (padded alignmentCell) * (literal '|').optional

namespace AlignmentState

/-- What may follow when a cell is complete: more cells, and a last bar. -/
def moreCells : Pattern :=
  (literal '|' * padded alignmentCell)∗ * (literal '|').optional

/-- What may follow when a row is read up to some state. -/
def rest : AlignmentState → Pattern
  | .start => (literal '|').optional * padded alignmentCell * moreCells
  | .cell => padded alignmentCell * moreCells
  | .colon => alignmentDashes * (literal ':').optional * (oneOf Text.isBlank)∗ * moreCells
  | .dashes => (literal '-')∗ * (literal ':').optional * (oneOf Text.isBlank)∗ * moreCells
  | .closed => (oneOf Text.isBlank)∗ * moreCells
  | .bar => (padded alignmentCell * moreCells).optional
  | .failed => 0

variable {c : Char} {s : Text} {state : AlignmentState}

/-- Nothing that follows mends a row that has failed. -/
lemma rest_failed : s ∉ rest .failed :=
  Language.notMem_zero s

/-- Behind a cell there is nothing, or a bar and what may follow a bar. -/
lemma moreCells_eq : moreCells = (literal '|' * rest .bar).optional := by
  calc moreCells
      = (literal '|').optional + literal '|' * padded alignmentCell * moreCells := by
        nth_rewrite 1 [moreCells]
        rw [many_mul, moreCells]
    _ = (literal '|' * rest .bar).optional := by
        rw [rest, Pattern.optional, Pattern.optional, Pattern.optional, mul_add, mul_one, mul_assoc, add_assoc]

/-- A row may end behind a cell. -/
lemma nil_mem_moreCells : [] ∈ moreCells :=
  moreCells_eq ▸ nil_mem_optional

/-- What goes on behind a cell begins with a bar. -/
lemma cons_mem_moreCells : c :: s ∈ moreCells ↔ c = '|' ∧ s ∈ rest .bar := by
  rw [moreCells_eq, cons_mem_optional, cons_mem_oneOf_mul, beq_iff_eq]

/-- Inside of a cell the next character decides what may follow it. -/
lemma cons_mem_cell : c :: s ∈ rest .cell ↔ s ∈ rest (openCell c) := by
  have first : c :: s ∈ rest .cell ↔
      (c = '-' ∧ s ∈ rest .dashes ∨ c = ':' ∧ s ∈ rest .colon) ∨ Text.isBlank c = true ∧ s ∈ rest .cell := by
    simp only [rest, padded, alignmentCell, alignmentDashes, mul_assoc, cons_mem_many_mul,
      cons_mem_optional_mul, cons_mem_oneOf_mul, beq_iff_eq]
  rw [first, openCell]
  split
  case isTrue colon =>
    have solid : Text.isBlank ':' = false := rfl
    simp [colon, solid]
  split
  case isTrue dash =>
    have solid : Text.isBlank '-' = false := rfl
    simp [dash, solid]
  split
  case isTrue other dash blank => simp [other, dash, blank]
  case isFalse other dash solid => simp [other, dash, solid, rest_failed]

/-- Behind the colon that closes a cell the next character decides what may follow it. -/
lemma cons_mem_closed : c :: s ∈ rest .closed ↔ s ∈ rest (closeCell c) := by
  have first : c :: s ∈ rest .closed ↔
      c = '|' ∧ s ∈ rest .bar ∨ Text.isBlank c = true ∧ s ∈ rest .closed := by
    rw [rest, cons_mem_many_mul, cons_mem_moreCells]
  rw [first, closeCell]
  split
  case isTrue bar =>
    have solid : Text.isBlank '|' = false := rfl
    simp [bar, solid]
  split
  case isTrue other blank => simp [other, blank]
  case isFalse other solid => simp [other, solid, rest_failed]

/-- A character may follow in some state exactly if what comes behind it may follow in the next state. -/
lemma cons_mem_rest : c :: s ∈ rest state ↔ s ∈ rest (state.next c) := by
  cases state with
  | start =>
    have first : c :: s ∈ rest .start ↔ c :: s ∈ rest .cell ∨ c = '|' ∧ s ∈ rest .cell := by
      rw [rest, mul_assoc, cons_mem_optional_mul, beq_iff_eq, rest]
    rw [first, cons_mem_cell, next]
    split
    case isTrue bar =>
      have other : s ∉ rest (openCell c) := bar ▸ rest_failed
      rw [or_iff_right other, and_iff_right bar]
    case isFalse other => rw [or_iff_left fun both => other both.1]
  | cell => exact cons_mem_cell
  | colon =>
    have first : c :: s ∈ rest .colon ↔ c = '-' ∧ s ∈ rest .dashes := by
      simp only [rest, alignmentDashes, mul_assoc, cons_mem_oneOf_mul, beq_iff_eq]
    rw [first, next]
    split
    case isTrue dash => rw [and_iff_right dash]
    case isFalse other => exact iff_of_false (fun both => other both.1) rest_failed
  | dashes =>
    have first : c :: s ∈ rest .dashes ↔
        (c :: s ∈ rest .closed ∨ c = ':' ∧ s ∈ rest .closed) ∨ c = '-' ∧ s ∈ rest .dashes := by
      simp only [rest, mul_assoc, cons_mem_many_mul, cons_mem_optional_mul, beq_iff_eq]
    rw [first, cons_mem_closed, next]
    split
    case isTrue dash =>
      have other : s ∉ rest (closeCell '-') := rest_failed
      simp [dash, other]
    split
    case isTrue colon =>
      have other : s ∉ rest (closeCell ':') := rest_failed
      simp [colon, other]
    case isFalse dash colon => simp [dash, colon]
  | closed => exact cons_mem_closed
  | bar =>
    have first : c :: s ∈ rest .bar ↔ c :: s ∈ rest .cell := cons_mem_optional
    rw [first, cons_mem_cell, next]
  | failed => exact iff_of_false rest_failed rest_failed

/-- A row may end in the states that accept. -/
lemma nil_mem_rest : [] ∈ rest state ↔ state.accepts = true := by
  cases state <;>
    simp [rest, accepts, padded, alignmentCell, alignmentDashes, mul_assoc, nil_mem_many_mul,
      nil_mem_optional_mul, nil_notMem_oneOf_mul, nil_mem_optional, nil_mem_moreCells, Language.notMem_zero]

/-- The texts that may follow in some state are those that are accepted from there on. -/
lemma mem_rest : s ∈ rest state ↔ (s.foldl next state).accepts = true := by
  induction s generalizing state with
  | nil => exact nil_mem_rest
  | cons c s ih => rw [cons_mem_rest, ih, List.foldl_cons]

end AlignmentState

/-- The rows that are read as alignment rows are those that fit the pattern when they are trimmed. -/
lemma isAlignmentRow_iff {row : Text} : isAlignmentRow row = true ↔ Text.trim row ∈ alignmentRow := by
  have whole : AlignmentState.rest .start = alignmentRow := by
    simp only [AlignmentState.rest, AlignmentState.moreCells, alignmentRow, separated, mul_assoc]
  rw [isAlignmentRow, ← AlignmentState.mem_rest, whole]

section Cells

variable {p : Char → Prop} {cell s : Text}

/-- The middle of a cell is written with dashes. -/
lemma alignmentDashes_uses (dash : p '-') : alignmentDashes.Uses p :=
  (Uses.literal dash).mul (Uses.literal dash).many

/-- A cell is written with colons and dashes. -/
lemma alignmentCell_uses (colon : p ':') (dash : p '-') : alignmentCell.Uses p :=
  ((Uses.literal colon).optional.mul (alignmentDashes_uses dash)).mul (Uses.literal colon).optional

/-- A cell is not empty, also with blanks around it. -/
lemma nil_notMem_padded : [] ∉ padded alignmentCell := by
  simp [padded, alignmentCell, alignmentDashes, mul_assoc, nil_mem_many_mul, nil_mem_optional_mul,
    nil_notMem_oneOf_mul]

/-- No cell between blanks holds a bar. -/
lemma padded_uses : (padded alignmentCell).Uses (· ≠ '|') := by
  have blanks : (oneOf Text.isBlank)∗.Uses (· ≠ '|') := by
    refine (Uses.oneOf fun c blank => ?_).many
    rintro rfl
    cases blank
  exact (blanks.mul (alignmentCell_uses (by decide) (by decide))).mul blanks

/-- There is nothing to trim at a cell that aligns its column. -/
lemma trim_alignmentCell (h : cell ∈ alignmentCell) : Text.trim cell = cell := by
  have solid : ∀ c ∈ cell, Text.isBlank c = false :=
    alignmentCell_uses (p := fun c => Text.isBlank c = false) rfl rfl cell h
  rw [Text.trim, Text.dropWhile_of_forall solid, Text.dropEndWhile_of_forall solid]

/-- Without its colons, a cell that aligns its column is dashes only. -/
lemma mem_alignmentCell_iff :
    cell ∈ alignmentCell ↔ (Text.withoutLast ':' (Text.withoutFirst ':' cell)).isEmpty = false ∧
      (Text.withoutLast ':' (Text.withoutFirst ':' cell)).all (· == '-') = true := by
  have other : alignmentDashes.Uses (· ≠ ':') := alignmentDashes_uses (by decide)
  have dashes : ∀ s, s ∈ alignmentDashes ↔ s.isEmpty = false ∧ s.all (· == '-') = true := by
    intro s
    cases s with
    | nil => exact iff_of_false nil_notMem_oneOf_mul nofun
    | cons c s => simp [alignmentDashes, cons_mem_oneOf_mul, mem_many_iff]
  have some : [] ∉ alignmentDashes := nil_notMem_oneOf_mul
  have front : ∀ r, ':' :: r ∉ alignmentDashes := fun r fits => other _ fits ':' List.mem_cons_self rfl
  have back : ∀ r, r ++ [':'] ∉ alignmentDashes :=
    fun r fits => other _ fits ':' (List.mem_append_right r List.mem_cons_self) rfl
  rw [alignmentCell, mem_optional_ends_iff some front back, dashes]

instance : DecidablePred (· ∈ alignmentCell) :=
  fun _ => decidable_of_iff _ mem_alignmentCell_iff.symm

/-- A row fits the pattern exactly if the parts between its bars are cells that align their column. -/
lemma mem_alignmentRow_iff :
    s ∈ alignmentRow ↔
      ∀ part ∈ Text.split '|' (Text.withoutLast '|' (Text.withoutFirst '|' s)),
        Text.trim part ∈ alignmentCell := by
  have front := cons_notMem_separated padded_uses nil_notMem_padded
  have back := concat_notMem_separated padded_uses nil_notMem_padded
  rw [alignmentRow, mem_optional_ends_iff (nil_notMem_separated padded_uses nil_notMem_padded) front back,
    mem_separated_iff padded_uses]
  exact forall₂_congr fun part _ => mem_padded_iff fun _ => trim_alignmentCell

end Cells

/-- The pattern of alignment rows agrees with the cells that rows are cut into. A trimmed row fits the pattern
exactly if all its cells are dashes with an optional colon at either end, these are the rows that are read as
alignment rows, and a table is left with the cells of all other rows. -/
theorem alignmentRow_iff_cells :
    (∀ row, Text.trim row ∈ alignmentRow ↔ ∀ cell ∈ cells row, cell ∈ alignmentCell) ∧
    (∀ row, isAlignmentRow row = true ↔ Text.trim row ∈ alignmentRow) ∧
    ∀ s, keptRows s =
      ((Text.split '\n' s).map cells).filter fun row => ∃ cell ∈ row, cell ∉ alignmentCell := by
  have fits : ∀ row, Text.trim row ∈ alignmentRow ↔ ∀ cell ∈ cells row, cell ∈ alignmentCell := by
    intro row
    rw [mem_alignmentRow_iff, cells, List.forall_mem_map]
  refine ⟨fits, fun row => isAlignmentRow_iff, fun s => ?_⟩
  rw [keptRows, List.filter_map]
  congr 2
  funext row
  rw [Bool.eq_iff_iff, Bool.not_eq_true', ← Bool.not_eq_true, isAlignmentRow_iff, fits]
  simp

/-- Bars may be missing at the ends of a row, but a cell between bars may not be empty. -/
example : (["--", "|:-: | -|", " |-|\t"].all fun row => isAlignmentRow row.toList) ∧
    ["", "|", "|-||", "||-|", "|- -|", ": -"].all fun row => !isAlignmentRow row.toList := by
  decide +kernel

end Marktex.Latex
