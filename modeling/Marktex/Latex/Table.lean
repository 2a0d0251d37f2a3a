import Marktex.Latex.Markup

/-!
# Tables

A table is written as rows of cells with bars between them. A row that only aligns the columns is left
out; such rows are recognized by a pattern that reads the row character by character. All columns are
centred, as many as the first row has cells, and rules stand above the first and below the last row.
-/

namespace Marktex.Latex

/-- How far the pattern of an alignment row is read. A cell of such a row is dashes with an optional
colon at either end, between blanks. -/
inductive AlignmentState where
  /-- Nothing is read yet. -/
  | start
  /-- A cell has to come. -/
  | cell
  /-- The colon that opens a cell is read. -/
  | colon
  /-- Dashes are read. -/
  | dashes
  /-- The cell is complete, and blanks may follow. -/
  | closed
  /-- The bar after a cell is read. -/
  | bar
  /-- The row does not fit the pattern. -/
  | failed
  deriving DecidableEq, Repr

namespace AlignmentState

/-- The state after the front of a cell. -/
def openCell (c : Char) : AlignmentState :=
  if c = ':' then .colon
  else if c = '-' then .dashes
  else if Text.isBlank c then .cell
  else .failed

/-- The state after what may follow a complete cell. -/
def closeCell (c : Char) : AlignmentState :=
  if c = '|' then .bar
  else if Text.isBlank c then .closed
  else .failed

/-- The state after one more character. -/
def next (state : AlignmentState) (c : Char) : AlignmentState :=
  match state with
  | .start => if c = '|' then .cell else openCell c
  | .cell => openCell c
  | .colon => if c = '-' then .dashes else .failed
  | .dashes => if c = '-' then .dashes else if c = ':' then .closed else closeCell c
  | .closed => closeCell c
  | .bar => openCell c
  | .failed => .failed

/-- Whether the row may end here. -/
def accepts : AlignmentState → Bool
  | .dashes => true
  | .closed => true
  | .bar => true
  | _ => false

end AlignmentState

/-- Whether a row, with the blanks around it, only aligns the columns. -/
def isAlignmentRow (row : Text) : Bool :=
  ((Text.trim row).foldl AlignmentState.next .start).accepts

/-- The cells of a row; the bars at its two ends do not count. -/
def cells (row : Text) : List Text :=
  let inner := Text.withoutLast '|' (Text.withoutFirst '|' (Text.trim row))
  (Text.split '|' inner).map Text.trim

/-- The rows of a table that are written, each as its cells. -/
def keptRows (s : Text) : List (List Text) :=
  ((Text.split '\n' s).filter fun row => !isAlignmentRow row).map cells

/-- The line of a row. -/
def tableRow (cells : List Text) : Text :=
  Text.join " & ".toList (cells.map escape) ++ " \\\\".toList

/-- A table, or nothing if no row is left. -/
def table (s : Text) : Text :=
  match keptRows s with
  | [] => []
  | first :: rows =>
    environment "tabular" (braced (List.replicate first.length 'c'))
      ("\\hline".toList :: (first :: rows).map tableRow ++ ["\\hline".toList])

end Marktex.Latex
