import RegisterMachine.Text.Utf8

/-!
# Columns

Texts in columns: `padRight` fills up to a number of characters, and `table` lays out rows so that
each column but the last is as wide as its longest cell has bytes.
-/

namespace RegisterMachine.Text

/-- Puts spaces behind a text up to a number of characters. -/
def padRight (width : Nat) (s : Bytes) : Bytes := s ++ List.replicate (width - (glyphs s).length) 32

/-- The width of each column of the first row: the most bytes that a cell in it has. -/
def columnWidths (rows : List (List Bytes)) : List Nat :=
  match rows with
  | [] => []
  | first :: _ =>
    (List.range first.length).map fun i => (rows.map fun r => (r.getD i []).length).foldl max 0

/-- The cells of a row, all but the last padded. -/
def tableRow : List Nat → List Bytes → List Bytes
  | _, [] => []
  | _, [c] => [c]
  | w :: ws, c :: cs => padRight w c :: tableRow ws cs
  | [], c :: cs => c :: tableRow [] cs

/-- The rows one below the other. -/
def table (rows : List (List Bytes)) : Bytes :=
  if rows.isEmpty then utf8 "(empty)"
  else
    let ws := columnWidths rows
    Bytes.join [10] (rows.map fun r => Bytes.join [32, 32] (tableRow ws r))

end RegisterMachine.Text
