import RowPolicy.Text.Width

/-!
# Tables in a box

A table of texts with a line around it and one under its head. Each cell has a blank on either side
and as many behind it as make its column straight; a cell of several lines makes its row as high.
-/

namespace RowPolicy.CommandLine

/-- The lines of a text, without the characters between them. -/
def lines : List Char → List (List Char)
  | [] => [[]]
  | '\n' :: cs => [] :: lines cs
  | c :: cs =>
    match lines cs with
    | [] => [[c]]
    | l :: ls => (c :: l) :: ls

/-- The lines of a cell. -/
def cellLines (s : String) : List String :=
  (lines s.toList).map String.ofList

/-- The width of each column of some rows. -/
def columnWidths (rows : List (List String)) : List Nat :=
  rows.foldl (fun ws row =>
    let own := row.map fun cell => ((cellLines cell).map Text.width).foldl max 0
    (List.range (max ws.length own.length)).map fun i =>
      max (ws.getD i 0) (own.getD i 0)) []

/-- A cell that is padded to the width of its column. -/
def paddedCell (cell : Nat × String) : String :=
  " " ++ Text.padTo cell.1 cell.2 ++ " "

/-- One line of a row. -/
def tableLine (widths : List Nat) (cells : List String) : String :=
  "│" ++ " ".intercalate ((widths.zip cells).map paddedCell) ++ "│\n"

/-- A row, on as many lines as its highest cell has. -/
def tableRow (widths : List Nat) (row : List String) : String :=
  let cells := row.map cellLines
  let height := (cells.map List.length).foldl max 0
  String.join ((List.range height).map fun i => tableLine widths (cells.map fun c => c.getD i ""))

/-- A line across a table. -/
def tableRule (widths : List Nat) (left fill right : Char) : String :=
  let length := widths.foldl (fun n width => n + width + 2) (widths.length - 1)
  String.ofList (left :: List.replicate length fill ++ [right])

/-- A table with a head. -/
def boxed (head : List String) (rows : List (List String)) : String :=
  let widths := columnWidths (head :: rows)
  tableRule widths '┌' '─' '┐' ++ "\n" ++ tableRow widths head ++
    tableRule widths '╞' '═' '╡' ++ "\n" ++ String.join (rows.map (tableRow widths)) ++
    tableRule widths '└' '─' '┘' ++ "\n"

end RowPolicy.CommandLine
