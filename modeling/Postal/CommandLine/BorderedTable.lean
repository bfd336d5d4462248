import Postal.Text.DisplayWidth

/-!
# Bordered tables

A table with a frame around it, a double rule below its header and no rules
between rows. Every column is as wide as its widest cell. Cells are aligned to
the left with a blank on either side, and a cell of several lines makes its
row as high as it needs.
-/

set_option autoImplicit false

namespace Postal.BorderedTable

abbrev Row := List Text

def cellLines (cell : Text) : List Text := Text.splitOn '\n' cell

def cellWidth (cell : Text) : Nat := ((cellLines cell).map Text.displayWidth).foldl max 0

def widen : List Nat → List Nat → List Nat
  | [], more => more
  | widths, [] => widths
  | w :: widths, v :: more => max w v :: widen widths more

def columnWidths (rows : List Row) : List Nat :=
  rows.foldl (fun widths row => widen widths (row.map cellWidth)) []

def fill (width : Nat) (line : Text) : Text :=
  line ++ List.replicate (width - line.displayWidth) ' '

def height (row : Row) : Nat := (row.map fun cell => (cellLines cell).length).foldl max 1

def rowLine (widths : List Nat) (row : Row) (n : Nat) : Text :=
  let cells := widths.zip row |>.map fun (width, cell) =>
    ' ' :: fill width ((cellLines cell)[n]?.getD []) ++ [' ']
  '│' :: Text.join [' '] cells ++ ['│']

def rowLines (widths : List Nat) (row : Row) : List Text :=
  (List.range (height row)).map (rowLine widths row)

def innerWidth : List Nat → Nat
  | [] => 0
  | [width] => width + 2
  | width :: next :: widths => width + 3 + innerWidth (next :: widths)

def rule (left fill right : Char) (widths : List Nat) : Text :=
  left :: List.replicate (innerWidth widths) fill ++ [right]

def render (header : Row) (rows : List Row) : Text :=
  let widths := columnWidths (header :: rows)
  Text.join ['\n'] (
    [rule '┌' '─' '┐' widths] ++ rowLines widths header ++ [rule '╞' '═' '╡' widths] ++
      rows.flatMap (rowLines widths) ++ [rule '└' '─' '┘' widths])

end Postal.BorderedTable
