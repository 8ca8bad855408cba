import ElfUnwind.Text.Hex
import ElfUnwind.Text.LineWidth

/-!
# Listings

A listing is rows of values under named columns. It is shown as a grid, whose columns are as wide as
their widest line, or as a list of objects, one for each row.
-/

namespace ElfUnwind.CommandLine

/-- A value of a listing. -/
inductive Value where
  /-- Text. -/
  | text (value : String)
  /-- A number. -/
  | number (value : Int)
  deriving DecidableEq, Repr

/-- A column of a listing. -/
structure Column where
  /-- What stands above it in a grid. -/
  heading : String
  /-- What it is called in an object. -/
  key : String
  deriving DecidableEq, Repr

/-- Rows of values under named columns. -/
structure Listing where
  /-- The columns in order. -/
  columns : List Column
  /-- The rows, each with a value for every column. -/
  rows : List (List Value)
  deriving DecidableEq, Repr

/-! ## Grids -/

/-- The lines of a text. -/
def splitLines : List Char → List (List Char)
  | [] => [[]]
  | c :: cs =>
    if c = '\n' then [] :: splitLines cs
    else
      match splitLines cs with
      | [] => [[c]]
      | l :: ls => (c :: l) :: ls

/-- Puts blanks behind a line up to a width. -/
def padTo (width : Nat) (line : List Char) : List Char :=
  line ++ List.replicate (width - Text.lineWidth line) ' '

/-- A line that is not wider than the width is padded to it. -/
theorem lineWidth_padTo {width : Nat} {line : List Char} (h : Text.lineWidth line ≤ width) :
    Text.lineWidth (padTo width line) = width := by
  rw [padTo, Text.lineWidth_append_blanks]
  omega

namespace Grid

/-- A cell of a grid: its lines. -/
abbrev Cell := List (List Char)

/-- The text of a value in a grid. -/
def cell : Value → Cell
  | .text value => splitLines value.toList
  | .number value => splitLines (toString value).toList

/-- The width of a cell. -/
def cellWidth (c : Cell) : Nat := (c.map Text.lineWidth).foldr max 0

/-- The widths of the columns of some rows. -/
def columnWidths (count : Nat) (rows : List (List Cell)) : List Nat :=
  (List.range count).map fun i => (rows.map fun row => cellWidth (row.getD i [])).foldr max 0

/-- The lines of a row whose columns have the given widths. -/
def rowLines (widths : List Nat) (row : List Cell) : List (List Char) :=
  -- A cell with fewer lines than its row is blank below them.
  let height := (row.map List.length).foldr max 1
  (List.range height).map fun i =>
    ['|'].intercalate <|
      (widths.zip row).map fun (width, c) => ' ' :: padTo width (c.getD i []) ++ [' ']

/-- The line under the headings. -/
def rule (widths : List Nat) : List Char :=
  ['+'].intercalate (widths.map fun width => List.replicate (width + 2) '-')

/-- The lines of a grid. -/
def lines (l : Listing) : List (List Char) :=
  let headings := l.columns.map fun c => splitLines c.heading.toList
  let rows := l.rows.map (·.map cell)
  let widths := columnWidths l.columns.length (headings :: rows)
  rowLines widths headings ++ [rule widths] ++ rows.flatMap (rowLines widths)

end Grid

/-- A listing as a grid. -/
def Listing.grid (l : Listing) : String := String.ofList (['\n'].intercalate (Grid.lines l))

/-! ## Objects -/

/-- A character as it stands in a quoted value of an object. -/
def escapeJson (c : Char) : List Char :=
  if c = '"' then ['\\', '"']
  else if c = '\\' then ['\\', '\\']
  else if c = '\x08' then ['\\', 'b']
  else if c = '\x0c' then ['\\', 'f']
  else if c = '\n' then ['\\', 'n']
  else if c = '\r' then ['\\', 'r']
  else if c = '\t' then ['\\', 't']
  else if c.toNat < 0x20 then ['\\', 'u', '0', '0'] ++ (Text.hexByte (UInt8.ofNat c.toNat)).toList
  else [c]

/-- A text between quotes. -/
def jsonText (text : String) : String :=
  String.ofList ('"' :: text.toList.flatMap escapeJson ++ ['"'])

/-- A value of an object. -/
def Value.json : Value → String
  | text value => jsonText value
  | number value => toString value

/-- A row as an object, one line for each column. -/
def objectLines (columns : List Column) (row : List Value) : String :=
  let entries := (columns.zip row).map fun (column, value) =>
    "    " ++ jsonText column.key ++ ": " ++ value.json
  "  \x7b\n" ++ ",\n".intercalate entries ++ "\n  \x7d"

/-- A listing as a list of objects. -/
def Listing.json (l : Listing) : String :=
  if l.rows.isEmpty then "[]"
  else "[\n" ++ ",\n".intercalate (l.rows.map (objectLines l.columns)) ++ "\n]"

end ElfUnwind.CommandLine
