/-
Source files for annotated reports, and where a position is in them.

A position selects a line by its number and a byte of that line by its
column. A column past the end of a line selects the place after the
line's last byte; a line that the file does not have selects nothing.
-/
import TreeCheck.Position
import TreeCheck.Text.Lines

namespace TreeCheck

/-- A source file: the name it is shown under, and its text. -/
structure SourceFile where
  name : String
  text : String
deriving DecidableEq, Repr

/-- A range of bytes, without the last. -/
structure ByteRange where
  start : Nat
  stop : Nat
deriving DecidableEq, Repr

/-- Whether two ranges have a byte in common. -/
def ByteRange.overlaps (a b : ByteRange) : Bool := max a.start b.start < min a.stop b.stop

namespace SourceFile

/-- The lines of a file. -/
def lines (f : SourceFile) : List Lines.Line := Lines.index f.text

/-- The byte at a position, as a range of at most one byte, if the file
has the line. -/
def byteRange? (f : SourceFile) (p : Position) : Option ByteRange :=
  if p.line = 0 then none
  else (f.lines[p.line - 1]?).map fun l =>
    let start := min (l.start + (p.column - 1)) l.stop
    ⟨start, min (start + 1) l.stop⟩

/-- The line and column that a byte is shown at; the column counts the
characters of the line that end at or before the byte. -/
def location (f : SourceFile) (byte : Nat) : Position :=
  let i := Lines.lineOf f.lines byte
  match f.lines[i]? with
  | none => ⟨i + 1, 1⟩
  | some l => ⟨i + 1, go l.start l.text + 1⟩
where
  /-- Counts characters from a place on while they end by the byte. -/
  go (place : Nat) : List Char → Nat
    | [] => 0
    | c :: cs => if place + c.utf8Size ≤ byte then go (place + c.utf8Size) cs + 1 else 0

end SourceFile

end TreeCheck
