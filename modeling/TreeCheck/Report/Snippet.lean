/-
Snippets: source lines with what is said about them drawn below.

A label that begins and ends on one line is drawn with carets under its
bytes. The message of the last one follows its carets on their line, if
the label overlaps no other; the other messages hang below, each under
a pointer to the start of its label. A label on the byte that ends a
line reaches to the next line and is drawn as an arc in columns to the
left of the text.
-/
import TreeCheck.Report.Source
import TreeCheck.Text.CodePoint.Width

namespace TreeCheck.Snippet

/-- A label: what is said about a range of bytes. The primary label marks
what a report is about. -/
structure Label where
  primary : Bool
  range : ByteRange
  message : String
deriving DecidableEq, Repr

-- ================================================================== cells

/-- A character of a line: where its first byte is in the line, and how
many columns it takes. -/
structure Cell where
  index : Nat
  char : Char
  width : Nat
deriving DecidableEq, Repr

/-- The distance between tab stops. -/
def tabWidth : Nat := 4

/-- The columns of a character at some column: a tab goes to the next
tab stop. -/
def widthAt (column : Nat) (c : Char) : Nat :=
  if c = '\t' then tabWidth - column % tabWidth else CodePoint.width c

/-- The cells of characters from some byte and column on. -/
def cellsFrom (index column : Nat) : List Char → List Cell
  | [] => []
  | c :: cs =>
    ⟨index, c, widthAt column c⟩ :: cellsFrom (index + c.utf8Size) (column + widthAt column c) cs

/-- The bytes of a cell. -/
def Cell.range (c : Cell) : ByteRange := ⟨c.index, c.index + c.char.utf8Size⟩

/-- The place behind the text of a line, where carets can stand too. -/
def placeholder (index : Nat) : Cell := ⟨index, '\x00', 1⟩

/-- A character as many times as a cell has columns. -/
def Cell.fill (c : Cell) (ch : Char) : List Char := List.replicate c.width ch

-- ================================================================== lines

/-- One end of a label that reaches over two lines. -/
inductive Edge where
  | top (start : Nat)
  | bottom (stop : Nat) (message : String)
deriving DecidableEq, Repr

/-- An end of a label in a line, with the column of arcs it is drawn in. -/
structure Arc where
  column : Nat
  primary : Bool
  edge : Edge
deriving DecidableEq, Repr

/-- A line of a snippet with what is said about it. Ranges count bytes
from the start of the line. -/
structure AnnotatedLine where
  number : Nat
  text : List Char
  labels : List Label
  arcs : List Arc
deriving DecidableEq, Repr

namespace AnnotatedLine

/-- Characters that are not shown at the end of a line. -/
def isTrimmed (c : Char) : Bool := c = '\n' || c = '\r' || c = '\x00'

/-- The text of a line as it is shown. -/
def shown (l : AnnotatedLine) : List Char := (l.text.reverse.dropWhile isTrimmed).reverse

/-- The cells of a line. -/
def cells (l : AnnotatedLine) : List Cell := cellsFrom 0 0 l.shown

/-- White space by which a line is indented. -/
def isSpace (c : Char) : Bool :=
  let code := c.toNat
  (9 ≤ code && code ≤ 13) || code = 0x20 || code = 0x85 || code = 0xA0 || code = 0x1680
    || (0x2000 ≤ code && code ≤ 0x200A) || code = 0x2028 || code = 0x2029 || code = 0x202F
    || code = 0x205F || code = 0x3000

/-- The number of bytes that a line is indented by. -/
def indent (l : AnnotatedLine) : Nat := Lines.byteLength (l.shown.takeWhile isSpace)

end AnnotatedLine

-- ================================================================= gutters

/-- The layout shared by the lines of a snippet: the width of the line
numbers and the number of columns of arcs. -/
structure Layout where
  numberWidth : Nat
  columns : Nat
deriving DecidableEq, Repr

/-- Blanks in place of a line number. -/
def Layout.blank (y : Layout) : String := String.ofList (List.replicate (y.numberWidth + 1) ' ')

/-- A line number, aligned to the right. -/
def Layout.number (y : Layout) (n : Nat) : String :=
  let digits := toString n
  String.ofList (List.replicate (y.numberWidth - digits.length) ' ') ++ digits ++ " "

/-- The columns of arcs of a line, each drawn from the arc in it. -/
def Layout.gutter (y : Layout) (arcs : List Arc) (draw : Arc → String) : String :=
  String.join ((List.range y.columns).map fun i =>
    ((arcs.find? (·.column == i)).map draw).getD "  ")

/-- The columns of arcs beside a source line. An arc begins there if its
label does not begin after the indentation. -/
def sourceGutter (y : Layout) (l : AnnotatedLine) : String :=
  y.gutter l.arcs fun a => match a.edge with
    | .top start => if start ≤ l.indent then " ╭" else "  "
    | .bottom _ _ => " │"

/-- The columns of arcs beside the lines of carets and messages. -/
def caretGutter (y : Layout) (arcs : List Arc) : String :=
  y.gutter arcs fun a => match a.edge with
    | .top _ => "  "
    | .bottom _ _ => " │"

-- ============================================================ source lines

/-- A source line with its number, tabs expanded. -/
def sourceLine (y : Layout) (l : AnnotatedLine) : String :=
  let text := l.cells.flatMap fun c => if c.char = '\t' then c.fill ' ' else [c.char]
  y.number l.number ++ "│" ++ sourceGutter y l ++ " " ++ String.ofList text

/-- The start of a line of carets or messages. -/
def belowStart (y : Layout) (l : AnnotatedLine) : String :=
  y.blank ++ "│" ++ caretGutter y l.arcs ++ " "

/-- The place after the last byte that a label marks. -/
def lastStop (labels : List Label) : Nat := (labels.map (·.range.stop)).foldl max 0

/-- The last place where a label begins. -/
def lastStart (labels : List Label) : Nat := (labels.map (·.range.start)).foldl max 0

/-- The index of the label whose message follows the carets: the last of
those that reach furthest, if it has a message and overlaps no other. -/
def trailing? (labels : List Label) : Option Nat :=
  let furthest := labels.zipIdx.filter fun (l, _) => l.range.stop = lastStop labels
  match furthest.getLast? with
  | none => none
  | some (l, i) =>
    if l.message.isEmpty then none
    else if labels.zipIdx.any fun (m, j) => j != i && l.range.overlaps m.range then none
    else some i

/-- The labels whose messages hang below the carets. -/
def hanging (labels : List Label) : List Label :=
  (labels.zipIdx.filter fun (l, i) => !l.message.isEmpty && trailing? labels != some i).map (·.1)

/-- The carets below a cell. Past the last label nothing is drawn. -/
def caret (labels : List Label) (c : Cell) : List Char :=
  let above := labels.filter (·.range.overlaps c.range)
  if above.any (·.primary) then c.fill '^'
  else if !above.isEmpty then c.fill '-'
  else if c.index < lastStop labels then c.fill ' '
  else []

/-- The line of carets. -/
def caretLine (y : Layout) (l : AnnotatedLine) : String :=
  let cells := l.cells ++ [placeholder (Lines.byteLength l.shown)]
  let message := ((trailing? l.labels).bind fun i => l.labels[i]?).elim "" (" " ++ ·.message)
  belowStart y l ++ String.ofList (cells.flatMap (caret l.labels)) ++ message

/-- The pointers below a cell to the hanging labels that begin in it. -/
def pointer (labels : List Label) (c : Cell) : List Char :=
  let blanks (n : Nat) := if c.index ≤ lastStart labels then List.replicate n ' ' else []
  if (hanging labels).any fun l => c.index ≤ l.range.start && l.range.start < c.range.stop then
    '│' :: blanks (c.width - 1)
  else blanks c.width

/-- The lines of hanging messages: all pointers first, and then from the
last message to the first each behind the pointers left of it. -/
def hangingLines (y : Layout) (l : AnnotatedLine) : List String :=
  let pointers (cells : List Cell) : String := String.ofList (cells.flatMap (pointer l.labels))
  match hanging l.labels with
  | [] => []
  | labels =>
    (belowStart y l ++ pointers l.cells) :: labels.reverse.map fun m =>
      belowStart y l ++ pointers (l.cells.takeWhile (·.index < m.range.start)) ++ m.message

-- ==================================================================== arcs

/-- The columns of arcs beside the line that draws the `own`-th arc of a
source line: from its own column on it is underlined. -/
def arcGutter (y : Layout) (arcs : List Arc) (own : Nat) : String :=
  go (List.range y.columns) false
where
  /-- Draws the columns left, with whether the underline has begun. -/
  go : List Nat → Bool → String
    | [], _ => ""
    | column :: rest, begun =>
      let plain := if begun then "──" else "  "
      let crossed := if begun then "─│" else " │"
      match arcs.zipIdx.find? fun (a, _) => a.column = column with
      | none => plain ++ go rest begun
      | some (a, i) =>
        match a.edge with
        | .top _ =>
          if i < own then crossed ++ go rest begun
          else if i = own then " ╭" ++ go rest true
          else plain ++ go rest begun
        | .bottom _ _ =>
          if own < i then crossed ++ go rest begun
          else if i = own then " ╰" ++ go rest true
          else plain ++ go rest begun

/-- The line that draws an arc, if it needs one: an arc that begins in
front of its line is part of the source line. -/
def arcLine? (y : Layout) (l : AnnotatedLine) (own : Nat) (a : Arc) : Option String :=
  let start := y.blank ++ "│" ++ arcGutter y l.arcs own
  let mark := if a.primary then "^" else "'"
  let underline (below : Nat) : String :=
    String.ofList ((l.cells.takeWhile (·.index < below)).flatMap (·.fill '─'))
  match a.edge with
  | .top s => if s ≤ l.indent then none else some (start ++ underline (s + 1) ++ mark)
  | .bottom s message =>
    some (start ++ underline s ++ mark ++ (if message.isEmpty then "" else " " ++ message))

/-- A source line and all that is drawn below it. -/
def annotated (y : Layout) (l : AnnotatedLine) : List String :=
  let below := if l.labels.isEmpty then [] else caretLine y l :: hangingLines y l
  sourceLine y l :: (below ++ l.arcs.zipIdx.filterMap fun (a, i) => arcLine? y l i a)

-- ================================================================ snippets

/-- The line of a file with a given index, with nothing said about it. -/
def bare (f : SourceFile) (i : Nat) : AnnotatedLine :=
  ⟨i + 1, ((f.lines[i]?).map (·.text)).getD [], [], []⟩

/-- Puts a label in front of the first that does not come before it. -/
def insertLabel (l : Label) : List Label → List Label
  | [] => [l]
  | m :: ms =>
    if m.range.start < l.range.start
        ∨ (m.range.start = l.range.start ∧ m.range.stop < l.range.stop) then
      m :: insertLabel l ms
    else l :: m :: ms

/-- A label placed in a file: the lines it begins and ends on, and where
in them. -/
structure Placed where
  label : Label
  firstLine : Nat
  lastLine : Nat
  start : Nat
  stop : Nat
deriving DecidableEq, Repr

/-- Where a label is in a file. -/
def place (f : SourceFile) (l : Label) : Placed :=
  let offset (i byte : Nat) : Nat := byte - ((f.lines[i]?).map (·.start)).getD 0
  let first := Lines.lineOf f.lines l.range.start
  let last := Lines.lineOf f.lines l.range.stop
  ⟨l, first, last, offset first l.range.start, offset last l.range.stop⟩

/-- Whether a label begins and ends on one line. -/
def Placed.isSingle (p : Placed) : Bool := p.firstLine = p.lastLine

/-- The ends of a label that reaches over two lines, in a line. -/
def Placed.arcs (p : Placed) (column i : Nat) : List Arc :=
  (if p.firstLine = i then [⟨column, p.label.primary, .top p.start⟩] else [])
    ++ (if p.lastLine = i then [⟨column, p.label.primary, .bottom p.stop p.label.message⟩] else [])

/-- A line of a file with what labels say about it. A label marks at least
one byte. -/
def lineWith (f : SourceFile) (placed : List Placed) (i : Nat) : AnnotatedLine :=
  let single := placed.filter fun p => p.isSingle && p.firstLine = i
  let labels := single.map fun p =>
    ({ p.label with range := ⟨p.start, max p.stop (p.start + 1)⟩ } : Label)
  let multi := (placed.filter (!·.isSingle)).zipIdx
  { bare f i with
    labels := labels.foldl (fun ls l => insertLabel l ls) []
    arcs := multi.flatMap fun (p, column) => p.arcs column i }

/-- The lines that labels begin or end on, in order. -/
def touched (placed : List Placed) : List Nat :=
  (placed.flatMap fun p => [p.firstLine, p.lastLine]).mergeSort (· ≤ ·) |>.eraseDups

/-- What is drawn between two lines of a snippet: nothing, the one line
between them, or a break. -/
def between (y : Layout) (f : SourceFile) (l : AnnotatedLine) (next : Nat) : List String :=
  if next = l.number then []
  else if next = l.number + 1 then annotated y (bare f l.number)
  else [y.blank ++ "·" ++ caretGutter y l.arcs]

/-- The lines of a snippet. -/
def body (y : Layout) (f : SourceFile) (placed : List Placed) : List Nat → List String
  | [] => []
  | i :: rest =>
    let l := lineWith f placed i
    annotated y l ++ rest.head?.elim [] (between y f l) ++ body y f placed rest

/-- A snippet of a file with labels, the first of which gives it its
location. -/
def render (f : SourceFile) (labels : List Label) : List String :=
  let placed := labels.map (place f)
  let lines := touched placed
  let y : Layout :=
    ⟨(toString (lines.foldl max 0 + 1)).length, (placed.filter (!·.isSingle)).length⟩
  let location := f.location ((labels.head?.map (·.range.start)).getD 0)
  (y.blank ++ "┌─ " ++ f.name ++ ":" ++ location.display)
    :: (y.blank ++ "│" ++ caretGutter y [])
    :: body y f placed lines

end TreeCheck.Snippet
