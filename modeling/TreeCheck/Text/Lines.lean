/-
Texts cut into lines, in two ways: for display, where a line ends before
its terminator and an empty last line does not count, and for indexing,
where every byte belongs to a line and its terminator is part of it.
-/

namespace TreeCheck.Lines

/-- Characters cut after each newline. There is always a last piece, which
is empty if the text ends with a newline. -/
def pieces : List Char → List (List Char)
  | [] => [[]]
  | c :: cs =>
    if c = '\n' then [c] :: pieces cs
    else match pieces cs with
      | [] => [[c]]
      | p :: ps => (c :: p) :: ps

/-- A piece without its newline and a carriage return before that. -/
def dropTerminator (piece : List Char) : List Char :=
  match piece.reverse with
  | '\n' :: '\r' :: rest => rest.reverse
  | '\n' :: rest => rest.reverse
  | _ => piece

/-- The lines of a text as they are displayed. -/
def display (s : String) : List String :=
  let ps := pieces s.toList
  let shown := if ps.getLast? = some [] then ps.dropLast else ps
  shown.map fun p => String.ofList (dropTerminator p)

/-- A line of a text with the place of its first byte. -/
structure Line where
  start : Nat
  text : List Char
deriving DecidableEq, Repr

/-- The number of bytes of some characters. -/
def byteLength (cs : List Char) : Nat := cs.foldr (fun c n => c.utf8Size + n) 0

/-- The place after the last byte of a line. -/
def Line.stop (l : Line) : Nat := l.start + byteLength l.text

/-- Pieces of a text with their places, the first of them given. -/
def locate (start : Nat) : List (List Char) → List Line
  | [] => []
  | p :: ps => ⟨start, p⟩ :: locate (start + byteLength p) ps

/-- The lines of a text for indexing. Together they hold all its bytes. -/
def index (s : String) : List Line := locate 0 (pieces s.toList)

/-- The index of the line that a byte is in: the last line that does not
start after it. -/
def lineOf (ls : List Line) (byte : Nat) : Nat := ls.countP (·.start ≤ byte) - 1

end TreeCheck.Lines
