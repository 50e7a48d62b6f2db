/-
Places in an analyzed source and the identities of the nodes of its
tree. A node carries both: the position says where a complaint about
it is shown, the identity is the key under which the analysis records
what it learned about it. Neither determines the other, so nothing
here relates them.
-/

namespace TreeCheck

/-- A line and a column of the analyzed source. Both count from one;
zero can be written in a document and is then a place that no text
has. -/
structure Position where
  line : Nat
  column : Nat
deriving DecidableEq, Repr

namespace Position

/-- The first character of a source. -/
def start : Position := ⟨1, 1⟩

instance : Inhabited Position := ⟨start⟩

/-- Source order: by line, and by column within a line. -/
protected def le (p q : Position) : Bool :=
  p.line < q.line || (p.line == q.line && p.column ≤ q.column)

/-- A position as it is shown to a reader, `line:column`. -/
def display (p : Position) : String := s!"{p.line}:{p.column}"

/-- Positions in source order; equal ones stay as they came. -/
def sort (ps : List Position) : List Position := ps.mergeSort Position.le

end Position

/-- The identity of a statement or an expression within its tree. -/
abbrev NodeId := Nat

/-- A node's identity as it is shown in a message. -/
def NodeId.display (id : NodeId) : String := s!"#{id}"

/-- What every statement and expression carries beside its content:
its identity and its place in the source. -/
structure Tag where
  id : NodeId
  position : Position
deriving DecidableEq, Repr, Inhabited

end TreeCheck
