/-
Building trees in memory.

A builder numbers the nodes it makes from zero, in the order in which
they are made, so the parts of a node have lower numbers than the node
itself. Every node gets the position that the builder is set to, and so
do annotations, parameters and bodies.
-/
import TreeCheck.Syntax.Tree

namespace TreeCheck

/-- A source of numbers for nodes. -/
structure IdSource where
  next : NodeId := 0
deriving DecidableEq, Repr

/-- Takes the next number. -/
def IdSource.take (s : IdSource) : NodeId × IdSource := (s.next, ⟨s.next + 1⟩)

/-- How many numbers have been taken. -/
def IdSource.count (s : IdSource) : Nat := s.next

/-- A builder: the numbers it hands out and the position it is set to. -/
structure Builder where
  ids : IdSource := {}
  position : Position := Position.start
deriving DecidableEq, Repr

namespace Builder

/-- A step that uses a builder. -/
abbrev Build := StateM Builder

/-- Sets the position of the nodes made next. -/
def moveTo (p : Position) : Build Unit := modify ({ · with position := p })

/-- The tag of a new node. -/
def newTag : Build Tag := modifyGet fun b =>
  let (id, ids) := b.ids.take
  (⟨id, b.position⟩, { b with ids })

/-- A type name at the position of the builder. -/
def typeName (type : Option String) : Build (Option TypeName) := do
  let b ← get
  pure (type.map (⟨·, b.position⟩))

/-- A constant. -/
def literal (value : Literal) : Build Expr := do pure (.literal (← newTag) value)

/-- A name. -/
def identifier (name : String) : Build Expr := do pure (.identifier (← newTag) name)

/-- A binary operation. -/
def binary (op : BinaryOp) (left right : Expr) : Build Expr := do
  pure (.binary (← newTag) op left right)

/-- A unary operation. -/
def unary (op : UnaryOp) (operand : Expr) : Build Expr := do
  pure (.unary (← newTag) op operand)

/-- A call. -/
def call (callee : Expr) (args : List Expr) : Build Expr := do
  pure (.call (← newTag) callee args)

/-- The declaration of a variable, or of a constant if it is not mutable. -/
def declaration (name : String) (type : Option String) (init : Option Expr) (mutable : Bool) :
    Build Stmt := do
  let ann ← typeName type
  pure (.declaration (← newTag) name ann init mutable)

/-- A function definition with parameters by name and type. -/
def function (name : String) (params : List (String × Option String))
    (result : Option String) (body : List Stmt) : Build Stmt := do
  let b ← get
  let params := params.map fun (n, ty) =>
    (⟨n, ty.map (⟨·, b.position⟩), b.position⟩ : Param)
  let ann ← typeName result
  pure (.function (← newTag) name params ann b.position body)

/-- An assignment. -/
def assignment (target value : Expr) : Build Stmt := do
  pure (.assignment (← newTag) target value)

/-- An expression as a statement. -/
def exprStmt (e : Expr) : Build Stmt := do pure (.expr (← newTag) e)

/-- A block. -/
def block (stmts : List Stmt) : Build Stmt := do
  let b ← get
  pure (.block (← newTag) b.position stmts)

/-- An `if`, with or without an `else`. -/
def ifElse (condition : Expr) (thenBranch : Stmt) (elseBranch : Option Stmt) : Build Stmt := do
  pure (.ifElse (← newTag) condition thenBranch elseBranch)

/-- A `while` loop. -/
def whileLoop (condition : Expr) (body : Stmt) : Build Stmt := do
  pure (.while (← newTag) condition body)

/-- A `return`, with or without a value. -/
def ret (value : Option Expr) : Build Stmt := do pure (.ret (← newTag) value)

/-- A program, which starts where a source does. -/
def program (body : List Stmt) : Program := ⟨body, Position.start⟩

end Builder

end TreeCheck
