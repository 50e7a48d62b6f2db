/-
The outline of a program: its statements and expressions in pre-order,
each with its depth and the part it plays in its parent.

Children come in reading order: condition, then, else; target, value;
callee, arguments; left, right; lists from the front. The outline is
the one definition of which nodes a program has and in which order.
-/
import TreeCheck.Syntax.Tree

namespace TreeCheck

/-- A tagged part of a program. -/
inductive Node where
  | expr (e : Expr)
  | stmt (s : Stmt)
deriving Repr, Inhabited

namespace Node

/-- Identity and position of a node. -/
def tag : Node → Tag
  | .expr e => e.tag
  | .stmt s => s.tag

/-- The identity of a node. -/
def id (n : Node) : NodeId := n.tag.id

/-- The position of a node. -/
def position (n : Node) : Position := n.tag.position

/-- The expression that a node is, if it is one. -/
def expr? : Node → Option Expr
  | .expr e => some e
  | .stmt _ => none

end Node

/-- The part that a node plays in its parent. -/
inductive Role where
  | body | init | target | value | stmt | condition | thenBranch | elseBranch
  | expr | left | right | operand | callee | arg
deriving DecidableEq, Repr

/-- One line of an outline. Top-level statements have depth zero. -/
structure Outline.Entry where
  depth : Nat
  role : Role
  node : Node
deriving Repr

/-- An outline, from the first node in pre-order to the last. -/
abbrev Outline := List Outline.Entry

mutual

/-- An expression and all below it. -/
def Expr.outline (depth : Nat) (role : Role) : Expr → Outline
  | .literal t v => [⟨depth, role, .expr (.literal t v)⟩]
  | .identifier t n => [⟨depth, role, .expr (.identifier t n)⟩]
  | .binary t op l r =>
    ⟨depth, role, .expr (.binary t op l r)⟩
      :: (l.outline (depth + 1) .left ++ r.outline (depth + 1) .right)
  | .unary t op e =>
    ⟨depth, role, .expr (.unary t op e)⟩ :: e.outline (depth + 1) .operand
  | .call t f args =>
    ⟨depth, role, .expr (.call t f args)⟩
      :: (f.outline (depth + 1) .callee ++ Expr.outlines (depth + 1) .arg args)
termination_by structural e => e

/-- Expressions of one list, which share depth and role. -/
def Expr.outlines (depth : Nat) (role : Role) : List Expr → Outline
  | [] => []
  | e :: es => e.outline depth role ++ Expr.outlines depth role es
termination_by structural es => es

end

/-- An expression that may be absent. -/
def Expr.outline? (depth : Nat) (role : Role) (e : Option Expr) : Outline :=
  e.elim [] (·.outline depth role)

mutual

/-- A statement and all below it. -/
def Stmt.outline (depth : Nat) (role : Role) : Stmt → Outline
  | .declaration t n a i m =>
    ⟨depth, role, .stmt (.declaration t n a i m)⟩ :: Expr.outline? (depth + 1) .init i
  | .function t n ps r p body =>
    ⟨depth, role, .stmt (.function t n ps r p body)⟩ :: Stmt.outlines (depth + 1) .body body
  | .assignment t l r =>
    ⟨depth, role, .stmt (.assignment t l r)⟩
      :: (l.outline (depth + 1) .target ++ r.outline (depth + 1) .value)
  | .block t p ss =>
    ⟨depth, role, .stmt (.block t p ss)⟩ :: Stmt.outlines (depth + 1) .stmt ss
  | .ifElse t c a none =>
    ⟨depth, role, .stmt (.ifElse t c a none)⟩
      :: (c.outline (depth + 1) .condition ++ a.outline (depth + 1) .thenBranch)
  | .ifElse t c a (some b) =>
    ⟨depth, role, .stmt (.ifElse t c a (some b))⟩
      :: (c.outline (depth + 1) .condition ++ a.outline (depth + 1) .thenBranch
        ++ b.outline (depth + 1) .elseBranch)
  | .while t c b =>
    ⟨depth, role, .stmt (.while t c b)⟩
      :: (c.outline (depth + 1) .condition ++ b.outline (depth + 1) .body)
  | .ret t v => ⟨depth, role, .stmt (.ret t v)⟩ :: Expr.outline? (depth + 1) .value v
  | .expr t e => ⟨depth, role, .stmt (.expr t e)⟩ :: e.outline (depth + 1) .expr
termination_by structural s => s

/-- Statements of one list, which share depth and role. -/
def Stmt.outlines (depth : Nat) (role : Role) : List Stmt → Outline
  | [] => []
  | s :: ss => s.outline depth role ++ Stmt.outlines depth role ss
termination_by structural ss => ss

end

namespace Program

/-- The outline of a program. -/
def outline (p : Program) : Outline := Stmt.outlines 0 .body p.body

/-- The identities of all statements and expressions, in pre-order. -/
def ids (p : Program) : List NodeId := p.outline.map (·.node.id)

/-- The expressions of a program, in pre-order. -/
def exprs (p : Program) : List Expr := p.outline.filterMap (·.node.expr?)

end Program

end TreeCheck
