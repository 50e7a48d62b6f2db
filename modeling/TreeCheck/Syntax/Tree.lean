/-
The trees that are analyzed: expressions, statements, programs.

Every expression and statement begins with its tag. A function body
and a block are lists of statements with a position but no identity of
their own, so a walk over a tree meets exactly the tagged nodes.
-/
import TreeCheck.Position
import TreeCheck.Number.Binary64
import TreeCheck.Syntax.Operator

namespace TreeCheck

/-- Constants of the analyzed language. -/
inductive Literal where
  | int (value : Int)
  | float (value : Binary64)
  | string (value : String)
  | bool (value : Bool)
deriving DecidableEq, Repr

/-- Expressions. -/
inductive Expr where
  | literal (tag : Tag) (value : Literal)
  | identifier (tag : Tag) (name : String)
  | binary (tag : Tag) (op : BinaryOp) (left right : Expr)
  | unary (tag : Tag) (op : UnaryOp) (operand : Expr)
  | call (tag : Tag) (callee : Expr) (args : List Expr)
deriving Repr, Inhabited

namespace Expr

/-- Identity and position of an expression. -/
def tag : Expr → Tag
  | .literal t _ | .identifier t _ | .binary t _ _ _ | .unary t _ _ | .call t _ _ => t

/-- The identity of an expression. -/
def id (e : Expr) : NodeId := e.tag.id

/-- The position of an expression. -/
def position (e : Expr) : Position := e.tag.position

/-- The same expression under another tag; its parts keep theirs. -/
def withTag (t : Tag) : Expr → Expr
  | .literal _ v => .literal t v
  | .identifier _ n => .identifier t n
  | .binary _ op l r => .binary t op l r
  | .unary _ op e => .unary t op e
  | .call _ f args => .call t f args

/-- The name of an expression that is a lone identifier. -/
def name? : Expr → Option String
  | .identifier _ n => some n
  | _ => none

theorem name?_eq_some {e : Expr} {n : String} :
    e.name? = some n ↔ ∃ t, e = .identifier t n := by
  cases e <;> simp [name?]

end Expr

/-- A type name written in the source. -/
structure TypeName where
  name : String
  position : Position
deriving DecidableEq, Repr

/-- A parameter of a function definition. -/
structure Param where
  name : String
  typeName : Option TypeName
  position : Position
deriving DecidableEq, Repr

/-- Statements. A variable without an initializer, a function without a
result annotation, an `if` without `else` and a bare `return` leave the
optional part out. -/
inductive Stmt where
  | declaration (tag : Tag) (name : String) (typeName : Option TypeName)
      (init : Option Expr) (mutable : Bool)
  | function (tag : Tag) (name : String) (params : List Param)
      (result : Option TypeName) (bodyAt : Position) (body : List Stmt)
  | assignment (tag : Tag) (target value : Expr)
  | block (tag : Tag) (blockAt : Position) (stmts : List Stmt)
  | ifElse (tag : Tag) (condition : Expr) (thenBranch : Stmt) (elseBranch : Option Stmt)
  | while (tag : Tag) (condition : Expr) (body : Stmt)
  | ret (tag : Tag) (value : Option Expr)
  | expr (tag : Tag) (expr : Expr)
deriving Repr, Inhabited

namespace Stmt

/-- Identity and position of a statement. -/
def tag : Stmt → Tag
  | .declaration t _ _ _ _ | .function t _ _ _ _ _ | .assignment t _ _ | .block t _ _
  | .ifElse t _ _ _ | .while t _ _ | .ret t _ | .expr t _ => t

/-- The identity of a statement. -/
def id (s : Stmt) : NodeId := s.tag.id

/-- The position of a statement. -/
def position (s : Stmt) : Position := s.tag.position

/-- The same statement under another tag; its parts keep theirs. -/
def withTag (t : Tag) : Stmt → Stmt
  | .declaration _ n a i m => .declaration t n a i m
  | .function _ n ps r p b => .function t n ps r p b
  | .assignment _ l r => .assignment t l r
  | .block _ p ss => .block t p ss
  | .ifElse _ c a b => .ifElse t c a b
  | .while _ c b => .while t c b
  | .ret _ v => .ret t v
  | .expr _ e => .expr t e

/-- Whether a statement is a block. A block opens its own scope, so a
branch that is one needs no other. -/
def isBlock : Stmt → Bool
  | .block _ _ _ => true
  | _ => false

end Stmt

/-- A whole program: the statements of its global scope. -/
structure Program where
  body : List Stmt
  position : Position
deriving Repr, Inhabited

end TreeCheck
