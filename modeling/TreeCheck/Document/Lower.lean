/-
From the nodes of a document to a program.

Every node has to be of a kind that fits its place, operators have to be
known, and constants to be constants of the language. Nodes are numbered
from zero as they are met, a node before its parts. An expression where
a statement is expected is a statement of its own: it is numbered twice,
once as the statement and once as the expression.
-/
import TreeCheck.Document.DecodeError
import TreeCheck.Document.Node
import TreeCheck.Json.Writer
import TreeCheck.Syntax.Tree

namespace TreeCheck.Document

/-- The places that only some kinds of nodes fit. -/
inductive Place where
  | root
  | statement
  | expression
  | body
deriving DecidableEq, Repr

/-- The words for what a place calls for. -/
def Place.phrase : Place → String
  | .root => "a `Program` root"
  | .statement => "a statement"
  | .expression => "an expression"
  | .body => "a `Block`"

/-- Why a node is no part of a program. -/
inductive LowerCause where
  | misplaced (expected : Place) (found : Kind)
  | unknownBinary (op : String)
  | unknownUnary (op : String)
  | integerOutOfRange (value : Int)
  | unsupportedLiteral (value : Json.Value)

/-- A node that is no part of a program: where it is, and why. -/
structure LowerError where
  position : Position
  cause : LowerCause

/-- The text of why a node is no part of a program. -/
def LowerCause.message : LowerCause → String
  | .misplaced expected found => s!"expected {expected.phrase}, found `{found.name}`"
  | .unknownBinary op => s!"unknown binary operator `{op}`"
  | .unknownUnary op => s!"unknown unary operator `{op}`"
  | .integerOutOfRange z => s!"integer literal {z} out of range"
  | .unsupportedLiteral v => s!"unsupported literal value {v.compact}"

/-- The text of a lowering error. -/
def LowerError.message (e : LowerError) : String := s!"at {e.position.display}: {e.cause.message}"

/-- The least integer constant. -/
def leastInt : Int := -0x8000000000000000

/-- The greatest integer constant. -/
def greatestInt : Int := 0x7FFFFFFFFFFFFFFF

/-- A step of lowering, with the number that the next node gets. -/
abbrev Lower := StateT NodeId (Except LowerError)

/-- Numbers a node. -/
def tagNext (p : Position) : Lower Tag := modifyGet fun id => (⟨id, p⟩, id + 1)

/-- Refuses a node. -/
def refuse {α : Type} (p : Position) (cause : LowerCause) : Lower α := throw ⟨p, cause⟩

/-- The constant that a JSON value stands for. -/
def lowerLiteral (p : Position) : Json.Value → Lower Literal
  | .bool b => pure (.bool b)
  | .string s => pure (.string s)
  | .number (.int z) =>
    if leastInt ≤ z ∧ z ≤ greatestInt then pure (.int z) else refuse p (.integerOutOfRange z)
  | .number (.float x) => pure (.float x)
  | v => refuse p (.unsupportedLiteral v)

/-- Lets a look-up fail at a position. -/
def orRefuse {α : Type} (p : Position) (cause : LowerCause) (a : Option α) : Lower α :=
  a.elim (refuse p cause) pure

mutual

/-- Lowers a node where an expression is expected. -/
def lowerExpr : Node → Lower Expr
  | .literal p v => do
    let t ← tagNext p
    pure (.literal t (← lowerLiteral p v))
  | .identifier p name => do
    let t ← tagNext p
    pure (.identifier t name)
  | .binaryOp p op left right => do
    let t ← tagNext p
    let op ← orRefuse p (.unknownBinary op) (BinaryOp.ofSymbol? op)
    let l ← lowerExpr left
    let r ← lowerExpr right
    pure (.binary t op l r)
  | .unaryOp p op operand => do
    let t ← tagNext p
    let op ← orRefuse p (.unknownUnary op) (UnaryOp.ofSymbol? op)
    let e ← lowerExpr operand
    pure (.unary t op e)
  | .call p callee args => do
    let t ← tagNext p
    let f ← lowerExpr callee
    let es ← lowerExprs args
    pure (.call t f es)
  | n => refuse n.position (.misplaced .expression n.kind)
termination_by structural n => n

/-- Lowers the nodes of a list of expressions. -/
def lowerExprs : List Node → Lower (List Expr)
  | [] => pure []
  | n :: ns => do
    let e ← lowerExpr n
    let es ← lowerExprs ns
    pure (e :: es)
termination_by structural ns => ns

end

/-- Lowers a node that may be absent. -/
def lowerExpr? (n : Option Node) : Lower (Option Expr) :=
  n.elim (pure none) fun n => do pure (some (← lowerExpr n))

/-- A type name with the position of what it annotates. -/
def typeNameAt (p : Position) (name : Option String) : Option TypeName := name.map (⟨·, p⟩)

/-- A parameter of a program. -/
def Param.lower (p : Param) : TreeCheck.Param :=
  ⟨p.name, typeNameAt p.position p.type, p.position⟩

/-- Lowers an expression at a position that stands for a statement. -/
def lowerBare (p : Position) (n : Node) : Lower Stmt := do
  let t ← tagNext p
  let e ← lowerExpr n
  pure (.expr t e)

mutual

/-- Lowers a node where a statement is expected. -/
def lowerStmt : Node → Lower Stmt
  | .declaration p name type value mutable => do
    let t ← tagNext p
    let init ← lowerExpr? value
    pure (.declaration t name (typeNameAt p type) init mutable)
  | .functionDef p name params returnType (.block bodyAt statements) => do
    let t ← tagNext p
    let body ← lowerStmts statements
    pure (.function t name (params.map Param.lower) (typeNameAt p returnType) bodyAt body)
  | .functionDef _ _ _ _ body => refuse body.position (.misplaced .body body.kind)
  | .assignment p target value => do
    let t ← tagNext p
    let l ← lowerExpr target
    let r ← lowerExpr value
    pure (.assignment t l r)
  | .block p statements => do
    let t ← tagNext p
    let stmts ← lowerStmts statements
    pure (.block t p stmts)
  | .ifElse p condition thenBranch none => do
    let t ← tagNext p
    let c ← lowerExpr condition
    let a ← lowerStmt thenBranch
    pure (.ifElse t c a none)
  | .ifElse p condition thenBranch (some elseBranch) => do
    let t ← tagNext p
    let c ← lowerExpr condition
    let a ← lowerStmt thenBranch
    let b ← lowerStmt elseBranch
    pure (.ifElse t c a (some b))
  | .while p condition body => do
    let t ← tagNext p
    let c ← lowerExpr condition
    let b ← lowerStmt body
    pure (.while t c b)
  | .ret p value => do
    let t ← tagNext p
    let v ← lowerExpr? value
    pure (.ret t v)
  | .expressionStatement p expression => do
    let t ← tagNext p
    let e ← lowerExpr expression
    pure (.expr t e)
  | .program p _ => refuse p (.misplaced .statement .program)
  | .literal p v => lowerBare p (.literal p v)
  | .identifier p name => lowerBare p (.identifier p name)
  | .binaryOp p op l r => lowerBare p (.binaryOp p op l r)
  | .unaryOp p op e => lowerBare p (.unaryOp p op e)
  | .call p f args => lowerBare p (.call p f args)
termination_by structural n => n

/-- Lowers the nodes of a list of statements. -/
def lowerStmts : List Node → Lower (List Stmt)
  | [] => pure []
  | n :: ns => do
    let s ← lowerStmt n
    let ss ← lowerStmts ns
    pure (s :: ss)
termination_by structural ns => ns

end

/-- The program that a root node stands for. -/
def lower : Node → Except LowerError Program
  | .program p body => do
    let (stmts, _) ← (lowerStmts body).run 0
    pure ⟨stmts, p⟩
  | n => .error ⟨n.position, .misplaced .root n.kind⟩

end TreeCheck.Document
