/-
The nodes of a document, each with the fields of its kind. Any node may
stand in any place here; which of them are programs is settled when they
are turned into trees.
-/
import TreeCheck.Document.Kind
import TreeCheck.Json.Value
import TreeCheck.Position

namespace TreeCheck.Document

/-- A parameter of a function definition. -/
structure Param where
  name : String
  type : Option String
  position : Position
deriving DecidableEq, Repr

/-- A node of a document. -/
inductive Node where
  | program (position : Position) (body : List Node)
  | literal (position : Position) (value : Json.Value)
  | identifier (position : Position) (name : String)
  | binaryOp (position : Position) (op : String) (left right : Node)
  | unaryOp (position : Position) (op : String) (operand : Node)
  | call (position : Position) (callee : Node) (arguments : List Node)
  | assignment (position : Position) (target value : Node)
  | declaration (position : Position) (name : String) (type : Option String)
      (value : Option Node) (mutable : Bool)
  | functionDef (position : Position) (name : String) (params : List Param)
      (returnType : Option String) (body : Node)
  | block (position : Position) (statements : List Node)
  | ifElse (position : Position) (condition thenBranch : Node) (elseBranch : Option Node)
  | while (position : Position) (condition body : Node)
  | ret (position : Position) (value : Option Node)
  | expressionStatement (position : Position) (expression : Node)
deriving Repr, Inhabited

namespace Node

/-- The kind of a node. -/
def kind : Node → Kind
  | .program _ _ => .program
  | .literal _ _ => .literal
  | .identifier _ _ => .identifier
  | .binaryOp _ _ _ _ => .binaryOp
  | .unaryOp _ _ _ => .unaryOp
  | .call _ _ _ => .call
  | .assignment _ _ _ => .assignment
  | .declaration _ _ _ _ _ => .declaration
  | .functionDef _ _ _ _ _ => .functionDef
  | .block _ _ => .block
  | .ifElse _ _ _ _ => .ifElse
  | .while _ _ _ => .while
  | .ret _ _ => .ret
  | .expressionStatement _ _ => .expressionStatement

/-- The position of a node. -/
def position : Node → Position
  | .program p _ | .literal p _ | .identifier p _ | .binaryOp p _ _ _ | .unaryOp p _ _
  | .call p _ _ | .assignment p _ _ | .declaration p _ _ _ _ | .functionDef p _ _ _ _
  | .block p _ | .ifElse p _ _ _ | .while p _ _ | .ret p _ | .expressionStatement p _ => p

end Node

end TreeCheck.Document
