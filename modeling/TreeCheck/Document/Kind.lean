/-
The kinds of nodes a document is made of, and the fields of each.

A field list is in the order in which values may be given without the
names of their fields. The shape of a field says how its value is read;
which fields may be missing, and what then stands in for them, is
settled where a node is put together.
-/

namespace TreeCheck.Document

/-- The kinds of nodes. -/
inductive Kind where
  | program | literal | identifier | binaryOp | unaryOp | call | assignment | declaration
  | functionDef | block | ifElse | while | ret | expressionStatement
deriving DecidableEq, Repr

/-- How a value is read. -/
inductive Shape where
  | position
  | count
  | string
  | bool
  | json
  | node
  | param
  | nodes
  | params
deriving DecidableEq, Repr

/-- A field: its name, its shape, and whether `null` stands for an absent
value. -/
structure Field where
  name : String
  shape : Shape
  nullable : Bool
deriving DecidableEq, Repr

/-- A field for which `null` is a value like any other. -/
def Field.plain (name : String) (shape : Shape) : Field := ⟨name, shape, false⟩

/-- A field for which `null` says that there is no value. -/
def Field.orNull (name : String) (shape : Shape) : Field := ⟨name, shape, true⟩

namespace Kind

/-- Every kind, in the order of their numbers. -/
def all : List Kind :=
  [.program, .literal, .identifier, .binaryOp, .unaryOp, .call, .assignment, .declaration,
    .functionDef, .block, .ifElse, .while, .ret, .expressionStatement]

/-- The name of a kind in documents and in messages. -/
def name : Kind → String
  | .program => "Program"
  | .literal => "Literal"
  | .identifier => "Identifier"
  | .binaryOp => "BinaryOp"
  | .unaryOp => "UnaryOp"
  | .call => "Call"
  | .assignment => "Assignment"
  | .declaration => "Declaration"
  | .functionDef => "FunctionDef"
  | .block => "Block"
  | .ifElse => "If"
  | .while => "While"
  | .ret => "Return"
  | .expressionStatement => "ExpressionStatement"

/-- The kind with a given name. -/
def ofName? (s : String) : Option Kind := all.find? (·.name == s)

/-- The fields of a kind. -/
def fields : Kind → List Field
  | .program => [.plain "position" .position, .plain "body" .nodes]
  | .literal => [.plain "position" .position, .plain "value" .json]
  | .identifier => [.plain "position" .position, .plain "name" .string]
  | .binaryOp =>
    [.plain "position" .position, .plain "op" .string, .plain "left" .node,
      .plain "right" .node]
  | .unaryOp =>
    [.plain "position" .position, .plain "op" .string, .plain "operand" .node]
  | .call =>
    [.plain "position" .position, .plain "callee" .node, .plain "arguments" .nodes]
  | .assignment =>
    [.plain "position" .position, .plain "target" .node, .plain "value" .node]
  | .declaration =>
    [.plain "position" .position, .plain "name" .string, .orNull "type" .string,
      .orNull "value" .node, .plain "mutable" .bool]
  | .functionDef =>
    [.plain "position" .position, .plain "name" .string, .plain "params" .params,
      .orNull "return_type" .string, .plain "body" .node]
  | .block => [.plain "position" .position, .plain "statements" .nodes]
  | .ifElse =>
    [.plain "position" .position, .plain "condition" .node, .plain "then_branch" .node,
      .orNull "else_branch" .node]
  | .while =>
    [.plain "position" .position, .plain "condition" .node, .plain "body" .node]
  | .ret => [.plain "position" .position, .orNull "value" .node]
  | .expressionStatement => [.plain "position" .position, .plain "expression" .node]

end Kind

/-- The fields of a position. -/
def positionFields : List Field := [.plain "line" .count, .plain "column" .count]

/-- The fields of a parameter. -/
def paramFields : List Field :=
  [.plain "name" .string, .orNull "type" .string, .plain "position" .position]

end TreeCheck.Document
