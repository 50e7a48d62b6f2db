/-
What a program remembers of its document.

`document` reads a document off a program, with the numbers left out.
It undoes lowering up to wrapping: whatever number a node is lowered
with, the document of the result is the node with its bare expressions
wrapped. `Yields` says that of a step of lowering; a sequence of steps
yields what its parts yield, so there is again one case for each kind
of node. Two documents with one program are then the same but for the
wrapping, and since wrapping changes no step of lowering, documents
that are the same but for the wrapping have one program.
-/
import TreeCheck.Proofs.Lowering.Wrapped

namespace TreeCheck

-- ================================================= from trees to nodes

/-- The JSON value that stands for a constant. -/
def Literal.document : Literal → Json.Value
  | .int z => .number (.int z)
  | .float x => .number (.float x)
  | .string s => .string s
  | .bool b => .bool b

mutual

/-- The node that stands for an expression. -/
def Expr.document : Expr → Document.Node
  | .literal t v => .literal t.position v.document
  | .identifier t name => .identifier t.position name
  | .binary t op left right => .binaryOp t.position op.symbol left.document right.document
  | .unary t op operand => .unaryOp t.position op.symbol operand.document
  | .call t callee args => .call t.position callee.document (documentAll args)
termination_by structural e => e

/-- The nodes that stand for a list of expressions. -/
def Expr.documentAll : List Expr → List Document.Node
  | [] => []
  | e :: es => e.document :: documentAll es
termination_by structural es => es

end

/-- The parameter of a document that stands for a parameter. -/
def Param.document (p : Param) : Document.Param :=
  ⟨p.name, p.typeName.map TypeName.name, p.position⟩

mutual

/-- The node that stands for a statement. -/
def Stmt.document : Stmt → Document.Node
  | .declaration t name type init mutable =>
    .declaration t.position name (type.map TypeName.name) (init.map Expr.document) mutable
  | .function t name params result bodyAt body =>
    .functionDef t.position name (params.map Param.document) (result.map TypeName.name)
      (.block bodyAt (documentAll body))
  | .assignment t target value => .assignment t.position target.document value.document
  | .block _ blockAt stmts => .block blockAt (documentAll stmts)
  | .ifElse t condition thenBranch none =>
    .ifElse t.position condition.document thenBranch.document none
  | .ifElse t condition thenBranch (some elseBranch) =>
    .ifElse t.position condition.document thenBranch.document (some elseBranch.document)
  | .while t condition body => .while t.position condition.document body.document
  | .ret t value => .ret t.position (value.map Expr.document)
  | .expr t e => .expressionStatement t.position e.document
termination_by structural s => s

/-- The nodes that stand for a list of statements. -/
def Stmt.documentAll : List Stmt → List Document.Node
  | [] => []
  | s :: ss => s.document :: documentAll ss
termination_by structural ss => ss

end

/-- The document that stands for a program. -/
def Program.document (p : Program) : Document.Node := .program p.position (Stmt.documentAll p.body)

namespace Document

-- ========================================= what a step of lowering gives

/-- Whatever number is next, what a step of lowering gives has a
property. -/
def Yields {α : Type} (m : Lower α) (P : α → Prop) : Prop :=
  ∀ id a next, m.run id = .ok (a, next) → P a

namespace Yields

variable {α β : Type} {m : Lower α} {f : α → Lower β} {P : α → Prop} {Q : β → Prop}

theorem pure {a : α} (h : P a) : Yields (Pure.pure a) P := by
  intro id b next hb
  cases hb
  exact h

theorem refuse (p : Position) (c : LowerCause) : Yields (Document.refuse p c : Lower α) P :=
  fun _ _ _ h => nomatch h

theorem bind (hm : Yields m P) (hf : ∀ a, P a → Yields (f a) Q) : Yields (m >>= f) Q := by
  intro id b next hb
  rw [StateT.run_bind] at hb
  cases h : m.run id with
  | error e =>
    rw [h] at hb
    cases hb
  | ok r =>
    rw [h] at hb
    exact hf r.1 (hm id r.1 r.2 h) r.2 b next hb

/-- A node is numbered at its own position. -/
theorem tag {p : Position} {f : Tag → Lower β} (hf : ∀ t : Tag, t.position = p → Yields (f t) Q) :
    Yields (tagNext p >>= f) Q :=
  fun id => hf ⟨id, p⟩ rfl (id + 1)

theorem lookup {p : Position} {c : LowerCause} {a : Option α}
    (hf : ∀ x, a = some x → Yields (f x) Q) : Yields (orRefuse p c a >>= f) Q := by
  cases a with
  | none => exact Yields.refuse (α := β) p c
  | some x => exact hf x rfl

end Yields

-- ======================================================= reading it back

theorem yields_lowerLiteral (p : Position) (v : Json.Value) :
    Yields (lowerLiteral p v) (·.document = v) := by
  cases v with
  | bool b => exact .pure rfl
  | string s => exact .pure rfl
  | number k =>
    cases k with
    | float x => exact .pure rfl
    | int z =>
      unfold lowerLiteral
      by_cases h : leastInt ≤ z ∧ z ≤ greatestInt
      · simp only [if_pos h]
        exact .pure rfl
      · simp only [if_neg h]
        exact .refuse _ _
  | null => exact .refuse _ _
  | array vs => exact .refuse _ _
  | object ms => exact .refuse _ _

mutual

/-- A node is read back from the expression it is lowered to. -/
theorem yields_lowerExpr (n : Node) : Yields (lowerExpr n) (·.document = n.wrapped) := by
  cases n with
  | literal p v =>
    refine .tag fun t ht => .bind (yields_lowerLiteral p v) fun l hl => .pure ?_
    simp only [Expr.document, Node.wrapped, ht, hl]
  | identifier p name =>
    refine .tag fun t ht => .pure ?_
    simp only [Expr.document, Node.wrapped, ht]
  | binaryOp p op left right =>
    refine .tag fun t ht => .lookup fun o ho => ?_
    refine .bind (yields_lowerExpr left) fun l hl => ?_
    refine .bind (yields_lowerExpr right) fun r hr => .pure ?_
    simp only [Expr.document, Node.wrapped, ht, BinaryOp.ofSymbol?_eq_some.mp ho, hl, hr]
  | unaryOp p op operand =>
    refine .tag fun t ht => .lookup fun o ho => ?_
    refine .bind (yields_lowerExpr operand) fun e he => .pure ?_
    simp only [Expr.document, Node.wrapped, ht, UnaryOp.ofSymbol?_eq_some.mp ho, he]
  | call p callee args =>
    refine .tag fun t ht => .bind (yields_lowerExpr callee) fun f hf => ?_
    refine .bind (yields_lowerExprs args) fun es hes => .pure ?_
    simp only [Expr.document, Node.wrapped, ht, hf, hes]
  | _ => exact .refuse _ _
termination_by structural n

theorem yields_lowerExprs (ns : List Node) :
    Yields (lowerExprs ns) (Expr.documentAll · = wrappedAll ns) := by
  cases ns with
  | nil => exact .pure rfl
  | cons n ns =>
    refine .bind (yields_lowerExpr n) fun e he => .bind (yields_lowerExprs ns) fun es hes => ?_
    exact .pure (by simp only [Expr.documentAll, wrappedAll, he, hes])
termination_by structural ns

end

theorem yields_lowerExpr? (n : Option Node) :
    Yields (lowerExpr? n) (Option.map Expr.document · = n.map Node.wrapped) := by
  cases n with
  | none => exact .pure rfl
  | some n =>
    exact .bind (yields_lowerExpr n) fun e he => .pure (by simp only [Option.map_some, he])

theorem map_name_typeNameAt (p : Position) (name : Option String) :
    (typeNameAt p name).map TypeName.name = name := by
  cases name <;> rfl

theorem document_lower (p : Param) : p.lower.document = p := by
  simp only [Param.lower, TreeCheck.Param.document, map_name_typeNameAt]

theorem map_document_lower (ps : List Param) :
    (ps.map Param.lower).map TreeCheck.Param.document = ps := by
  simp only [List.map_map, Function.comp_def, document_lower, List.map_id']

/-- An expression that stands for a statement is read back inside a node
of its own. -/
theorem yields_lowerBare {n : Node} (h : n.kind.isExpression) :
    Yields (lowerBare n.position n) (·.document = n.wrapped.asStatement) := by
  refine .tag fun t ht => .bind (yields_lowerExpr n) fun e he => .pure ?_
  simp only [Stmt.document, Node.asStatement, Node.kind_wrapped, h, if_true,
    Node.position_wrapped, ht, he]

mutual

/-- A node is read back from the statement it is lowered to. -/
theorem yields_lowerStmt (n : Node) :
    Yields (lowerStmt n) (·.document = n.wrapped.asStatement) := by
  cases n with
  | declaration p name type value mutable =>
    refine .tag fun t ht => .bind (yields_lowerExpr? value) fun init hinit => .pure ?_
    simp only [Stmt.document, map_name_typeNameAt, ht, hinit]
    cases value <;> rfl
  | functionDef p name params result body =>
    by_cases h : body.kind = .block
    · cases body with
      | block q statements =>
        refine .tag fun t ht => .bind (yields_lowerStmts statements) fun ss hss => .pure ?_
        simp only [Stmt.document, map_name_typeNameAt, map_document_lower, ht, hss]
        rfl
      | _ => cases h
    · rw [lowerStmt_functionDef h]
      exact .refuse _ _
  | assignment p target value =>
    refine .tag fun t ht => .bind (yields_lowerExpr target) fun l hl => ?_
    refine .bind (yields_lowerExpr value) fun r hr => .pure ?_
    simp only [Stmt.document, ht, hl, hr]
    rfl
  | block p statements =>
    refine .tag fun t ht => .bind (yields_lowerStmts statements) fun ss hss => .pure ?_
    simp only [Stmt.document, hss]
    rfl
  | ifElse p condition thenBranch elseBranch =>
    cases elseBranch with
    | none =>
      refine .tag fun t ht => .bind (yields_lowerExpr condition) fun c hc => ?_
      refine .bind (yields_lowerStmt thenBranch) fun a ha => .pure ?_
      simp only [Stmt.document, ht, hc, ha]
      rfl
    | some e =>
      refine .tag fun t ht => .bind (yields_lowerExpr condition) fun c hc => ?_
      refine .bind (yields_lowerStmt thenBranch) fun a ha => ?_
      refine .bind (yields_lowerStmt e) fun b hb => .pure ?_
      simp only [Stmt.document, ht, hc, ha, hb]
      rfl
  | «while» p condition body =>
    refine .tag fun t ht => .bind (yields_lowerExpr condition) fun c hc => ?_
    refine .bind (yields_lowerStmt body) fun b hb => .pure ?_
    simp only [Stmt.document, ht, hc, hb]
    rfl
  | ret p value =>
    refine .tag fun t ht => .bind (yields_lowerExpr? value) fun v hv => .pure ?_
    simp only [Stmt.document, ht, hv]
    cases value <;> rfl
  | expressionStatement p expression =>
    refine .tag fun t ht => .bind (yields_lowerExpr expression) fun e he => .pure ?_
    simp only [Stmt.document, ht, he]
    rfl
  | program p body => exact .refuse _ _
  | literal p v => exact yields_lowerBare (n := .literal p v) rfl
  | identifier p name => exact yields_lowerBare (n := .identifier p name) rfl
  | binaryOp p op l r => exact yields_lowerBare (n := .binaryOp p op l r) rfl
  | unaryOp p op e => exact yields_lowerBare (n := .unaryOp p op e) rfl
  | call p f args => exact yields_lowerBare (n := .call p f args) rfl
termination_by structural n

theorem yields_lowerStmts (ns : List Node) :
    Yields (lowerStmts ns) (Stmt.documentAll · = (wrappedAll ns).map Node.asStatement) := by
  cases ns with
  | nil => exact .pure rfl
  | cons n ns =>
    refine .bind (yields_lowerStmt n) fun s hs => .bind (yields_lowerStmts ns) fun ss hss => ?_
    exact .pure (by simp only [Stmt.documentAll, wrappedAll, List.map_cons, hs, hss])
termination_by structural ns

end

/-- A document that is accepted is a program, and its nodes are lowered from
number zero on. -/
theorem lower_eq_ok {n : Node} {p : Program} (h : lower n = .ok p) :
    ∃ body next, n = .program p.position body ∧ (lowerStmts body).run 0 = .ok (p.body, next) := by
  cases n with
  | program at_ body =>
    cases hb : (lowerStmts body).run 0 with
    | error e =>
      simp only [lower, hb] at h
      cases h
    | ok r =>
      simp only [lower, hb] at h
      cases h
      exact ⟨body, r.2, rfl, hb⟩
  | _ => cases h

/-- A document is read back from its program, with its bare expressions
wrapped. -/
theorem document_of_lower {n : Node} {p : Program} (h : lower n = .ok p) :
    p.document = n.wrapped := by
  obtain ⟨body, next, rfl, hbody⟩ := lower_eq_ok h
  have hread : Stmt.documentAll p.body = (wrappedAll body).map Node.asStatement :=
    yields_lowerStmts body 0 p.body next hbody
  rw [Program.document, Node.wrapped, hread]

/-- Two documents that are accepted have the same program, numbers and
the bits of floating-point constants included, exactly if they are the
same once the expressions that stand for statements are wrapped. The
program remembers the wrapped document, and has it as a document, too. -/
theorem lower_injective_up_to_wrapping {m n : Node} {p q : Program} (hm : lower m = .ok p)
    (hn : lower n = .ok q) :
    (p = q ↔ m.wrapped = n.wrapped) ∧ p.document = m.wrapped ∧ lower m.wrapped = .ok p := by
  have hp : p.document = m.wrapped := document_of_lower hm
  have hq : q.document = n.wrapped := document_of_lower hn
  refine ⟨⟨fun h => ?_, fun h => ?_⟩, hp, (lower_wrapped m).trans hm⟩
  · calc m.wrapped = p.document := hp.symm
      _ = q.document := by rw [h]
      _ = n.wrapped := hq
  · have hpq : Except.ok p = Except.ok (ε := LowerError) q := by
      calc Except.ok p = lower m.wrapped := (lower_wrapped m).trans hm |>.symm
        _ = lower n.wrapped := by rw [h]
        _ = .ok q := (lower_wrapped n).trans hn
    exact Except.ok.inj hpq

/-- A constant on its own in a block, bare and wrapped: one program, so
one document after wrapping. -/
theorem lower_bare_constant :
    let bare : Node := .program ⟨1, 1⟩ [.block ⟨2, 1⟩ [.literal ⟨2, 3⟩ (.number (.int 7))]]
    let inside : Node := .program ⟨1, 1⟩
      [.block ⟨2, 1⟩ [.expressionStatement ⟨2, 3⟩ (.literal ⟨2, 3⟩ (.number (.int 7)))]]
    let p : Program :=
      ⟨[.block ⟨0, ⟨2, 1⟩⟩ ⟨2, 1⟩ [.expr ⟨1, ⟨2, 3⟩⟩ (.literal ⟨2, ⟨2, 3⟩⟩ (.int 7))]], ⟨1, 1⟩⟩
    lower bare = .ok p ∧ lower inside = .ok p ∧ bare.wrapped = inside.wrapped ∧
      p.document = bare.wrapped ∧ lower bare.wrapped = .ok p := by
  intro bare inside p
  have hbare : lower bare = .ok p := rfl
  have hinside : lower inside = .ok p := rfl
  obtain ⟨hiff, hrest⟩ := lower_injective_up_to_wrapping hbare hinside
  exact ⟨hbare, hinside, hiff.mp rfl, hrest⟩

end Document

end TreeCheck
