/-
Lowering and the parts of constants.

No constant of the language has parts, so a node whose constants are
blurred is lowered to what the node is lowered to, if to anything: where
one is refused, so is the other, though not for the same reason. Steps
that give the same wherever they give anything stay so in sequence
(`Agree`), and only at a constant is there something to compare.
-/
import TreeCheck.Proofs.Drafts.Decoding
import TreeCheck.Proofs.Lowering.Acceptance

namespace TreeCheck.Document

open Json (Value)

-- ============================================================ agreement

/-- Two steps of lowering give the same, whatever number is next, wherever either gives
anything. -/
def Agree {α : Type} (m m' : Lower α) : Prop := ∀ id r, m.run id = .ok r ↔ m'.run id = .ok r

namespace Agree

variable {α β : Type} {m m' : Lower α} {f f' : α → Lower β}

theorem refl (m : Lower α) : Agree m m := fun _ _ => Iff.rfl

theorem refuse (p p' : Position) (c c' : LowerCause) :
    Agree (Document.refuse p c : Lower α) (Document.refuse p' c') :=
  fun _ _ => iff_of_false nofun nofun

theorem bind (hm : Agree m m') (hf : ∀ a, Agree (f a) (f' a)) : Agree (m >>= f) (m' >>= f') := by
  intro id r
  rw [StateT.run_bind, StateT.run_bind, bind_eq_ok, bind_eq_ok]
  exact exists_congr fun a => and_congr (hm id a) (hf a.1 a.2 r)

/-- Steps that go on alike from what the same step gives. -/
theorem after (m : Lower α) (hf : ∀ a, Agree (f a) (f' a)) : Agree (m >>= f) (m >>= f') :=
  (refl m).bind hf

end Agree

-- ============================================================= constants

/-- A value without its parts is a constant of the language exactly if it is one with them. -/
theorem agree_lowerLiteral (p : Position) (v : Value) :
    Agree (lowerLiteral p v.blur) (lowerLiteral p v) := by
  cases v with
  | array vs => exact .refuse _ _ _ _
  | object ms => exact .refuse _ _ _ _
  | _ => exact .refl _

-- ========================================================== expressions

mutual

theorem agree_lowerExpr (n : Node) : Agree (lowerExpr (n.map Value.blur)) (lowerExpr n) := by
  cases n with
  | literal p v =>
    refine .after _ fun t => .bind (agree_lowerLiteral p v) fun l => ?_
    exact .refl _
  | identifier p name => exact .refl _
  | binaryOp p op left right =>
    refine .after _ fun t => .after _ fun o => ?_
    refine .bind (agree_lowerExpr left) fun l => .bind (agree_lowerExpr right) fun r => ?_
    exact .refl _
  | unaryOp p op operand =>
    refine .after _ fun t => .after _ fun o => .bind (agree_lowerExpr operand) fun e => ?_
    exact .refl _
  | call p callee args =>
    refine .after _ fun t => .bind (agree_lowerExpr callee) fun c => ?_
    exact .bind (agree_lowerExprs args) fun es => .refl _
  | declaration p name type value mutable => cases value <;> exact .refuse _ _ _ _
  | ifElse p condition thenBranch elseBranch => cases elseBranch <;> exact .refuse _ _ _ _
  | ret p value => cases value <;> exact .refuse _ _ _ _
  | _ => exact .refuse _ _ _ _
termination_by structural n

theorem agree_lowerExprs (ns : List Node) :
    Agree (lowerExprs (Node.mapAll Value.blur ns)) (lowerExprs ns) := by
  cases ns with
  | nil => exact .refl _
  | cons n ns =>
    exact .bind (agree_lowerExpr n) fun e => .bind (agree_lowerExprs ns) fun es => .refl _
termination_by structural ns

end

-- =========================================================== statements

theorem agree_lowerBare (p : Position) (n : Node) :
    Agree (lowerBare p (n.map Value.blur)) (lowerBare p n) :=
  .after _ fun _ => .bind (agree_lowerExpr n) fun _ => .refl _

mutual

theorem agree_lowerStmt (n : Node) : Agree (lowerStmt (n.map Value.blur)) (lowerStmt n) := by
  cases n with
  | declaration p name type value mutable =>
    cases value with
    | none => exact .refl _
    | some v =>
      refine .after _ fun t => .bind ?_ fun init => .refl _
      exact .bind (agree_lowerExpr v) fun e => .refl _
  | functionDef p name params result body =>
    by_cases h : body.kind = .block
    · cases body with
      | block q statements =>
        exact .after _ fun t => .bind (agree_lowerStmts statements) fun ss => .refl _
      | _ => cases h
    · have hblur : (body.map Value.blur).kind ≠ .block := by simpa using h
      rw [Node.map, lowerStmt_functionDef h, lowerStmt_functionDef hblur]
      exact .refuse _ _ _ _
  | assignment p target value =>
    refine .after _ fun t => .bind (agree_lowerExpr target) fun l => ?_
    exact .bind (agree_lowerExpr value) fun r => .refl _
  | block p statements =>
    exact .after _ fun t => .bind (agree_lowerStmts statements) fun ss => .refl _
  | ifElse p condition thenBranch elseBranch =>
    cases elseBranch with
    | none =>
      refine .after _ fun t => .bind (agree_lowerExpr condition) fun c => ?_
      exact .bind (agree_lowerStmt thenBranch) fun a => .refl _
    | some e =>
      refine .after _ fun t => .bind (agree_lowerExpr condition) fun c => ?_
      refine .bind (agree_lowerStmt thenBranch) fun a => ?_
      exact .bind (agree_lowerStmt e) fun b => .refl _
  | «while» p condition body =>
    refine .after _ fun t => .bind (agree_lowerExpr condition) fun c => ?_
    exact .bind (agree_lowerStmt body) fun b => .refl _
  | ret p value =>
    cases value with
    | none => exact .refl _
    | some v =>
      refine .after _ fun t => .bind ?_ fun value => .refl _
      exact .bind (agree_lowerExpr v) fun e => .refl _
  | expressionStatement p expression => exact agree_lowerBare p expression
  | program p body => exact .refuse _ _ _ _
  | literal p v => exact agree_lowerBare p (.literal p v)
  | identifier p name => exact agree_lowerBare p (.identifier p name)
  | binaryOp p op left right => exact agree_lowerBare p (.binaryOp p op left right)
  | unaryOp p op operand => exact agree_lowerBare p (.unaryOp p op operand)
  | call p callee args => exact agree_lowerBare p (.call p callee args)
termination_by structural n

theorem agree_lowerStmts (ns : List Node) :
    Agree (lowerStmts (Node.mapAll Value.blur ns)) (lowerStmts ns) := by
  cases ns with
  | nil => exact .refl _
  | cons n ns =>
    exact .bind (agree_lowerStmt n) fun s => .bind (agree_lowerStmts ns) fun ss => .refl _
termination_by structural ns

end

/-- Only a program is a document. -/
theorem lower_of_kind_ne {n : Node} (h : n.kind ≠ .program) :
    lower n = .error ⟨n.position, .misplaced .root n.kind⟩ := by
  cases n with
  | program at_ body => exact absurd rfl h
  | _ => rfl

/-- A document is the program that it is with its constants blurred. -/
theorem lower_blur {n : Node} {p : Program} :
    lower (n.map Value.blur) = .ok p ↔ lower n = .ok p := by
  by_cases h : n.kind = .program
  · cases n with
    | program at_ body =>
      simp only [Node.map, lower, bind_eq_ok]
      exact exists_congr fun r => and_congr (agree_lowerStmts body 0 r) Iff.rfl
    | _ => cases h
  · have hblur : (n.map Value.blur).kind ≠ .program := by simpa using h
    rw [lower_of_kind_ne h, lower_of_kind_ne hblur]
    constructor <;> intro h <;> cases h

/-- Documents that are the same with their constants blurred have the same program. -/
theorem lower_congr_blur {n n' : Node} (h : n.map Value.blur = n'.map Value.blur) {p : Program} :
    lower n = .ok p ↔ lower n' = .ok p := by
  rw [← lower_blur, h, lower_blur]

end TreeCheck.Document
