/-
What lowering accepts, and which node it blames.

`Judges` says of a step of lowering that it goes by a list of nodes
with their places: it succeeds if all of them fit, and fails with the
complaint about the first that does not. Sequencing steps appends their
lists, and a node that fits puts itself in front of those inside it.
The two walks of lowering are then one induction over the document,
with one case for each kind of node; for the whole document the list
is that of all its nodes in pre-order.
-/
import TreeCheck.Proofs.Lowering.Standing

namespace TreeCheck.Document

-- ==================================================== going by a list

/-- A step of lowering goes by a list of nodes: whatever number is next,
it fails with the first complaint about one of them, and succeeds if
there is none. -/
def Judges {α : Type} (m : Lower α) (ss : List Standing) : Prop :=
  ∀ id, match ss.findSome? Standing.complaint? with
    | some e => m.run id = .error e
    | none => ∃ r, m.run id = .ok r

namespace Judges

variable {α β : Type} {m : Lower α} {f : α → Lower β} {ss ss' : List Standing} {s : Standing}

theorem pure (a : α) : Judges (Pure.pure a) [] := fun id => ⟨(a, id), rfl⟩

/-- A step that goes by some nodes and one that goes by others, in
sequence, go by the former and then the latter. -/
theorem bind (hm : Judges m ss) (hf : ∀ a, Judges (f a) ss') : Judges (m >>= f) (ss ++ ss') := by
  intro id
  have hm := hm id
  rw [List.findSome?_append]
  cases hs : ss.findSome? Standing.complaint? with
  | some e =>
    rw [hs] at hm
    show (m >>= f).run id = .error e
    rw [StateT.run_bind, hm]
    rfl
  | none =>
    rw [hs] at hm
    obtain ⟨⟨a, next⟩, h⟩ := hm
    have hrun : (m >>= f).run id = (f a).run next := by
      rw [StateT.run_bind, h]
      rfl
    rw [hrun]
    exact hf a next

/-- A step that ends with what the step before it gave goes by the same
nodes. -/
theorem bind_pure (hm : Judges m ss) (g : α → β) :
    Judges (m >>= fun a => Pure.pure (g a)) ss := by
  simpa using hm.bind fun a => Judges.pure (g a)

/-- To number a node says nothing about it. -/
theorem tag {p : Position} {f : Tag → Lower β} (hf : ∀ t, Judges (f t) ss) :
    Judges (tagNext p >>= f) ss :=
  fun id => hf ⟨id, p⟩ (id + 1)

/-- A node that fits is passed over. -/
theorem cons (h : s.complaint? = none) (hm : Judges m ss) : Judges m (s :: ss) := by
  intro id
  rw [List.findSome?_cons, h]
  exact hm id

/-- A node that does not fit is refused, whatever is inside it. -/
theorem refuse {p : Position} {c : LowerCause} (h : s.complaint? = some ⟨p, c⟩) :
    Judges (Document.refuse p c : Lower α) (s :: ss) := by
  intro id
  rw [List.findSome?_cons, h]
  rfl

/-- A look-up that fails exactly if the node does not fit decides about
it; what follows goes by what is inside the node. -/
theorem lookup {γ : Type} {p : Position} {c : LowerCause} {a : Option γ} {f : γ → Lower β}
    (hs : s.complaint? = if a.isSome then none else some ⟨p, c⟩) (hf : ∀ x, Judges (f x) ss) :
    Judges (orRefuse p c a >>= f) (s :: ss) := by
  cases a with
  | none => exact Judges.refuse (α := β) hs
  | some x => exact Judges.cons hs (hf x)

end Judges

-- ======================================================== expressions

/-- A node that has a value is judged as a statement as it is judged as
an expression. -/
theorem complaint?_statement {n : Node} (h : n.kind.isExpression) :
    Standing.complaint? ⟨.statement, n⟩ = Standing.complaint? ⟨.expression, n⟩ := by
  have hk : n.kind ≠ .program := fun hp => by
    rw [hp] at h
    cases h
  rw [complaint?_of_admits .statement n hk, complaint?_of_admits .expression n h]

theorem judges_lowerLiteral (p : Position) (v : Json.Value) :
    Judges (lowerLiteral p v) [⟨.expression, .literal p v⟩] := by
  cases v with
  | bool b => exact .cons rfl (.pure _)
  | string s => exact .cons rfl (.pure _)
  | number k =>
    cases k with
    | float x => exact .cons rfl (.pure _)
    | int z =>
      have hs := complaint?_of_admits .expression (.literal p (.number (.int z))) rfl
      by_cases h : leastInt ≤ z ∧ z ≤ greatestInt
      · simp only [Node.fault?, lowerLiteral, if_pos h] at hs ⊢
        exact .cons hs (.pure _)
      · simp only [Node.fault?, lowerLiteral, if_neg h] at hs ⊢
        exact .refuse hs
  | null => exact .refuse rfl
  | array vs => exact .refuse rfl
  | object ms => exact .refuse rfl

mutual

/-- Where an expression is expected, lowering goes by the node and those
inside it. -/
theorem judges_lowerExpr (n : Node) : Judges (lowerExpr n) (n.standing .expression) := by
  cases n with
  | literal p v => exact .tag fun t => .bind_pure (judges_lowerLiteral p v) _
  | identifier p name => exact .tag fun t => .cons rfl (.pure _)
  | binaryOp p op left right =>
    refine .tag fun t => .lookup ?_ fun o => ?_
    · rw [complaint?_of_admits .expression (.binaryOp p op left right) rfl]
      exact apply_ite _ _ _ _
    · exact .bind (judges_lowerExpr left) fun l => .bind_pure (judges_lowerExpr right) _
  | unaryOp p op operand =>
    refine .tag fun t => .lookup ?_ fun o => ?_
    · rw [complaint?_of_admits .expression (.unaryOp p op operand) rfl]
      exact apply_ite _ _ _ _
    · exact .bind_pure (judges_lowerExpr operand) _
  | call p callee args =>
    refine .tag fun t => .cons rfl ?_
    exact .bind (judges_lowerExpr callee) fun f => .bind_pure (judges_lowerExprs args) _
  | _ => exact .refuse rfl
termination_by structural n

theorem judges_lowerExprs (ns : List Node) : Judges (lowerExprs ns) (innerAll .expression ns) := by
  cases ns with
  | nil => exact .pure _
  | cons n ns => exact .bind (judges_lowerExpr n) fun e => .bind_pure (judges_lowerExprs ns) _
termination_by structural ns

end

theorem judges_lowerExpr? (n : Option Node) :
    Judges (lowerExpr? n) (n.elim [] (·.standing .expression)) := by
  cases n with
  | none => exact .pure _
  | some n => exact .bind_pure (judges_lowerExpr n) _

-- ========================================================= statements

/-- Only a block is the body of a function. -/
theorem lowerStmt_functionDef {p : Position} {name : String} {params : List Param}
    {result : Option String} {body : Node} (h : body.kind ≠ .block) :
    lowerStmt (.functionDef p name params result body) =
      refuse body.position (.misplaced .body body.kind) := by
  cases body with
  | block q ss => exact absurd rfl h
  | _ => rfl

theorem judges_lowerBare {n : Node} (h : n.kind.isExpression) :
    Judges (lowerBare n.position n) (n.standing .statement) := by
  have hn : Judges (lowerExpr n) (n.standing .statement) := by
    have := judges_lowerExpr n
    unfold Judges Node.standing at this ⊢
    simpa only [List.findSome?_cons, complaint?_statement h] using this
  exact .tag fun t => .bind_pure hn _

mutual

/-- Where a statement is expected, lowering goes by the node and those
inside it. -/
theorem judges_lowerStmt (n : Node) : Judges (lowerStmt n) (n.standing .statement) := by
  cases n with
  | declaration p name type value mutable =>
    refine .tag fun t => .cons rfl ?_
    cases value with
    | none => exact .bind_pure (judges_lowerExpr? none) _
    | some v => exact .bind_pure (judges_lowerExpr? (some v)) _
  | functionDef p name params result body =>
    refine .cons rfl ?_
    by_cases h : body.kind = .block
    · cases body with
      | block q statements =>
        refine .tag fun t => .cons (s := ⟨.body, .block q statements⟩) rfl ?_
        exact .bind_pure (judges_lowerStmts statements) _
      | _ => cases h
    · rw [lowerStmt_functionDef h]
      exact .refuse (by simp [Standing.complaint?, Place.Admits, h])
  | assignment p target value =>
    refine .tag fun t => .cons rfl ?_
    exact .bind (judges_lowerExpr target) fun l => .bind_pure (judges_lowerExpr value) _
  | block p statements =>
    exact .tag fun t => .cons rfl (.bind_pure (judges_lowerStmts statements) _)
  | ifElse p condition thenBranch elseBranch =>
    cases elseBranch with
    | none =>
      refine .tag fun t => .cons rfl ?_
      exact .bind (judges_lowerExpr condition) fun c => .bind_pure (judges_lowerStmt thenBranch) _
    | some e =>
      refine .tag fun t => .cons rfl ?_
      exact .bind (judges_lowerExpr condition) fun c =>
        .bind (judges_lowerStmt thenBranch) fun a => .bind_pure (judges_lowerStmt e) _
  | «while» p condition body =>
    refine .tag fun t => .cons rfl ?_
    exact .bind (judges_lowerExpr condition) fun c => .bind_pure (judges_lowerStmt body) _
  | ret p value =>
    refine .tag fun t => .cons rfl ?_
    cases value with
    | none => exact .bind_pure (judges_lowerExpr? none) _
    | some v => exact .bind_pure (judges_lowerExpr? (some v)) _
  | expressionStatement p expression =>
    exact .tag fun t => .cons rfl (.bind_pure (judges_lowerExpr expression) _)
  | program p body => exact .refuse rfl
  | literal p v => exact judges_lowerBare (n := .literal p v) rfl
  | identifier p name => exact judges_lowerBare (n := .identifier p name) rfl
  | binaryOp p op l r => exact judges_lowerBare (n := .binaryOp p op l r) rfl
  | unaryOp p op e => exact judges_lowerBare (n := .unaryOp p op e) rfl
  | call p f args => exact judges_lowerBare (n := .call p f args) rfl
termination_by structural n

theorem judges_lowerStmts (ns : List Node) : Judges (lowerStmts ns) (innerAll .statement ns) := by
  cases ns with
  | nil => exact .pure _
  | cons n ns => exact .bind (judges_lowerStmt n) fun s => .bind_pure (judges_lowerStmts ns) _
termination_by structural ns

end

-- ===================================================== whole documents

/-- Lowering a document goes by all its nodes. -/
theorem lower_eq (n : Node) :
    match (n.standing .root).findSome? Standing.complaint? with
    | some e => lower n = .error e
    | none => ∃ p, lower n = .ok p := by
  cases n with
  | program p body =>
    have hs := judges_lowerStmts body 0
    show match (innerAll .statement body).findSome? Standing.complaint? with
      | some e => lower (.program p body) = .error e
      | none => ∃ q, lower (.program p body) = .ok q
    cases hc : (innerAll .statement body).findSome? Standing.complaint? with
    | some e =>
      rw [hc] at hs
      simp only [lower, hs]
      rfl
    | none =>
      rw [hc] at hs
      obtain ⟨⟨stmts, next⟩, h⟩ := hs
      exact ⟨⟨stmts, p⟩, by simp only [lower, h]; rfl⟩
  | _ => rfl

/-- What is said of a document that cannot be lowered: where, in line and
column, and what is wrong there. -/
theorem message_malformed (e : LowerError) :
    (Failure.malformed (.lower e)).message =
      s!"malformed input: at {e.position.line}:{e.position.column}: " ++ e.cause.message := by
  have hjoin : "malformed input: at " = "malformed input: " ++ "at " := by simp
  show "malformed input: " ++ ("at " ++ e.position.display ++ ": " ++ e.cause.message) = _
  simp only [Position.display, toString, hjoin, String.append_assoc]

/-- Lowering succeeds exactly if every node fits. -/
theorem exists_lower_iff (n : Node) :
    (∃ p, lower n = .ok p) ↔ ∀ s ∈ n.standing .root, s.Fits := by
  have hn := lower_eq n
  have hfit : (n.standing .root).findSome? Standing.complaint? = none ↔
      ∀ s ∈ n.standing .root, s.Fits := by
    simp only [List.findSome?_eq_none_iff, Standing.complaint?_eq_none]
  rw [← hfit]
  cases hc : (n.standing .root).findSome? Standing.complaint? with
  | none =>
    rw [hc] at hn
    exact ⟨fun _ => rfl, fun _ => hn⟩
  | some e =>
    rw [hc] at hn
    refine ⟨?_, fun h => nomatch h⟩
    rintro ⟨p, hp⟩
    rw [hn] at hp
    cases hp

/-- Lowering fails with the first complaint. -/
theorem lower_eq_error_iff {n : Node} {e : LowerError} :
    lower n = .error e ↔ (n.standing .root).findSome? Standing.complaint? = some e := by
  have hn := lower_eq n
  cases hc : (n.standing .root).findSome? Standing.complaint? with
  | none =>
    rw [hc] at hn
    obtain ⟨p, hp⟩ := hn
    rw [hp]
    exact ⟨fun h => (nomatch h), fun h => (nomatch h)⟩
  | some e' =>
    rw [hc] at hn
    rw [hn, Except.error.injEq, Option.some.injEq]

/-- A document is accepted exactly if every node of it fits the place it
stands in. Otherwise the complaint is about the first node, in
pre-order, that does not, and tells its position. -/
theorem lower_accepts_or_blames_first (n : Node) :
    ((∃ p, lower n = .ok p) ↔ ∀ s ∈ n.standing .root, s.Fits) ∧
      ∀ e, lower n = .error e → ∃ before s after,
        n.standing .root = before ++ s :: after ∧ (∀ b ∈ before, b.Fits) ∧ ¬ s.Fits ∧
          s.complaint? = some e ∧
          (Failure.malformed (.lower e)).message =
            s!"malformed input: at {s.node.position.line}:{s.node.position.column}: " ++
              e.cause.message := by
  refine ⟨exists_lower_iff n, fun e he => ?_⟩
  obtain ⟨before, s, after, hsplit, hs, hbefore⟩ :=
    List.findSome?_eq_some_iff.mp (lower_eq_error_iff.mp he)
  refine ⟨before, s, after, hsplit, fun b hb => ?_, fun hfits => ?_, hs, ?_⟩
  · exact Standing.complaint?_eq_none.mp (hbefore b hb)
  · rw [Standing.complaint?_eq_none.mpr hfits] at hs
    cases hs
  · rw [message_malformed, Standing.position_of_complaint hs]

/-- A branch under an unknown operator: a condition that is a `return`, a
branch that is a literal of null, another that is a program. -/
def manyFaults : Node :=
  .program ⟨1, 1⟩ [.ifElse ⟨2, 1⟩
    (.binaryOp ⟨2, 7⟩ "**" (.ret ⟨2, 4⟩ none) (.literal ⟨2, 10⟩ .null))
    (.literal ⟨3, 3⟩ .null) (some (.program ⟨4, 3⟩ []))]

/-- Of an unknown operator, what is wrong with its operands and what is
wrong with the branches, the operator comes first. -/
theorem lower_blames_operator :
    ∃ e : LowerError, lower manyFaults = .error e ∧
      (Failure.malformed (.lower e)).message
        = "malformed input: at 2:7: unknown binary operator `**`" ∧
      ∃ before s after, manyFaults.standing .root = before ++ s :: after ∧
        (∀ b ∈ before, b.Fits) ∧ ¬ s.Fits ∧ s.node.position = ⟨2, 7⟩ := by
  have herror : lower manyFaults = .error ⟨⟨2, 7⟩, .unknownBinary "**"⟩ := rfl
  obtain ⟨before, s, after, hsplit, hbefore, hfits, hcomplaint, hmessage⟩ :=
    (lower_accepts_or_blames_first manyFaults).2 _ herror
  have hposition : s.node.position = ⟨2, 7⟩ := (Standing.position_of_complaint hcomplaint).symm
  refine ⟨_, herror, ?_, before, s, after, hsplit, hbefore, hfits, hposition⟩
  rw [hmessage, hposition]
  decide

end TreeCheck.Document
