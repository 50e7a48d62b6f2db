/-
The nodes of a loaded program are numbered densely and in pre-order.

Lowering hands one number on from node to node, through all the ways in
which nodes hang together: a list, an optional part, a function body
that is no node of its own, an expression that is numbered twice because
it stands for a statement. The invariant is the same for all of them.
What a step gives has for its identities, in pre-order, the numbers from
the one that was next up to the one that is next afterwards (`Numbers`).
A sequence of steps collects the numbers of its parts (`Resumes`), so
there is again one case for each kind of node.

Distinct identities are all that an analysis asks of a tree beside its
depth, so a loaded program is never refused for its identities.
-/
import TreeCheck.Document.Load
import TreeCheck.Proofs.Lowering.Recall
import TreeCheck.Proofs.Modularity.Source
import TreeCheck.Proofs.Run.Failure

namespace TreeCheck.Document

-- ============================================================= resuming

/-- Whatever number is next, what a step of lowering gives has some
identities, and then as many numbers from there on as the step takes. -/
def Resumes {α : Type} (taken : List NodeId) (m : Lower α) (ids : α → List NodeId) : Prop :=
  ∀ id a next, m.run id = .ok (a, next) →
    ∃ count, next = id + count ∧ ids a = taken ++ List.range' id count

/-- What a step of lowering gives has the numbers that it takes for its
identities. -/
abbrev Numbers {α : Type} (m : Lower α) (ids : α → List NodeId) : Prop := Resumes [] m ids

namespace Resumes

variable {α β : Type} {m : Lower α} {f : α → Lower β} {taken : List NodeId}
  {ids : α → List NodeId} {out : β → List NodeId}

theorem pure {a : α} (h : ids a = taken) : Resumes taken (Pure.pure a) ids := by
  intro id b next hb
  cases hb
  refine ⟨0, rfl, ?_⟩
  rw [h, List.range'_zero, List.append_nil]

theorem refuse (p : Position) (c : LowerCause) :
    Resumes taken (Document.refuse p c : Lower α) ids :=
  fun _ _ _ h => nomatch h

/-- The numbers that one step takes are followed by those that the steps
after it take. -/
theorem bind (hm : Numbers m ids) (hf : ∀ a, Resumes (taken ++ ids a) (f a) out) :
    Resumes taken (m >>= f) out := by
  intro id b next hb
  rw [StateT.run_bind] at hb
  cases h : m.run id with
  | error e =>
    rw [h] at hb
    cases hb
  | ok r =>
    obtain ⟨a, between⟩ := r
    rw [h] at hb
    obtain ⟨count, rfl, hids⟩ := hm id a between h
    obtain ⟨more, rfl, hout⟩ := hf a (id + count) b next hb
    refine ⟨count + more, Nat.add_assoc id count more, ?_⟩
    calc out b = taken ++ ids a ++ List.range' (id + count) more := hout
      _ = taken ++ (List.range' id count ++ List.range' (id + count) more) := by
        rw [hids, List.nil_append, List.append_assoc]
      _ = taken ++ List.range' id (count + more) := by rw [List.range'_append_1]

/-- A node takes the number that is next. -/
theorem tag {p : Position} {f : Tag → Lower β}
    (hf : ∀ t : Tag, Resumes (taken ++ [t.id]) (f t) out) :
    Resumes taken (tagNext p >>= f) out := by
  have htag : Numbers (tagNext p) fun t => [t.id] := by
    intro id t next ht
    cases ht
    exact ⟨1, rfl, rfl⟩
  exact bind htag hf

theorem lookup {p : Position} {c : LowerCause} {a : Option α}
    (hf : ∀ x, Resumes taken (f x) out) : Resumes taken (orRefuse p c a >>= f) out := by
  cases a with
  | none => exact Resumes.refuse (α := β) p c
  | some x => exact hf x

end Resumes

-- ========================================================== expressions

/-- The identities of the nodes of an outline. -/
abbrev idsOf (o : Outline) : List NodeId := o.map (·.node.id)

/-- A constant has no node below it. -/
theorem numbers_lowerLiteral (p : Position) (v : Json.Value) :
    Numbers (lowerLiteral p v) fun _ => [] := by
  cases v with
  | bool b => exact .pure rfl
  | string s => exact .pure rfl
  | number k =>
    cases k with
    | float x => exact .pure rfl
    | int z =>
      unfold lowerLiteral
      by_cases h : leastInt ≤ z ∧ z ≤ greatestInt
      · simp only [if_pos h]
        exact .pure rfl
      · simp only [if_neg h]
        exact .refuse _ _
  | null => exact .refuse _ _
  | array vs => exact .refuse _ _
  | object ms => exact .refuse _ _

mutual

/-- An expression and all below it are numbered as they are met. -/
theorem numbers_lowerExpr (n : Node) (d : Nat) (r : Role) :
    Numbers (lowerExpr n) fun e => idsOf (e.outline d r) := by
  cases n with
  | literal p v =>
    refine .tag fun t => .bind (numbers_lowerLiteral p v) fun l => .pure ?_
    rfl
  | identifier p name => exact .tag fun t => .pure rfl
  | binaryOp p op left right =>
    refine .tag fun t => .lookup fun o => ?_
    refine .bind (numbers_lowerExpr left (d + 1) .left) fun l => ?_
    refine .bind (numbers_lowerExpr right (d + 1) .right) fun r => .pure ?_
    simp only [Expr.outline, idsOf, List.map_cons, List.map_append]
    rfl
  | unaryOp p op operand =>
    refine .tag fun t => .lookup fun o => ?_
    refine .bind (numbers_lowerExpr operand (d + 1) .operand) fun e => .pure ?_
    simp only [Expr.outline, idsOf, List.map_cons]
    rfl
  | call p callee args =>
    refine .tag fun t => .bind (numbers_lowerExpr callee (d + 1) .callee) fun f => ?_
    refine .bind (numbers_lowerExprs args (d + 1) .arg) fun es => .pure ?_
    simp only [Expr.outline, idsOf, List.map_cons, List.map_append]
    rfl
  | _ => exact .refuse _ _
termination_by structural n

theorem numbers_lowerExprs (ns : List Node) (d : Nat) (r : Role) :
    Numbers (lowerExprs ns) fun es => idsOf (Expr.outlines d r es) := by
  cases ns with
  | nil => exact .pure rfl
  | cons n ns =>
    refine .bind (numbers_lowerExpr n d r) fun e => ?_
    refine .bind (numbers_lowerExprs ns d r) fun es => .pure ?_
    rw [Expr.outlines, idsOf, List.map_append]
    rfl
termination_by structural ns

end

theorem numbers_lowerExpr? (n : Option Node) (d : Nat) (r : Role) :
    Numbers (lowerExpr? n) fun e => idsOf (Expr.outline? d r e) := by
  cases n with
  | none => exact .pure rfl
  | some n => exact .bind (numbers_lowerExpr n d r) fun e => .pure rfl

-- =========================================================== statements

/-- An expression that stands for a statement takes two numbers, the
statement before the expression. -/
theorem numbers_lowerBare (p : Position) (n : Node) (d : Nat) (r : Role) :
    Numbers (lowerBare p n) fun s => idsOf (s.outline d r) := by
  refine .tag fun t => .bind (numbers_lowerExpr n (d + 1) .expr) fun e => .pure ?_
  simp only [Stmt.outline, idsOf, List.map_cons]
  rfl

mutual

/-- A statement and all below it are numbered as they are met. -/
theorem numbers_lowerStmt (n : Node) (d : Nat) (r : Role) :
    Numbers (lowerStmt n) fun s => idsOf (s.outline d r) := by
  cases n with
  | declaration p name type value mutable =>
    refine .tag fun t => .bind (numbers_lowerExpr? value (d + 1) .init) fun init => .pure ?_
    simp only [Stmt.outline, idsOf, List.map_cons]
    rfl
  | functionDef p name params result body =>
    by_cases h : body.kind = .block
    · cases body with
      | block q statements =>
        refine .tag fun t => ?_
        refine .bind (numbers_lowerStmts statements (d + 1) .body) fun ss => .pure ?_
        simp only [Stmt.outline, idsOf, List.map_cons]
        rfl
      | _ => cases h
    · rw [lowerStmt_functionDef h]
      exact .refuse _ _
  | assignment p target value =>
    refine .tag fun t => .bind (numbers_lowerExpr target (d + 1) .target) fun l => ?_
    refine .bind (numbers_lowerExpr value (d + 1) .value) fun v => .pure ?_
    simp only [Stmt.outline, idsOf, List.map_cons, List.map_append]
    rfl
  | block p statements =>
    refine .tag fun t => ?_
    refine .bind (numbers_lowerStmts statements (d + 1) .stmt) fun ss => .pure ?_
    simp only [Stmt.outline, idsOf, List.map_cons]
    rfl
  | ifElse p condition thenBranch elseBranch =>
    cases elseBranch with
    | none =>
      refine .tag fun t => .bind (numbers_lowerExpr condition (d + 1) .condition) fun c => ?_
      refine .bind (numbers_lowerStmt thenBranch (d + 1) .thenBranch) fun a => .pure ?_
      simp only [Stmt.outline, idsOf, List.map_cons, List.map_append]
      rfl
    | some e =>
      refine .tag fun t => .bind (numbers_lowerExpr condition (d + 1) .condition) fun c => ?_
      refine .bind (numbers_lowerStmt thenBranch (d + 1) .thenBranch) fun a => ?_
      refine .bind (numbers_lowerStmt e (d + 1) .elseBranch) fun b => .pure ?_
      simp only [Stmt.outline, idsOf, List.map_cons, List.map_append]
      rfl
  | «while» p condition body =>
    refine .tag fun t => .bind (numbers_lowerExpr condition (d + 1) .condition) fun c => ?_
    refine .bind (numbers_lowerStmt body (d + 1) .body) fun b => .pure ?_
    simp only [Stmt.outline, idsOf, List.map_cons, List.map_append]
    rfl
  | ret p value =>
    refine .tag fun t => .bind (numbers_lowerExpr? value (d + 1) .value) fun v => .pure ?_
    simp only [Stmt.outline, idsOf, List.map_cons]
    rfl
  | expressionStatement p expression => exact numbers_lowerBare p expression d r
  | program p body => exact .refuse _ _
  | literal p v => exact numbers_lowerBare p (.literal p v) d r
  | identifier p name => exact numbers_lowerBare p (.identifier p name) d r
  | binaryOp p op left right => exact numbers_lowerBare p (.binaryOp p op left right) d r
  | unaryOp p op operand => exact numbers_lowerBare p (.unaryOp p op operand) d r
  | call p callee args => exact numbers_lowerBare p (.call p callee args) d r
termination_by structural n

theorem numbers_lowerStmts (ns : List Node) (d : Nat) (r : Role) :
    Numbers (lowerStmts ns) fun ss => idsOf (Stmt.outlines d r ss) := by
  cases ns with
  | nil => exact .pure rfl
  | cons n ns =>
    refine .bind (numbers_lowerStmt n d r) fun s => ?_
    refine .bind (numbers_lowerStmts ns d r) fun ss => .pure ?_
    rw [Stmt.outlines, idsOf, List.map_append]
    rfl
termination_by structural ns

end

-- ============================================================= programs

/-- A document that is accepted has its nodes numbered from zero on. -/
theorem ids_of_lower {n : Node} {p : Program} (h : lower n = .ok p) :
    p.ids = List.range p.outline.length := by
  obtain ⟨body, next, rfl, hbody⟩ := lower_eq_ok h
  obtain ⟨count, -, hids⟩ := numbers_lowerStmts body 0 .body 0 p.body next hbody
  have hids : p.ids = List.range' 0 count := hids
  have hcount : p.outline.length = count := by
    have hlength := congrArg List.length hids
    rwa [Program.ids, List.length_map, List.length_range'] at hlength
  rw [hids, hcount, List.range_eq_range']

/-- What is loaded has been lowered. -/
theorem exists_lower_of_load {source : Json.Source} {bytes : List UInt8} {p : Program}
    (h : load source bytes = .ok p) : ∃ n, lower n = .ok p := by
  unfold load at h
  split at h
  · cases h
  · split at h
    · cases h
    · rename_i node _
      split at h
      · cases h
      · cases hlower : lower node with
        | error e =>
          rw [hlower] at h
          cases h
        | ok q =>
          rw [hlower] at h
          cases h
          exact ⟨node, hlower⟩

/-- Loaded programs are numbered densely in pre-order: the identities of the
statements and expressions of a document that loads are, in pre-order,
the numbers from zero to one less than there are nodes. So no identity
comes twice, and whatever an analysis of the program comes to, it is not
refused for having met a node before. -/
theorem numbered_of_load {source : Json.Source} {bytes : List UInt8} {p : Program}
    (h : load source bytes = .ok p) :
    p.ids = List.range p.outline.length
      ∧ p.ids.Nodup
      ∧ ∀ config id, p.analyze config ≠ .error (.repeatedNode id) := by
  obtain ⟨n, hn⟩ := exists_lower_of_load h
  have hids := ids_of_lower hn
  have hnodup : p.ids.Nodup := by
    rw [hids]
    exact List.nodup_range
  refine ⟨hids, hnodup, fun config id hfailed => ?_⟩
  have hexprs := Program.nodup_exprIds hnodup
  rcases Program.causes_of_analyze hfailed with ⟨q, -, hdeep⟩ | ⟨id', -, htwice⟩
  · cases hdeep
  · have honce := List.nodup_iff_count.mp hexprs id'
    omega

/-- The text of a document that is one bare expression, `-n`. -/
def negationText : String :=
  "\x7b\"kind\":\"Program\",\"body\":[\x7b\"kind\":\"UnaryOp\",\"op\":\"-\"," ++
    "\"position\":\x7b\"line\":1,\"column\":1\x7d,\"operand\":\x7b\"kind\":\"Identifier\"," ++
    "\"name\":\"n\",\"position\":\x7b\"line\":1,\"column\":2\x7d\x7d\x7d]\x7d"

/-- The statement that the expression stands for is numbered too. -/
theorem numbered_of_load_negation :
    ∃ p, load .text (Utf8.encode negationText) = .ok p
      ∧ p.ids = [0, 1, 2]
      ∧ ∀ config id, p.analyze config ≠ .error (.repeatedNode id) := by
  have hids : (load .text (Utf8.encode negationText)).toOption.map Program.ids
      = some [0, 1, 2] := by decide +kernel
  cases hload : load .text (Utf8.encode negationText) with
  | error e =>
    rw [hload] at hids
    cases hids
  | ok p =>
    rw [hload] at hids
    obtain ⟨-, -, hanalyze⟩ := numbered_of_load hload
    exact ⟨p, rfl, Option.some.inj hids, hanalyze⟩

end TreeCheck.Document
