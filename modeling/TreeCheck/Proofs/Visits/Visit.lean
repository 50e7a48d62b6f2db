/-
The statements that a course visits.

A course comes by every statement of a program once, in pre-order, each
time with certain names in force and, inside a function, with a result
type that a `return` has to meet. `Stmt.visits` lists these visits along
the course.

What a course says is, up to order, what is remarked at the nodes of the
expressions of the visited statements, what is found about the
statements themselves, and findings about bindings: duplicates,
annotations of functions, unused names. So a finding about an expression
has its place at one visit.
-/
import Mathlib.Data.List.Nodup
import TreeCheck.Proofs.Account.Course
import TreeCheck.Proofs.Visits.Nested

namespace TreeCheck

open Analysis

-- ========================================================== statements

/-- The statement that a node is, if it is one. -/
def Node.stmt? : Node → Option Stmt
  | .stmt s => some s
  | .expr _ => none

/-- The statements of a program, in pre-order. -/
def Program.stmts (p : Program) : List Stmt := p.outline.filterMap (·.node.stmt?)

/-- The expressions that stand directly in a statement. -/
def Stmt.roots : Stmt → List Expr
  | .declaration _ _ _ init _ => init.toList
  | .assignment _ target value => [target, value]
  | .ifElse _ c _ _ | .while _ c _ => [c]
  | .ret _ value => value.toList
  | .expr _ e => [e]
  | .function _ _ _ _ _ _ | .block _ _ _ => []

/-- The nodes of the expressions that stand directly in a statement. -/
def Stmt.exprs (s : Stmt) : List Expr := s.roots.flatMap Expr.nested

mutual

theorem Expr.stmts_outline (d : Nat) (r : Role) : (e : Expr) →
    (e.outline d r).filterMap (·.node.stmt?) = []
  | .literal t v => rfl
  | .identifier t x => rfl
  | .binary t op a b => by
      rw [Expr.outline, List.filterMap_cons_none rfl, List.filterMap_append,
        Expr.stmts_outline _ _ a, Expr.stmts_outline _ _ b, List.append_nil]
  | .unary t op a => by
      rw [Expr.outline, List.filterMap_cons_none rfl, Expr.stmts_outline _ _ a]
  | .call t f args => by
      rw [Expr.outline, List.filterMap_cons_none rfl, List.filterMap_append,
        Expr.stmts_outline _ _ f, Expr.stmts_outlines _ _ args, List.append_nil]

theorem Expr.stmts_outlines (d : Nat) (r : Role) : (es : List Expr) →
    (Expr.outlines d r es).filterMap (·.node.stmt?) = []
  | [] => rfl
  | e :: es => by
      rw [Expr.outlines, List.filterMap_append, Expr.stmts_outline _ _ e,
        Expr.stmts_outlines _ _ es, List.append_nil]

end

theorem Expr.stmts_outline? (d : Nat) (r : Role) (e : Option Expr) :
    (Expr.outline? d r e).filterMap (·.node.stmt?) = [] := by
  cases e with
  | none => rfl
  | some e => exact e.stmts_outline d r

theorem Expr.exprs_outline? (d : Nat) (r : Role) (e : Option Expr) :
    (Expr.outline? d r e).filterMap (·.node.expr?)
      = e.toList.flatMap Expr.nested := by
  cases e with
  | none => rfl
  | some e =>
      rw [Option.toList_some, List.flatMap_singleton]
      exact e.exprs_outline d r

/-- A statement comes first in its outline. -/
theorem Outline.stmts_cons (d : Nat) (r : Role) (s : Stmt) (o : Outline) :
    List.filterMap (·.node.stmt?) (⟨d, r, .stmt s⟩ :: o)
      = s :: o.filterMap (·.node.stmt?) := rfl

theorem Outline.exprs_stmt (d : Nat) (r : Role) (s : Stmt) (o : Outline) :
    List.filterMap (·.node.expr?) (⟨d, r, .stmt s⟩ :: o)
      = o.filterMap (·.node.expr?) := rfl

/-- An outline has the identities of its statements and of its expressions. -/
theorem Outline.perm_ids (o : Outline) :
    (o.map (·.node.id)).Perm ((o.filterMap (·.node.stmt?)).map Stmt.id
      ++ (o.filterMap (·.node.expr?)).map Expr.id) := by
  induction o with
  | nil => exact .refl _
  | cons entry o ih =>
      obtain ⟨d, r, node⟩ := entry
      cases node with
      | stmt s => exact ih.cons s.id
      | expr e => exact (ih.cons e.id).trans List.perm_middle.symm

/-- Where the nodes of a program have distinct identities, its statements
have. -/
theorem Program.nodup_stmtIds {p : Program} (h : p.ids.Nodup) :
    (p.stmts.map Stmt.id).Nodup :=
  (List.nodup_append.mp (p.outline.perm_ids.nodup_iff.mp h)).1

/-- Where identities are distinct, a statement is told by its identity. -/
theorem Program.stmt_eq_of_id {p : Program} {s s' : Stmt} (hids : p.ids.Nodup)
    (hs : s ∈ p.stmts) (hs' : s' ∈ p.stmts) (h : s.id = s'.id) : s = s' :=
  List.inj_on_of_nodup_map (nodup_stmtIds hids) hs hs' h

theorem Stmt.mem_stmts_outline (d : Nat) (r : Role) (s : Stmt) :
    s ∈ (s.outline d r).filterMap (·.node.stmt?) := by
  cases s with
  | ifElse t c a b => cases b <;> exact List.mem_cons_self
  | declaration | function | assignment | block | «while» | ret | expr =>
      exact List.mem_cons_self

theorem Stmt.mem_stmts_outlines (d : Nat) (r : Role) {s : Stmt} {ss : List Stmt}
    (h : s ∈ ss) : s ∈ (Stmt.outlines d r ss).filterMap (·.node.stmt?) := by
  induction ss with
  | nil => cases h
  | cons s' ss ih =>
      rw [Stmt.outlines, List.filterMap_append]
      rcases List.mem_cons.mp h with rfl | h
      · exact List.mem_append_left _ (s.mem_stmts_outline d r)
      · exact List.mem_append_right _ (ih h)

mutual

/-- The expressions of an outline are those of its statements. -/
theorem Stmt.exprs_outline (d : Nat) (r : Role) : (s : Stmt) →
    (s.outline d r).filterMap (·.node.expr?)
      = ((s.outline d r).filterMap (·.node.stmt?)).flatMap Stmt.exprs
  | .declaration t name ann init m => by
      rw [Stmt.outline, Outline.exprs_stmt, Outline.stmts_cons,
        Expr.exprs_outline?, Expr.stmts_outline?, List.flatMap_singleton]
      rfl
  | .function t name params result p body => by
      rw [Stmt.outline, Outline.exprs_stmt, Outline.stmts_cons,
        List.flatMap_cons, Stmt.exprs_outlines _ _ body]
      rfl
  | .assignment t target value => by
      rw [Stmt.outline, Outline.exprs_stmt, Outline.stmts_cons,
        List.filterMap_append, List.filterMap_append, Expr.exprs_outline,
        Expr.exprs_outline, Expr.stmts_outline, Expr.stmts_outline,
        List.append_nil, List.flatMap_singleton]
      simp [Stmt.exprs, Stmt.roots]
  | .block t p ss => by
      rw [Stmt.outline, Outline.exprs_stmt, Outline.stmts_cons,
        List.flatMap_cons, Stmt.exprs_outlines _ _ ss]
      rfl
  | .ifElse t c a none => by
      rw [Stmt.outline, Outline.exprs_stmt, Outline.stmts_cons,
        List.filterMap_append, List.filterMap_append, Expr.exprs_outline,
        Expr.stmts_outline, Stmt.exprs_outline _ _ a, List.nil_append,
        List.flatMap_cons]
      simp [Stmt.exprs, Stmt.roots]
  | .ifElse t c a (some b) => by
      rw [Stmt.outline, Outline.exprs_stmt, Outline.stmts_cons,
        List.filterMap_append, List.filterMap_append, List.filterMap_append,
        List.filterMap_append, Expr.exprs_outline, Expr.stmts_outline,
        Stmt.exprs_outline _ _ a, Stmt.exprs_outline _ _ b, List.nil_append,
        List.flatMap_cons, List.flatMap_append]
      simp [Stmt.exprs, Stmt.roots]
  | .while t c b => by
      rw [Stmt.outline, Outline.exprs_stmt, Outline.stmts_cons,
        List.filterMap_append, List.filterMap_append, Expr.exprs_outline,
        Expr.stmts_outline, Stmt.exprs_outline _ _ b, List.nil_append,
        List.flatMap_cons]
      simp [Stmt.exprs, Stmt.roots]
  | .ret t value => by
      rw [Stmt.outline, Outline.exprs_stmt, Outline.stmts_cons,
        Expr.exprs_outline?, Expr.stmts_outline?, List.flatMap_singleton]
      rfl
  | .expr t e => by
      rw [Stmt.outline, Outline.exprs_stmt, Outline.stmts_cons,
        Expr.exprs_outline, Expr.stmts_outline, List.flatMap_singleton]
      simp [Stmt.exprs, Stmt.roots]

theorem Stmt.exprs_outlines (d : Nat) (r : Role) : (ss : List Stmt) →
    (Stmt.outlines d r ss).filterMap (·.node.expr?)
      = ((Stmt.outlines d r ss).filterMap (·.node.stmt?)).flatMap Stmt.exprs
  | [] => rfl
  | s :: ss => by
      rw [Stmt.outlines, List.filterMap_append, List.filterMap_append,
        Stmt.exprs_outline _ _ s, Stmt.exprs_outlines _ _ ss,
        List.flatMap_append]

end

/-- The expressions of a program are those of its statements. -/
theorem Program.exprs_eq_flatMap (p : Program) :
    p.exprs = p.stmts.flatMap Stmt.exprs :=
  Stmt.exprs_outlines 0 .body p.body

-- ============================================================== visits

/-- A statement that is visited, the names in force there, and the result
type of the function around it. -/
structure Visit where
  stmt : Stmt
  names : Lookup
  expected : Option Ty

namespace Visit

/-- What is found about a visited statement itself. -/
def verdict (v : Visit) : List Event :=
  match v.stmt with
  | .declaration t name ann init _ =>
    ann.elim [] (·.valueEvents t.id name)
      ++ initializerEvents t.id name (ann.map (·.valueType))
          (located init (init.map (·.typeIn v.names)))
  | .assignment t (.identifier target x) value =>
    (v.names x).elim [] fun d =>
      storeEvents t.id target d x (value.typeIn v.names) value.position
  | .assignment t target _ =>
    [.found t.id ⟨.notAVariable, target.position, none⟩]
  | .ifElse t c _ _ =>
    complaint (isCondition (c.typeIn v.names)) t.id
      (.badCondition .ifElse (c.typeIn v.names)) c.position
  | .while t c _ =>
    complaint (isCondition (c.typeIn v.names)) t.id
      (.badCondition .while (c.typeIn v.names)) c.position
  | .ret t value =>
    returnEvents t.id t.position v.expected
      (located value (value.map (·.typeIn v.names)))
  | .expr _ _ | .function _ _ _ _ _ _ | .block _ _ _ => []

/-- What is remarked at a visit: at the nodes of the expressions of the
statement, and about the statement. -/
def remarks (v : Visit) : List Event :=
  v.stmt.exprs.flatMap (Expr.remarks v.names) ++ v.verdict

end Visit

/-- The visits in a function, a block or a program are those from where its
scope has been opened. -/
def openingFunction (function : NodeId) (params : List Param) (types : List Ty)
    (body : List Stmt) (n : SymbolId) (σ : Signatures) : Course :=
  (⟨declaringParams function 0 params types [] n, σ⟩ : Course).andThen
    (hoistingCourse body)

/-- A branch is visited in a scope of its own. A block brings its scope
along. -/
def visitsOfBranch (branch : Stmt)
    (visits : Env → Frame → SymbolId → Signatures → List Visit) (outer : Env)
    (φ : Frame) (n : SymbolId) (σ : Signatures) : List Visit :=
  if branch.isBlock then visits outer φ n σ else visits (φ :: outer) [] n σ

mutual

/-- The visits of the course of a statement. -/
def Stmt.visits (config : Config) :
    Stmt → Option Ty → Env → Frame → SymbolId → Signatures → List Visit
  | .function t name params result p body, expected, outer, φ, n, σ =>
    let sig := σ[t.id]?.getD (Signature.of params result body)
    let reached := reachingFunction t name params result body φ n σ
    let opened := openingFunction t.id params sig.params body reached.next
      reached.signatures
    ⟨.function t name params result p body, Env.find (φ :: outer), expected⟩
      :: Stmt.visitsAll config body (some sig.ret) (reached.frame :: outer)
          opened.frame opened.next opened.signatures
  | .block t p ss, expected, outer, φ, n, σ =>
    let opened := hoistingCourse ss [] n σ
    ⟨.block t p ss, Env.find (φ :: outer), expected⟩
      :: Stmt.visitsAll config ss expected (φ :: outer) opened.frame opened.next
          opened.signatures
  | .ifElse t c a none, expected, outer, φ, n, σ =>
    ⟨.ifElse t c a none, Env.find (φ :: outer), expected⟩
      :: visitsOfBranch a (Stmt.visits config a expected) outer φ n σ
  | .ifElse t c a (some b), expected, outer, φ, n, σ =>
    let passed := courseOfBranch config a (Stmt.course config a expected) outer φ
      n σ
    ⟨.ifElse t c a (some b), Env.find (φ :: outer), expected⟩
      :: (visitsOfBranch a (Stmt.visits config a expected) outer φ n σ
        ++ visitsOfBranch b (Stmt.visits config b expected) outer passed.frame
            passed.next passed.signatures)
  | .while t c b, expected, outer, φ, n, σ =>
    ⟨.while t c b, Env.find (φ :: outer), expected⟩
      :: visitsOfBranch b (Stmt.visits config b expected) outer φ n σ
  | .declaration t name ann init m, expected, outer, φ, _, _ =>
    [⟨.declaration t name ann init m, Env.find (φ :: outer), expected⟩]
  | .assignment t target value, expected, outer, φ, _, _ =>
    [⟨.assignment t target value, Env.find (φ :: outer), expected⟩]
  | .ret t value, expected, outer, φ, _, _ =>
    [⟨.ret t value, Env.find (φ :: outer), expected⟩]
  | .expr t e, expected, outer, φ, _, _ =>
    [⟨.expr t e, Env.find (φ :: outer), expected⟩]
termination_by structural s => s

/-- The visits of the course of a list. -/
def Stmt.visitsAll (config : Config) :
    List Stmt → Option Ty → Env → Frame → SymbolId → Signatures → List Visit
  | [], _, _, _, _, _ => []
  | s :: ss, expected, outer, φ, n, σ =>
    let passed := s.course config expected outer φ n σ
    s.visits config expected outer φ n σ
      ++ Stmt.visitsAll config ss expected outer passed.frame passed.next
          passed.signatures
termination_by structural ss => ss

end

/-- The visits of the course of a program. -/
def Program.visits (config : Config) (p : Program) : List Visit :=
  let opened := hoistingCourse p.body [] 0 {}
  Stmt.visitsAll config p.body none [] opened.frame opened.next opened.signatures

section

variable {config : Config}

theorem stmts_visitsOfBranch {branch : Stmt} {ss : List Stmt}
    {visits : Env → Frame → SymbolId → Signatures → List Visit}
    (h : ∀ outer φ n σ, (visits outer φ n σ).map (·.stmt) = ss) (outer : Env)
    (φ : Frame) (n : SymbolId) (σ : Signatures) :
    (visitsOfBranch branch visits outer φ n σ).map (·.stmt) = ss := by
  unfold visitsOfBranch
  split
  · exact h outer φ n σ
  · exact h (φ :: outer) [] n σ

mutual

/-- Every statement is visited once, in pre-order. -/
theorem Stmt.stmts_visits (d : Nat) (r : Role) : (s : Stmt) →
    ∀ (expected : Option Ty) (outer : Env) (φ : Frame) (n : SymbolId)
      (σ : Signatures),
    (s.visits config expected outer φ n σ).map (·.stmt)
      = (s.outline d r).filterMap (·.node.stmt?)
  | .declaration t name ann init m, expected, outer, φ, n, σ => by
      rw [Stmt.outline, Outline.stmts_cons, Expr.stmts_outline?]
      rfl
  | .function t name params result p body, expected, outer, φ, n, σ => by
      rw [Stmt.outline, Outline.stmts_cons, Stmt.visits, List.map_cons,
        Stmt.stmts_visitsAll _ _ body]
  | .assignment t target value, expected, outer, φ, n, σ => by
      rw [Stmt.outline, Outline.stmts_cons, List.filterMap_append,
        Expr.stmts_outline, Expr.stmts_outline]
      rfl
  | .block t p ss, expected, outer, φ, n, σ => by
      rw [Stmt.outline, Outline.stmts_cons, Stmt.visits, List.map_cons,
        Stmt.stmts_visitsAll _ _ ss]
  | .ifElse t c a none, expected, outer, φ, n, σ => by
      rw [Stmt.outline, Outline.stmts_cons, List.filterMap_append,
        Expr.stmts_outline, List.nil_append, Stmt.visits, List.map_cons,
        stmts_visitsOfBranch (Stmt.stmts_visits _ _ a expected)]
  | .ifElse t c a (some b), expected, outer, φ, n, σ => by
      rw [Stmt.outline, Outline.stmts_cons, List.filterMap_append,
        List.filterMap_append, Expr.stmts_outline, List.nil_append, Stmt.visits,
        List.map_cons, List.map_append,
        stmts_visitsOfBranch (Stmt.stmts_visits _ _ a expected),
        stmts_visitsOfBranch (Stmt.stmts_visits _ _ b expected)]
  | .while t c b, expected, outer, φ, n, σ => by
      rw [Stmt.outline, Outline.stmts_cons, List.filterMap_append,
        Expr.stmts_outline, List.nil_append, Stmt.visits, List.map_cons,
        stmts_visitsOfBranch (Stmt.stmts_visits _ _ b expected)]
  | .ret t value, expected, outer, φ, n, σ => by
      rw [Stmt.outline, Outline.stmts_cons, Expr.stmts_outline?]
      rfl
  | .expr t e, expected, outer, φ, n, σ => by
      rw [Stmt.outline, Outline.stmts_cons, Expr.stmts_outline]
      rfl

theorem Stmt.stmts_visitsAll (d : Nat) (r : Role) : (ss : List Stmt) →
    ∀ (expected : Option Ty) (outer : Env) (φ : Frame) (n : SymbolId)
      (σ : Signatures),
    (Stmt.visitsAll config ss expected outer φ n σ).map (·.stmt)
      = (Stmt.outlines d r ss).filterMap (·.node.stmt?)
  | [], expected, outer, φ, n, σ => rfl
  | s :: ss, expected, outer, φ, n, σ => by
      rw [Stmt.outlines, List.filterMap_append, Stmt.visitsAll, List.map_append,
        Stmt.stmts_visits d r s, Stmt.stmts_visitsAll d r ss]

end

/-- The statements of a list do not depend on its depth and its role. -/
theorem Stmt.stmts_outlines_eq (d d' : Nat) (r r' : Role) (ss : List Stmt) :
    (Stmt.outlines d r ss).filterMap (·.node.stmt?)
      = (Stmt.outlines d' r' ss).filterMap (·.node.stmt?) := by
  have hvisits (d : Nat) (r : Role) :
      (Stmt.visitsAll {} ss none [] [] 0 {}).map (·.stmt)
        = (Stmt.outlines d r ss).filterMap (·.node.stmt?) :=
    Stmt.stmts_visitsAll d r ss none [] [] 0 {}
  rw [← hvisits d r, ← hvisits d' r']

/-- The statements that a course visits are those of the program. -/
theorem Program.stmts_visits (config : Config) (p : Program) :
    (p.visits config).map (·.stmt) = p.stmts :=
  Stmt.stmts_visitsAll 0 .body p.body _ _ _ _ _

end

end TreeCheck
