/-
The functions of a program, and what stands in a statement.

`Stmt.inner` lists a statement and all statements in it, `Stmt.children`
the statements that stand directly in it. Every fact about what stands
where goes by the children (`Stmt.childrenRec`), so the constructors of a
statement are taken apart here and nowhere behind. A function encloses
the statements in its body, at any depth, and none of them is the
function itself where identities are distinct.
-/
import Mathlib.Data.List.Nodup
import Mathlib.Data.List.Pairwise
import TreeCheck.Proofs.Account.Distinct
import TreeCheck.Proofs.Visits.Visit

namespace TreeCheck

open Analysis

-- ============================================================ functions

/-- A function definition. -/
structure FunctionDef where
  tag : Tag
  name : String
  params : List Param
  result : Option TypeName
  bodyAt : Position
  body : List Stmt

/-- The statement that a function definition is. -/
def FunctionDef.stmt (f : FunctionDef) : Stmt :=
  .function f.tag f.name f.params f.result f.bodyAt f.body

/-- What a function definition binds. -/
def FunctionDef.binding (f : FunctionDef) : Binding :=
  let sig := Signature.of f.params f.result f.body
  ⟨f.name, .function, .func sig.params sig.ret, f.tag.position, false⟩

/-- The signature of a function by its own annotations and its own body. -/
def FunctionDef.signature (f : FunctionDef) : Signature :=
  .of f.params f.result f.body

/-- The function that a statement defines, if it defines one. -/
def Stmt.function? : Stmt → Option FunctionDef
  | .function t name params result q body => some ⟨t, name, params, result, q, body⟩
  | _ => none

theorem Stmt.function?_eq_some {s : Stmt} {f : FunctionDef} :
    s.function? = some f ↔ s = f.stmt := by
  constructor
  · intro h
    cases s with
    | function => rw [← Option.some.inj h, FunctionDef.stmt]
    | _ => cases h
  · rintro rfl
    rfl

-- ============================================================= children

/-- The statements that stand directly in a statement. -/
def Stmt.children : Stmt → List Stmt
  | .function _ _ _ _ _ body => body
  | .block _ _ ss => ss
  | .ifElse _ _ a none => [a]
  | .ifElse _ _ a (some b) => [a, b]
  | .while _ _ b => [b]
  | .declaration _ _ _ _ _ | .assignment _ _ _ | .ret _ _ | .expr _ _ => []

/-- A statement and all statements in it, in pre-order. -/
def Stmt.inner (s : Stmt) : List Stmt := (s.outline 0 .stmt).filterMap (·.node.stmt?)

/-- The functions of a statement, the statement itself among them. -/
def Stmt.functions (s : Stmt) : List FunctionDef := s.inner.filterMap Stmt.function?

/-- The functions of a program. -/
def Program.functions (p : Program) : List FunctionDef :=
  p.stmts.filterMap Stmt.function?

/-- A statement stands in the body of a function, at any depth. -/
def FunctionDef.Encloses (f : FunctionDef) (s : Stmt) : Prop :=
  s ∈ f.body.flatMap Stmt.inner

theorem Stmt.sizeOf_children {s c : Stmt} (h : c ∈ s.children) :
    sizeOf c < sizeOf s := by
  cases s with
  | function t name params result q body =>
      have hlt := List.sizeOf_lt_of_mem (show c ∈ body from h)
      simp only [Stmt.function.sizeOf_spec]
      omega
  | block t q ss =>
      have hlt := List.sizeOf_lt_of_mem (show c ∈ ss from h)
      simp only [Stmt.block.sizeOf_spec]
      omega
  | ifElse t e a b =>
      cases b with
      | none =>
          rw [List.mem_singleton.mp h]
          simp only [Stmt.ifElse.sizeOf_spec]
          omega
      | some b =>
          simp only [Stmt.ifElse.sizeOf_spec, Option.some.sizeOf_spec]
          rcases List.mem_cons.mp h with rfl | h
          · omega
          · rw [List.mem_singleton.mp h]
            omega
  | «while» t e b =>
      rw [List.mem_singleton.mp h]
      simp only [Stmt.while.sizeOf_spec]
      omega
  | declaration | assignment | ret | expr => cases h

/-- What holds of a statement whenever it holds of its children holds of
every statement. -/
theorem Stmt.childrenRec {motive : Stmt → Prop}
    (step : ∀ s, (∀ c ∈ s.children, motive c) → motive s) (s : Stmt) : motive s :=
  step s fun c hc =>
    have := Stmt.sizeOf_children hc
    Stmt.childrenRec step c
termination_by sizeOf s

theorem Stmt.stmts_outline (d : Nat) (r : Role) (s : Stmt) :
    (s.outline d r).filterMap (·.node.stmt?) = s.inner := by
  have hvisits (d : Nat) (r : Role) :
      (s.visits {} none [] [] 0 {}).map (·.stmt)
        = (s.outline d r).filterMap (·.node.stmt?) :=
    s.stmts_visits d r none [] [] 0 {}
  rw [inner, ← hvisits d r, hvisits 0 .stmt]

theorem Stmt.stmts_outlines (d : Nat) (r : Role) (ss : List Stmt) :
    (Stmt.outlines d r ss).filterMap (·.node.stmt?) = ss.flatMap Stmt.inner := by
  induction ss with
  | nil => rfl
  | cons s ss ih =>
      rw [Stmt.outlines, List.filterMap_append, ih, Stmt.stmts_outline,
        List.flatMap_cons]

/-- A statement comes first, then what stands in its children. -/
theorem Stmt.inner_eq_cons (s : Stmt) : s.inner = s :: s.children.flatMap Stmt.inner := by
  cases s with
  | function t name params result q body =>
      rw [inner, Stmt.outline, Outline.stmts_cons, Stmt.stmts_outlines, children]
  | block t q ss =>
      rw [inner, Stmt.outline, Outline.stmts_cons, Stmt.stmts_outlines, children]
  | ifElse t c a b =>
      cases b with
      | none =>
          rw [inner, Stmt.outline, Outline.stmts_cons, List.filterMap_append,
            Expr.stmts_outline, Stmt.stmts_outline, children, List.flatMap_singleton,
            List.nil_append]
      | some b =>
          rw [inner, Stmt.outline, Outline.stmts_cons, List.filterMap_append,
            List.filterMap_append, Expr.stmts_outline, Stmt.stmts_outline,
            Stmt.stmts_outline, children, List.flatMap_cons, List.flatMap_singleton,
            List.nil_append]
  | «while» t c b =>
      rw [inner, Stmt.outline, Outline.stmts_cons, List.filterMap_append,
        Expr.stmts_outline, Stmt.stmts_outline, children, List.flatMap_singleton,
        List.nil_append]
  | declaration t name ann init m =>
      rw [inner, Stmt.outline, Outline.stmts_cons, Expr.stmts_outline?]
      rfl
  | assignment t target value =>
      rw [inner, Stmt.outline, Outline.stmts_cons, List.filterMap_append,
        Expr.stmts_outline, Expr.stmts_outline]
      rfl
  | ret t value =>
      rw [inner, Stmt.outline, Outline.stmts_cons, Expr.stmts_outline?]
      rfl
  | expr t e =>
      rw [inner, Stmt.outline, Outline.stmts_cons, Expr.stmts_outline]
      rfl

theorem Program.stmts_eq_flatMap (p : Program) : p.stmts = p.body.flatMap Stmt.inner :=
  Stmt.stmts_outlines 0 .body p.body

theorem Program.functions_eq_flatMap (p : Program) :
    p.functions = p.body.flatMap Stmt.functions := by
  rw [functions, stmts_eq_flatMap, List.filterMap_flatMap]
  rfl

/-- Functions by the children: the statement itself may be one. -/
theorem Stmt.functions_eq_append (s : Stmt) :
    s.functions = s.function?.toList ++ s.children.flatMap Stmt.functions := by
  rw [functions, inner_eq_cons, List.filterMap_cons, List.filterMap_flatMap]
  cases s.function? <;> rfl

-- ============================================================== enclosing

section

variable {s c x : Stmt} {ss : List Stmt} {f : FunctionDef}

theorem Stmt.mem_inner_of_children (hc : c ∈ s.children) (hx : x ∈ c.inner) :
    x ∈ s.inner := by
  rw [inner_eq_cons]
  exact List.mem_cons_of_mem _ (List.mem_flatMap.mpr ⟨c, hc, hx⟩)

/-- What stands in a statement of a statement stands in the statement. -/
theorem Stmt.inner_subset (hc : c ∈ s.inner) (hx : x ∈ c.inner) : x ∈ s.inner := by
  induction s using Stmt.childrenRec with
  | step s ih =>
      rw [inner_eq_cons] at hc
      rcases List.mem_cons.mp hc with rfl | hc
      · exact hx
      · obtain ⟨child, hchild, hc⟩ := List.mem_flatMap.mp hc
        exact mem_inner_of_children hchild (ih child hchild hc)

theorem Stmt.mem_functions : f ∈ s.functions ↔ f.stmt ∈ s.inner := by
  rw [functions, List.mem_filterMap]
  constructor
  · rintro ⟨s', hs', hf⟩
    rwa [Stmt.function?_eq_some.mp hf] at hs'
  · exact fun h => ⟨f.stmt, h, rfl⟩

theorem Program.mem_functions {p : Program} : f ∈ p.functions ↔ f.stmt ∈ p.stmts := by
  rw [functions, List.mem_filterMap]
  constructor
  · rintro ⟨s', hs', hf⟩
    rwa [Stmt.function?_eq_some.mp hf] at hs'
  · exact fun h => ⟨f.stmt, h, rfl⟩

/-- What a function encloses stands in a child of the function. -/
theorem FunctionDef.encloses_iff :
    f.Encloses x ↔ ∃ c ∈ f.stmt.children, x ∈ c.inner := List.mem_flatMap

/-- What a function of a statement encloses stands in the statement. -/
theorem FunctionDef.Encloses.mem_inner (h : f.Encloses x) (hf : f ∈ s.functions) :
    x ∈ s.inner := by
  obtain ⟨c, hc, hx⟩ := FunctionDef.encloses_iff.mp h
  exact Stmt.inner_subset (Stmt.mem_functions.mp hf) (Stmt.mem_inner_of_children hc hx)

/-- Where identities are distinct, nothing in a statement is enclosed by a
function of another one. -/
theorem FunctionDef.Encloses.not_elsewhere {c' : Stmt}
    (hids : ((ss.flatMap Stmt.inner).map Stmt.id).Nodup) (hc : c ∈ ss) (hc' : c' ∈ ss)
    (hx : x ∈ c.inner) (h : f.Encloses x) (hf : f ∈ c'.functions) : c' = c := by
  have hmem := h.mem_inner hf
  rw [List.map_flatMap, List.nodup_flatMap] at hids
  have hsymm : Std.Symm (Function.onFun List.Disjoint fun s : Stmt =>
      s.inner.map Stmt.id) := ⟨fun _ _ h _ ha hb => h hb ha⟩
  by_contra hne
  exact hids.2.forall hc' hc hne (List.mem_map_of_mem hmem) (List.mem_map_of_mem hx)

/-- Where identities are distinct, no function in a statement encloses the
statement. -/
theorem FunctionDef.Encloses.ne_self (hids : (s.inner.map Stmt.id).Nodup)
    (h : f.Encloses x) (hf : f ∈ s.functions) : x ≠ s := by
  rintro rfl
  rw [Stmt.inner_eq_cons, List.map_cons, List.nodup_cons] at hids
  obtain ⟨c, hc, hx⟩ := FunctionDef.encloses_iff.mp h
  refine hids.1 (List.mem_map_of_mem ?_)
  rw [Stmt.functions_eq_append] at hf
  rcases List.mem_append.mp hf with hf | hf
  · rw [Option.mem_toList, Stmt.function?_eq_some] at hf
    rw [hf]
    exact List.mem_flatMap.mpr ⟨c, hc, hf ▸ hx⟩
  · obtain ⟨child, hchild, hf⟩ := List.mem_flatMap.mp hf
    exact List.mem_flatMap.mpr ⟨child, hchild, h.mem_inner hf⟩

end

end TreeCheck
