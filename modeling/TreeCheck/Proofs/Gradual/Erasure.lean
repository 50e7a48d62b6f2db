/-
Deleting annotations from a program.

Not every annotation can be spared. The type of an initialized variable
widens what is stored in it, and without a `return` that carries a value
a result that is not annotated is `void`. What can be deleted are the
types of parameters, of variables without an initializer, and of results
that are returned somewhere.

Annotations are no nodes: a program keeps its nodes, their identities and
their depths.
-/
import TreeCheck.Syntax.Outline
import TreeCheck.Syntax.Returns

namespace TreeCheck

/-- Where an annotation stands. -/
inductive AnnotationSite where
  | param (function : NodeId) (index : Nat)
  | variable (node : NodeId)
  | result (function : NodeId)
deriving DecidableEq, Repr

/-- An annotation that may be deleted. -/
def spared (delete : Bool) (ann : Option TypeName) : Option TypeName :=
  if delete then none else ann

/-- A parameter without its annotation, if that is to be deleted. -/
def Param.erase (delete : Bool) (p : Param) : Param :=
  { p with typeName := spared delete p.typeName }

section

variable (D : AnnotationSite → Bool)

/-- The parameters of a function without some annotations. -/
def Param.eraseAll (function : NodeId) (ps : List Param) : List Param :=
  ps.mapIdx fun i p => p.erase (D (.param function i))

mutual

/-- A statement without the annotations that are to be deleted, as far as
they can be. -/
def Stmt.erase : Stmt → Stmt
  | .declaration t name ann none m =>
    .declaration t name (spared (D (.variable t.id)) ann) none m
  | .declaration t name ann (some e) m => .declaration t name ann (some e) m
  | .function t name params result p body =>
    .function t name (Param.eraseAll D t.id params)
      (spared (Stmt.anyReturnsValue body && D (.result t.id)) result) p
      (Stmt.eraseAll body)
  | .assignment t target value => .assignment t target value
  | .block t p ss => .block t p (Stmt.eraseAll ss)
  | .ifElse t c a none => .ifElse t c a.erase none
  | .ifElse t c a (some b) => .ifElse t c a.erase (some b.erase)
  | .while t c b => .while t c b.erase
  | .ret t value => .ret t value
  | .expr t e => .expr t e
termination_by structural s => s

/-- The statements of a list without the annotations that are to be
deleted. -/
def Stmt.eraseAll : List Stmt → List Stmt
  | [] => []
  | s :: ss => s.erase :: Stmt.eraseAll ss
termination_by structural ss => ss

end

/-- A program without the annotations that are to be deleted. -/
def Program.erase (p : Program) : Program :=
  { p with body := Stmt.eraseAll D p.body }

end

variable {D : AnnotationSite → Bool}

-- ========================================================= what is kept

theorem Stmt.isBlock_erase (s : Stmt) : (s.erase D).isBlock = s.isBlock := by
  cases s with
  | declaration t name ann init m => cases init <;> rfl
  | ifElse t c a b => cases b <;> rfl
  | function | assignment | block | «while» | ret | expr => rfl

mutual

theorem Stmt.returnsValue_erase :
    (s : Stmt) → (s.erase D).returnsValue = s.returnsValue
  | .declaration t name ann none m => rfl
  | .declaration t name ann (some e) m => rfl
  | .function t name params result p body => rfl
  | .assignment t target value => rfl
  | .block t p ss => by
      simp only [Stmt.erase, Stmt.returnsValue]
      exact Stmt.anyReturnsValue_eraseAll ss
  | .ifElse t c a none => by
      simp only [Stmt.erase, Stmt.returnsValue]
      exact a.returnsValue_erase
  | .ifElse t c a (some b) => by
      simp only [Stmt.erase, Stmt.returnsValue]
      rw [a.returnsValue_erase, b.returnsValue_erase]
  | .while t c b => by
      simp only [Stmt.erase, Stmt.returnsValue]
      exact b.returnsValue_erase
  | .ret t value => rfl
  | .expr t e => rfl

theorem Stmt.anyReturnsValue_eraseAll : (ss : List Stmt) →
    Stmt.anyReturnsValue (Stmt.eraseAll D ss) = Stmt.anyReturnsValue ss
  | [] => rfl
  | s :: ss => by
      simp only [Stmt.eraseAll, Stmt.anyReturnsValue]
      rw [s.returnsValue_erase, Stmt.anyReturnsValue_eraseAll ss]

end

/-- What deleting annotations keeps of a line of an outline. -/
def Outline.Entry.kept (n : Outline.Entry) : Nat × NodeId × Option Expr :=
  (n.depth, n.node.id, n.node.expr?)

mutual

theorem Stmt.outline_erase (d : Nat) (r : Role) : (s : Stmt) →
    ((s.erase D).outline d r).map Outline.Entry.kept
      = (s.outline d r).map Outline.Entry.kept
  | .declaration t name ann none m => rfl
  | .declaration t name ann (some e) m => rfl
  | .function t name params result p body => by
      simp only [Stmt.erase, Stmt.outline, List.map_cons]
      rw [Stmt.outlines_eraseAll _ _ body]
      rfl
  | .assignment t target value => rfl
  | .block t p ss => by
      simp only [Stmt.erase, Stmt.outline, List.map_cons]
      rw [Stmt.outlines_eraseAll _ _ ss]
      rfl
  | .ifElse t c a none => by
      simp only [Stmt.erase, Stmt.outline, List.map_cons, List.map_append]
      rw [a.outline_erase]
      rfl
  | .ifElse t c a (some b) => by
      simp only [Stmt.erase, Stmt.outline, List.map_cons, List.map_append]
      rw [a.outline_erase, b.outline_erase]
      rfl
  | .while t c b => by
      simp only [Stmt.erase, Stmt.outline, List.map_cons, List.map_append]
      rw [b.outline_erase]
      rfl
  | .ret t value => rfl
  | .expr t e => rfl

theorem Stmt.outlines_eraseAll (d : Nat) (r : Role) : (ss : List Stmt) →
    (Stmt.outlines d r (Stmt.eraseAll D ss)).map Outline.Entry.kept
      = (Stmt.outlines d r ss).map Outline.Entry.kept
  | [] => rfl
  | s :: ss => by
      simp only [Stmt.eraseAll, Stmt.outlines, List.map_append]
      rw [s.outline_erase, Stmt.outlines_eraseAll _ _ ss]

end

namespace Program

variable (p : Program)

theorem outline_erase :
    (p.erase D).outline.map Outline.Entry.kept
      = p.outline.map Outline.Entry.kept :=
  Stmt.outlines_eraseAll 0 .body p.body

theorem ids_erase : (p.erase D).ids = p.ids := by
  have hids := congrArg (List.map fun k => k.2.1) (p.outline_erase (D := D))
  rwa [List.map_map, List.map_map] at hids

theorem exprs_erase : (p.erase D).exprs = p.exprs := by
  have hexprs := congrArg (List.filterMap fun k => k.2.2)
    (p.outline_erase (D := D))
  rwa [List.filterMap_map, List.filterMap_map] at hexprs

theorem shallow_erase {limit : Nat} (h : ∀ n ∈ p.outline, n.depth < limit) :
    ∀ n ∈ (p.erase D).outline, n.depth < limit := by
  intro n hn
  have hkept : n.kept ∈ p.outline.map Outline.Entry.kept :=
    p.outline_erase ▸ List.mem_map_of_mem hn
  obtain ⟨n', hn', heq⟩ := List.mem_map.mp hkept
  have hdepth : n'.depth = n.depth := congrArg Prod.fst heq
  have := h n' hn'
  omega

end Program

end TreeCheck
