/-
What stands below a node.

An outline lists a node and then all that is below it, and says of each
how deep it stands and in which part. Without these two the list depends
on the node alone (`Stmt.nodes_outline`), and it is put together from
the lists of the direct parts (`Node.nodes_eq_cons`).
-/
import TreeCheck.Proofs.Functions.Source

namespace TreeCheck

-- =============================================================== outlines

theorem Outline.nodes_cons (d : Nat) (r : Role) (n : Node) (o : Outline) :
    List.map (·.node) (⟨d, r, n⟩ :: o) = n :: o.map (·.node) := rfl

mutual

/-- The nodes of an expression, whatever its depth and its role. -/
theorem Expr.nodes_outline (d : Nat) (r : Role) : (e : Expr) →
    (e.outline d r).map (·.node) = e.nested.map .expr
  | .literal t v => rfl
  | .identifier t x => rfl
  | .binary t op a b => by
      rw [Expr.outline, Outline.nodes_cons, List.map_append, Expr.nodes_outline _ _ a,
        Expr.nodes_outline _ _ b, Expr.nested, List.map_cons, List.map_append]
  | .unary t op a => by
      rw [Expr.outline, Outline.nodes_cons, Expr.nodes_outline _ _ a, Expr.nested,
        List.map_cons]
  | .call t f args => by
      rw [Expr.outline, Outline.nodes_cons, List.map_append, Expr.nodes_outline _ _ f,
        Expr.nodes_outlines _ _ args, Expr.nested, List.map_cons, List.map_append]

theorem Expr.nodes_outlines (d : Nat) (r : Role) : (es : List Expr) →
    (Expr.outlines d r es).map (·.node) = (Expr.nestedAll es).map .expr
  | [] => rfl
  | e :: es => by
      rw [Expr.outlines, List.map_append, Expr.nodes_outline _ _ e,
        Expr.nodes_outlines _ _ es, Expr.nestedAll, List.map_append]

end

theorem Expr.nodes_outline? (d : Nat) (r : Role) (e : Option Expr) :
    (Expr.outline? d r e).map (·.node) = (e.toList.flatMap Expr.nested).map .expr := by
  cases e with
  | none => rfl
  | some e =>
      rw [Option.toList_some, List.flatMap_singleton]
      exact e.nodes_outline d r

-- ============================================================= statements

/-- A statement and all nodes below it, in pre-order. -/
def Stmt.nodes (s : Stmt) : List Node := (s.outline 0 .stmt).map (·.node)

/-- Nothing below a statement depends on its depth and its role. -/
def Stmt.Portable (s : Stmt) : Prop :=
  ∀ d r, (s.outline d r).map (·.node) = s.nodes

theorem Stmt.nodes_outlines_of {ss : List Stmt} (h : ∀ s ∈ ss, s.Portable) (d : Nat)
    (r : Role) : (Stmt.outlines d r ss).map (·.node) = ss.flatMap Stmt.nodes := by
  induction ss with
  | nil => rfl
  | cons s ss ih =>
      rw [List.forall_mem_cons] at h
      rw [Stmt.outlines, List.map_append, h.1 d r, ih h.2, List.flatMap_cons]

/-- A statement comes first, then the expressions in it, then what is below
its children. -/
theorem Stmt.nodes_outline_of {s : Stmt} (h : ∀ c ∈ s.children, c.Portable) (d : Nat)
    (r : Role) : (s.outline d r).map (·.node)
      = .stmt s :: (s.exprs.map .expr ++ s.children.flatMap Stmt.nodes) := by
  cases s with
  | declaration t name ann init m =>
      rw [Stmt.outline, Outline.nodes_cons, Expr.nodes_outline?, children,
        List.flatMap_nil, List.append_nil]
      rfl
  | function t name params result q body =>
      have hbody : ∀ c ∈ body, c.Portable := h
      rw [Stmt.outline, Outline.nodes_cons, Stmt.nodes_outlines_of hbody]
      rfl
  | assignment t target value =>
      rw [Stmt.outline, Outline.nodes_cons, List.map_append, Expr.nodes_outline,
        Expr.nodes_outline, ← List.map_append]
      simp [exprs, roots, children]
  | block t q ss =>
      have hstmts : ∀ c ∈ ss, c.Portable := h
      rw [Stmt.outline, Outline.nodes_cons, Stmt.nodes_outlines_of hstmts]
      rfl
  | ifElse t c a b =>
      cases b with
      | none =>
          rw [Stmt.outline, Outline.nodes_cons, List.map_append, Expr.nodes_outline,
            h a List.mem_cons_self]
          simp [exprs, roots, children]
      | some b =>
          rw [Stmt.outline, Outline.nodes_cons, List.map_append, List.map_append,
            Expr.nodes_outline, h a List.mem_cons_self,
            h b (List.mem_cons_of_mem _ List.mem_cons_self)]
          simp [exprs, roots, children]
  | «while» t c b =>
      rw [Stmt.outline, Outline.nodes_cons, List.map_append, Expr.nodes_outline,
        h b List.mem_cons_self]
      simp [exprs, roots, children]
  | ret t value =>
      rw [Stmt.outline, Outline.nodes_cons, Expr.nodes_outline?, children,
        List.flatMap_nil, List.append_nil]
      rfl
  | expr t e =>
      rw [Stmt.outline, Outline.nodes_cons, Expr.nodes_outline]
      simp [exprs, roots, children]

/-- The nodes of a statement, whatever its depth and its role. -/
theorem Stmt.nodes_outline (s : Stmt) : s.Portable := by
  induction s using Stmt.childrenRec with
  | step s ih =>
      intro d r
      rw [Stmt.nodes_outline_of ih, nodes, Stmt.nodes_outline_of ih]

theorem Stmt.nodes_eq_cons (s : Stmt) :
    s.nodes = .stmt s :: (s.exprs.map .expr ++ s.children.flatMap Stmt.nodes) :=
  Stmt.nodes_outline_of (fun c _ => c.nodes_outline) 0 .stmt

-- ================================================================== nodes

namespace Node

/-- The direct parts of a node, in reading order. -/
def parts : Node → List Node
  | .expr e => e.parts.map .expr
  | .stmt s => s.roots.map .expr ++ s.children.map .stmt

/-- A node and all below it, in pre-order. -/
def nodes : Node → List Node
  | .expr e => e.nested.map .expr
  | .stmt s => s.nodes

/-- All nodes below a node: its parts and what is below them. -/
def below (n : Node) : List Node := n.parts.flatMap nodes

theorem nodes_eq_cons (n : Node) : n.nodes = n :: n.below := by
  cases n with
  | expr e =>
      rw [nodes, below, parts, List.flatMap_map, e.nested_eq_cons, List.map_cons,
        List.map_flatMap]
      rfl
  | stmt s =>
      rw [nodes, below, parts, s.nodes_eq_cons, List.flatMap_append, List.flatMap_map,
        List.flatMap_map, Stmt.exprs, List.map_flatMap]
      rfl

end Node

/-- The nodes of a program are its statements and all below them. -/
theorem Program.nodes_outline (p : Program) :
    p.outline.map (·.node) = (p.body.map .stmt).flatMap Node.nodes := by
  rw [Program.outline, Stmt.nodes_outlines_of (fun s _ => s.nodes_outline),
    List.flatMap_map]
  rfl

end TreeCheck
