/-
Expressions, node by node.

What an analysis says at a node of an expression depends on the types of
the parts of the node and on the lookup of names, and on nothing else.
So the account of an expression is, up to order, what is remarked at
each of its nodes.

Two kinds of events are left out, since no result shows them by
themselves: that a symbol is read, and that a name is bound.
-/
import TreeCheck.Proofs.Account.Reports
import TreeCheck.Syntax.Outline

namespace TreeCheck

open Analysis

-- =============================================================== nodes

mutual

/-- The nodes of an expression, in pre-order. -/
def Expr.nested : Expr → List Expr
  | .literal t v => [.literal t v]
  | .identifier t x => [.identifier t x]
  | .binary t op l r => .binary t op l r :: (l.nested ++ r.nested)
  | .unary t op e => .unary t op e :: e.nested
  | .call t f args => .call t f args :: (f.nested ++ Expr.nestedAll args)
termination_by structural e => e

/-- The nodes of expressions from the front. -/
def Expr.nestedAll : List Expr → List Expr
  | [] => []
  | e :: es => e.nested ++ Expr.nestedAll es
termination_by structural es => es

end

theorem Expr.mem_nested_self (e : Expr) : e ∈ e.nested := by
  cases e <;> exact List.mem_cons_self

theorem Expr.nestedAll_eq_flatMap (es : List Expr) :
    Expr.nestedAll es = es.flatMap Expr.nested := by
  induction es with
  | nil => rfl
  | cons e es ih => rw [Expr.nestedAll, ih, List.flatMap_cons]

/-- The direct parts of an expression: the operands of an operator, the
callee and the arguments of a call. -/
def Expr.parts : Expr → List Expr
  | .literal _ _ | .identifier _ _ => []
  | .binary _ _ l r => [l, r]
  | .unary _ _ e => [e]
  | .call _ f args => f :: args

/-- The nodes of an expression are itself and the nodes of its parts. -/
theorem Expr.nested_eq_cons (e : Expr) :
    e.nested = e :: e.parts.flatMap Expr.nested := by
  cases e with
  | literal | identifier => rfl
  | binary t op l r => simp [Expr.nested, Expr.parts]
  | unary t op e => simp [Expr.nested, Expr.parts]
  | call t f args =>
      rw [Expr.nested, Expr.parts, List.flatMap_cons, Expr.nestedAll_eq_flatMap]

theorem Expr.nested_subset_of_mem_parts {e part : Expr} (h : part ∈ e.parts) :
    part.nested ⊆ e.nested := by
  intro inner hinner
  rw [e.nested_eq_cons]
  exact List.mem_cons_of_mem _ (List.mem_flatMap.mpr ⟨part, h, hinner⟩)

theorem Expr.mem_nested_of_mem_parts {e part : Expr} (h : part ∈ e.parts) :
    part ∈ e.nested :=
  Expr.nested_subset_of_mem_parts h part.mem_nested_self

mutual

/-- What a node of an expression contains, the expression contains. -/
theorem Expr.nested_subset : (e : Expr) → ∀ {inner : Expr}, inner ∈ e.nested →
    inner.nested ⊆ e.nested
  | .literal t v, inner, h => by
      rw [List.mem_singleton.mp h]
      exact List.Subset.refl _
  | .identifier t x, inner, h => by
      rw [List.mem_singleton.mp h]
      exact List.Subset.refl _
  | .binary t op l r, inner, h => by
      rcases List.mem_cons.mp h with rfl | h
      · exact List.Subset.refl _
      · rcases List.mem_append.mp h with h | h
        · exact List.Subset.trans (Expr.nested_subset l h)
            (Expr.nested_subset_of_mem_parts (by simp [Expr.parts]))
        · exact List.Subset.trans (Expr.nested_subset r h)
            (Expr.nested_subset_of_mem_parts (by simp [Expr.parts]))
  | .unary t op e, inner, h => by
      rcases List.mem_cons.mp h with rfl | h
      · exact List.Subset.refl _
      · exact List.Subset.trans (Expr.nested_subset e h)
          (Expr.nested_subset_of_mem_parts (by simp [Expr.parts]))
  | .call t f args, inner, h => by
      rcases List.mem_cons.mp h with rfl | h
      · exact List.Subset.refl _
      · rcases List.mem_append.mp h with h | h
        · exact List.Subset.trans (Expr.nested_subset f h)
            (Expr.nested_subset_of_mem_parts (by simp [Expr.parts]))
        · refine List.Subset.trans (Expr.nestedAll_subset args h) fun e he => ?_
          rw [Expr.nested]
          exact List.mem_cons_of_mem _ (List.mem_append_right _ he)

theorem Expr.nestedAll_subset : (es : List Expr) → ∀ {inner : Expr},
    inner ∈ Expr.nestedAll es → inner.nested ⊆ Expr.nestedAll es
  | [], _, h => (List.not_mem_nil h).elim
  | e :: es, inner, h => by
      rw [Expr.nestedAll] at h ⊢
      rcases List.mem_append.mp h with h | h
      · exact List.subset_append_of_subset_left _ (Expr.nested_subset e h)
      · exact List.subset_append_of_subset_right _ (Expr.nestedAll_subset es h)

end

theorem Outline.exprs_cons (d : Nat) (r : Role) (e : Expr) (o : Outline) :
    List.filterMap (·.node.expr?) (⟨d, r, .expr e⟩ :: o)
      = e :: o.filterMap (·.node.expr?) := rfl

mutual

/-- The nodes of an expression are those of its outline. -/
theorem Expr.exprs_outline (d : Nat) (r : Role) : (e : Expr) →
    (e.outline d r).filterMap (·.node.expr?) = e.nested
  | .literal t v => rfl
  | .identifier t x => rfl
  | .binary t op a b => by
      rw [Expr.outline, Outline.exprs_cons, List.filterMap_append,
        Expr.exprs_outline _ _ a, Expr.exprs_outline _ _ b, Expr.nested]
  | .unary t op a => by
      rw [Expr.outline, Outline.exprs_cons, Expr.exprs_outline _ _ a,
        Expr.nested]
  | .call t f args => by
      rw [Expr.outline, Outline.exprs_cons, List.filterMap_append,
        Expr.exprs_outline _ _ f, Expr.exprs_outlines _ _ args, Expr.nested]

theorem Expr.exprs_outlines (d : Nat) (r : Role) : (es : List Expr) →
    (Expr.outlines d r es).filterMap (·.node.expr?) = Expr.nestedAll es
  | [] => rfl
  | e :: es => by
      rw [Expr.outlines, List.filterMap_append, Expr.exprs_outline _ _ e,
        Expr.exprs_outlines _ _ es, Expr.nestedAll]

end

-- ============================================================== remarks

/-- Whether an event shows in the result of an analysis by itself. -/
def Event.shows : Event → Bool
  | .typed _ _ | .resolved _ _ | .found _ _ => true
  | .read _ | .bound _ => false

theorem Reports.shows {es : List Event} (h : Reports es) :
    es.filter Event.shows = es := by
  refine List.filter_eq_self.mpr fun e he => ?_
  obtain ⟨node, f, rfl⟩ := h e he
  rfl

namespace Expr

variable (ρ : Lookup)

/-- What is found at a node about the node itself. -/
def verdict : Expr → List Event
  | .literal _ _ => []
  | .identifier t x =>
    match ρ x with
    | some d => [.resolved t.id d]
    | none => [.found t.id ⟨.undefined x, t.position, none⟩]
  | .binary t op l r =>
    complaint ((l.typeIn ρ).binary? op (r.typeIn ρ)).isSome t.id
      (.badOperands op (l.typeIn ρ) (r.typeIn ρ)) t.position
  | .unary t op e =>
    complaint ((e.typeIn ρ).unary? op).isSome t.id
      (.badOperand op (e.typeIn ρ)) t.position
  | .call t f args => callEvents ρ t f args (f.typeIn ρ)

/-- What is remarked at a node: what is found about it, and its type. -/
def remarks (e : Expr) : List Event := e.verdict ρ ++ [.typed e.id (e.typeIn ρ)]

theorem shows_nameEvents (t : Tag) (x : String) :
    (nameEvents ρ t x).filter Event.shows = verdict ρ (.identifier t x) := by
  unfold nameEvents
  cases hx : ρ x <;> simp only [verdict, hx] <;> rfl

/-- What is remarked at a node comes behind what is remarked in it. -/
theorem perm_node {es rest : List Event} {parts : List Expr} {e : Expr}
    (hparts : (es.filter Event.shows).Perm (parts.flatMap (remarks ρ)))
    (hrest : rest.filter Event.shows = e.remarks ρ) :
    ((es ++ rest).filter Event.shows).Perm ((e :: parts).flatMap (remarks ρ)) := by
  rw [List.filter_append, hrest, List.flatMap_cons]
  exact (hparts.append_right _).trans List.perm_append_comm

mutual

/-- The account of an expression is what is remarked at its nodes, but
for the order. -/
theorem perm_events : (e : Expr) →
    ((e.events ρ).filter Event.shows).Perm (e.nested.flatMap (remarks ρ))
  | .literal t v => .refl _
  | .identifier t x => by
      rw [events, List.filter_append, shows_nameEvents, nested,
        List.flatMap_singleton]
      exact .refl _
  | .binary t op l r => by
      rw [events, List.append_assoc, nested]
      refine perm_node ρ ?_ ?_
      · rw [List.filter_append, List.flatMap_append]
        exact (perm_events l).append (perm_events r)
      · rw [List.filter_append, (reports_complaint _ _ _ _).shows]
        rfl
  | .unary t op e => by
      rw [events, List.append_assoc, nested]
      refine perm_node ρ (perm_events e) ?_
      rw [List.filter_append, (reports_complaint _ _ _ _).shows]
      rfl
  | .call t f args => by
      rw [events, List.append_assoc, nested]
      refine perm_node ρ ?_ ?_
      · rw [List.filter_append, List.flatMap_append]
        exact (perm_events f).append (perm_eventsAll args)
      · rw [List.filter_append, (reports_callEvents _ _ _ _).shows]
        rfl

theorem perm_eventsAll : (es : List Expr) →
    ((eventsAll ρ es).filter Event.shows).Perm
      ((nestedAll es).flatMap (remarks ρ))
  | [] => .refl _
  | e :: es => by
      rw [eventsAll, List.filter_append, nestedAll, List.flatMap_append]
      exact (perm_events e).append (perm_eventsAll es)

end

theorem perm_events? (e : Option Expr) :
    ((events? ρ e).filter Event.shows).Perm
      ((e.toList.flatMap nested).flatMap (remarks ρ)) := by
  cases e with
  | none => exact .refl _
  | some e =>
      rw [Option.toList_some, List.flatMap_singleton]
      exact e.perm_events ρ

/-- A node records one type, its own. -/
theorem typed_remarks (e : Expr) :
    (e.remarks ρ).filterMap Event.typed? = [(e.id, e.typeIn ρ)] := by
  have hverdict : (e.verdict ρ).filterMap Event.typed? = [] := by
    cases e with
    | literal => rfl
    | identifier t x =>
        cases hx : ρ x <;> simp [verdict, hx]
    | binary | unary => exact (reports_complaint _ _ _ _).typed
    | call => exact (reports_callEvents _ _ _ _).typed
  rw [remarks, List.filterMap_append, hverdict]
  rfl

/-- A node resolves nothing, or itself. -/
theorem resolved_remarks (e : Expr) :
    (e.remarks ρ).filterMap Event.resolved?
      = ((e.name?.bind ρ).map fun d => (e.id, d)).toList := by
  rw [remarks, List.filterMap_append]
  show (e.verdict ρ).filterMap Event.resolved? ++ [] = _
  rw [List.append_nil]
  cases e with
  | literal => rfl
  | identifier t x =>
      show (verdict ρ (.identifier t x)).filterMap _
        = ((ρ x).map fun d => (t.id, d)).toList
      cases hx : ρ x <;> simp [verdict, hx]
  | binary | unary => exact (reports_complaint _ _ _ _).resolved
  | call => exact (reports_callEvents _ _ _ _).resolved

end Expr

end TreeCheck
