/-
Exactly when an analysis fails, and with what.

The walk over the outline settles it but for one gap: a bare target of
an assignment is never visited, yet it may be the deepest node. Nothing
hides behind that, since the value assigned is as deep and is visited
(`Expr.depthsVisited_assignment`), so for the question whether some node
is too deep the visited nodes are enough. For the question which one is
reported they are all there is.
-/
import TreeCheck.Proofs.Run.Walk

namespace TreeCheck

open Analysis Outline

-- =========================================================== programs

theorem Program.exprIds_outline (p : Program) :
    p.outline.exprIds = p.exprs.map Expr.id := by
  rw [Outline.exprIds, Program.exprs, List.map_filterMap]

/-- A completed analysis is a completed walk over the whole outline. -/
theorem Program.covers_of_analyze {config : Config} {p : Program} {a : Analysis}
    (h : p.analyze config = .ok a) :
    ∃ s, Completes (checkProgram config p) {} () s ∧ a = s.analysis
      ∧ Covers config.maxDepth p.outline.visited p.outline.exprIds {} s := by
  have hends := ends_checkProgram config p
  unfold Program.analyze at h
  match hr : (checkProgram config p).run {} with
  | .error e =>
      rw [hr] at h
      cases h
  | .ok ((), s) =>
      rw [hr] at h hends
      simp only at h
      split at h
      · injection h with h
        exact ⟨s, hr, h.symm, hends⟩
      · cases h

/-- A failed analysis is a failed walk: once the walk has completed, no
scope is left open. -/
theorem Program.faults_of_analyze {config : Config} {p : Program}
    {e : AnalysisError} (h : p.analyze config = .error e) :
    Faults config.maxDepth p.outline.visited p.outline.exprIds {} e := by
  have hends := ends_checkProgram config p
  unfold Program.analyze at h
  match hr : (checkProgram config p).run {} with
  | .error e' =>
      rw [hr] at h hends
      injection h with h
      rw [← h]
      exact hends
  | .ok ((), s) =>
      rw [hr] at h hends
      have hclosed : s.table.scopes = [] :=
        List.map_eq_nil_iff.mp (Covers.serials hends)
      simp only [SymbolTable.isEmpty, hclosed, List.isEmpty_nil, if_true] at h
      cases h

-- ======================================================= bare targets

mutual

/-- All of an expression that is no bare target is visited. -/
theorem Expr.visited_outline (d : Nat) (r : Role) : (e : Expr) →
    (r = .target → e.name? = none) → (e.outline d r).visited = e.outline d r
  | .literal t v, h => by
      rw [Expr.outline, visited_expr h]
      rfl
  | .identifier t x, h => by
      rw [Expr.outline, visited_expr h]
      rfl
  | .binary t op a b, h => by
      rw [Expr.outline, visited_expr h, visited_append,
        Expr.visited_outline _ .left a nofun,
        Expr.visited_outline _ .right b nofun]
  | .unary t op a, h => by
      rw [Expr.outline, visited_expr h, Expr.visited_outline _ .operand a nofun]
  | .call t f args, h => by
      rw [Expr.outline, visited_expr h, visited_append,
        Expr.visited_outline _ .callee f nofun,
        Expr.visited_outlines _ .arg args nofun]

theorem Expr.visited_outlines (d : Nat) (r : Role) : (es : List Expr) →
    r ≠ .target → (Expr.outlines d r es).visited = Expr.outlines d r es
  | [], _ => rfl
  | e :: es, h => by
      rw [Expr.outlines, visited_append, Expr.visited_outlines d r es h,
        Expr.visited_outline d r e fun hr => absurd hr h]

end

/-- The outline of an expression begins with the expression itself. -/
theorem Expr.outline_eq_cons (d : Nat) (r : Role) (e : Expr) :
    ∃ o, e.outline d r = ⟨d, r, .expr e⟩ :: o := by
  cases e <;> exact ⟨_, by rw [Expr.outline]⟩

/-- Whether every depth of an outline is that of a visited node. -/
def Outline.DepthsVisited (o : Outline) : Prop :=
  ∀ n ∈ o, ∃ v ∈ o.visited, v.depth = n.depth

theorem Outline.depthsVisited_of_eq {o : Outline} (h : o.visited = o) :
    o.DepthsVisited :=
  fun n hn => ⟨n, h.symm ▸ hn, rfl⟩

theorem Outline.DepthsVisited.append {o o' : Outline} (h : o.DepthsVisited)
    (h' : o'.DepthsVisited) : DepthsVisited (o ++ o') := by
  intro n hn
  rw [visited_append]
  rcases List.mem_append.mp hn with hn | hn
  · obtain ⟨v, hv, hd⟩ := h n hn
    exact ⟨v, List.mem_append_left _ hv, hd⟩
  · obtain ⟨v, hv, hd⟩ := h' n hn
    exact ⟨v, List.mem_append_right _ hv, hd⟩

theorem Outline.DepthsVisited.stmt {o : Outline} {d : Nat} {r : Role} {s : Stmt}
    (h : o.DepthsVisited) : DepthsVisited (⟨d, r, .stmt s⟩ :: o) :=
  DepthsVisited.append (o := [⟨d, r, .stmt s⟩])
    (depthsVisited_of_eq (visited_stmt d r s [])) h

theorem Expr.depthsVisited_outline (d : Nat) (r : Role) (e : Expr)
    (h : r ≠ .target) : (e.outline d r).DepthsVisited :=
  depthsVisited_of_eq (e.visited_outline d r fun hr => absurd hr h)

theorem Expr.depthsVisited_outline? (d : Nat) (r : Role) (e : Option Expr)
    (h : r ≠ .target) : (Expr.outline? d r e).DepthsVisited := by
  cases e with
  | none => exact fun n hn => nomatch hn
  | some e => exact e.depthsVisited_outline d r h

/-- What a bare target hides, the value assigned to it shows. -/
theorem Expr.depthsVisited_assignment {d : Nat} (target value : Expr) :
    Outline.DepthsVisited
      (target.outline d .target ++ value.outline d .value) := by
  have hvalue : (value.outline d .value).DepthsVisited :=
    value.depthsVisited_outline d .value (by decide)
  cases htarget : target.name? with
  | none =>
      refine DepthsVisited.append (depthsVisited_of_eq ?_) hvalue
      exact target.visited_outline d .target fun _ => htarget
  | some name =>
      obtain ⟨t, rfl⟩ := Expr.name?_eq_some.mp htarget
      intro n hn
      rcases List.mem_cons.mp hn with rfl | hn
      · obtain ⟨o, ho⟩ := value.outline_eq_cons d .value
        refine ⟨⟨d, .value, .expr value⟩, ?_, rfl⟩
        rw [visited_append,
          value.visited_outline d .value (fun h => absurd h (by decide)), ho]
        exact List.mem_append_right _ List.mem_cons_self
      · obtain ⟨v, hv, hd⟩ := hvalue n hn
        refine ⟨v, ?_, hd⟩
        rw [visited_append]
        exact List.mem_append_right _ hv

mutual

theorem Stmt.depthsVisited_outline (d : Nat) (r : Role) : (s : Stmt) →
    (s.outline d r).DepthsVisited
  | .declaration t name ann init mutable => by
      rw [Stmt.outline]
      exact (Expr.depthsVisited_outline? _ .init init nofun).stmt
  | .function t name params result p body => by
      rw [Stmt.outline]
      exact (Stmt.depthsVisited_outlines _ _ body).stmt
  | .assignment t target value => by
      rw [Stmt.outline]
      exact (Expr.depthsVisited_assignment target value).stmt
  | .block t p ss => by
      rw [Stmt.outline]
      exact (Stmt.depthsVisited_outlines _ _ ss).stmt
  | .ifElse t c a none => by
      rw [Stmt.outline]
      exact ((c.depthsVisited_outline _ .condition nofun).append
        (Stmt.depthsVisited_outline _ _ a)).stmt
  | .ifElse t c a (some b) => by
      rw [Stmt.outline]
      exact (((c.depthsVisited_outline _ .condition nofun).append
        (Stmt.depthsVisited_outline _ _ a)).append
        (Stmt.depthsVisited_outline _ _ b)).stmt
  | .while t c b => by
      rw [Stmt.outline]
      exact ((c.depthsVisited_outline _ .condition nofun).append
        (Stmt.depthsVisited_outline _ _ b)).stmt
  | .ret t value => by
      rw [Stmt.outline]
      exact (Expr.depthsVisited_outline? _ .value value nofun).stmt
  | .expr t e => by
      rw [Stmt.outline]
      exact (e.depthsVisited_outline _ .expr nofun).stmt

theorem Stmt.depthsVisited_outlines (d : Nat) (r : Role) : (ss : List Stmt) →
    (Stmt.outlines d r ss).DepthsVisited
  | [] => fun n hn => nomatch hn
  | s :: ss => by
      rw [Stmt.outlines]
      exact (Stmt.depthsVisited_outline d r s).append
        (Stmt.depthsVisited_outlines d r ss)

end

-- ============================================================ failure

/-- A completed analysis met no node that is too deep and no expression
identity twice. -/
theorem Program.shallow_of_analyze {config : Config} {p : Program} {a : Analysis}
    (h : p.analyze config = .ok a) :
    (∀ n ∈ p.outline, n.depth < config.maxDepth)
      ∧ (p.exprs.map Expr.id).Nodup := by
  obtain ⟨s, -, -, hc⟩ := covers_of_analyze h
  refine ⟨fun n hn => ?_, p.exprIds_outline ▸ hc.nodup⟩
  obtain ⟨v, hv, hd⟩ := Stmt.depthsVisited_outlines 0 .body p.body n hn
  exact hd ▸ hc.shallow v hv

/-- A completed analysis has a type for every expression, and for nothing
else. -/
theorem Program.mem_types_of_analyze {config : Config} {p : Program}
    {a : Analysis} (h : p.analyze config = .ok a) (id : NodeId) :
    id ∈ a.types ↔ id ∈ p.exprs.map Expr.id := by
  obtain ⟨s, -, rfl, hc⟩ := covers_of_analyze h
  have htypes := hc.types id
  rw [p.exprIds_outline] at htypes
  exact htypes.trans (or_iff_right Std.TreeMap.not_mem_emptyc)

/-- The three ways in which an analysis can fail, on the whole outline. -/
theorem Program.causes_of_analyze {config : Config} {p : Program}
    {e : AnalysisError} (h : p.analyze config = .error e) :
    (∃ n, p.outline.visited.find? (fun n => config.maxDepth ≤ n.depth) = some n
        ∧ e = .tooDeep config.maxDepth n.node.position)
      ∨ ∃ id, e = .repeatedNode id ∧ 2 ≤ (p.exprs.map Expr.id).count id := by
  have hf := faults_of_analyze h
  rw [p.exprIds_outline] at hf
  cases hf with
  | deep first => exact .inl ⟨_, first, rfl⟩
  | seen mem old => simp at old
  | twice count => exact .inr ⟨_, rfl, count⟩

/-- An analysis whose results are known has completed. -/
theorem Program.analyze_ok_of_results {α : Type} {config : Config} {p : Program}
    {f : Analysis → α} {v : α} (h : (p.analyze config).toOption.map f = some v) :
    ∃ a, p.analyze config = .ok a ∧ f a = v := by
  cases hrun : p.analyze config with
  | ok a =>
      rw [hrun] at h
      exact ⟨a, rfl, Option.some.inj h⟩
  | error e =>
      rw [hrun] at h
      cases h

/-- An analysis completes if nothing is too deep and no expression identity
comes twice. -/
theorem Program.analyze_ok {config : Config} {p : Program}
    (hshallow : ∀ n ∈ p.outline, n.depth < config.maxDepth)
    (hnodup : (p.exprs.map Expr.id).Nodup) : ∃ a, p.analyze config = .ok a := by
  cases hr : p.analyze config with
  | ok a => exact ⟨a, rfl⟩
  | error e =>
      rcases causes_of_analyze hr with ⟨n, hn, -⟩ | ⟨id, -, hid⟩
      · have hdeep := List.find?_some hn
        simp only [decide_eq_true_eq] at hdeep
        have := hshallow n (mem_of_mem_visited (List.mem_of_find?_eq_some hn))
        omega
      · have := List.nodup_iff_count.mp hnodup id
        omega

end TreeCheck
