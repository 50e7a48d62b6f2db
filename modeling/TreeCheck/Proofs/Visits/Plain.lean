/-
What is said of a whole scope.

Two kinds of findings are about a scope and not about what stands at one
place in it: that it has a name already, and that a name of it was never
read. The first is reported where names are bound, the second where the
scope is left. Everything else that an analysis does is plain: it
reports neither.
-/
import TreeCheck.Proofs.Visits.Remarks

namespace TreeCheck

open Analysis

/-- Whether a cause is about a whole scope. -/
def Cause.ofScope : Cause → Bool
  | .duplicate _ | .unusedVariable _ | .unusedParameter _ => true
  | _ => false

/-- Events that report nothing about a whole scope. -/
def Plain (es : List Event) : Prop :=
  ∀ node f, .found node f ∈ es → f.cause.ofScope = false

section

variable {es fs : List Event} {ρ : Lookup}

theorem plain_nil : Plain [] := nofun

theorem plain_append : Plain (es ++ fs) ↔ Plain es ∧ Plain fs := by
  simp only [Plain, List.mem_append, or_imp, forall_and]

theorem plain_found {node : NodeId} {f : Finding} (h : f.cause.ofScope = false) :
    Plain [.found node f] := by
  intro node' g hg
  injection List.mem_singleton.mp hg with _ hg
  rwa [hg]

theorem plain_complaint {ok : Bool} {node : NodeId} {c : Cause} {p : Position}
    (h : c.ofScope = false) : Plain (complaint ok node c p) := by
  cases ok with
  | true => exact plain_nil
  | false => exact plain_found h

/-- What is about a whole scope counts as being about a binding. -/
theorem Cause.concern_of_ofScope {c : Cause} (h : c.ofScope = true) :
    c.concern = .binding := by
  cases c with
  | duplicate | unusedVariable | unusedParameter => rfl
  | _ => cases h

theorem Concerns.plain {of : Concern → Prop} (h : Concerns of es)
    (hof : ¬ of .binding) : Plain es := by
  intro node f hf
  rw [← Bool.not_eq_true]
  intro hscope
  obtain ⟨_, _, heq, hconcern⟩ := h _ hf
  injection heq with _ heq
  rw [← heq, Cause.concern_of_ofScope hscope] at hconcern
  exact hof hconcern

theorem plain_statement (h : Concerns (· = .statement) es) : Plain es :=
  h.plain nofun

-- ========================================================= annotations

theorem plain_valueEvents (node : NodeId) (name : String) (a : TypeName) :
    Plain (a.valueEvents node name) :=
  plain_append.mpr ⟨plain_complaint rfl, plain_complaint rfl⟩

theorem plain_signatureEvents (node : NodeId) (params : List Param)
    (result : Option TypeName) : Plain (signatureEvents node params result) := by
  refine plain_append.mpr ⟨fun node' f hf => ?_, ?_⟩
  · obtain ⟨p, -, hp⟩ := List.mem_flatMap.mp hf
    unfold Param.events at hp
    cases hann : p.typeName with
    | none =>
        rw [hann] at hp
        cases hp
    | some a =>
        rw [hann] at hp
        exact plain_valueEvents node p.name a node' f hp
  · cases result with
    | none => exact plain_nil
    | some a => exact plain_complaint rfl

-- ========================================================= expressions

theorem Expr.plain_events (e : Expr) : Plain (e.events ρ) := by
  intro node f hf
  rw [← Bool.not_eq_true]
  intro hscope
  have hshown : .found node f ∈ (e.events ρ).filter Event.shows :=
    List.mem_filter.mpr ⟨hf, rfl⟩
  obtain ⟨inner, -, hremark⟩ :=
    List.mem_flatMap.mp ((e.perm_events ρ).mem_iff.mp hshown)
  rcases List.mem_append.mp hremark with hverdict | htyped
  · have hconcern := concern_of_verdict (f := f)
      (List.mem_filterMap.mpr ⟨_, hverdict, rfl⟩)
    rw [Cause.concern_of_ofScope hscope] at hconcern
    cases hconcern
  · cases List.mem_singleton.mp htyped

theorem Expr.plain_events? (e : Option Expr) : Plain (Expr.events? ρ e) := by
  cases e with
  | none => exact plain_nil
  | some e => exact e.plain_events

-- ====================================================== own statements

theorem plain_declarationEvents (node : NodeId) (name : String)
    (ann : Option TypeName) (init : Option Expr) :
    Plain (declarationEvents ρ node name ann init) := by
  refine plain_append.mpr ⟨plain_append.mpr ⟨?_, Expr.plain_events? init⟩,
    plain_statement (concerns_initializerEvents _ _ _ _)⟩
  cases ann with
  | none => exact plain_nil
  | some a => exact plain_valueEvents node name a

theorem plain_assignmentEvents (node : NodeId) (target value : Expr) :
    Plain (assignmentEvents ρ node target value) := by
  cases target with
  | identifier t x =>
      simp only [assignmentEvents]
      cases ρ x with
      | none =>
          refine plain_append.mpr ⟨?_, value.plain_events⟩
          simp [Plain, Cause.ofScope]
      | some d =>
          refine plain_append.mpr ⟨plain_append.mpr ⟨?_, value.plain_events⟩,
            plain_statement (concerns_storeEvents _ _ _ _ _ _)⟩
          simp [Plain]
  | literal | binary | unary | call =>
      exact plain_append.mpr
        ⟨plain_append.mpr ⟨Expr.plain_events _, value.plain_events⟩, plain_found rfl⟩

theorem plain_conditionEvents (node : NodeId) (construct : Construct) (c : Expr) :
    Plain (conditionEvents ρ node construct c) :=
  plain_append.mpr ⟨c.plain_events, plain_complaint rfl⟩

theorem plain_returningEvents (t : Tag) (expected : Option Ty)
    (value : Option Expr) : Plain (returningEvents ρ t expected value) :=
  plain_append.mpr ⟨Expr.plain_events? value,
    plain_statement (concerns_returnEvents _ _ _ _)⟩

end

end TreeCheck
