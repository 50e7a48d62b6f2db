/-
Who is to blame for an error.

An expression has the type `error` for a reason that has been reported.
Either the reason is a complaint at one of its nodes, or the expression
uses a name whose declaration is tainted: the annotation of the
declaration or its initializer has been complained about, or the
initializer is to blame on something else in turn. `Blamed` and
`Tainted` say so, and follow the tables of an analysis only.

A parameter gets its type from the signature kept under the identity of
its function. If functions share identities, this may be the signature
of another one, so whose annotations count is left open: `lends s s'`
says that the parameters of `s` can have their types from `s'`.
-/
import TreeCheck.Proofs.Errors.Complaints
import TreeCheck.Proofs.Typing.FirstOrder
import TreeCheck.Proofs.Visits.Lasting

namespace TreeCheck

open Analysis

-- =========================================================== complaints

/-- The complaints about an annotation. -/
def TypeName.complaints (ann : TypeName) : List (Cause × Position) :=
  reasonUnless (Ty.ofName? ann.name).isSome (.unknownType ann.name) ann.position

/-- The complaints about the annotation of a variable or parameter. -/
def TypeName.valueComplaints (name : String) (ann : TypeName) :
    List (Cause × Position) :=
  ann.complaints
    ++ reasonUnless (ann.type != .void) (.voidVariable name) ann.position

theorem TypeName.reasons_events (node : NodeId) (ann : TypeName) :
    reasons (ann.events node) = ann.complaints := reasons_complaint _ _ _ _

theorem TypeName.reasons_valueEvents (node : NodeId) (name : String)
    (ann : TypeName) :
    reasons (ann.valueEvents node name) = ann.valueComplaints name := by
  rw [valueEvents, reasons_append, reasons_events, reasons_complaint]
  rfl

/-- An error has been reported for a reason. -/
def Analysis.Complains (a : Analysis) (r : Cause × Position) : Prop :=
  ∃ f ∈ a.findings, f.reason = r ∧ f.diagnostic.severity = .error

section

variable {config : Config} {p : Program} {a : Analysis} {r : Cause × Position}

/-- What is said in the course of a program is reported. -/
theorem Program.complains_of_reason {es : List Event}
    (h : p.analyze config = .ok a) (hr : r ∈ reasons es)
    (hes : ∀ e ∈ es, e ∈ (p.course config).events)
    (hseverity : r.1.severity = .error) : a.Complains r := by
  obtain ⟨f, hf, rfl⟩ := List.mem_map.mp hr
  obtain ⟨ev, hev, hfound⟩ := List.mem_filterMap.mp hf
  cases ev with
  | found node g =>
      obtain rfl := Option.some.inj hfound
      exact ⟨g, mem_findings h (hes _ hev), rfl, hseverity⟩
  | typed | resolved | read | bound => cases hfound

theorem Cause.severity_of_expression {c : Cause} (h : c.concern = .expression) :
    c.severity = .error := by
  cases c with
  | undefined | badOperands | badOperand | notCallable | wrongArity
    | badArgument => rfl
  | duplicate | unknownType | voidVariable | badInitializer | voidInitializer
    | notAVariable | assignToFunction | assignToImmutable | badAssignment
    | badCondition | returnOutside | badReturn | missingReturn | unusedVariable
    | unusedParameter => cases h

/-- A complaint at a node of the program is reported. -/
theorem Program.complains_of_complaint {e : Expr}
    (h : p.analyze config = .ok a) (he : e ∈ p.exprs)
    (hr : r ∈ e.complaints a) : a.Complains r := by
  have hmem : r ∈ p.exprs.flatMap (Expr.complaints a) :=
    List.mem_flatMap.mpr ⟨e, he, hr⟩
  obtain ⟨f, hf, rfl⟩ :=
    List.mem_map.mp ((perm_complaints h).mem_iff.mpr hmem)
  obtain ⟨hf, hconcern⟩ := List.mem_filter.mp hf
  exact ⟨f, hf, rfl, Cause.severity_of_expression (of_decide_eq_true hconcern)⟩

end

-- ================================================================ types

/-- Whether a type is an error, or becomes one when it is called. -/
def Ty.yieldsError : Ty → Bool
  | .error => true
  | .func _ r => r.yieldsError
  | .int | .float | .bool | .string | .void | .unknown => false
termination_by structural t => t

namespace Ty

theorem Ground.yieldsError {t : Ty} (h : t.Ground) : t.yieldsError = false := by
  cases t with
  | int | float | bool | string | void | unknown => rfl
  | func | error => exact h.elim

theorem ground_of_arithmetic? {op : BinaryOp} {l r t : Ty}
    (h : arithmetic? op l r = some t) : t.Ground := by
  cases arithmetic?_eq_some.mp h <;> trivial

/-- An operator gives an error only if an operand is one. -/
theorem error_of_binary? {op : BinaryOp} {l r t : Ty}
    (h : l.binary? op r = some t) (ht : t.yieldsError = true) :
    l = .error ∨ r = .error := by
  unfold binary? at h
  split at h
  case isTrue hside => rwa [Bool.or_eq_true, beq_iff_eq, beq_iff_eq] at hside
  case isFalse =>
    have hground : t.Ground := by
      cases hclass : op.operatorClass with
      | arithmetic =>
          rw [hclass] at h
          exact ground_of_arithmetic? h
      | logical | equality | ordering =>
          rw [hclass] at h
          simp only at h
          split at h
          · obtain rfl := Option.some.inj h
            trivial
          · cases h
    rw [hground.yieldsError] at ht
    cases ht

end Ty

-- ================================================================ blame

section

variable (p : Program) (a : Analysis) (lends : Stmt → Stmt → Prop)

mutual

/-- A declaration whose annotation or initializer has been complained about,
or one whose initializer is to blame. -/
inductive Tainted : Origin → Prop
  | annotated {t : Tag} {name : String} {ann : TypeName} {init : Option Expr}
      {m : Bool} {r : Cause × Position} (hr : r ∈ ann.valueComplaints name)
      (h : a.Complains r) :
      Tainted (.stmt (.declaration t name (some ann) init m))
  | void {t : Tag} {name : String} {init : Expr} {m : Bool}
      (hvoid : a.types[init.id]? = some .void)
      (h : a.Complains (.voidInitializer name, init.position)) :
      Tainted (.stmt (.declaration t name none (some init) m))
  | initializer {t : Tag} {name : String} {init : Expr} {m : Bool}
      (h : Blamed init) : Tainted (.stmt (.declaration t name none (some init) m))
  | result {t : Tag} {name : String} {params : List Param} {ann : TypeName}
      {q : Position} {body : List Stmt} {r : Cause × Position}
      (hr : r ∈ ann.complaints) (h : a.Complains r) :
      Tainted (.stmt (.function t name params (some ann) q body))
  | parameter {s : Stmt} {i : Nat} {t : Tag} {name : String}
      {params : List Param} {result : Option TypeName} {q : Position}
      {body : List Stmt} {param : Param} {ann : TypeName}
      {r : Cause × Position}
      (hs : .function t name params result q body ∈ p.stmts)
      (hlends : lends s (.function t name params result q body))
      (hparam : params[i]? = some param) (hann : param.typeName = some ann)
      (hr : r ∈ ann.valueComplaints param.name) (h : a.Complains r) :
      Tainted (.param s i)

/-- An expression at a node of which something has been complained about, or
one with a name that is resolved to a tainted declaration. -/
inductive Blamed : Expr → Prop
  | here {e inner : Expr} {r : Cause × Position} (hinner : inner ∈ e.nested)
      (hr : r ∈ inner.complaints a) (h : a.Complains r) : Blamed e
  | through {e : Expr} {t : Tag} {x : String} {k : SymbolId} {o : Origin}
      (hname : .identifier t x ∈ e.nested) (hk : a.resolutions[t.id]? = some k)
      (ho : p.origins[k]? = some o) (h : Tainted o) : Blamed e

end

end

-- ========================================================== expressions

section

variable {config : Config} {p : Program} {a : Analysis}
  {lends : Stmt → Stmt → Prop}

theorem Blamed.of_part {e part : Expr} (hpart : part ∈ e.parts)
    (h : Blamed p a lends part) : Blamed p a lends e := by
  have hnested := Expr.nested_subset_of_mem_parts hpart
  cases h with
  | here hinner hr h => exact .here (hnested hinner) hr h
  | through hname hk ho h => exact .through (hnested hname) hk ho h

theorem Program.blamed_of_complaints {ρ : Lookup} {e : Expr}
    (h : p.analyze config = .ok a) (hn : (ρ, e) ∈ p.nodes config)
    (hcomplaints : e.complaints a ≠ []) : Blamed p a lends e := by
  obtain ⟨r, hr⟩ := List.exists_mem_of_ne_nil _ hcomplaints
  exact .here e.mem_nested_self hr
    (complains_of_complaint h (mem_exprs_of_node hn) hr)

/-- A symbol whose type leads to an error comes from a tainted
declaration. -/
def Declared.Answers (p : Program) (a : Analysis) (lends : Stmt → Stmt → Prop)
    (d : Declared) : Prop :=
  d.type.yieldsError = true →
    ∃ o, p.origins[d.id]? = some o ∧ Tainted p a lends o

/-- An expression whose type leads to an error is to blame, if the names in
force answer for theirs. -/
theorem Expr.blamed_of_yieldsError {ρ : Lookup} (h : p.analyze config = .ok a)
    (hρ : Finds (Declared.Answers p a lends) ρ) : (e : Expr) →
    (ρ, e) ∈ p.nodes config → (e.typeIn ρ).yieldsError = true →
    Blamed p a lends e
  | .literal t v, _, hyields => by
      cases v <;> cases hyields
  | .identifier t x, hn, hyields => by
      have hresolution := Program.resolutions_of_node h hn
      rw [typeIn] at hyields
      cases hx : ρ x with
      | none =>
          refine Program.blamed_of_complaints h hn ?_
          rw [complaints, hresolution, hx]
          exact List.cons_ne_nil _ _
      | some d =>
          rw [hx] at hyields hresolution
          obtain ⟨o, ho, htainted⟩ := hρ x d hx hyields
          exact .through List.mem_cons_self hresolution ho htainted
  | .binary t op l r, hn, hyields => by
      have hl : l ∈ (Expr.binary t op l r).parts := List.mem_cons_self
      have hr : r ∈ (Expr.binary t op l r).parts :=
        List.mem_cons_of_mem _ List.mem_cons_self
      rw [typeIn] at hyields
      cases hop : (l.typeIn ρ).binary? op (r.typeIn ρ) with
      | none =>
          refine Program.blamed_of_complaints h hn ?_
          rw [complaints, Program.type_of_part h hn hl,
            Program.type_of_part h hn hr, hop]
          exact List.cons_ne_nil _ _
      | some c =>
          rw [hop, Option.getD_some] at hyields
          rcases Ty.error_of_binary? hop hyields with herror | herror
          · have hnode := Program.node_of_part hn hl
            refine .of_part hl (Expr.blamed_of_yieldsError h hρ l hnode ?_)
            rw [herror, Ty.yieldsError]
          · have hnode := Program.node_of_part hn hr
            refine .of_part hr (Expr.blamed_of_yieldsError h hρ r hnode ?_)
            rw [herror, Ty.yieldsError]
  | .unary t op e, hn, hyields => by
      have he : e ∈ (Expr.unary t op e).parts := List.mem_cons_self
      rw [typeIn] at hyields
      cases hop : (e.typeIn ρ).unary? op with
      | none =>
          refine Program.blamed_of_complaints h hn ?_
          rw [complaints, Program.type_of_part h hn he, hop]
          exact List.cons_ne_nil _ _
      | some c =>
          -- The operand keeps its type.
          have hc : e.typeIn ρ = c := by
            unfold Ty.unary? at hop
            split at hop
            · exact Option.some.inj hop
            · cases hop
          rw [hop, Option.getD_some, ← hc] at hyields
          have hnode := Program.node_of_part hn he
          exact .of_part he (Expr.blamed_of_yieldsError h hρ e hnode hyields)
  | .call t f args, hn, hyields => by
      have hf : f ∈ (Expr.call t f args).parts := List.mem_cons_self
      have hnode := Program.node_of_part hn hf
      rw [typeIn] at hyields
      cases hcallee : f.typeIn ρ with
      | func ps r =>
          rw [hcallee, Ty.result] at hyields
          refine .of_part hf (Expr.blamed_of_yieldsError h hρ f hnode ?_)
          rwa [hcallee, Ty.yieldsError]
      | error =>
          refine .of_part hf (Expr.blamed_of_yieldsError h hρ f hnode ?_)
          rw [hcallee, Ty.yieldsError]
      | unknown =>
          rw [hcallee] at hyields
          cases hyields
      | int | float | bool | string | void =>
          refine Program.blamed_of_complaints h hn ?_
          rw [complaints, Program.type_of_part h hn hf, hcallee]
          exact List.cons_ne_nil _ _

end

end TreeCheck
