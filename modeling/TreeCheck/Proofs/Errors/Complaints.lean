/-
The complaints about expressions, read off the tables of an analysis.

What is found at a node of an expression depends on the types of its
parts and on whether a name is bound. Both stand in the tables of a
completed analysis, so the tables alone tell what is complained about at
each node, and together these complaints are all findings about
expressions (`Program.perm_complaints`). Nothing is asked of the
identities of statements: the findings are counted, not looked up.
-/
import TreeCheck.Proofs.Run.Diagnostics
import TreeCheck.Proofs.Visits.Recorded

namespace TreeCheck

open Analysis

/-- Why and where something is found, without the place that explains it. -/
def Finding.reason (f : Finding) : Cause × Position := (f.cause, f.position)

/-- The reasons of the findings among events. -/
def reasons (es : List Event) : List (Cause × Position) :=
  (es.filterMap Event.finding?).map Finding.reason

/-- A reason unless a condition holds. -/
def reasonUnless (ok : Bool) (c : Cause) (p : Position) : List (Cause × Position) :=
  if ok then [] else [(c, p)]

theorem reasons_append (es fs : List Event) :
    reasons (es ++ fs) = reasons es ++ reasons fs := by
  rw [reasons, List.filterMap_append, List.map_append]
  rfl

@[simp] theorem reasons_complaint (ok : Bool) (node : NodeId) (c : Cause)
    (p : Position) : reasons (complaint ok node c p) = reasonUnless ok c p := by
  cases ok <;> rfl

@[simp] theorem reasonUnless_eq_nil {ok : Bool} {c : Cause} {p : Position} :
    reasonUnless ok c p = [] ↔ ok = true := by
  cases ok <;> simp [reasonUnless]

-- =============================================================== shown

/-- Whether a diagnostic is about an expression: about an undefined name, a
number of arguments, or a mismatch that an operator, a value that is called
or an argument is to blame for. -/
def Diagnostic.isAboutExpression (d : Diagnostic) : Bool :=
  d.kind = .undefinedIdentifier || d.kind = .arityMismatch || d.isMismatch ['o', 'v', 'a']

/-- What a diagnostic shows, without the place that explains it. -/
def Diagnostic.shown (d : Diagnostic) : Severity × DiagnosticKind × String × Position :=
  (d.severity, d.kind, d.message, d.position)

/-- How a complaint about an expression is shown: as an error where it is made. -/
def complaintShown (c : Cause × Position) : Severity × DiagnosticKind × String × Position :=
  (.error, c.1.kind, c.1.message, c.2)

-- =========================================================== complaints

/-- The type that an analysis has recorded for an expression. -/
def Analysis.type (a : Analysis) (e : Expr) : Ty := a.types[e.id]?.getD .unknown

namespace Expr

variable (a : Analysis)

/-- The complaints about arguments, compared with the parameters from the
one with a given index on. -/
def argumentComplaints (callee : Option String) :
    Nat → List Ty → List Expr → List (Cause × Position)
  | index, p :: ps, arg :: args =>
    reasonUnless (p.accepts (a.type arg)) (.badArgument callee index p (a.type arg))
        arg.position
      ++ argumentComplaints callee (index + 1) ps args
  | _, _, _ => []

/-- The complaints about a call as such, by the type of its callee. -/
def callComplaints (t : Tag) (callee : Expr) (args : List Expr) :
    Ty → List (Cause × Position)
  | .func params _ =>
    if params.length = args.length then
      argumentComplaints a callee.name? 1 params args
    else [(.wrongArity callee.name? params.length args.length, t.position)]
  | .error | .unknown => []
  | other => [(.notCallable other, callee.position)]

/-- The complaints at a node of an expression about the node itself. -/
def complaints : Expr → List (Cause × Position)
  | .literal _ _ => []
  | .identifier t x =>
    reasonUnless a.resolutions[t.id]?.isSome (.undefined x) t.position
  | .binary t op l r =>
    reasonUnless ((a.type l).binary? op (a.type r)).isSome
      (.badOperands op (a.type l) (a.type r)) t.position
  | .unary t op e =>
    reasonUnless ((a.type e).unary? op).isSome (.badOperand op (a.type e))
      t.position
  | .call t f args => callComplaints a t f args (a.type f)

end Expr

-- ============================================================== verdicts

section

variable {config : Config} {p : Program} {a : Analysis} {ρ : Lookup} {e : Expr}

theorem Program.type_of_node (h : p.analyze config = .ok a)
    (hn : (ρ, e) ∈ p.nodes config) : a.type e = e.typeIn ρ := by
  rw [Analysis.type, types_of_node h hn]
  rfl

theorem Program.type_of_part {part : Expr} (h : p.analyze config = .ok a)
    (hn : (ρ, e) ∈ p.nodes config) (hpart : part ∈ e.parts) :
    a.type part = part.typeIn ρ :=
  type_of_node h (node_of_part hn hpart)

theorem Expr.reasons_argumentEvents {args : List Expr}
    (hargs : ∀ arg ∈ args, a.type arg = arg.typeIn ρ) (node : NodeId)
    (callee : Option String) (index : Nat) (ps : List Ty) :
    reasons (argumentEvents ρ node callee index ps args)
      = argumentComplaints a callee index ps args := by
  induction ps generalizing index args with
  | nil => rfl
  | cons p ps ih =>
      cases args with
      | nil => rfl
      | cons arg args =>
          rw [List.forall_mem_cons] at hargs
          rw [argumentEvents, argumentComplaints, reasons_append,
            reasons_complaint, ih hargs.2, hargs.1]

theorem Expr.reasons_callEvents {args : List Expr}
    (hargs : ∀ arg ∈ args, a.type arg = arg.typeIn ρ) (t : Tag) (f : Expr)
    (ty : Ty) :
    reasons (callEvents ρ t f args ty) = callComplaints a t f args ty := by
  cases ty with
  | func ps r =>
      simp only [callEvents, callComplaints]
      split
      · exact reasons_argumentEvents hargs t.id f.name? 1 ps
      · rfl
  | int | float | bool | string | void | unknown | error => rfl

/-- What is found at a node is what the tables say about it. -/
theorem Program.reasons_of_node (h : p.analyze config = .ok a)
    (hn : (ρ, e) ∈ p.nodes config) : reasons (e.verdict ρ) = e.complaints a := by
  have hpart {part : Expr} (hp : part ∈ e.parts) := type_of_part h hn hp
  cases e with
  | literal t v => rfl
  | identifier t x =>
      rw [Expr.complaints, resolutions_of_node h hn, Expr.verdict]
      cases ρ x <;> rfl
  | binary t op l r =>
      have hl : l ∈ (Expr.binary t op l r).parts := List.mem_cons_self
      have hr : r ∈ (Expr.binary t op l r).parts :=
        List.mem_cons_of_mem _ List.mem_cons_self
      rw [Expr.verdict, reasons_complaint, Expr.complaints, hpart hl, hpart hr]
  | unary t op e =>
      have he : e ∈ (Expr.unary t op e).parts := List.mem_cons_self
      rw [Expr.verdict, reasons_complaint, Expr.complaints, hpart he]
  | call t f args =>
      have hf : f ∈ (Expr.call t f args).parts := List.mem_cons_self
      rw [Expr.verdict, Expr.complaints, hpart hf]
      exact Expr.reasons_callEvents
        (fun arg harg => hpart (List.mem_cons_of_mem f harg)) t f _

-- =========================================================== accounting

/-- A finding about an expression. -/
def Event.aboutExpression? (e : Event) : Option Finding :=
  e.finding?.filter (·.cause.concern = .expression)

theorem nodal_aboutExpression? : Nodal Event.aboutExpression? where
  shown := hidden_eq_none (fun _ => rfl) fun _ => rfl
  about := by
    intro node f hf
    rw [Event.aboutExpression?, Event.finding?, Option.filter_some,
      if_neg (by simpa using hf)]

theorem Expr.aboutExpression_remarks (ρ : Lookup) (e : Expr) :
    (e.remarks ρ).filterMap Event.aboutExpression?
      = (e.verdict ρ).filterMap Event.finding? := by
  have hfilter : (e.remarks ρ).filterMap Event.aboutExpression?
      = ((e.verdict ρ).filterMap Event.finding?).filter
          (·.cause.concern = .expression) := by
    rw [remarks, List.filterMap_append, List.filter_filterMap]
    exact List.append_nil _
  rw [hfilter, List.filter_eq_self]
  intro f hf
  exact decide_eq_true (concern_of_verdict hf)

/-- Findings about expressions are told by their diagnostics. -/
theorem Finding.isAboutExpression_diagnostic (f : Finding) :
    f.diagnostic.isAboutExpression = decide (f.cause.concern = .expression) := by
  rw [Diagnostic.isAboutExpression, f.isMismatch_diagnostic, diagnostic]
  cases f.cause with
  | badCondition construct => cases construct <;> rfl
  | _ => rfl

/-- What is found about an expression is shown as an error. -/
theorem Finding.shown_diagnostic {f : Finding} (h : f.cause.concern = .expression) :
    f.diagnostic.shown = complaintShown f.reason := by
  have hseverity : f.cause.severity = .error := by
    cases hcause : f.cause with
    | unusedVariable | unusedParameter =>
        rw [hcause] at h
        cases h
    | _ => rfl
  rw [complaintShown, ← hseverity]
  rfl

/-- The findings about expressions are the complaints at the nodes of the
program, each once. -/
theorem Program.perm_complaints (h : p.analyze config = .ok a) :
    ((a.findings.filter (·.cause.concern = .expression)).map
        Finding.reason).Perm
      (p.exprs.flatMap (Expr.complaints a)) := by
  have hfindings : a.findings.filter (·.cause.concern = .expression)
      = (p.course config).events.filterMap Event.aboutExpression? := by
    rw [findings_of_analyze h, List.filter_filterMap]
    rfl
  rw [hfindings, ← p.map_snd_nodes config, List.flatMap_map]
  refine ((p.perm_collected nodal_aboutExpression? config).map _).trans
    (.of_eq ?_)
  rw [List.map_flatMap]
  refine List.flatMap_congr fun n hn => ?_
  rw [Expr.aboutExpression_remarks]
  exact reasons_of_node h hn

/-- The diagnostics about expressions show the complaints at the nodes of the
program, each once. -/
theorem Program.perm_complaints_diagnostics (h : p.analyze config = .ok a) :
    ((a.diagnostics.filter Diagnostic.isAboutExpression).map Diagnostic.shown).Perm
      ((p.exprs.flatMap (Expr.complaints a)).map complaintShown) := by
  have hshown : (a.diagnostics.filter Diagnostic.isAboutExpression).map Diagnostic.shown
      = ((a.findings.filter (·.cause.concern = .expression)).map Finding.reason).map
        complaintShown := by
    rw [filter_diagnostics Finding.isAboutExpression_diagnostic, List.map_map, List.map_map]
    exact List.map_congr_left fun f hf =>
      Finding.shown_diagnostic (of_decide_eq_true (List.mem_filter.mp hf).2)
  rw [hshown]
  exact (perm_complaints h).map _

end

end TreeCheck
