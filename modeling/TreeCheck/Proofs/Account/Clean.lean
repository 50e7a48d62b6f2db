/-
Accounts without errors.

An analysis succeeds if no event of its account reports an error, so
success can be taken apart along the account: a list of events is clean
if and only if its parts are. Unused names are reported too, but only
as warnings.
-/
import TreeCheck.Analysis.Analyzer
import TreeCheck.Proofs.Account.Reports

namespace TreeCheck

open Analysis

/-- Whether an event reports an error. -/
def Event.isError : Event → Bool
  | found _ f => f.diagnostic.isError
  | _ => false

/-- No error is reported. -/
def Clean (es : List Event) : Prop := ∀ e ∈ es, e.isError = false

instance (es : List Event) : Decidable (Clean es) :=
  inferInstanceAs (Decidable (∀ e ∈ es, e.isError = false))

section

variable {es fs : List Event}

@[simp] theorem clean_nil : Clean [] := nofun

@[simp] theorem clean_append : Clean (es ++ fs) ↔ Clean es ∧ Clean fs := by
  simp only [Clean, List.mem_append, or_imp, forall_and]

@[simp] theorem clean_cons {e : Event} :
    Clean (e :: es) ↔ e.isError = false ∧ Clean es := by
  simp only [Clean, List.mem_cons, or_imp, forall_and, forall_eq]

theorem clean_flatMap {α : Type} {as : List α} {f : α → List Event} :
    Clean (as.flatMap f) ↔ ∀ a ∈ as, Clean (f a) := by
  constructor
  · intro h a ha e he
    exact h e (List.mem_flatMap.mpr ⟨a, ha, he⟩)
  · intro h e he
    obtain ⟨a, ha, he⟩ := List.mem_flatMap.mp he
    exact h a ha e he

/-- A check is clean if it is met, where missing it is an error. -/
theorem clean_complaint {ok : Bool} {node : NodeId} {c : Cause} {p : Position}
    (hc : c.severity = .error) : Clean (complaint ok node c p) ↔ ok = true := by
  cases ok with
  | true => exact iff_of_true clean_nil rfl
  | false => simp [complaint, Event.isError, Finding.diagnostic,
      Diagnostic.isError, hc]

theorem not_clean_found {node : NodeId} {f : Finding}
    (hf : f.cause.severity = .error) :
    ¬ Clean [.found node f] := by
  simp [Event.isError, Finding.diagnostic, Diagnostic.isError, hf]

/-- What is reported when a scope is left is no error. -/
theorem clean_leavingEvents (config : Config) (w : Walk) :
    Clean (leavingEvents config w) := by
  intro e he
  obtain ⟨node, f, rfl, hkind⟩ := exists_unused_of_leavingEvents he
  simp [Event.isError, Finding.diagnostic, Diagnostic.isError, Cause.severity_eq_error_iff, hkind]

theorem clean_closed {config : Config} {φ : Frame} {w : Walk} :
    Clean (w.closed config φ).events ↔ Clean w.events := by
  rw [Walk.closed, clean_append]
  exact and_iff_left (clean_leavingEvents config w)

/-- A binding is clean if the scope does not have its name yet. -/
theorem clean_declaring {node : NodeId} {site : Site} {b : Binding} {φ : Frame}
    {n : SymbolId} :
    Clean (declaring node site b φ n).events ↔ φ.find b.name = none := by
  rw [declaring, clean_append]
  cases φ.find b.name with
  | none => simp [duplicateEvents, Event.isError]
  | some d =>
      refine iff_of_false (fun h => ?_) (Option.some_ne_none d)
      exact not_clean_found rfl h.1

/-- An analysis reports no error if its events are clean. -/
theorem no_errors_replay_iff (es : List Event) :
    (∀ d ∈ (replay {} es).analysis.diagnostics, d.severity ≠ .error)
      ↔ Clean es := by
  have hfindings : (replay {} es).analysis.findings
      = es.filterMap Event.finding? :=
    toList_findings_replay {} es
  rw [Analysis.diagnostics, hfindings, List.forall_mem_map]
  constructor
  · intro h e he
    cases e with
    | found node f =>
        have hf := h f (List.mem_filterMap.mpr ⟨.found node f, he, rfl⟩)
        exact beq_eq_false_iff_ne.mpr hf
    | typed | resolved | read | bound => rfl
  · intro h f hf
    obtain ⟨e, he, hfound⟩ := List.mem_filterMap.mp hf
    cases e with
    | found node _ =>
        obtain rfl := Option.some.inj hfound
        exact beq_eq_false_iff_ne.mp (h _ he)
    | typed | resolved | read | bound => cases hfound

end

end TreeCheck
