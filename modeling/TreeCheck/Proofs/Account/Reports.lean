/-
The parts of an account that only report.

Every check comes down to a list of findings. Such a list records no
type, resolves nothing, reads nothing and binds nothing, so whatever is
counted in an account, it can be passed over.
-/
import TreeCheck.Proofs.Account.Statements

namespace TreeCheck

open Analysis

variable {ρ : Lookup} {es fs : List Event}

/-- Events that only report. -/
def Reports (es : List Event) : Prop := ∀ e ∈ es, ∃ node f, e = .found node f

@[simp] theorem reports_nil : Reports [] := nofun

@[simp] theorem reports_append :
    Reports (es ++ fs) ↔ Reports es ∧ Reports fs := by
  simp only [Reports, List.mem_append, or_imp, forall_and]

@[simp] theorem reports_found (node : NodeId) (f : Finding) :
    Reports [.found node f] := by
  intro e he
  exact ⟨node, f, List.mem_singleton.mp he⟩

@[simp] theorem reports_complaint (ok : Bool) (node : NodeId) (c : Cause)
    (p : Position) : Reports (complaint ok node c p) := by
  cases ok
  · exact reports_found _ _
  · exact reports_nil

namespace Reports

theorem resolved (h : Reports es) : es.filterMap Event.resolved? = [] := by
  refine List.filterMap_eq_nil_iff.mpr fun e he => ?_
  obtain ⟨node, f, rfl⟩ := h e he
  rfl

theorem typed (h : Reports es) : es.filterMap Event.typed? = [] := by
  refine List.filterMap_eq_nil_iff.mpr fun e he => ?_
  obtain ⟨node, f, rfl⟩ := h e he
  rfl

theorem bound (h : Reports es) : es.filterMap Event.bound? = [] := by
  refine List.filterMap_eq_nil_iff.mpr fun e he => ?_
  obtain ⟨node, f, rfl⟩ := h e he
  rfl

/-- Carrying out reports adds the findings at the end. -/
theorem replay (h : Reports es) (s : State) :
    replay s es
      = { s with findings := s.findings ++ es.filterMap Event.finding? } := by
  induction es generalizing s with
  | nil =>
      rw [List.filterMap_nil, Array.appendList_nil]
      rfl
  | cons e es ih =>
      obtain ⟨node, f, rfl⟩ := h e List.mem_cons_self
      rw [replay_cons, ih fun e he => h e (List.mem_cons_of_mem _ he)]
      simp [Event.apply]

end Reports

-- ============================================================== checks

theorem reports_duplicateEvents (node : NodeId) (b : Binding)
    (previous : Option Declared) : Reports (duplicateEvents node b previous) := by
  cases previous with
  | none => exact reports_nil
  | some d => exact reports_found _ _

theorem reports_valueEvents (node : NodeId) (name : String) (a : TypeName) :
    Reports (a.valueEvents node name) :=
  reports_append.mpr ⟨reports_complaint _ _ _ _, reports_complaint _ _ _ _⟩

theorem reports_paramEvents (node : NodeId) (p : Param) :
    Reports (p.events node) := by
  unfold Param.events
  cases p.typeName with
  | none => exact reports_nil
  | some a => exact reports_valueEvents _ _ a

theorem reports_signatureEvents (node : NodeId) (params : List Param)
    (result : Option TypeName) :
    Reports (signatureEvents node params result) := by
  refine reports_append.mpr ⟨?_, ?_⟩
  · intro e he
    obtain ⟨p, -, hp⟩ := List.mem_flatMap.mp he
    exact reports_paramEvents node p e hp
  · cases result with
    | none => exact reports_nil
    | some a => exact reports_complaint _ _ _ _

theorem reports_argumentEvents (node : NodeId) (callee : Option String) (i : Nat)
    (ps : List Ty) (args : List Expr) :
    Reports (Expr.argumentEvents ρ node callee i ps args) := by
  induction ps generalizing i args with
  | nil => exact reports_nil
  | cons p ps ih =>
      cases args with
      | nil => exact reports_nil
      | cons arg args =>
          exact reports_append.mpr ⟨reports_complaint _ _ _ _, ih _ args⟩

theorem reports_callEvents (t : Tag) (f : Expr) (args : List Expr) (ty : Ty) :
    Reports (Expr.callEvents ρ t f args ty) := by
  cases ty with
  | func ps r =>
      simp only [Expr.callEvents]
      split
      · exact reports_argumentEvents _ _ _ _ _
      · exact reports_found _ _
  | error | unknown => exact reports_nil
  | int | float | bool | string | void => exact reports_found _ _

theorem reports_initializerEvents (node : NodeId) (name : String)
    (declared : Option Ty) (init : Option (Ty × Position)) :
    Reports (initializerEvents node name declared init) := by
  unfold initializerEvents
  split
  · exact reports_complaint _ _ _ _
  · exact reports_complaint _ _ _ _
  · exact reports_nil

theorem reports_storeEvents (node : NodeId) (target : Tag) (d : Declared)
    (name : String) (found : Ty) (p : Position) :
    Reports (storeEvents node target d name found p) := by
  unfold storeEvents
  split
  · exact reports_found _ _
  · split
    · exact reports_found _ _
    · exact reports_complaint _ _ _ _

theorem reports_returnEvents (node : NodeId) (position : Position)
    (expected : Option Ty) (value : Option (Ty × Position)) :
    Reports (returnEvents node position expected value) := by
  unfold returnEvents
  split
  · exact reports_found _ _
  · exact reports_complaint _ _ _ _
  · exact reports_complaint _ _ _ _

-- ============================================================== leaving

theorem kind_unused {used : Std.TreeSet SymbolId} {sym : Symbol} {f : Finding}
    (h : unused? used sym = some f) : f.cause.kind = .unusedVariable := by
  unfold unused? at h
  split at h
  · cases h
  · split at h
    · obtain rfl := Option.some.inj h
      rfl
    · obtain rfl := Option.some.inj h
      rfl
    · cases h

/-- When a scope is left, nothing but unused names is reported. -/
theorem exists_unused_of_leavingEvents {config : Config} {w : Walk} {e : Event}
    (h : e ∈ leavingEvents config w) :
    ∃ node f, e = .found node f ∧ f.cause.kind = .unusedVariable := by
  unfold leavingEvents at h
  split at h
  · obtain ⟨d, -, hd⟩ := List.mem_filterMap.mp h
    obtain ⟨f, hf, rfl⟩ := Option.map_eq_some_iff.mp hd
    exact ⟨_, f, rfl, kind_unused hf⟩
  · cases h

theorem reports_leavingEvents (config : Config) (w : Walk) :
    Reports (leavingEvents config w) := by
  intro e he
  obtain ⟨node, f, rfl, -⟩ := exists_unused_of_leavingEvents he
  exact ⟨node, f, rfl⟩

end TreeCheck
