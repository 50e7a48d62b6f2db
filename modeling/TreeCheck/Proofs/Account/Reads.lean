/-
What expressions and checks leave in an account.

A symbol is read only where a name is looked up and found, and looking
up binds nothing. So an account reads nothing that its lookup does not
find, and as numbers are given in order, this bounds what can have been
read before a scope was opened: a scope can tell from its own events
which of its symbols were read.
-/
import TreeCheck.Proofs.Account.Reports

namespace TreeCheck

open Analysis

variable {ρ : Lookup} {s : State} {n : SymbolId} {es fs : List Event}

-- =========================================================== consulting

/-- An event that looking up can leave: a symbol that is read is found
under some name, and no symbol is bound. -/
def Event.Consults (ρ : Lookup) : Event → Prop
  | .read k => ∃ x d, ρ x = some d ∧ d.id = k
  | .bound _ => False
  | .typed _ _ | .resolved _ _ | .found _ _ => True

/-- Events that looking up can leave. -/
def Consults (ρ : Lookup) (es : List Event) : Prop := ∀ e ∈ es, e.Consults ρ

theorem consults_nil : Consults ρ [] := fun _ he => (List.not_mem_nil he).elim

theorem consults_cons {e : Event} :
    Consults ρ (e :: es) ↔ e.Consults ρ ∧ Consults ρ es :=
  List.forall_mem_cons

theorem consults_append :
    Consults ρ (es ++ fs) ↔ Consults ρ es ∧ Consults ρ fs := by
  simp only [Consults, List.mem_append, or_imp, forall_and]

theorem Reports.consults (h : Reports es) : Consults ρ es := by
  intro e he
  obtain ⟨node, f, rfl⟩ := h e he
  trivial

theorem consults_typed (id : NodeId) (ty : Ty) : Consults ρ [.typed id ty] :=
  consults_cons.mpr ⟨trivial, consults_nil⟩

theorem consults_nameEvents (t : Tag) (x : String) :
    Consults ρ (Expr.nameEvents ρ t x) := by
  unfold Expr.nameEvents
  cases hx : ρ x with
  | none => exact (reports_found _ _).consults
  | some d =>
      refine consults_cons.mpr ⟨trivial, consults_cons.mpr ⟨?_, consults_nil⟩⟩
      exact ⟨x, d, hx, rfl⟩

mutual

/-- An expression looks its names up. -/
theorem Expr.consults_events (ρ : Lookup) : (e : Expr) → Consults ρ (e.events ρ)
  | .literal t v => consults_typed _ _
  | .identifier t x => by
      simp only [Expr.events, consults_append]
      exact ⟨consults_nameEvents t x, consults_typed _ _⟩
  | .binary t op l r => by
      simp only [Expr.events, consults_append]
      refine ⟨⟨⟨?_, ?_⟩, ?_⟩, consults_typed _ _⟩
      · exact Expr.consults_events ρ l
      · exact Expr.consults_events ρ r
      · exact (reports_complaint _ _ _ _).consults
  | .unary t op e => by
      simp only [Expr.events, consults_append]
      refine ⟨⟨?_, ?_⟩, consults_typed _ _⟩
      · exact Expr.consults_events ρ e
      · exact (reports_complaint _ _ _ _).consults
  | .call t f args => by
      simp only [Expr.events, consults_append]
      refine ⟨⟨⟨?_, ?_⟩, ?_⟩, consults_typed _ _⟩
      · exact Expr.consults_events ρ f
      · exact Expr.consults_eventsAll ρ args
      · exact (reports_callEvents _ _ _ _).consults

theorem Expr.consults_eventsAll (ρ : Lookup) :
    (es : List Expr) → Consults ρ (Expr.eventsAll ρ es)
  | [] => consults_nil
  | e :: es => by
      simp only [Expr.eventsAll, consults_append]
      exact ⟨Expr.consults_events ρ e, Expr.consults_eventsAll ρ es⟩

end

theorem Expr.consults_events? (ρ : Lookup) (e : Option Expr) :
    Consults ρ (Expr.events? ρ e) := by
  cases e with
  | none => exact consults_nil
  | some e => exact e.consults_events ρ

theorem consults_declarationEvents (node : NodeId) (name : String)
    (ann : Option TypeName) (init : Option Expr) :
    Consults ρ (declarationEvents ρ node name ann init) := by
  rw [declarationEvents, consults_append, consults_append]
  refine ⟨⟨?_, Expr.consults_events? ρ init⟩, ?_⟩
  · cases ann with
    | none => exact consults_nil
    | some a => exact (reports_valueEvents _ _ a).consults
  · exact (reports_initializerEvents _ _ _ _).consults

theorem consults_assignmentEvents (node : NodeId) (target value : Expr) :
    Consults ρ (assignmentEvents ρ node target value) := by
  have hvalue := value.consults_events ρ
  cases target with
  | identifier t x =>
      simp only [assignmentEvents]
      cases ρ x with
      | none =>
          refine consults_append.mpr ⟨?_, hvalue⟩
          exact consults_cons.mpr ⟨trivial, consults_typed _ _⟩
      | some d =>
          refine consults_append.mpr ⟨consults_append.mpr ⟨?_, hvalue⟩, ?_⟩
          · exact consults_cons.mpr ⟨trivial, consults_typed _ _⟩
          · exact (reports_storeEvents _ _ _ _ _ _).consults
  | literal | binary | unary | call =>
      refine consults_append.mpr ⟨consults_append.mpr ⟨?_, hvalue⟩, ?_⟩
      · exact Expr.consults_events ρ _
      · exact (reports_found _ _).consults

theorem consults_conditionEvents (node : NodeId) (construct : Construct)
    (c : Expr) : Consults ρ (conditionEvents ρ node construct c) := by
  rw [conditionEvents, consults_append]
  exact ⟨c.consults_events ρ, (reports_complaint _ _ _ _).consults⟩

theorem consults_returningEvents (t : Tag) (expected : Option Ty)
    (value : Option Expr) : Consults ρ (returningEvents ρ t expected value) := by
  rw [returningEvents, consults_append]
  exact ⟨Expr.consults_events? ρ value, (reports_returnEvents _ _ _ _).consults⟩

-- ============================================================== reading

/-- Only symbols below a number are read. -/
def ReadsBelow (n : SymbolId) (es : List Event) : Prop :=
  ∀ k, Event.read k ∈ es → k < n

/-- Only symbols below a number are found. -/
def FindsBelow (n : SymbolId) (ρ : Lookup) : Prop :=
  ∀ x d, ρ x = some d → d.id < n

theorem Consults.readsBelow (h : Consults ρ es) (hρ : FindsBelow n ρ) :
    ReadsBelow n es := by
  intro k hk
  obtain ⟨x, d, hd, rfl⟩ := h _ hk
  exact hρ x d hd

/-- A symbol is used in the end if it was before or is read. -/
theorem mem_used_replay {k : SymbolId} :
    k ∈ (replay s es).used ↔ k ∈ s.used ∨ .read k ∈ es := by
  induction es generalizing s with
  | nil => exact (or_iff_left List.not_mem_nil).symm
  | cons e es ih =>
      rw [replay_cons, ih, List.mem_cons]
      cases e with
      | read j =>
          simp only [Event.apply, Std.TreeSet.mem_insert,
            Std.LawfulEqCmp.compare_eq_iff_eq, Event.read.injEq]
          constructor
          · intro h
            rcases h with (rfl | h) | h <;> simp [*]
          · intro h
            rcases h with h | rfl | h <;> simp [*]
      | _ => simp [Event.apply]

end TreeCheck
