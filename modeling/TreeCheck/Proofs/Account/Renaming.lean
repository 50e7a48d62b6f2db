/-
Events under other numbers of symbols.

Symbols are numbered in the order of their declarations, and nothing but
the numbers themselves depends on it. If the names in force stand for
the same symbols under other numbers, a statement does the same about
its expressions under these numbers (`Stmt.rename_consulting`). The new
numbers need not be distinct: with all of them zero, this says what is
done apart from numbers.
-/
import TreeCheck.Proofs.Account.Composition

namespace TreeCheck

open Analysis

/-- A symbol under another number. -/
def Declared.rename (π : SymbolId → SymbolId) (d : Declared) : Declared :=
  { d with id := π d.id }

/-- A lookup that gives the symbols under other numbers. -/
def Lookup.rename (π : SymbolId → SymbolId) (ρ : Lookup) : Lookup :=
  fun x => (ρ x).map (Declared.rename π)

/-- An event about symbols under other numbers. -/
def Event.rename (π : SymbolId → SymbolId) : Event → Event
  | .resolved id d => .resolved id (d.rename π)
  | .read k => .read (π k)
  | .bound d => .bound (d.rename π)
  | .typed id ty => .typed id ty
  | .found node f => .found node f

variable (π : SymbolId → SymbolId)

theorem Reports.rename {es : List Event} (h : Reports es) :
    es.map (Event.rename π) = es := by
  refine (List.map_congr_left fun e he => ?_).trans (List.map_id es)
  obtain ⟨node, f, rfl⟩ := h e he
  rfl

-- =========================================================== expressions

section

variable (ρ : Lookup)

theorem Expr.typeIn_rename (e : Expr) : e.typeIn (Lookup.rename π ρ) = e.typeIn ρ := by
  cases e with
  | literal t v => rfl
  | identifier t x =>
      show ((ρ x).map (Declared.rename π)).elim _ _ = (ρ x).elim _ _
      cases ρ x <;> rfl
  | binary t op l r => rw [typeIn, typeIn, Expr.typeIn_rename l, Expr.typeIn_rename r]
  | unary t op e => rw [typeIn, typeIn, Expr.typeIn_rename e]
  | call t f args => rw [typeIn, typeIn, Expr.typeIn_rename f]

theorem Expr.map_typeIn_rename (e : Option Expr) :
    e.map (·.typeIn (Lookup.rename π ρ)) = e.map (·.typeIn ρ) := by
  cases e with
  | none => rfl
  | some e => exact congrArg some (e.typeIn_rename π ρ)

theorem Expr.argumentEvents_rename (node : NodeId) (callee : Option String) (i : Nat)
    (ps : List Ty) (args : List Expr) :
    argumentEvents (Lookup.rename π ρ) node callee i ps args
      = argumentEvents ρ node callee i ps args := by
  induction ps generalizing i args with
  | nil => rfl
  | cons p ps ih =>
      cases args with
      | nil => rfl
      | cons arg args =>
          rw [argumentEvents, argumentEvents, Expr.typeIn_rename, ih]

theorem Expr.callEvents_rename (t : Tag) (f : Expr) (args : List Expr) (ty : Ty) :
    callEvents (Lookup.rename π ρ) t f args ty = callEvents ρ t f args ty := by
  cases ty with
  | func ps r =>
      have hrelated : (f.name?.bind (Lookup.rename π ρ)).map (·.position)
          = (f.name?.bind ρ).map (·.position) := by
        cases f.name? with
        | none => rfl
        | some x =>
            show ((ρ x).map (Declared.rename π)).map _ = (ρ x).map _
            cases ρ x <;> rfl
      rw [callEvents, callEvents, Expr.argumentEvents_rename, hrelated]
  | error | unknown => rfl
  | int | float | bool | string | void => rfl

theorem Expr.rename_nameEvents (t : Tag) (x : String) :
    (nameEvents ρ t x).map (Event.rename π) = nameEvents (Lookup.rename π ρ) t x := by
  unfold nameEvents Lookup.rename
  cases ρ x <;> rfl

mutual

/-- An expression does the same about symbols under other numbers. -/
theorem Expr.rename_events : (e : Expr) →
    (e.events ρ).map (Event.rename π) = e.events (Lookup.rename π ρ)
  | .literal t v => rfl
  | .identifier t x => by
      simp only [events, List.map_append, Expr.rename_nameEvents, Expr.typeIn_rename]
      rfl
  | .binary t op l r => by
      simp only [events, List.map_append, Expr.rename_events l, Expr.rename_events r,
        Expr.typeIn_rename, (reports_complaint _ _ _ _).rename]
      rfl
  | .unary t op e => by
      simp only [events, List.map_append, Expr.rename_events e, Expr.typeIn_rename,
        (reports_complaint _ _ _ _).rename]
      rfl
  | .call t f args => by
      simp only [events, List.map_append, Expr.rename_events f, Expr.rename_eventsAll args,
        Expr.typeIn_rename, Expr.callEvents_rename, (reports_callEvents _ _ _ _).rename]
      rfl

theorem Expr.rename_eventsAll : (es : List Expr) →
    (eventsAll ρ es).map (Event.rename π) = eventsAll (Lookup.rename π ρ) es
  | [] => rfl
  | e :: es => by
      simp only [eventsAll, List.map_append, Expr.rename_events e, Expr.rename_eventsAll es]

end

theorem Expr.rename_events? (e : Option Expr) :
    (events? ρ e).map (Event.rename π) = events? (Lookup.rename π ρ) e := by
  cases e with
  | none => rfl
  | some e => exact e.rename_events π ρ

-- ============================================================ statements

theorem rename_assignmentEvents (node : NodeId) (target value : Expr) :
    (assignmentEvents ρ node target value).map (Event.rename π)
      = assignmentEvents (Lookup.rename π ρ) node target value := by
  cases target with
  | identifier t x =>
      have hx : Lookup.rename π ρ x = (ρ x).map (Declared.rename π) := rfl
      simp only [assignmentEvents, hx]
      cases ρ x with
      | none =>
          simp only [Option.map_none, List.map_append, Expr.rename_events]
          rfl
      | some d =>
          simp only [Option.map_some, List.map_append, Expr.rename_events, Expr.typeIn_rename,
            (reports_storeEvents _ _ _ _ _ _).rename]
          rfl
  | literal | binary | unary | call =>
      simp only [assignmentEvents, List.map_append, Expr.rename_events]
      rfl

/-- A statement does the same about its expressions with symbols under other
numbers. -/
theorem Stmt.rename_consulting (s : Stmt) (expected : Option Ty) :
    (s.consulting expected ρ).map (Event.rename π)
      = s.consulting expected (Lookup.rename π ρ) := by
  cases s with
  | declaration t name ann init m =>
      have hann : (ann.elim [] (·.valueEvents t.id name)).map (Event.rename π)
          = ann.elim [] (·.valueEvents t.id name) := by
        cases ann with
        | none => rfl
        | some a => exact (reports_valueEvents t.id name a).rename π
      simp only [consulting, declarationEvents, List.map_append, Expr.rename_events?,
        Expr.map_typeIn_rename, (reports_initializerEvents _ _ _ _).rename, hann]
  | assignment t target value => exact rename_assignmentEvents π ρ t.id target value
  | ifElse t c a b =>
      simp only [consulting, conditionEvents, List.map_append, Expr.rename_events,
        Expr.typeIn_rename, (reports_complaint _ _ _ _).rename]
  | «while» t c b =>
      simp only [consulting, conditionEvents, List.map_append, Expr.rename_events,
        Expr.typeIn_rename, (reports_complaint _ _ _ _).rename]
  | ret t value =>
      simp only [consulting, returningEvents, List.map_append, Expr.rename_events?,
        Expr.map_typeIn_rename, (reports_returnEvents _ _ _ _).rename]
  | expr t e => exact e.rename_events π ρ
  | function | block => rfl

end

end TreeCheck
