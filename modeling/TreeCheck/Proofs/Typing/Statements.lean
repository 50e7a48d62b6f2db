/-
What is checked about one statement, compared with the rule for it.

Each check is a list of events, and each is clean if and only if the
premises of the rule can be derived.
-/
import TreeCheck.Proofs.Typing.Expressions

namespace TreeCheck

open Analysis

variable {ρ : Lookup} {Γ : Scopes}

theorem HasType.firstOrder (h : Gives ρ Γ) {e : Expr} {ty : Ty}
    (hty : HasType Γ e ty) :
    ty.FirstOrder := by
  obtain ⟨hclean, rfl⟩ := (e.hasType_iff h ty).mp hty
  exact e.firstOrder_typeIn h.firstOrder hclean

/-- A check that compares the type of an expression. -/
theorem clean_checked (h : Gives ρ Γ) (e : Expr) {ok : Ty → Bool} {P : Ty → Prop}
    (hok : ∀ ty : Ty, ty.FirstOrder → (ok ty = true ↔ P ty)) :
    Clean (e.events ρ) ∧ ok (e.typeIn ρ) = true
      ↔ ∃ ty, HasType Γ e ty ∧ P ty := by
  constructor
  · intro h
    obtain ⟨hclean, htype⟩ := h
    refine ⟨e.typeIn ρ, (e.hasType_iff h _).mpr ⟨hclean, rfl⟩, ?_⟩
    exact (hok _ (e.firstOrder_typeIn h.firstOrder hclean)).mp htype
  · intro h
    obtain ⟨ty, hty, hP⟩ := h
    have hfirst := hty.firstOrder h
    obtain ⟨hclean, rfl⟩ := (e.hasType_iff h ty).mp hty
    exact ⟨hclean, (hok _ hfirst).mpr hP⟩

-- ========================================================== variables

theorem VariableType.firstOrder (h : Gives ρ Γ) {ann : Option TypeName}
    {init : Option Expr} {ty : Ty} (hty : VariableType Γ ann init ty) :
    ty.FirstOrder := by
  cases hty with
  | annotated ha => exact (TypeName.ground_of_valueType? ha).firstOrder
  | initialized ha _ _ => exact (TypeName.ground_of_valueType? ha).firstOrder
  | inferred hinit _ => exact hinit.firstOrder h
  | «open» => trivial

/-- A variable has a type if nothing is found about its annotation and
its initializer. -/
theorem variableType_iff (h : Gives ρ Γ) (node : NodeId) (name : String)
    {ann : Option TypeName} {init : Option Expr} {ty : Ty} :
    VariableType Γ ann init ty
      ↔ Clean (declarationEvents ρ node name ann init)
        ∧ variableTypeOf (ann.map (·.valueType)) (init.map (·.typeIn ρ))
          = ty := by
  rw [declarationEvents, clean_append, clean_append]
  cases ann with
  | none =>
      cases init with
      | none =>
          constructor
          · intro h
            cases h
            exact ⟨⟨⟨clean_nil, clean_nil⟩, clean_nil⟩, rfl⟩
          · intro h
            obtain ⟨-, rfl⟩ := h
            exact .open
      | some e =>
          constructor
          · intro hty
            cases hty with
            | inferred hinit hvoid =>
                obtain ⟨hclean, rfl⟩ := (e.hasType_iff h ty).mp hinit
                refine ⟨⟨⟨clean_nil, hclean⟩, ?_⟩, if_neg hvoid⟩
                exact (clean_complaint rfl).mpr (bne_iff_ne.mpr hvoid)
          · intro h
            obtain ⟨⟨⟨-, hclean⟩, hcheck⟩, rfl⟩ := h
            have hvoid := bne_iff_ne.mp ((clean_complaint rfl).mp hcheck)
            show VariableType Γ none (some e)
              (if e.typeIn ρ = .void then _ else _)
            rw [if_neg hvoid]
            exact .inferred ((e.hasType_iff h _).mpr ⟨hclean, rfl⟩) hvoid
  | some a =>
      have hann {t : Ty} : a.valueType? = some t
          ↔ Clean (a.valueEvents node name) ∧ a.valueType = t :=
        a.valueType?_eq_some node
      cases init with
      | none =>
          constructor
          · intro hty
            cases hty with
            | annotated ha =>
                obtain ⟨hclean, rfl⟩ := hann.mp ha
                exact ⟨⟨⟨hclean, clean_nil⟩, clean_nil⟩, rfl⟩
          · intro h
            obtain ⟨⟨⟨hclean, -⟩, -⟩, rfl⟩ := h
            exact .annotated (hann.mpr ⟨hclean, rfl⟩)
      | some e =>
          have hfits {t : Ty} (ha : a.valueType? = some t) :
              Clean (e.events ρ) ∧ t.accepts (e.typeIn ρ) = true
                ↔ ∃ found, HasType Γ e found ∧ t.Assignable found :=
            clean_checked h e fun _ hfound =>
              Ty.accepts_iff (TypeName.ground_of_valueType? ha).firstOrder hfound
          constructor
          · intro hty
            cases hty with
            | initialized ha hinit hassignable =>
                obtain ⟨hclean, hcheck⟩ := (hfits ha).mpr ⟨_, hinit, hassignable⟩
                obtain ⟨hvalid, rfl⟩ := hann.mp ha
                exact ⟨⟨⟨hvalid, hclean⟩, (clean_complaint rfl).mpr hcheck⟩, rfl⟩
          · intro h
            obtain ⟨⟨⟨hvalid, hclean⟩, hcheck⟩, rfl⟩ := h
            have ha := hann.mpr ⟨hvalid, rfl⟩
            obtain ⟨found, hinit, hassignable⟩ :=
              (hfits ha).mp ⟨hclean, (clean_complaint rfl).mp hcheck⟩
            exact .initialized ha hinit hassignable

-- ======================================================== own statements

section

variable {L : Level TypeInfo} {ret : Option Ty} {t : Tag}

/-- Storing a value is clean if the symbol can be assigned to and the value
fits. -/
theorem clean_storeEvents {node : NodeId} {target : Tag} {d : Declared}
    {x : String} {found : Ty} {p : Position} :
    Clean (storeEvents node target d x found p)
      ↔ (d.kind ≠ .function ∧ d.mutable = true)
        ∧ d.type.accepts found = true := by
  unfold storeEvents
  by_cases hkind : d.kind = .function
  · rw [if_pos hkind]
    exact iff_of_false (not_clean_found rfl) fun h => h.1.1 hkind
  · rw [if_neg hkind]
    cases hmutable : d.mutable with
    | false => exact iff_of_false (not_clean_found rfl) fun h => nomatch h.1.2
    | true =>
        rw [and_iff_right ⟨hkind, rfl⟩]
        exact clean_complaint rfl

theorem isTarget_iff {d : Declared}
    (hparam : d.kind = .parameter → d.mutable = true) :
    (d.decl Declared.typeInfo).IsTarget
      ↔ d.kind ≠ .function ∧ d.mutable = true := by
  have htarget : (d.decl Declared.typeInfo).IsTarget
      ↔ d.kind = .parameter ∨ d.kind = .variable ∧ d.mutable = true := Iff.rfl
  rw [htarget]
  cases hkind : d.kind with
  | parameter => simp [hparam hkind]
  | function | «variable» => simp

theorem assignment_iff (h : Gives ρ (L :: Γ)) {target value : Expr} :
    (∃ L', StmtOk ret Γ L (.assignment t target value) L')
      ↔ Clean (assignmentEvents ρ t.id target value) := by
  cases target with
  | identifier t' x =>
      rw [assignmentEvents]
      cases hx : ρ x with
      | none =>
          refine iff_of_false ?_ ?_
          · intro h
            obtain ⟨L', hok⟩ := h
            cases hok with
            | assignment hfind _ _ _ =>
                rw [← h.finds, hx] at hfind
                cases hfind
          · intro hclean
            exact not_clean_found rfl (clean_cons.mpr
              ⟨(clean_cons.mp (clean_append.mp hclean).1).1, clean_nil⟩)
      | some d =>
          have hfind : findLevel (L :: Γ) x
              = some (d.decl Declared.typeInfo) := by
            rw [← h.finds, hx]
            rfl
          have hfits :=
            clean_checked h value fun _ hfound =>
              Ty.accepts_iff (h.firstOrder x d hx) hfound
          rw [clean_append, clean_append, clean_storeEvents,
            ← isTarget_iff (h.parameter x d hx)]
          constructor
          · intro h
            obtain ⟨L', hok⟩ := h
            cases hok with
            | assignment hfind' htarget hvalue hassignable =>
                obtain rfl := Option.some.inj (hfind.symm.trans hfind')
                obtain ⟨hclean, hcheck⟩ := hfits.mpr ⟨_, hvalue, hassignable⟩
                exact ⟨⟨clean_cons.mpr ⟨rfl, clean_typed⟩, hclean⟩, htarget,
                  hcheck⟩
          · intro h
            obtain ⟨⟨-, hclean⟩, htarget, hcheck⟩ := h
            obtain ⟨found, hvalue, hassignable⟩ := hfits.mp ⟨hclean, hcheck⟩
            exact ⟨L, .assignment hfind htarget hvalue hassignable⟩
  | literal | binary | unary | call =>
      refine iff_of_false nofun fun hclean => ?_
      exact not_clean_found rfl (clean_append.mp hclean).2

theorem clean_conditionEvents (h : Gives ρ Γ) {node : NodeId}
    {construct : Construct} {c : Expr} :
    Clean (conditionEvents ρ node construct c)
      ↔ ∃ ty, HasType Γ c ty ∧ ty.OrUnknown (· = .bool) := by
  rw [conditionEvents, clean_append, clean_complaint rfl]
  exact clean_checked h c fun _ => Ty.isCondition_iff

theorem return_iff (h : Gives ρ (L :: Γ))
    (hret : ∀ r, ret = some r → r.FirstOrder) {value : Option Expr} :
    (∃ L', StmtOk ret Γ L (.ret t value) L')
      ↔ Clean (returningEvents ρ t ret value) := by
  rw [returningEvents, clean_append]
  cases ret with
  | none =>
      refine iff_of_false nofun fun hclean => ?_
      exact not_clean_found rfl hclean.2
  | some result =>
      have hresult := hret result rfl
      cases value with
      | none =>
          have hbare : (result == .void || result.isPermissive) = true
              ↔ result.OrUnknown (· = .void) := by
            rw [Bool.or_eq_true, beq_iff_eq, Ty.isPermissive_iff hresult.ne_error]
            rfl
          constructor
          · intro h
            obtain ⟨L', hok⟩ := h
            cases hok with
            | bareRet hvoid =>
                exact ⟨clean_nil, (clean_complaint rfl).mpr (hbare.mpr hvoid)⟩
          · intro h
            obtain ⟨-, hcheck⟩ := h
            exact ⟨L, .bareRet (hbare.mp ((clean_complaint rfl).mp hcheck))⟩
      | some e =>
          have hfits :=
            clean_checked h e fun _ hfound => Ty.accepts_iff hresult hfound
          constructor
          · intro h
            obtain ⟨L', hok⟩ := h
            cases hok with
            | ret hvalue hassignable =>
                obtain ⟨hclean, hcheck⟩ := hfits.mpr ⟨_, hvalue, hassignable⟩
                exact ⟨hclean, (clean_complaint rfl).mpr hcheck⟩
          · intro h
            obtain ⟨hclean, hcheck⟩ := h
            obtain ⟨found, hvalue, hassignable⟩ :=
              hfits.mp ⟨hclean, (clean_complaint rfl).mp hcheck⟩
            exact ⟨L, .ret hvalue hassignable⟩

end

end TreeCheck
