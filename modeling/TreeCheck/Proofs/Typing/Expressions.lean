/-
Typing expressions: a derivation exists if and only if the account is
clean, and it derives the type that the account gives.

Only clean expressions have first-order types, so the induction has to
carry both: what a check on the parts means depends on their types.
-/
import TreeCheck.Proofs.Scoping.Frames
import TreeCheck.Proofs.Typing.Annotations

namespace TreeCheck

open Analysis

/-- What typing knows of a symbol. -/
def Declared.typeInfo (d : Declared) : TypeInfo := ⟨d.type, d.mutable⟩

/-- Names are looked up as the scopes say, and what is found is of
first-order type and can be assigned to if it is a parameter. -/
structure Gives (ρ : Lookup) (Γ : Scopes) : Prop where
  finds : ∀ x, (ρ x).map (·.decl Declared.typeInfo) = findLevel Γ x
  firstOrder : ∀ x d, ρ x = some d → d.type.FirstOrder
  parameter : ∀ x d, ρ x = some d → d.kind = .parameter → d.mutable = true

variable {ρ : Lookup} {Γ : Scopes}

theorem clean_typed {id : NodeId} {ty : Ty} : Clean [.typed id ty] :=
  clean_cons.mpr ⟨rfl, clean_nil⟩

theorem clean_nameEvents {t : Tag} {x : String} :
    Clean (Expr.nameEvents ρ t x) ↔ ∃ d, ρ x = some d := by
  unfold Expr.nameEvents
  cases ρ x with
  | none => exact iff_of_false (not_clean_found rfl) nofun
  | some d => simp [Event.isError]

theorem clean_argumentEvents (node : NodeId) (callee : Option String) (i : Nat)
    {ps : List Ty} {args : List Expr} :
    ps.length = args.length ∧ Clean (Expr.argumentEvents ρ node callee i ps args)
      ↔ List.Forall₂ (fun p a => p.accepts a = true) ps
        (args.map (·.typeIn ρ)) := by
  induction ps generalizing i args with
  | nil => cases args <;> simp [Expr.argumentEvents]
  | cons p ps ih =>
      cases args with
      | nil => simp
      | cons arg args =>
          rw [Expr.argumentEvents, clean_append, clean_complaint rfl,
            List.map_cons,
            List.forall₂_cons, ← ih (i + 1), List.length_cons, List.length_cons,
            Nat.add_right_cancel_iff, and_left_comm]

/-- What is called takes arguments of some types. -/
def Ty.Takes : Ty → List Ty → Prop
  | .func ps _, as => List.Forall₂ (fun p a => p.accepts a = true) ps as
  | .unknown, _ => True
  | _, _ => False

theorem clean_callEvents {t : Tag} {f : Expr} {args : List Expr} {ty : Ty}
    (hty : ty ≠ .error) :
    Clean (Expr.callEvents ρ t f args ty) ↔ ty.Takes (args.map (·.typeIn ρ)) := by
  cases ty with
  | func ps r =>
      rw [Expr.callEvents, Ty.Takes,
        ← clean_argumentEvents t.id f.name? 1]
      by_cases hlength : ps.length = args.length
      · rw [if_pos hlength, and_iff_right hlength]
      · rw [if_neg hlength]
        exact iff_of_false (not_clean_found rfl) fun h => hlength h.1
  | unknown => simp [Expr.callEvents, Ty.Takes]
  | error => exact (hty rfl).elim
  | int | float | bool | string | void =>
      exact iff_of_false (not_clean_found rfl) id

/-- The type of a clean expression is first-order. -/
theorem Expr.firstOrder_typeIn (hρ : ∀ x d, ρ x = some d → d.type.FirstOrder) :
    (e : Expr) → Clean (e.events ρ) → (e.typeIn ρ).FirstOrder
  | .literal t v, _ => by cases v <;> trivial
  | .identifier t x, h => by
      simp only [Expr.events, clean_append, clean_nameEvents] at h
      obtain ⟨⟨d, hd⟩, -⟩ := h
      simp only [Expr.typeIn, hd, Option.elim_some]
      exact hρ x d hd
  | .binary t op l r, h => by
      simp only [Expr.events, clean_append,
        clean_complaint (c := .badOperands _ _ _) rfl,
        Option.isSome_iff_exists] at h
      obtain ⟨⟨⟨hl, hr⟩, c, hc⟩, -⟩ := h
      have hrule := (Ty.binary?_eq_some (firstOrder_typeIn hρ l hl)
        (firstOrder_typeIn hρ r hr)).mp hc
      simp only [Expr.typeIn, hc, Option.getD_some]
      exact (Ty.ground_of_binaryRule hrule).firstOrder
  | .unary t op e, h => by
      simp only [Expr.events, clean_append,
        clean_complaint (c := .badOperand _ _) rfl, Option.isSome_iff_exists] at h
      obtain ⟨⟨he, c, hc⟩, -⟩ := h
      have hoperand := firstOrder_typeIn hρ e he
      simp only [Expr.typeIn, hc, Option.getD_some]
      exact ((Ty.unary?_eq_some hoperand).mp hc).2 ▸ hoperand
  | .call t f args, h => by
      simp only [Expr.events, clean_append] at h
      obtain ⟨⟨⟨hf, -⟩, hcall⟩, -⟩ := h
      have hcallee := firstOrder_typeIn hρ f hf
      rw [clean_callEvents hcallee.ne_error] at hcall
      rw [Expr.typeIn]
      generalize f.typeIn ρ = ty at hcallee hcall ⊢
      cases ty with
      | func ps r => exact hcallee.2.firstOrder
      | unknown => trivial
      | int | float | bool | string | void | error => exact hcall.elim

theorem Expr.firstOrder_types (hρ : ∀ x d, ρ x = some d → d.type.FirstOrder)
    (es : List Expr) (h : Clean (Expr.eventsAll ρ es)) :
    ∀ ty ∈ es.map (·.typeIn ρ), ty.FirstOrder := by
  induction es with
  | nil => nofun
  | cons e es ih =>
      rw [Expr.eventsAll, clean_append] at h
      rw [List.map_cons, List.forall_mem_cons]
      exact ⟨e.firstOrder_typeIn hρ h.1, ih h.2⟩

/-- For first-order types, what fits is what is assignable. -/
theorem forall₂_accepts_iff {ps as : List Ty} (hps : ∀ p ∈ ps, p.FirstOrder)
    (has : ∀ a ∈ as, a.FirstOrder) :
    List.Forall₂ (fun p a => p.accepts a = true) ps as
      ↔ List.Forall₂ Ty.Assignable ps as := by
  rw [List.forall₂_iff_zip, List.forall₂_iff_zip]
  refine and_congr_right fun _ => forall₂_congr fun p a => ?_
  refine imp_congr_right fun h => ?_
  have hmem := List.of_mem_zip h
  exact Ty.accepts_iff (hps p hmem.1) (has a hmem.2)

mutual

/-- A derivation types an expression if its account is clean, with the
type that the account gives. -/
theorem Expr.hasType_iff (h : Gives ρ Γ) : (e : Expr) → (ty : Ty) →
    (HasType Γ e ty ↔ Clean (e.events ρ) ∧ e.typeIn ρ = ty)
  | .literal t v, ty => by
      rw [Expr.events, and_iff_right clean_typed]
      constructor
      · intro h
        cases h
        rfl
      · intro heq
        subst heq
        exact .literal
  | .identifier t x, ty => by
      simp only [Expr.events, clean_append, clean_nameEvents,
        and_iff_left clean_typed]
      constructor
      · intro hty
        cases hty with
        | identifier hfind =>
            rw [← h.finds] at hfind
            obtain ⟨d, hd, rfl⟩ := Option.map_eq_some_iff.mp hfind
            refine ⟨⟨d, hd⟩, ?_⟩
            rw [Expr.typeIn, hd]
            rfl
      · intro h
        obtain ⟨⟨d, hd⟩, rfl⟩ := h
        have hfind : findLevel Γ x = some (d.decl Declared.typeInfo) := by
          rw [← h.finds, hd]
          rfl
        rw [Expr.typeIn, hd]
        exact .identifier hfind
  | .binary t op l r, ty => by
      simp only [Expr.events, clean_append, and_iff_left clean_typed,
        clean_complaint (c := .badOperands _ _ _) rfl, Option.isSome_iff_exists]
      constructor
      · intro hty
        cases hty with
        | binary hl hr hrule =>
            obtain ⟨hleft, rfl⟩ := (hasType_iff h l _).mp hl
            obtain ⟨hright, rfl⟩ := (hasType_iff h r _).mp hr
            rw [← Ty.binary?_eq_some (firstOrder_typeIn h.firstOrder l hleft)
              (firstOrder_typeIn h.firstOrder r hright)] at hrule
            refine ⟨⟨⟨hleft, hright⟩, ty, hrule⟩, ?_⟩
            rw [Expr.typeIn, hrule]
            rfl
      · intro h
        obtain ⟨⟨⟨hl, hr⟩, c, hc⟩, rfl⟩ := h
        rw [Expr.typeIn, hc]
        refine .binary ((hasType_iff h l _).mpr ⟨hl, rfl⟩)
          ((hasType_iff h r _).mpr ⟨hr, rfl⟩) ?_
        exact (Ty.binary?_eq_some (firstOrder_typeIn h.firstOrder l hl)
          (firstOrder_typeIn h.firstOrder r hr)).mp hc
  | .unary t op e, ty => by
      simp only [Expr.events, clean_append, and_iff_left clean_typed,
        clean_complaint (c := .badOperand _ _) rfl, Option.isSome_iff_exists]
      constructor
      · intro hty
        cases hty with
        | unary he hrule =>
            obtain ⟨hoperand, rfl⟩ := (hasType_iff h e _).mp he
            have hc := (Ty.unary?_eq_some
              (firstOrder_typeIn h.firstOrder e hoperand)).mpr ⟨hrule, rfl⟩
            refine ⟨⟨hoperand, _, hc⟩, ?_⟩
            rw [Expr.typeIn, hc]
            rfl
      · intro h
        obtain ⟨⟨he, c, hc⟩, rfl⟩ := h
        rw [Expr.typeIn, hc]
        obtain ⟨hrule, rfl⟩ :=
          (Ty.unary?_eq_some (firstOrder_typeIn h.firstOrder e he)).mp hc
        exact .unary ((hasType_iff h e _).mpr ⟨he, rfl⟩) hrule
  | .call t f args, ty => by
      simp only [Expr.events, clean_append, and_iff_left clean_typed, Expr.typeIn]
      constructor
      · intro hty
        cases hty with
        | callUnknown hf hargs =>
            obtain ⟨hclean, hunknown⟩ := (hasType_iff h f _).mp hf
            obtain ⟨hparts, -⟩ := (haveTypes_iff h args _).mp hargs
            rw [hunknown]
            exact ⟨⟨⟨hclean, hparts⟩, clean_nil⟩, rfl⟩
        | call hf hargs hfits =>
            obtain ⟨hclean, hfunc⟩ := (hasType_iff h f _).mp hf
            obtain ⟨hparts, rfl⟩ := (haveTypes_iff h args _).mp hargs
            have hcallee := firstOrder_typeIn h.firstOrder f hclean
            rw [hfunc] at hcallee ⊢
            refine ⟨⟨⟨hclean, hparts⟩,
              (clean_callEvents hcallee.ne_error).mpr ?_⟩, rfl⟩
            exact (forall₂_accepts_iff (fun p hp => (hcallee.1 p hp).firstOrder)
              (firstOrder_types h.firstOrder args hparts)).mpr hfits
      · intro h
        obtain ⟨⟨⟨hf, hargs⟩, hcall⟩, rfl⟩ := h
        have hcallee := firstOrder_typeIn h.firstOrder f hf
        rw [clean_callEvents hcallee.ne_error] at hcall
        have hf := (hasType_iff h f _).mpr ⟨hf, rfl⟩
        have htypes := (haveTypes_iff h args _).mpr ⟨hargs, rfl⟩
        generalize f.typeIn ρ = callee at hcallee hcall hf ⊢
        cases callee with
        | func ps r =>
            refine .call hf htypes ?_
            exact (forall₂_accepts_iff (fun p hp => (hcallee.1 p hp).firstOrder)
              (firstOrder_types h.firstOrder args hargs)).mp hcall
        | unknown => exact .callUnknown hf htypes
        | int | float | bool | string | void | error => exact hcall.elim

theorem Expr.haveTypes_iff (h : Gives ρ Γ) : (es : List Expr) → (tys : List Ty) →
    (HaveTypes Γ es tys ↔ Clean (Expr.eventsAll ρ es) ∧ es.map (·.typeIn ρ) = tys)
  | [], tys => by
      constructor
      · intro h
        cases h
        exact ⟨clean_nil, rfl⟩
      · intro h
        obtain ⟨-, rfl⟩ := h
        exact .nil
  | e :: es, tys => by
      simp only [Expr.eventsAll, clean_append]
      constructor
      · intro htys
        cases htys with
        | cons he hes =>
            obtain ⟨hclean, rfl⟩ := (hasType_iff h e _).mp he
            obtain ⟨hrest, rfl⟩ := (haveTypes_iff h es _).mp hes
            exact ⟨⟨hclean, hrest⟩, rfl⟩
      · intro h
        obtain ⟨⟨he, hes⟩, rfl⟩ := h
        exact .cons ((hasType_iff h e _).mpr ⟨he, rfl⟩)
          ((haveTypes_iff h es _).mpr ⟨hes, rfl⟩)

end

end TreeCheck
