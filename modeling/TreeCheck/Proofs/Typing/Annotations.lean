/-
Annotations: where nothing is found about them, they have the types that
an analysis gives them, and these are first-order.
-/
import TreeCheck.Proofs.Account.Clean
import TreeCheck.Proofs.Typing.FirstOrder

namespace TreeCheck

open Analysis

section

variable (node : NodeId)

theorem TypeName.type?_eq_some {a : TypeName} {ty : Ty} :
    a.type? = some ty ↔ Clean (a.events node) ∧ a.type = ty := by
  rw [TypeName.events, clean_complaint rfl, TypeName.type?, TypeName.type]
  cases Ty.ofName? a.name <;> simp

theorem TypeName.valueType?_eq_some {a : TypeName} {name : String} {ty : Ty} :
    a.valueType? = some ty
      ↔ Clean (a.valueEvents node name) ∧ a.valueType = ty := by
  rw [TypeName.valueType?, Option.filter_eq_some_iff, type?_eq_some node,
    TypeName.valueEvents, clean_append, clean_complaint rfl, TypeName.valueType]
  constructor
  · intro h
    obtain ⟨⟨hclean, rfl⟩, hvoid⟩ := h
    have hvoid : a.type ≠ .void := of_decide_eq_true hvoid
    exact ⟨⟨hclean, bne_iff_ne.mpr hvoid⟩, if_neg hvoid⟩
  · intro h
    obtain ⟨⟨hclean, hvoid⟩, rfl⟩ := h
    have hvoid := bne_iff_ne.mp hvoid
    rw [if_neg hvoid]
    exact ⟨⟨hclean, rfl⟩, decide_eq_true hvoid⟩

theorem Param.type?_eq_some {p : Param} {ty : Ty} :
    p.type? = some ty ↔ Clean (p.events node) ∧ p.type = ty := by
  unfold Param.type? Param.events Param.type
  cases p.typeName with
  | none => simp
  | some a => exact TypeName.valueType?_eq_some node

theorem Param.mapM_type?_eq_some {ps : List Param} {tys : List Ty} :
    ps.mapM Param.type? = some tys
      ↔ Clean (ps.flatMap (·.events node)) ∧ ps.map (·.type) = tys := by
  induction ps generalizing tys with
  | nil => simp
  | cons p ps ih =>
      rw [List.mapM_cons, List.flatMap_cons, clean_append, List.map_cons]
      constructor
      · intro h
        obtain ⟨ty, hty, h⟩ := Option.bind_eq_some_iff.mp h
        obtain ⟨tys, htys, h⟩ := Option.bind_eq_some_iff.mp h
        obtain rfl := Option.some.inj h
        obtain ⟨hp, rfl⟩ := (Param.type?_eq_some node).mp hty
        obtain ⟨hps, rfl⟩ := ih.mp htys
        exact ⟨⟨hp, hps⟩, rfl⟩
      · intro h
        obtain ⟨⟨hp, hps⟩, rfl⟩ := h
        refine Option.bind_eq_some_iff.mpr
          ⟨p.type, (type?_eq_some node).mpr ⟨hp, rfl⟩, ?_⟩
        exact Option.bind_eq_some_iff.mpr ⟨_, ih.mpr ⟨hps, rfl⟩, rfl⟩

/-- A function has a signature if nothing is found about its
annotations. -/
theorem Signature.of?_eq_some {params : List Param} {result : Option TypeName}
    {body : List Stmt} {sig : Signature} :
    Signature.of? params result body = some sig
      ↔ Clean (signatureEvents node params result)
        ∧ Signature.of params result body = sig := by
  have hresult (r : Ty) :
      result.elim (some (if Stmt.anyReturnsValue body then .unknown else .void))
        (·.type?)
          = some r
        ↔ Clean (result.elim [] (·.events node))
          ∧ result.elim (if Stmt.anyReturnsValue body then .unknown else .void)
            (·.type)
              = r := by
    cases result with
    | none => simp
    | some a => exact TypeName.type?_eq_some node
  rw [signatureEvents, clean_append]
  constructor
  · intro h
    obtain ⟨tys, htys, h⟩ := Option.bind_eq_some_iff.mp h
    obtain ⟨r, hr, h⟩ := Option.bind_eq_some_iff.mp h
    obtain rfl := Option.some.inj h
    obtain ⟨hps, rfl⟩ := (Param.mapM_type?_eq_some node).mp htys
    obtain ⟨hclean, rfl⟩ := (hresult r).mp hr
    exact ⟨⟨hps, hclean⟩, rfl⟩
  · intro h
    obtain ⟨⟨hps, hr⟩, rfl⟩ := h
    refine Option.bind_eq_some_iff.mpr
      ⟨_, (Param.mapM_type?_eq_some node).mpr ⟨hps, rfl⟩, ?_⟩
    exact Option.bind_eq_some_iff.mpr ⟨_, (hresult _).mpr ⟨hr, rfl⟩, rfl⟩

end

-- ========================================================= first-order

theorem TypeName.ground_of_valueType? {a : TypeName} {ty : Ty}
    (h : a.valueType? = some ty) :
    ty.Ground :=
  Ty.ground_of_ofName? (Option.filter_eq_some_iff.mp h).1

theorem Param.ground_of_type? {p : Param} {ty : Ty} (h : p.type? = some ty) :
    ty.Ground := by
  unfold Param.type? at h
  cases hann : p.typeName with
  | none =>
      rw [hann] at h
      obtain rfl := Option.some.inj h
      trivial
  | some a =>
      rw [hann] at h
      exact TypeName.ground_of_valueType? h

theorem Signature.firstOrder_of? {params : List Param} {result : Option TypeName}
    {body : List Stmt} {sig : Signature}
    (h : Signature.of? params result body = some sig) :
    (Ty.func sig.params sig.ret).FirstOrder := by
  obtain ⟨hclean, rfl⟩ := (of?_eq_some 0).mp h
  rw [signatureEvents, clean_append] at hclean
  constructor
  · intro ty hty
    obtain ⟨p, hp, rfl⟩ := List.mem_map.mp hty
    have hp : p.type? = some p.type :=
      (Param.type?_eq_some 0).mpr ⟨clean_flatMap.mp hclean.1 p hp, rfl⟩
    exact Param.ground_of_type? hp
  · cases result with
    | none =>
        rw [Signature.of, Option.elim_none]
        split <;> trivial
    | some a =>
        have ha : a.type? = some a.type :=
          (TypeName.type?_eq_some 0).mpr ⟨hclean.2, rfl⟩
        exact Ty.ground_of_ofName? ha

end TreeCheck
