/-
The types of symbols in a program without errors.

Where no error is found, a variable or a parameter has no type `void`,
and no function takes one. This does not go without saying for an
inferred type, which is that of an initializer: only a name can have a
function type, so the type of the initializer is that of another symbol.
It lasts along a course, whatever identities the nodes have, since a
signature kept for another function is one of this kind as well.
-/
import TreeCheck.Proofs.Typing.Expressions
import TreeCheck.Proofs.Visits.Lasting

namespace TreeCheck

open Analysis

/-- A type that a symbol can have where no error is found. -/
structure Ty.Storable (t : Ty) : Prop where
  firstOrder : t.FirstOrder
  ne_void : t ≠ .void
  takes : ∀ ps r, t = .func ps r → .void ∉ ps

theorem Ty.Ground.storable {t : Ty} (h : t.Ground) (hvoid : t ≠ .void) :
    t.Storable where
  firstOrder := h.firstOrder
  ne_void := hvoid
  takes := by
    rintro ps r rfl
    exact h.elim

-- ========================================================= annotations

theorem TypeName.valueType_ne_void (a : TypeName) : a.valueType ≠ .void := by
  intro hvoid
  rw [valueType] at hvoid
  split at hvoid
  case isTrue => cases hvoid
  case isFalse h => exact h hvoid

theorem TypeName.storable_valueType {node : NodeId} {name : String} {a : TypeName}
    (h : Clean (a.valueEvents node name)) : a.valueType.Storable := by
  have hvalue : a.valueType? = some a.valueType :=
    (a.valueType?_eq_some node).mpr ⟨h, rfl⟩
  exact (a.ground_of_valueType? hvalue).storable a.valueType_ne_void

theorem Param.type_ne_void (p : Param) : p.type ≠ .void := by
  unfold Param.type
  cases p.typeName with
  | none => exact nofun
  | some a => exact a.valueType_ne_void

/-- The type of a function nothing is found about. -/
theorem Signature.storable_of {node : NodeId} {params : List Param}
    {result : Option TypeName} (body : List Stmt)
    (h : Clean (signatureEvents node params result)) :
    (Ty.func (Signature.of params result body).params
      (Signature.of params result body).ret).Storable where
  firstOrder := firstOrder_of? ((of?_eq_some node).mpr ⟨h, rfl⟩)
  ne_void := nofun
  takes := by
    intro ps r heq hvoid
    injection heq with hps _
    subst hps
    obtain ⟨p, -, hp⟩ := List.mem_map.mp hvoid
    exact p.type_ne_void hp

theorem Ty.Storable.param {sig : Signature} {i : Nat} {t : Ty}
    (h : (Ty.func sig.params sig.ret).Storable) (ht : sig.params[i]? = some t) :
    t.Storable := by
  have hmem := List.mem_of_getElem? ht
  refine (h.firstOrder.1 t hmem).storable fun hvoid => ?_
  exact h.takes _ _ rfl (hvoid ▸ hmem)

-- ========================================================= expressions

/-- A clean expression of function type is a name. -/
theorem Expr.exists_name_of_func {ρ : Lookup}
    (hρ : Finds (fun d => d.type.FirstOrder) ρ) {e : Expr} {ps : List Ty} {r : Ty}
    (hclean : Clean (e.events ρ)) (h : e.typeIn ρ = .func ps r) :
    ∃ x d, ρ x = some d ∧ d.type = .func ps r := by
  cases e with
  | literal t v => cases v <;> cases h
  | identifier t x =>
      cases hx : ρ x with
      | none =>
          simp only [typeIn, hx] at h
          cases h
      | some d =>
          simp only [typeIn, hx] at h
          exact ⟨x, d, hx, h⟩
  | binary t op left right =>
      simp only [events, clean_append, clean_complaint (c := .badOperands _ _ _) rfl,
        Option.isSome_iff_exists] at hclean
      obtain ⟨⟨⟨hleft, hright⟩, c, hc⟩, -⟩ := hclean
      have hrule := (Ty.binary?_eq_some (left.firstOrder_typeIn hρ hleft)
        (right.firstOrder_typeIn hρ hright)).mp hc
      have hground := Ty.ground_of_binaryRule hrule
      simp only [typeIn, hc, Option.getD_some] at h
      rw [h] at hground
      exact hground.elim
  | unary t op operand =>
      simp only [events, clean_append, clean_complaint (c := .badOperand _ _) rfl,
        Option.isSome_iff_exists] at hclean
      obtain ⟨⟨hoperand, c, hc⟩, -⟩ := hclean
      simp only [typeIn, hc, Option.getD_some] at h
      obtain ⟨hrule, heq⟩ :=
        (Ty.unary?_eq_some (operand.firstOrder_typeIn hρ hoperand)).mp hc
      rw [← heq, h] at hrule
      cases hrule with
      | neg hkind => rcases hkind with hkind | hkind <;> cases hkind
      | not hkind => rcases hkind with hkind | hkind <;> cases hkind
  | call t f args =>
      simp only [events, clean_append] at hclean
      have hcallee := f.firstOrder_typeIn hρ hclean.1.1.1
      rw [typeIn] at h
      cases hf : f.typeIn ρ with
      | func qs s =>
          rw [hf, Ty.result] at h
          rw [hf, h] at hcallee
          exact hcallee.2.elim
      | int | float | bool | string | void | unknown | error =>
          rw [hf] at h
          cases h

-- ============================================================= lasting

section

variable {config : Config} {p : Program}

theorem Program.storable_variable {ρ : Lookup} {expected : Option Ty} {t : Tag}
    {name : String} {ann : Option TypeName} {init : Option Expr} {m : Bool}
    (hclean : Clean (p.course config).events)
    (hv : ⟨.declaration t name ann init m, ρ, expected⟩ ∈ p.visits config)
    (hρ : Finds (fun d => d.type.Storable) ρ) :
    (variableTypeOf (ann.map (·.valueType))
      (init.map (·.typeIn ρ))).Storable := by
  have hverdict : Clean (Visit.verdict ⟨.declaration t name ann init m, ρ,
      expected⟩) :=
    hclean.mono fun e he =>
      mem_course_of_visit hv (List.mem_append_right _ he)
  obtain ⟨hann, hinit⟩ := clean_append.mp hverdict
  cases ann with
  | some a => exact TypeName.storable_valueType hann
  | none =>
      cases init with
      | none => exact Ty.Ground.storable trivial nofun
      | some e =>
          have hfirst := hρ.mono fun _ hd => hd.firstOrder
          have hevents : Clean (e.events ρ) :=
            clean_events_of_node hclean (node_of_root hv List.mem_cons_self)
          have hvoid : e.typeIn ρ ≠ .void :=
            bne_iff_ne.mp ((clean_complaint rfl).mp hinit)
          have htype : variableTypeOf none (some (e.typeIn ρ)) = e.typeIn ρ :=
            if_neg hvoid
          show (variableTypeOf none (some (e.typeIn ρ))).Storable
          rw [htype]
          refine ⟨e.firstOrder_typeIn hfirst hevents, hvoid, fun ps r heq => ?_⟩
          obtain ⟨x, d, hx, hd⟩ := Expr.exists_name_of_func hfirst hevents heq
          exact (hρ x d hx).takes ps r hd

/-- Where no error is found, all symbols have types that can be stored. -/
theorem Program.lasting_storable (hclean : Clean (p.course config).events) :
    p.Lasting config (fun d => d.type.Storable)
      (fun _ sig => (Ty.func sig.params sig.ret).Storable) where
  ofVariable hv hρ _ := storable_variable hclean hv hρ
  ofSignature _ hevents := Signature.storable_of _ (hclean.mono hevents)
  ofFunction _ hevents _ := Signature.storable_of _ (hclean.mono hevents)
  ofParameter _ hsig _ htype _ := hsig.param htype

/-- The names in force at an expression have types that can be stored. -/
theorem Program.finds_storable {ρ : Lookup} {e : Expr}
    (hclean : Clean (p.course config).events) (hn : (ρ, e) ∈ p.nodes config) :
    Finds (fun d => d.type.Storable) ρ :=
  finds_of_node (lasting_storable hclean) hn

/-- Where no error is found, all types are first-order. -/
theorem Program.firstOrder_of_node {ρ : Lookup} {e : Expr}
    (hclean : Clean (p.course config).events) (hn : (ρ, e) ∈ p.nodes config) :
    (e.typeIn ρ).FirstOrder :=
  e.firstOrder_typeIn ((finds_storable hclean hn).mono fun _ hd => hd.firstOrder)
    (clean_events_of_node hclean hn)

/-- Where no error is found, no expression has the type of a function that
takes `void`. -/
theorem Program.takes_of_node {ρ : Lookup} {e : Expr} {ps : List Ty} {r : Ty}
    (hclean : Clean (p.course config).events) (hn : (ρ, e) ∈ p.nodes config)
    (h : e.typeIn ρ = .func ps r) : .void ∉ ps := by
  have hρ := finds_storable hclean hn
  obtain ⟨x, d, hx, hd⟩ := Expr.exists_name_of_func
    (hρ.mono fun _ hd => hd.firstOrder) (clean_events_of_node hclean hn) h
  exact (hρ x d hx).takes ps r hd

end

end TreeCheck
