/-
The types that occur in a program, whatever is found in it.

Annotations name built-in types, and what is not annotated is unknown or
has the type of an initializer; so a symbol has a shallow type other than
`void`, and a function takes no `void`. This lasts along a course. An
initializer may be a name, and a name may stand for a function: its type
is then that of another symbol. What expressions make of such types is
shallow again, and `void` is only what a call gives.

Unlike `Ty.FirstOrder`, this does not depend on there being no errors:
where something is found, the type is `error`, which is flat.
-/
import TreeCheck.Proofs.Typing.Consistency
import TreeCheck.Proofs.Typing.Storable
import TreeCheck.Proofs.Visits.Lasting

namespace TreeCheck

open Analysis

/-- A type that a symbol can have. -/
structure Ty.Bindable (t : Ty) : Prop where
  shallow : t.Shallow
  ne_void : t ≠ .void

theorem Ty.Scalar.bindable {t : Ty} (h : t.Scalar) : t.Bindable :=
  ⟨h.flat.shallow, h.ne_void⟩

-- ========================================================= annotations

theorem Ty.Ground.flat {t : Ty} (h : t.Ground) : t.Flat := by
  cases t with
  | func ps r => exact h.elim
  | int | float | bool | string | void | unknown | error => trivial

theorem TypeName.flat_type (a : TypeName) : a.type.Flat := by
  unfold type
  cases h : Ty.ofName? a.name with
  | none => trivial
  | some ty => exact (Ty.ground_of_ofName? h).flat

theorem TypeName.scalar_valueType (a : TypeName) : a.valueType.Scalar := by
  refine Ty.Flat.scalar ?_ a.valueType_ne_void
  unfold valueType
  split
  · trivial
  · exact a.flat_type

theorem Param.scalar_type (p : Param) : p.type.Scalar := by
  unfold Param.type
  cases p.typeName with
  | none => trivial
  | some a => exact a.scalar_valueType

/-- What a function takes is scalar, and what it gives is flat. -/
theorem Signature.shallow_of (params : List Param) (result : Option TypeName)
    (body : List Stmt) :
    (Ty.func (Signature.of params result body).params
      (Signature.of params result body).ret).Shallow := by
  refine ⟨?params, ?result⟩
  case params =>
    intro ty hty
    obtain ⟨p, -, rfl⟩ := List.mem_map.mp hty
    exact p.scalar_type
  case result =>
    cases result with
    | some a => exact a.flat_type
    | none =>
        rw [Signature.of, Option.elim_none]
        split <;> trivial

-- ========================================================= expressions

section

variable {op : BinaryOp} {a b c : Ty}

theorem Ty.scalar_of_arithmetic? (h : arithmetic? op a b = some c) : c.Scalar := by
  cases arithmetic?_eq_some.mp h <;> trivial

theorem Ty.scalar_of_binary? (h : a.binary? op b = some c) : c.Scalar := by
  unfold binary? at h
  split at h
  case isTrue =>
    obtain rfl := Option.some.inj h
    trivial
  case isFalse =>
    cases hclass : op.operatorClass with
    | arithmetic =>
        rw [hclass] at h
        exact scalar_of_arithmetic? h
    | logical | equality | ordering =>
        simp only [hclass] at h
        split at h
        · obtain rfl := Option.some.inj h
          trivial
        · cases h

/-- An operand is left as it is, if its operator applies to it. -/
theorem Ty.scalar_of_unary? {op : UnaryOp} (h : a.unary? op = some c) :
    c.Scalar := by
  unfold unary? at h
  split at h
  case isTrue happlies =>
    obtain rfl := Option.some.inj h
    cases a with
    | func ps r | void => cases op <;> cases happlies
    | int | float | bool | string | unknown | error => trivial
  case isFalse => cases h

theorem Ty.Shallow.flat_result {t : Ty} (h : t.Shallow) : t.result.Flat := by
  cases t with
  | func ps r => exact h.2
  | int | float | bool | string | void | unknown | error => trivial

end

namespace Expr

variable {ρ : Lookup}

theorem scalar_typeIn_literal (t : Tag) (v : Literal) :
    (typeIn ρ (.literal t v)).Scalar := by
  cases v <;> trivial

theorem bindable_typeIn_identifier (hρ : Finds (fun d => d.type.Bindable) ρ)
    (t : Tag) (x : String) : (typeIn ρ (.identifier t x)).Bindable := by
  rw [typeIn]
  cases hx : ρ x with
  | none => exact Ty.Scalar.bindable trivial
  | some d => exact hρ x d hx

theorem scalar_typeIn_binary (t : Tag) (op : BinaryOp) (l r : Expr) :
    (typeIn ρ (.binary t op l r)).Scalar := by
  rw [typeIn]
  cases h : (l.typeIn ρ).binary? op (r.typeIn ρ) with
  | none => trivial
  | some c => exact Ty.scalar_of_binary? h

theorem scalar_typeIn_unary (t : Tag) (op : UnaryOp) (e : Expr) :
    (typeIn ρ (.unary t op e)).Scalar := by
  rw [typeIn]
  cases h : (e.typeIn ρ).unary? op with
  | none => trivial
  | some c => exact Ty.scalar_of_unary? h

/-- Of shallow names, expressions have shallow types. -/
theorem shallow_typeIn (hρ : Finds (fun d => d.type.Bindable) ρ) :
    (e : Expr) → (e.typeIn ρ).Shallow
  | .call t f args => by
      rw [typeIn]
      exact (shallow_typeIn hρ f).flat_result.shallow
  | .identifier t x => (bindable_typeIn_identifier hρ t x).shallow
  | .literal t v => (scalar_typeIn_literal t v).flat.shallow
  | .binary t op l r => (scalar_typeIn_binary t op l r).flat.shallow
  | .unary t op e => (scalar_typeIn_unary t op e).flat.shallow

/-- Only a call gives `void`. -/
theorem exists_call_of_void (hρ : Finds (fun d => d.type.Bindable) ρ) {e : Expr}
    (h : e.typeIn ρ = .void) : ∃ t f args, e = .call t f args := by
  cases e with
  | literal t v => exact ((scalar_typeIn_literal t v).ne_void h).elim
  | identifier t x => exact ((bindable_typeIn_identifier hρ t x).ne_void h).elim
  | binary t op l r => exact ((scalar_typeIn_binary t op l r).ne_void h).elim
  | unary t op e => exact ((scalar_typeIn_unary t op e).ne_void h).elim
  | call t f args => exact ⟨t, f, args, rfl⟩

end Expr

-- ============================================================= lasting

section

variable {config : Config} {p : Program}

theorem bindable_variableType {ρ : Lookup} (hρ : Finds (fun d => d.type.Bindable) ρ)
    (ann : Option TypeName) (init : Option Expr) :
    (variableTypeOf (ann.map (·.valueType)) (init.map (·.typeIn ρ))).Bindable := by
  cases ann with
  | some a => exact a.scalar_valueType.bindable
  | none =>
      cases init with
      | none => exact Ty.Scalar.bindable trivial
      | some e =>
          rw [Option.map_none, Option.map_some, variableTypeOf]
          split
          case isTrue => exact Ty.Scalar.bindable trivial
          case isFalse hvoid => exact ⟨e.shallow_typeIn hρ, hvoid⟩

/-- All symbols have shallow types other than `void`, and all functions
shallow signatures. -/
theorem Program.lasting_bindable (config : Config) (p : Program) :
    p.Lasting config (fun d => d.type.Bindable)
      (fun _ sig => (Ty.func sig.params sig.ret).Shallow) where
  ofVariable _ hρ _ := bindable_variableType hρ _ _
  ofSignature _ _ := Signature.shallow_of _ _ _
  ofFunction _ _ _ := ⟨Signature.shallow_of _ _ _, nofun⟩
  ofParameter _ hsig _ htype _ :=
    Ty.Scalar.bindable (hsig.1 _ (List.mem_of_getElem? htype))

theorem Program.lasts_bindable (config : Config) (p : Program) :
    Lasts (fun d => d.type.Bindable)
      (fun _ sig => (Ty.func sig.params sig.ret).Shallow) [] (p.course config)
      (p.visits config) :=
  lasts_course (p.lasting_bindable config)

theorem Program.finds_bindable {ρ : Lookup} {e : Expr}
    (hn : (ρ, e) ∈ p.nodes config) : Finds (fun d => d.type.Bindable) ρ :=
  finds_of_node (p.lasting_bindable config) hn

end

end TreeCheck
