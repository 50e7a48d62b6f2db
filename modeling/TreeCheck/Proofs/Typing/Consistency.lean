/-
Consistency of types at every depth, and where comparing signatures one
level deep comes to the same.

A gradual comparison lets a type that is not known match anything,
wherever it stands inside another one (`Ty.consistent`). The check for
assignments goes one level down only and compares what it finds there
for equality, so on function types that take or give function types it
refuses what is consistent. On shallow types there is nothing further
down to compare, and both agree (`Ty.Shallow.accepts_eq_fits`).
-/
import TreeCheck.Typing.Rules

namespace TreeCheck.Ty

-- ========================================================= consistency

mutual

/-- Equal up to what is not known or complained about, at any depth. -/
def consistent : Ty → Ty → Bool
  | .func ps r, .func qs s => consistentAll ps qs && r.consistent s
  | a, b => a.isPermissive || b.isPermissive || a == b
termination_by structural a => a

/-- As many types on both sides, consistent one by one. -/
def consistentAll : List Ty → List Ty → Bool
  | [], [] => true
  | a :: as, b :: bs => a.consistent b && consistentAll as bs
  | _, _ => false
termination_by structural as => as

end

/-- Whether a value may be stored, compared at every depth: its type is
consistent with that of the target, or it is widened. Nothing is widened
inside a type. -/
def fits (target value : Ty) : Bool :=
  (target == .float && value == .int) || target.consistent value

-- ======================================================= shallow types

/-- A type with no components. -/
def Flat : Ty → Prop
  | .func _ _ => False
  | .int | .float | .bool | .string | .void | .unknown | .error => True

/-- A flat type other than `void`. -/
def Scalar : Ty → Prop
  | .func _ _ | .void => False
  | .int | .float | .bool | .string | .unknown | .error => True

/-- A first-order type whose parameters are not `void`: the components of a
function type are flat, and those that it takes are scalar. -/
def Shallow : Ty → Prop
  | .func ps r => (∀ p ∈ ps, p.Scalar) ∧ r.Flat
  | .int | .float | .bool | .string | .void | .unknown | .error => True

theorem Scalar.flat {t : Ty} (h : t.Scalar) : t.Flat := by
  cases t with
  | func ps r => exact h.elim
  | int | float | bool | string | void | unknown | error => trivial

theorem Scalar.ne_void {t : Ty} (h : t.Scalar) : t ≠ .void := by
  rintro rfl
  exact h

theorem Flat.scalar {t : Ty} (h : t.Flat) (hvoid : t ≠ .void) : t.Scalar := by
  cases t with
  | func ps r => exact h.elim
  | void => exact hvoid rfl
  | int | float | bool | string | unknown | error => trivial

theorem Flat.shallow {t : Ty} (h : t.Flat) : t.Shallow := by
  cases t with
  | func ps r => exact h.elim
  | int | float | bool | string | void | unknown | error => trivial

/-- Below a flat type there is nothing to compare. -/
theorem Flat.agrees_eq_consistent {a b : Ty} (h : a.Flat) :
    a.agrees b = a.consistent b := by
  cases a with
  | func ps r => exact h.elim
  | int | float | bool | string | void | unknown | error => rfl

theorem all_agrees_eq_consistentAll {ps qs : List Ty} (hps : ∀ p ∈ ps, p.Flat) :
    (ps.length == qs.length && (ps.zip qs).all fun (a, b) => a.agrees b)
      = consistentAll ps qs := by
  induction ps generalizing qs with
  | nil => cases qs <;> rfl
  | cons p ps ih =>
      cases qs with
      | nil => rfl
      | cons q qs =>
          obtain ⟨hp, hps⟩ := List.forall_mem_cons.mp hps
          have hlength : ((p :: ps).length == (q :: qs).length)
              = (ps.length == qs.length) := by simp
          rw [consistentAll, ← ih hps, ← hp.agrees_eq_consistent, List.zip_cons_cons,
            List.all_cons, Bool.and_left_comm, hlength]

theorem Shallow.signaturesAgree_eq {ps qs : List Ty} {r s : Ty}
    (h : (func ps r).Shallow) :
    signaturesAgree ps r qs s = (func ps r).consistent (func qs s) := by
  rw [signaturesAgree, all_agrees_eq_consistentAll fun p hp => (h.1 p hp).flat,
    h.2.agrees_eq_consistent, consistent]

/-- Stored in a target of shallow type, a value is compared as deep as there
is something to compare. -/
theorem Shallow.accepts_eq_fits {target : Ty} (h : target.Shallow) (value : Ty) :
    target.accepts value = target.fits value := by
  cases target with
  | func ps r =>
      cases value with
      | func qs s => exact h.signaturesAgree_eq
      | int | float | bool | string | void | unknown | error => rfl
  | int | float | bool | string | void | unknown | error => cases value <;> rfl

/-- A function type that takes a function is where the two come apart. -/
example : fits (.func [.func [.unknown] .int] .int) (.func [.func [.bool] .int] .int) = true
    ∧ accepts (.func [.func [.unknown] .int] .int) (.func [.func [.bool] .int] .int)
      = false := by decide

end TreeCheck.Ty
