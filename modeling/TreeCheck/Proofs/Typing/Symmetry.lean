/-
Where the order of two types matters.

A target and a value are compared alike from both sides, but for the one
conversion there is: `accepts` is the symmetric relation `meets` with the
widening of `int` to `float` added (`accepts_eq`). Operators ask the same
of both operands. An equality, which compares for assignment, does so in
both directions, so not even the widening is seen there.
-/
import Mathlib.Data.List.Zip
import TreeCheck.Proofs.Typing.FirstOrder

namespace TreeCheck

/-- Arithmetic has the same result with its operands exchanged. -/
theorem Arithmetic.symm {op : BinaryOp} {a b c : Ty} (h : Arithmetic op a b c) :
    Arithmetic op b a c := by
  cases h with
  | int => exact .int
  | float ha hb hfloat => exact .float hb ha hfloat.symm
  | concat hop => exact .concat hop
  | unknownLeft hother => exact .unknownRight hother
  | unknownRight hother => exact .unknownLeft hother

namespace Ty

-- ========================================================= comparisons

/-- Whether two types agree without a conversion. Signatures are compared one
level deep. -/
def meets (a b : Ty) : Bool :=
  if a.isPermissive || b.isPermissive then true
  else match a, b with
    | .func ps r, .func qs s => signaturesAgree ps r qs s
    | a, b => a == b

theorem agrees_self (a : Ty) : a.agrees a = true := by
  rw [agrees, beq_self_eq_true, Bool.or_true]

theorem agrees_comm (a b : Ty) : a.agrees b = b.agrees a := by
  rw [agrees, agrees, Bool.or_comm a.isPermissive, BEq.comm (a := a)]

theorem signaturesAgree_self (ps : List Ty) (r : Ty) :
    signaturesAgree ps r ps r = true := by
  rw [signaturesAgree, List.zip_eq_zipWith, List.zipWith_self, List.all_map,
    beq_self_eq_true, agrees_self, Bool.and_true, Bool.true_and]
  exact List.all_eq_true.mpr fun p _ => agrees_self p

theorem signaturesAgree_comm (ps : List Ty) (r : Ty) (qs : List Ty) (s : Ty) :
    signaturesAgree ps r qs s = signaturesAgree qs s ps r := by
  rw [signaturesAgree, signaturesAgree, BEq.comm (a := ps.length), agrees_comm r,
    ← List.zip_swap qs ps, List.all_map]
  congr 3
  exact funext fun x => agrees_comm x.2 x.1

theorem meets_self (a : Ty) : a.meets a = true := by
  cases a with
  | func ps r => exact signaturesAgree_self ps r
  | int | float | bool | string | void | unknown | error => rfl

theorem meets_comm (a b : Ty) : a.meets b = b.meets a := by
  cases a with
  | func ps r =>
      cases b with
      | func qs s => exact signaturesAgree_comm ps r qs s
      | int | float | bool | string | void | unknown | error => rfl
  | int | float | bool | string | void | unknown | error => cases b <;> rfl

/-- A value fits if it is widened or the types agree as they are. -/
theorem accepts_eq (target value : Ty) :
    target.accepts value
      = ((target == .float && value == .int) || target.meets value) := by
  cases target <;> cases value <;> rfl

theorem accepts_self (t : Ty) : t.accepts t = true := by
  rw [accepts_eq, meets_self, Bool.or_true]

theorem accepts_eq_meets {target value : Ty} (h : ¬ (target = .float ∧ value = .int)) :
    target.accepts value = target.meets value := by
  rw [← beq_iff_eq, ← beq_iff_eq (a := value), ← Bool.and_eq_true, Bool.not_eq_true] at h
  rw [accepts_eq, h, Bool.false_or]

/-- What fits in one direction only is a number that is widened. -/
theorem accepts_ne_iff {t v : Ty} :
    t.accepts v ≠ v.accepts t ↔ (t = .float ∧ v = .int) ∨ (t = .int ∧ v = .float) := by
  constructor
  · intro hne
    by_contra hneither
    obtain ⟨hthere, hback⟩ := not_or.mp hneither
    refine hne ?_
    calc t.accepts v = t.meets v := accepts_eq_meets hthere
      _ = v.meets t := meets_comm t v
      _ = v.accepts t := (accepts_eq_meets fun h => hback h.symm).symm
  · rintro (⟨rfl, rfl⟩ | ⟨rfl, rfl⟩) <;> decide

-- =========================================================== operators

theorem arithmetic?_comm (op : BinaryOp) (l r : Ty) :
    arithmetic? op l r = arithmetic? op r l := by
  refine Option.ext fun result => ?_
  rw [arithmetic?_eq_some, arithmetic?_eq_some]
  exact ⟨.symm, .symm⟩

theorem binary?_comm (op : BinaryOp) (l r : Ty) : l.binary? op r = r.binary? op l := by
  unfold binary?
  rw [Bool.or_comm (l == .error)]
  cases op.operatorClass with
  | logical => simp only [Bool.and_comm (isOr (· == .bool) l)]
  | equality => simp only [Bool.or_comm (l.accepts r)]
  | ordering => simp only [Bool.and_comm (isOr isNumeric l)]
  | arithmetic => simp only [arithmetic?_comm op l]

/-- Types are told apart by their order in one place only. An operator makes the
same of its operands either way round, or applies neither way; every type
fits itself; and one type fits another but not the other way round exactly
where an `int` is widened to `float`. -/
theorem order_matters_only_for_widening :
    (∀ (op : BinaryOp) (l r : Ty), l.binary? op r = r.binary? op l)
      ∧ (∀ t : Ty, t.accepts t = true)
      ∧ ∀ t v : Ty, t.accepts v ≠ v.accepts t
        ↔ (t = .float ∧ v = .int) ∨ (t = .int ∧ v = .float) :=
  ⟨binary?_comm, accepts_self, fun _ _ => accepts_ne_iff⟩

/-- Nothing is widened inside a type. -/
example : accepts (.func [] .float) (.func [] .int) = false
    ∧ accepts (.func [] .int) (.func [] .float) = false := by decide

end Ty

end TreeCheck
