/-
The `return`s of a program, and the functions they belong to.

Twice the program text is searched for the `return`s of a function. What
a function returns without an annotation is decided when it is declared,
by a search of its body that passes by the functions in it; what a
`return` is compared with is decided where it is reached, by the
function around it. Both go by the same `return`s: those that a body
holds outside of its functions are those with this function nearest
around them (`Stmt.perm_returning`), and the first search asks whether
one of them has a value (`FunctionDef.ret_signature`).
-/
import Mathlib.Data.List.Perm.Basic
import TreeCheck.Proofs.Errors.Complaints
import TreeCheck.Proofs.Functions.Around
import TreeCheck.Proofs.Run.Diagnostics

namespace TreeCheck

open Analysis

-- ============================================================= returns

/-- A `return`. -/
structure Return where
  tag : Tag
  value : Option Expr

/-- The statement that a `return` is. -/
def Return.stmt (r : Return) : Stmt := .ret r.tag r.value

/-- The `return` that a statement is, if it is one. -/
def Stmt.return? : Stmt → Option Return
  | .ret t value => some ⟨t, value⟩
  | _ => none

/-- The `return`s of a program. -/
def Program.returns (p : Program) : List Return := p.stmts.filterMap Stmt.return?

mutual

/-- The `return`s in a statement that belong to the function around it: at
any depth of blocks and branches, but in no function. -/
def Stmt.ownReturns : Stmt → List Return
  | .ret t value => [⟨t, value⟩]
  | .block _ _ ss => Stmt.ownReturnsAll ss
  | .ifElse _ _ a none => a.ownReturns
  | .ifElse _ _ a (some b) => a.ownReturns ++ b.ownReturns
  | .while _ _ b => b.ownReturns
  | .declaration _ _ _ _ _ | .function _ _ _ _ _ _ | .assignment _ _ _ | .expr _ _ => []
termination_by structural s => s

/-- The `return`s in a list that belong to the function around it. -/
def Stmt.ownReturnsAll : List Stmt → List Return
  | [] => []
  | s :: ss => s.ownReturns ++ Stmt.ownReturnsAll ss
termination_by structural ss => ss

end

/-- The `return`s that belong to a function. -/
def FunctionDef.returns (f : FunctionDef) : List Return := Stmt.ownReturnsAll f.body

/-- What a function gives if it does not say so: anything if one of its
`return`s has a value, and nothing otherwise. -/
def FunctionDef.inferred (f : FunctionDef) : Ty :=
  if f.returns.any (·.value.isSome) then .unknown else .void

theorem Stmt.return?_eq_some {s : Stmt} {r : Return} :
    s.return? = some r ↔ s = r.stmt := by
  constructor
  · intro h
    cases s with
    | ret => rw [← Option.some.inj h, Return.stmt]
    | _ => cases h
  · rintro rfl
    rfl

theorem Program.mem_returns {p : Program} {r : Return} :
    r ∈ p.returns ↔ r.stmt ∈ p.stmts := by
  rw [returns, List.mem_filterMap]
  constructor
  · rintro ⟨s, hs, hr⟩
    rwa [Stmt.return?_eq_some.mp hr] at hs
  · exact fun h => ⟨r.stmt, h, rfl⟩

-- ====================================================== the first search

mutual

theorem Stmt.returnsValue_eq_any : (s : Stmt) →
    s.returnsValue = s.ownReturns.any (·.value.isSome)
  | .ret t value => (Bool.or_false _).symm
  | .block t q ss => Stmt.anyReturnsValue_eq_any ss
  | .ifElse t c a none => Stmt.returnsValue_eq_any a
  | .ifElse t c a (some b) => by
      rw [returnsValue, ownReturns, List.any_append, Stmt.returnsValue_eq_any a,
        Stmt.returnsValue_eq_any b]
  | .while t c b => Stmt.returnsValue_eq_any b
  | .declaration _ _ _ _ _ => rfl
  | .function _ _ _ _ _ _ => rfl
  | .assignment _ _ _ => rfl
  | .expr _ _ => rfl

theorem Stmt.anyReturnsValue_eq_any : (ss : List Stmt) →
    Stmt.anyReturnsValue ss = (Stmt.ownReturnsAll ss).any (·.value.isSome)
  | [] => rfl
  | s :: ss => by
      rw [Stmt.anyReturnsValue, Stmt.ownReturnsAll, List.any_append,
        Stmt.returnsValue_eq_any s, Stmt.anyReturnsValue_eq_any ss]

end

/-- Without an annotation, the result of a function is settled by the
`return`s that belong to it. -/
theorem FunctionDef.ret_signature {f : FunctionDef} (h : f.result = none) :
    f.signature.ret = f.inferred := by
  rw [signature, Signature.of, h, inferred, returns, ← Stmt.anyReturnsValue_eq_any]
  rfl

-- ===================================================== the second search

theorem Stmt.ownReturnsAll_eq_flatMap (ss : List Stmt) :
    Stmt.ownReturnsAll ss = ss.flatMap Stmt.ownReturns := by
  induction ss with
  | nil => rfl
  | cons s ss ih => rw [Stmt.ownReturnsAll, ih, List.flatMap_cons]

theorem FunctionDef.returns_eq_flatMap (f : FunctionDef) :
    f.returns = f.stmt.children.flatMap Stmt.ownReturns :=
  Stmt.ownReturnsAll_eq_flatMap f.body

theorem Stmt.ownReturns_eq_append {s : Stmt} (h : s.function? = none) :
    s.ownReturns = s.return?.toList ++ s.children.flatMap Stmt.ownReturns := by
  cases s with
  | function => cases h
  | block t q ss => exact Stmt.ownReturnsAll_eq_flatMap ss
  | ifElse t c a b =>
      cases b with
      | none => simp [ownReturns, return?, children]
      | some b => simp [ownReturns, return?, children]
  | «while» t c b => simp [ownReturns, return?, children]
  | declaration | assignment | ret | expr => rfl

/-- The `return` that a statement is, with the nearest function around. -/
def returningWithin (w : Stmt × Option FunctionDef) : Option (Return × Option FunctionDef) :=
  w.1.return?.map (·, w.2)

/-- The `return`s of a function, each with the function. -/
def FunctionDef.returning (f : FunctionDef) : List (Return × Option FunctionDef) :=
  f.returns.map (·, some f)

/-- Children that are handed some function hold `return`s of it and those of
their own functions. -/
theorem Stmt.perm_returning_children {cs : List Stmt} {around : Option FunctionDef}
    (h : ∀ c ∈ cs, ((c.within around).filterMap returningWithin).Perm
      (c.ownReturns.map (·, around) ++ c.functions.flatMap FunctionDef.returning)) :
    ((cs.flatMap (Stmt.within around)).filterMap returningWithin).Perm
      ((cs.flatMap Stmt.ownReturns).map (·, around)
        ++ (cs.flatMap Stmt.functions).flatMap FunctionDef.returning) := by
  rw [List.filterMap_flatMap, List.map_flatMap, List.flatMap_assoc]
  exact (List.Perm.flatMap_left cs h).trans (List.flatMap_append_perm cs _ _).symm

/-- The `return`s in a statement are those of what is around it and those of
its functions. -/
theorem Stmt.perm_returning (s : Stmt) (around : Option FunctionDef) :
    ((s.within around).filterMap returningWithin).Perm
      (s.ownReturns.map (·, around) ++ s.functions.flatMap FunctionDef.returning) := by
  induction s using Stmt.childrenRec generalizing around with
  | step s ih =>
      have hchildren := fun around => perm_returning_children fun c hc => ih c hc around
      rw [within_eq_cons, functions_eq_append]
      cases hs : s.function? with
      | some f =>
          obtain rfl := Stmt.function?_eq_some.mp hs
          have hfunction := hchildren (some f)
          rw [← f.returns_eq_flatMap] at hfunction
          exact hfunction
      | none =>
          rw [ownReturns_eq_append hs, List.map_append]
          have hothers := hchildren around
          cases hr : s.return? with
          | none =>
              rw [List.filterMap_cons_none (by rw [returningWithin, hr]; rfl)]
              exact hothers
          | some r =>
              rw [List.filterMap_cons_some (b := (r, around))
                (by rw [returningWithin, hr]; rfl)]
              exact hothers.cons _

/-- The `return`s of a program are those outside of all functions and those of
its functions. -/
theorem Program.perm_returning (p : Program) :
    (p.within.filterMap returningWithin).Perm
      ((Stmt.ownReturnsAll p.body).map (·, none)
        ++ p.functions.flatMap FunctionDef.returning) := by
  rw [within, Stmt.withinAll_eq_flatMap, Stmt.ownReturnsAll_eq_flatMap,
    functions_eq_flatMap]
  exact Stmt.perm_returning_children fun s _ => s.perm_returning none

/-- Where identities are distinct, a `return` is within the function that is
found around it. -/
theorem Program.returning_within {p : Program} (hids : p.ids.Nodup) :
    p.within.filterMap returningWithin
      = p.returns.map fun r => (r, p.functionAround r.stmt) := by
  have hown : ∀ w ∈ p.within, returningWithin w
      = w.1.return?.map fun r => (r, p.functionAround r.stmt) := by
    intro w hw
    rw [returningWithin]
    cases hr : w.1.return? with
    | none => rfl
    | some r =>
        have haround := functionAround_of_within hids hw
        rw [Stmt.return?_eq_some.mp hr] at haround
        rw [Option.map_some, Option.map_some, haround]
  rw [List.filterMap_congr hown, returns, ← map_fst_within, List.filterMap_map,
    List.map_filterMap]
  rfl

/-- A `return` that belongs to a function has this function around it. -/
theorem Program.functionAround_of_returns {p : Program} {f : FunctionDef} {r : Return}
    (hids : p.ids.Nodup) (hf : f ∈ p.functions) (hr : r ∈ f.returns) :
    r ∈ p.returns ∧ p.functionAround r.stmt = some f := by
  have hown : (r, some f) ∈ p.functions.flatMap FunctionDef.returning :=
    List.mem_flatMap.mpr ⟨f, hf, List.mem_map_of_mem hr⟩
  have hwithin := p.perm_returning.mem_iff.mpr (List.mem_append_right _ hown)
  rw [returning_within hids] at hwithin
  obtain ⟨r', hr', heq⟩ := List.mem_map.mp hwithin
  obtain ⟨rfl, haround⟩ := Prod.mk.inj heq
  exact ⟨hr', haround⟩

/-- Where identities are distinct, a `return` is told by its identity. -/
theorem Program.return_eq_of_id {p : Program} {r r' : Return} (hids : p.ids.Nodup)
    (hr : r ∈ p.returns) (hr' : r' ∈ p.returns) (h : r.tag.id = r'.tag.id) : r = r' := by
  have hstmt : r.stmt = r'.stmt :=
    stmt_eq_of_id hids (mem_returns.mp hr) (mem_returns.mp hr') h
  exact Option.some.inj (congrArg Stmt.return? hstmt)

-- ============================================================ findings

/-- What is found about a `return` in a function with a certain result, by
the type that an analysis has recorded for the value. -/
def Return.mismatches (a : Analysis) (r : Return) (ret : Ty) : List Finding :=
  match r.value with
  | some e =>
    if ret.accepts (a.type e) then []
    else [⟨.badReturn ret (a.type e), e.position, none⟩]
  | none =>
    if ret == .void || ret.isPermissive then []
    else [⟨.missingReturn ret, r.tag.position, none⟩]

/-- How it is shown that a `return` does not fit a certain result. -/
def Return.mismatchDiagnostics (a : Analysis) (r : Return) (ret : Ty) : List Diagnostic :=
  match r.value with
  | some e =>
    if ret.accepts (a.type e) then []
    else [⟨.error, .typeMismatch,
      s!"mismatched return type: expected '{ret.display}', found '{(a.type e).display}'",
      e.position, none⟩]
  | none =>
    if ret == .void || ret.isPermissive then []
    else [⟨.error, .typeMismatch,
      s!"missing return value: function returns '{ret.display}'", r.tag.position, none⟩]

theorem Return.diagnostic_mismatches (a : Analysis) (r : Return) (ret : Ty) :
    (r.mismatches a ret).map Finding.diagnostic = r.mismatchDiagnostics a ret := by
  unfold mismatches mismatchDiagnostics
  split
  all_goals split <;> rfl

/-- What is found about a `return` outside of all functions. -/
def Return.strayFinding (r : Return) : Finding := ⟨.returnOutside, r.tag.position, none⟩

/-- How it is shown that a `return` is outside of all functions. -/
def Return.strayDiagnostic (r : Return) : Diagnostic :=
  ⟨.error, .returnOutsideFunction, "'return' outside of a function", r.tag.position, none⟩

/-- What is found about a `return` by the result of the function around it. -/
def Return.findings (a : Analysis) (r : Return) (expected : Option Ty) : List Finding :=
  expected.elim [r.strayFinding] (r.mismatches a)

/-- Whether a cause is that a returned or missing value does not fit. -/
def Cause.isMismatchedReturn : Cause → Bool
  | .badReturn _ _ | .missingReturn _ => true
  | _ => false

/-- Of the mismatches of types, those about returned and missing values are told
by their first letter. -/
theorem Finding.isMismatch_return (f : Finding) :
    f.diagnostic.isMismatch ['m'] = f.cause.isMismatchedReturn := by
  rw [f.isMismatch_diagnostic]
  cases f.cause with
  | badCondition construct => cases construct <;> rfl
  | _ => rfl

/-- Whether a cause is that a `return` is outside of all functions. -/
def Cause.isStrayReturn (c : Cause) : Bool := c.kind = .returnOutsideFunction

theorem Return.mismatched_of_mismatches {a : Analysis} {r : Return} {ret : Ty}
    {f : Finding} (h : f ∈ r.mismatches a ret) :
    f.cause.isMismatchedReturn = true ∧ f.cause.isStrayReturn = false := by
  rw [mismatches] at h
  split at h
  all_goals
    split at h
    case isTrue => cases h
    case isFalse =>
      rw [List.mem_singleton.mp h]
      exact ⟨rfl, rfl⟩

/-- Of what is found about a `return`, what is about its value. -/
theorem Return.filter_mismatched (a : Analysis) (r : Return) (expected : Option Ty) :
    (r.findings a expected).filter (·.cause.isMismatchedReturn)
      = expected.elim [] (r.mismatches a) := by
  cases expected with
  | none => rfl
  | some ret => exact List.filter_eq_self.mpr fun f hf => (mismatched_of_mismatches hf).1

/-- Of what is found about a `return`, what is about where it is. -/
theorem Return.filter_stray (a : Analysis) (r : Return) (expected : Option Ty) :
    (r.findings a expected).filter (·.cause.isStrayReturn)
      = if expected.isNone then [r.strayFinding] else [] := by
  cases expected with
  | none => rfl
  | some ret =>
      refine List.filter_eq_nil_iff.mpr fun f hf => ?_
      simp [(mismatched_of_mismatches hf).2]

/-- Joining over what passes a test is joining over everything, where what does
not pass adds nothing. -/
theorem flatMap_filter {α β : Type} (c : α → Bool) (g : α → List β) (xs : List α) :
    (xs.filter c).flatMap g = xs.flatMap fun x => if c x then g x else [] := by
  induction xs with
  | nil => rfl
  | cons x xs ih =>
      rw [List.filter_cons, List.flatMap_cons, ← ih]
      split <;> rfl

/-- Whatever they return, the `return`s of a function without an annotation
fit. -/
theorem FunctionDef.mismatches_eq_nil {f : FunctionDef} {r : Return} (a : Analysis)
    (h : f.result = none) (hr : r ∈ f.returns) :
    r.mismatches a f.signature.ret = [] := by
  rw [ret_signature h, inferred, Return.mismatches]
  cases hany : f.returns.any (·.value.isSome) with
  | true => cases r.value <;> rfl
  | false =>
      have hvalue : r.value.isSome = false := by
        simpa using List.any_eq_false.mp hany r hr
      rw [Option.isSome_eq_false_iff, Option.isNone_iff_eq_none] at hvalue
      rw [hvalue]
      rfl

end TreeCheck
