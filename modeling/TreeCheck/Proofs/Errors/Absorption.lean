/-
How far an error spreads through an expression.

An operator with an operand of type `error` has type `error` itself, and
nothing is found about it. So has a call whose callee is an error. An
argument is different: it fits every parameter, and what the call gives
is settled by the callee alone. A call therefore hides the error of an
argument from what is around it, and its own faults are found all the
same (`Program.error_absorption`).
-/
import TreeCheck.Proofs.Errors.Complaints

namespace TreeCheck

open Analysis

-- ============================================================ operators

theorem Ty.binary?_of_error {op : BinaryOp} {l r : Ty}
    (h : l = .error ∨ r = .error) : l.binary? op r = some .error := by
  rw [Ty.binary?, if_pos]
  rwa [Bool.or_eq_true, beq_iff_eq, beq_iff_eq]

-- ================================================================ calls

namespace Expr

variable {a : Analysis}

theorem argumentComplaints_eq_nil {callee : Option String} {index : Nat}
    {ps : List Ty} {args : List Expr} (hlength : ps.length = args.length) :
    argumentComplaints a callee index ps args = []
      ↔ List.Forall₂ (fun p arg => p.accepts (a.type arg) = true) ps args := by
  induction ps generalizing index args with
  | nil =>
      obtain rfl := List.length_eq_zero_iff.mp hlength.symm
      exact iff_of_true rfl .nil
  | cons p ps ih =>
      cases args with
      | nil => cases hlength
      | cons arg args =>
          rw [argumentComplaints, List.append_eq_nil_iff, reasonUnless_eq_nil,
            ih (Nat.succ.inj hlength), List.forall₂_cons]

/-- A call of a function is not complained about if the arguments fit the
parameters, one by one. -/
theorem callComplaints_func_eq_nil {t : Tag} {f : Expr} {args : List Expr}
    {ps : List Ty} {r : Ty} :
    callComplaints a t f args (.func ps r) = []
      ↔ List.Forall₂ (fun p arg => p.accepts (a.type arg) = true) ps args := by
  rw [callComplaints]
  split
  case isTrue hlength => exact argumentComplaints_eq_nil hlength
  case isFalse hlength =>
    refine iff_of_false (List.cons_ne_nil _ _) fun h => ?_
    exact hlength h.length_eq

/-- Whether an expression lets an error of one of its parts through: an
operator always, a call only where its callee alone makes it an error
and nothing is wrong with it. -/
def Absorbs (a : Analysis) : Expr → Prop
  | .call _ f args =>
    a.type f = .error
      ∨ ∃ ps, a.type f = .func ps .error
        ∧ List.Forall₂ (fun p arg => p.accepts (a.type arg) = true) ps args
  | .literal _ _ | .identifier _ _ | .binary _ _ _ _ | .unary _ _ _ => True

end Expr

section

variable {config : Config} {p : Program} {a : Analysis} {ρ : Lookup} {e : Expr}

/-- The type of an expression comes from the types of its parts as the
tables hold them. -/
theorem Program.type_of_call {t : Tag} {f : Expr} {args : List Expr}
    (h : p.analyze config = .ok a)
    (hn : (ρ, .call t f args) ∈ p.nodes config) :
    a.type (.call t f args) = (a.type f).result := by
  have hf : f ∈ (Expr.call t f args).parts := List.mem_cons_self
  rw [type_of_node h hn, type_of_part h hn hf, Expr.typeIn]

/-- A call is an error without complaint exactly if it absorbs one. -/
theorem Program.call_absorbs {t : Tag} {f : Expr} {args : List Expr}
    (h : p.analyze config = .ok a)
    (hn : (ρ, .call t f args) ∈ p.nodes config) :
    (a.type (.call t f args) = .error
        ∧ Expr.complaints a (.call t f args) = [])
      ↔ Expr.Absorbs a (.call t f args) := by
  rw [type_of_call h hn, Expr.complaints, Expr.Absorbs]
  cases hf : a.type f with
  | func ps r =>
      rw [Expr.callComplaints_func_eq_nil, Ty.result]
      constructor
      · intro hcall
        obtain ⟨rfl, hargs⟩ := hcall
        exact .inr ⟨ps, rfl, hargs⟩
      · intro habsorbs
        rcases habsorbs with herror | ⟨qs, hfunc, hargs⟩
        · cases herror
        · injection hfunc with hps hr
          subst hps hr
          exact ⟨rfl, hargs⟩
  | error => exact iff_of_true ⟨rfl, rfl⟩ (.inl rfl)
  | unknown =>
      refine iff_of_false (fun hcall => ?_) fun habsorbs => ?_
      · cases hcall.1
      · rcases habsorbs with herror | ⟨_, hfunc, -⟩
        · cases herror
        · cases hfunc
  | int | float | bool | string | void =>
      refine iff_of_false (fun hcall => ?_) fun habsorbs => ?_
      · cases hcall.2
      · rcases habsorbs with herror | ⟨_, hfunc, -⟩
        · cases herror
        · cases hfunc

/-- How far an error spreads. In a completed analysis, the findings about
expressions are the complaints at the nodes of the program, each once;
and if a direct part of an expression is recorded as an error, the
expression is recorded as an error without a complaint at its node
exactly if it absorbs the error, which every operator does. The
complaints are shown as errors, each once, and nothing else is shown
about expressions. -/
theorem Program.error_absorption (h : p.analyze config = .ok a) :
    ((a.findings.filter (·.cause.concern = .expression)).map
        Finding.reason).Perm (p.exprs.flatMap (Expr.complaints a))
      ∧ (∀ e ∈ p.exprs, (∃ part ∈ e.parts, a.types[part.id]? = some .error) →
          (a.types[e.id]? = some .error ∧ e.complaints a = []
            ↔ e.Absorbs a))
      ∧ ((a.diagnostics.filter Diagnostic.isAboutExpression).map Diagnostic.shown).Perm
        ((p.exprs.flatMap (Expr.complaints a)).map complaintShown) := by
  refine ⟨perm_complaints h, fun e he hpart => ?_, perm_complaints_diagnostics h⟩
  obtain ⟨ρ, hn⟩ := exists_node config he
  obtain ⟨part, hpart, herror⟩ := hpart
  have htype : a.types[e.id]? = some .error ↔ a.type e = .error := by
    rw [type_of_node h hn, types_of_node h hn, Option.some.injEq]
  have hpartType : a.type part = .error := by
    rw [Analysis.type, herror]
    rfl
  rw [htype]
  cases e with
  | literal | identifier => cases hpart
  | binary t op l r =>
      refine iff_of_true ?_ trivial
      have hside : a.type l = .error ∨ a.type r = .error := by
        rcases List.mem_cons.mp hpart with rfl | hpart
        · exact .inl hpartType
        · rw [← List.mem_singleton.mp hpart]
          exact .inr hpartType
      have hresult : (a.type l).binary? op (a.type r) = some .error :=
        Ty.binary?_of_error hside
      have hl : l ∈ (Expr.binary t op l r).parts := List.mem_cons_self
      have hr : r ∈ (Expr.binary t op l r).parts :=
        List.mem_cons_of_mem _ List.mem_cons_self
      constructor
      · rw [type_of_node h hn, Expr.typeIn, ← type_of_part h hn hl,
          ← type_of_part h hn hr, hresult]
        rfl
      · rw [Expr.complaints, hresult]
        rfl
  | unary t op operand =>
      refine iff_of_true ?_ trivial
      obtain rfl := List.mem_singleton.mp hpart
      constructor
      · rw [type_of_node h hn, Expr.typeIn,
          ← type_of_part h hn hpart, hpartType]
        rfl
      · rw [Expr.complaints, hpartType]
        rfl
  | call t f args => exact call_absorbs h hn

end

-- =========================================================== an argument

/-- A call with a name for an argument that nothing binds. -/
def Expr.callOnMissing : Expr :=
  .call ⟨2, ⟨2, 1⟩⟩ (.identifier ⟨3, ⟨2, 1⟩⟩ "f")
    [.identifier ⟨4, ⟨2, 3⟩⟩ "missing"]

/-- A function that gives an integer, and the call. -/
def Program.missingArgument : Program :=
  ⟨[.function ⟨0, ⟨1, 1⟩⟩ "f" [⟨"_n", some ⟨"int", ⟨1, 12⟩⟩, ⟨1, 8⟩⟩]
      (some ⟨"int", ⟨1, 20⟩⟩) ⟨1, 24⟩ [],
    .expr ⟨1, ⟨2, 1⟩⟩ .callOnMissing],
    .start⟩

theorem Program.callOnMissing_mem : Expr.callOnMissing ∈ missingArgument.exprs :=
  List.mem_cons_self

/-- The argument is an error; the call has the result type of the
function. -/
theorem Program.types_missingArgument :
    ∃ a, missingArgument.analyze {} = .ok a
      ∧ (∃ part ∈ Expr.callOnMissing.parts, a.types[part.id]? = some .error)
      ∧ a.types[Expr.callOnMissing.id]? = some .int
      ∧ a.type (.identifier ⟨3, ⟨2, 1⟩⟩ "f") = .func [.int] .int :=
  ⟨_, rfl, ⟨_, List.mem_cons_of_mem _ List.mem_cons_self, rfl⟩, rfl, rfl⟩

/-- The call does not absorb the error of its argument. -/
theorem Program.error_absorption_missingArgument :
    ∃ a, missingArgument.analyze {} = .ok a
      ∧ (∃ part ∈ Expr.callOnMissing.parts, a.types[part.id]? = some .error)
      ∧ ¬ (a.types[Expr.callOnMissing.id]? = some .error
        ∧ Expr.callOnMissing.complaints a = []) := by
  obtain ⟨a, ha, hpart, -, hcallee⟩ := types_missingArgument
  refine ⟨a, ha, hpart, ?_⟩
  rw [(error_absorption ha).2.1 _ callOnMissing_mem hpart]
  rintro (hcall | ⟨ps, hcall, -⟩)
  · rw [hcallee] at hcall
    cases hcall
  · rw [hcallee] at hcall
    cases hcall

/-- An error does not always make what is around it an error. -/
theorem Program.missingArgument_not_absorbed :
    ¬ ∀ (config : Config) (p : Program) (a : Analysis),
      p.analyze config = .ok a → ∀ e ∈ p.exprs,
        (∃ part ∈ e.parts, a.types[part.id]? = some .error) →
        a.types[e.id]? = some .error ∧ e.complaints a = [] := by
  intro h
  obtain ⟨a, ha, hpart, hcall, -⟩ := types_missingArgument
  have herror := (h {} missingArgument a ha _ callOnMissing_mem hpart).1
  rw [hcall] at herror
  cases herror

end TreeCheck
