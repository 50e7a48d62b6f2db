/-
What the tables of an analysis say about an expression, rule by rule.

`Expr.Judged` has a rule for each way in which the type of an expression
comes from the types recorded for its parts, and with the type the rule
gives what there is to complain about at the expression. Nothing in it
refers to a run: a rule reads the final tables, and can be read without
the analysis. Every expression of an analyzed program is judged by a
rule, and what the rules complain about is all that typing expressions
reports (`Program.judged_exprs`).
-/
import TreeCheck.Proofs.Errors.Complaints

namespace TreeCheck

open Analysis

-- =========================================================== judgements

namespace Expr

/-- Arguments are judged against the parameters from the one with a given
index on: one that does not fit is complained about at its own place. -/
inductive ArgumentsJudged (a : Analysis) (callee : Option String) :
    Nat → List Ty → List Expr → List (Cause × Position) → Prop where
  | nil (index : Nat) : ArgumentsJudged a callee index [] [] []
  | fits {index : Nat} {p found : Ty} {ps : List Ty} {arg : Expr} {args : List Expr}
      {cs : List (Cause × Position)} (type : a.types[arg.id]? = some found)
      (accepts : p.accepts found = true)
      (rest : ArgumentsJudged a callee (index + 1) ps args cs) :
      ArgumentsJudged a callee index (p :: ps) (arg :: args) cs
  | misfits {index : Nat} {p found : Ty} {ps : List Ty} {arg : Expr}
      {args : List Expr} {cs : List (Cause × Position)}
      (type : a.types[arg.id]? = some found) (rejects : p.accepts found = false)
      (rest : ArgumentsJudged a callee (index + 1) ps args cs) :
      ArgumentsJudged a callee index (p :: ps) (arg :: args)
        ((.badArgument callee index p found, arg.position) :: cs)

/-- An expression has a type by the types that are recorded for its parts,
and some complaints are made at it. -/
inductive Judged (a : Analysis) : Expr → Ty → List (Cause × Position) → Prop where
  | literal (t : Tag) (v : Literal) : Judged a (.literal t v) (literalType v) []
  | resolved {t : Tag} {k : SymbolId} (x : String) (ty : Ty)
      (resolution : a.resolutions[t.id]? = some k) :
      Judged a (.identifier t x) ty []
  | undefined {t : Tag} (x : String) (resolution : a.resolutions[t.id]? = none) :
      Judged a (.identifier t x) .error [(.undefined x, t.position)]
  | binary {t : Tag} {op : BinaryOp} {l r : Expr} {left right ty : Ty}
      (leftType : a.types[l.id]? = some left)
      (rightType : a.types[r.id]? = some right)
      (result : left.binary? op right = some ty) :
      Judged a (.binary t op l r) ty []
  | badOperands {t : Tag} {op : BinaryOp} {l r : Expr} {left right : Ty}
      (leftType : a.types[l.id]? = some left)
      (rightType : a.types[r.id]? = some right)
      (result : left.binary? op right = none) :
      Judged a (.binary t op l r) .error [(.badOperands op left right, t.position)]
  | unary {t : Tag} {op : UnaryOp} {e : Expr} {operand ty : Ty}
      (operandType : a.types[e.id]? = some operand)
      (result : operand.unary? op = some ty) : Judged a (.unary t op e) ty []
  | badOperand {t : Tag} {op : UnaryOp} {e : Expr} {operand : Ty}
      (operandType : a.types[e.id]? = some operand)
      (result : operand.unary? op = none) :
      Judged a (.unary t op e) .error [(.badOperand op operand, t.position)]
  | call {t : Tag} {f : Expr} {args : List Expr} {ps : List Ty} {r : Ty}
      {cs : List (Cause × Position)} (callee : a.types[f.id]? = some (.func ps r))
      (arguments : ArgumentsJudged a f.name? 1 ps args cs) :
      Judged a (.call t f args) r cs
  | wrongArity {t : Tag} {f : Expr} {args : List Expr} {ps : List Ty} {r : Ty}
      (callee : a.types[f.id]? = some (.func ps r))
      (count : ps.length ≠ args.length) :
      Judged a (.call t f args) r
        [(.wrongArity f.name? ps.length args.length, t.position)]
  | errorCallee {t : Tag} {f : Expr} {args : List Expr}
      (callee : a.types[f.id]? = some .error) : Judged a (.call t f args) .error []
  | unknownCallee {t : Tag} {f : Expr} {args : List Expr}
      (callee : a.types[f.id]? = some .unknown) :
      Judged a (.call t f args) .unknown []
  | notCallable {t : Tag} {f : Expr} {args : List Expr} {found : Ty}
      (callee : a.types[f.id]? = some found) (known : found.isPermissive = false)
      (noFunction : ∀ ps r, found ≠ .func ps r) :
      Judged a (.call t f args) .error [(.notCallable found, f.position)]

end Expr

-- ================================================= judging by the tables

section

variable {config : Config} {p : Program} {a : Analysis} {ρ : Lookup} {e : Expr}

theorem Program.types_of_part {part : Expr} (h : p.analyze config = .ok a)
    (hn : (ρ, e) ∈ p.nodes config) (hpart : part ∈ e.parts) :
    a.types[part.id]? = some (a.type part) := by
  rw [type_of_part h hn hpart]
  exact types_of_node h (node_of_part hn hpart)

/-- Arguments of the right number, all of them recorded, are judged with
the complaints that the tables make of them. -/
theorem Expr.argumentsJudged_complaints {callee : Option String} {index : Nat}
    {ps : List Ty} {args : List Expr} (hlength : ps.length = args.length)
    (htypes : ∀ arg ∈ args, a.types[arg.id]? = some (a.type arg)) :
    ArgumentsJudged a callee index ps args
      (argumentComplaints a callee index ps args) := by
  induction ps generalizing index args with
  | nil =>
      obtain rfl := List.length_eq_zero_iff.mp hlength.symm
      exact .nil index
  | cons p ps ih =>
      cases args with
      | nil => cases hlength
      | cons arg args =>
          rw [List.forall_mem_cons] at htypes
          have hrest : ArgumentsJudged a callee (index + 1) ps args
              (argumentComplaints a callee (index + 1) ps args) :=
            ih (Nat.succ.inj hlength) htypes.2
          rw [argumentComplaints]
          cases haccepts : p.accepts (a.type arg) with
          | true => exact .fits htypes.1 haccepts hrest
          | false => exact .misfits htypes.1 haccepts hrest

/-- A call is judged by the type that is recorded for its callee. -/
theorem Expr.judged_call {t : Tag} {f : Expr} {args : List Expr}
    (htypes : ∀ part ∈ f :: args, a.types[part.id]? = some (a.type part)) :
    Judged a (.call t f args) (a.type f).result (callComplaints a t f args (a.type f)) := by
  obtain ⟨hf, hargs⟩ := List.forall_mem_cons.mp htypes
  cases hty : a.type f with
  | func ps r =>
      rw [hty] at hf
      rw [callComplaints]
      split
      case isTrue hlength =>
        exact .call hf (argumentsJudged_complaints hlength hargs)
      case isFalse hlength => exact .wrongArity hf hlength
  | error => exact .errorCallee (hf.trans (congrArg some hty))
  | unknown => exact .unknownCallee (hf.trans (congrArg some hty))
  | int | float | bool | string | void =>
      refine .notCallable (hf.trans (congrArg some hty)) rfl fun _ _ hfunc => ?_
      cases hfunc

/-- A node is judged by a rule: its recorded type and the complaints at it
are those of the rule. -/
theorem Program.judged_of_node (h : p.analyze config = .ok a)
    (hn : (ρ, e) ∈ p.nodes config) : e.Judged a (a.type e) (e.complaints a) := by
  have hpart {part : Expr} (hp : part ∈ e.parts) := types_of_part h hn hp
  have htype := type_of_node h hn
  cases e with
  | literal t v =>
      rw [htype]
      exact .literal t v
  | identifier t x =>
      rw [htype, Expr.complaints]
      have hresolution := resolutions_of_node h hn
      cases hx : ρ x with
      | none =>
          rw [hx] at hresolution
          rw [hresolution, Expr.typeIn, hx]
          exact .undefined x hresolution
      | some d =>
          rw [hx] at hresolution
          rw [hresolution]
          exact .resolved x _ hresolution
  | binary t op l r =>
      have hl : l ∈ (Expr.binary t op l r).parts := List.mem_cons_self
      have hr : r ∈ (Expr.binary t op l r).parts :=
        List.mem_cons_of_mem _ List.mem_cons_self
      rw [htype, Expr.typeIn, ← type_of_part h hn hl, ← type_of_part h hn hr,
        Expr.complaints]
      cases hresult : (a.type l).binary? op (a.type r) with
      | some ty => exact .binary (hpart hl) (hpart hr) hresult
      | none => exact .badOperands (hpart hl) (hpart hr) hresult
  | unary t op operand =>
      have ho : operand ∈ (Expr.unary t op operand).parts := List.mem_cons_self
      rw [htype, Expr.typeIn, ← type_of_part h hn ho, Expr.complaints]
      cases hresult : (a.type operand).unary? op with
      | some ty => exact .unary (hpart ho) hresult
      | none => exact .badOperand (hpart ho) hresult
  | call t f args =>
      have hf : f ∈ (Expr.call t f args).parts := List.mem_cons_self
      rw [htype, Expr.typeIn, ← type_of_part h hn hf]
      exact Expr.judged_call fun part hmem => hpart hmem

end

-- ============================================================= reporting

/-- Every state resolves names in some way. -/
theorem Analysis.exists_resolves (s : State) : ∃ ρ, Resolves s ρ := by
  refine ⟨fun x => (s.table.resolve x).map (⟨·, .stmt 0⟩), fun x => ?_⟩
  cases hx : s.table.resolve x <;> simp [hx]

/-- Whatever the state, typing an expression reports nothing but complaints
about expressions. -/
theorem Analysis.findings_of_typeOf {ctx : Context} {e : Expr} {s s' : State} {ty : Ty}
    (h : Completes (typeOf ctx e) s ty s') :
    ∃ fs, s'.findings.toList = s.findings.toList ++ fs
      ∧ ∀ f ∈ fs, f.cause.concern = .expression := by
  obtain ⟨ρ, hρ⟩ := exists_resolves s
  obtain ⟨-, rfl⟩ := completes_typeOf ρ e hρ h
  refine ⟨_, toList_findings_replay s (e.events ρ), fun f hf => ?_⟩
  obtain ⟨ev, hev, hfound⟩ := List.mem_filterMap.mp hf
  cases ev with
  | found node g =>
      obtain rfl := Option.some.inj hfound
      exact Expr.concern_of_events hev
  | typed | resolved | read | bound => cases hfound

section

variable {config : Config} {p : Program} {a : Analysis}

/-- In a completed analysis every expression has a recorded type, by a rule
that reads the types recorded for its parts; what the rules complain
about is each time one finding, and there are no other findings about
expressions; and nothing but such findings comes from typing one. Each of
them is shown as an error with the message of the complaint. -/
theorem Program.judged_exprs (h : p.analyze config = .ok a) :
    (∀ e ∈ p.exprs, ∃ ty, a.types[e.id]? = some ty
        ∧ e.Judged a ty (e.complaints a))
      ∧ ((a.findings.filter (·.cause.concern = .expression)).map
          Finding.reason).Perm (p.exprs.flatMap (Expr.complaints a))
      ∧ (∀ {ctx : Context} {e : Expr} {s s' : State} {ty : Ty},
          Completes (typeOf ctx e) s ty s' →
          ∃ fs, s'.findings.toList = s.findings.toList ++ fs
            ∧ ∀ f ∈ fs, f.cause.concern = .expression)
      ∧ ((a.diagnostics.filter Diagnostic.isAboutExpression).map Diagnostic.shown).Perm
        ((p.exprs.flatMap (Expr.complaints a)).map complaintShown) := by
  refine ⟨fun e he => ?_, perm_complaints h, findings_of_typeOf,
    perm_complaints_diagnostics h⟩
  obtain ⟨ρ, hn⟩ := exists_node config he
  refine ⟨a.type e, ?_, judged_of_node h hn⟩
  rw [type_of_node h hn]
  exact types_of_node h hn

/-- A call with two arguments in the wrong order. -/
def Expr.swappedCall : Expr :=
  .call ⟨6, ⟨2, 2⟩⟩ (.identifier ⟨7, ⟨2, 2⟩⟩ "f")
    [.literal ⟨8, ⟨2, 4⟩⟩ (.string "a"), .literal ⟨9, ⟨2, 9⟩⟩ (.int 1)]

/-- A function and ways to misuse it: operands that do not fit, a negated
call with its arguments swapped, in a block a call of a parameter
without an annotation and one with an argument too few, a call of what
an undefined name gives, and a call of a number. -/
def Program.misused : Program :=
  ⟨[.function ⟨0, ⟨1, 1⟩⟩ "f"
      [⟨"x", some ⟨"int", ⟨1, 8⟩⟩, ⟨1, 5⟩⟩, ⟨"y", some ⟨"string", ⟨1, 16⟩⟩, ⟨1, 13⟩⟩]
      (some ⟨"int", ⟨1, 25⟩⟩) ⟨1, 29⟩
      [.ret ⟨1, ⟨1, 31⟩⟩ (some (.binary ⟨2, ⟨1, 38⟩⟩ .add
        (.identifier ⟨3, ⟨1, 38⟩⟩ "x") (.identifier ⟨4, ⟨1, 42⟩⟩ "y")))],
    .expr ⟨5, ⟨2, 1⟩⟩ (.unary ⟨10, ⟨2, 1⟩⟩ .neg .swappedCall),
    .block ⟨11, ⟨3, 1⟩⟩ ⟨3, 1⟩
      [.function ⟨12, ⟨3, 3⟩⟩ "g" [⟨"h", none, ⟨3, 7⟩⟩] none ⟨3, 10⟩
        [.expr ⟨13, ⟨3, 12⟩⟩ (.call ⟨14, ⟨3, 12⟩⟩ (.identifier ⟨15, ⟨3, 12⟩⟩ "h")
          [.literal ⟨16, ⟨3, 14⟩⟩ (.int 1)])],
      .expr ⟨17, ⟨4, 3⟩⟩ (.unary ⟨18, ⟨4, 3⟩⟩ .not
        (.call ⟨19, ⟨4, 4⟩⟩ (.identifier ⟨20, ⟨4, 4⟩⟩ "f")
          [.literal ⟨21, ⟨4, 6⟩⟩ (.int 1)]))],
    .expr ⟨22, ⟨5, 1⟩⟩ (.call ⟨23, ⟨5, 1⟩⟩
      (.call ⟨24, ⟨5, 1⟩⟩ (.identifier ⟨25, ⟨5, 1⟩⟩ "missing")
        [.literal ⟨26, ⟨5, 9⟩⟩ (.int 2)]) []),
    .expr ⟨27, ⟨6, 1⟩⟩ (.call ⟨28, ⟨6, 1⟩⟩ (.literal ⟨29, ⟨6, 1⟩⟩ (.int 3)) [])],
    .start⟩

/-- Both swapped arguments are complained about and the call has its type
all the same; seven complaints are all that typing expressions reports
here, and each is shown with its own message. -/
theorem Program.judged_exprs_misused :
    ∃ a, misused.analyze { warnUnused := false } = .ok a
      ∧ a.types[Expr.swappedCall.id]? = some .int
      ∧ Expr.swappedCall.Judged a .int
          [(.badArgument (some "f") 1 .int .string, ⟨2, 4⟩),
            (.badArgument (some "f") 2 .string .int, ⟨2, 9⟩)]
      ∧ [(Cause.badOperands .add .int .string, (⟨1, 38⟩ : Position)),
          (.badArgument (some "f") 1 .int .string, ⟨2, 4⟩),
          (.badArgument (some "f") 2 .string .int, ⟨2, 9⟩),
          (.wrongArity (some "f") 2 1, ⟨4, 4⟩), (.badOperand .not .int, ⟨4, 3⟩),
          (.undefined "missing", ⟨5, 1⟩), (.notCallable .int, ⟨6, 1⟩)].Perm
            (misused.exprs.flatMap (Expr.complaints a))
      ∧ [(Severity.error, DiagnosticKind.typeMismatch,
            "operator '+' cannot be applied to operands of type 'int' and 'string'",
            (⟨1, 38⟩ : Position)),
          (.error, .typeMismatch, "argument 1 of 'f' expects 'int', found 'string'", ⟨2, 4⟩),
          (.error, .typeMismatch, "argument 2 of 'f' expects 'string', found 'int'", ⟨2, 9⟩),
          (.error, .arityMismatch, "'f' expects 2 arguments, found 1", ⟨4, 4⟩),
          (.error, .typeMismatch,
            "operator '!' cannot be applied to operand of type 'int'", ⟨4, 3⟩),
          (.error, .undefinedIdentifier, "undefined identifier 'missing'", ⟨5, 1⟩),
          (.error, .typeMismatch, "value of type 'int' is not callable", ⟨6, 1⟩)].Perm
            ((a.diagnostics.filter Diagnostic.isAboutExpression).map Diagnostic.shown) := by
  obtain ⟨a, ha, hresults⟩ : ∃ a, misused.analyze { warnUnused := false } = .ok a
      ∧ (a.types[Expr.swappedCall.id]?, Expr.swappedCall.complaints a,
          (a.findings.filter (·.cause.concern = .expression)).map Finding.reason)
        = (some .int,
            [(.badArgument (some "f") 1 .int .string, ⟨2, 4⟩),
              (.badArgument (some "f") 2 .string .int, ⟨2, 9⟩)],
            [(.badOperands .add .int .string, ⟨1, 38⟩),
              (.badArgument (some "f") 1 .int .string, ⟨2, 4⟩),
              (.badArgument (some "f") 2 .string .int, ⟨2, 9⟩),
              (.wrongArity (some "f") 2 1, ⟨4, 4⟩), (.badOperand .not .int, ⟨4, 3⟩),
              (.undefined "missing", ⟨5, 1⟩), (.notCallable .int, ⟨6, 1⟩)]) :=
    analyze_ok_of_results (by decide +kernel)
  simp only [Prod.mk.injEq] at hresults
  obtain ⟨htype, hcomplaints, hreasons⟩ := hresults
  obtain ⟨hjudged, hperm, -, hshown⟩ := judged_exprs ha
  have hcallee : misused.exprs[4]? = some Expr.swappedCall := rfl
  have hmem : Expr.swappedCall ∈ misused.exprs := List.mem_of_getElem? hcallee
  obtain ⟨ty, hty, hcall⟩ := hjudged _ hmem
  obtain rfl : ty = .int := Option.some.inj (hty.symm.trans htype)
  rw [hcomplaints] at hcall
  rw [hreasons] at hperm
  refine ⟨a, ha, htype, hcall, hperm, .trans (.of_eq ?_) ((hperm.map _).trans hshown.symm)⟩
  decide +kernel

end

end TreeCheck
