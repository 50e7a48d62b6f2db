/-
The types that an analysis compares, and how deep.

Types are compared in five places: an initializer with its annotation, a
value with the variable it is assigned to, the value of a `return` with
the result of the function, an argument with its parameter, and the
operands of an equality with each other, in both directions
(`Program.Compares`). All of these types are shallow, whatever is found
in the program, so a comparison one level deep is a comparison at every
depth (`Program.compared_at_every_depth`).
-/
import TreeCheck.Proofs.Typing.Shallow
import TreeCheck.Proofs.Visits.Sight

namespace TreeCheck

open Analysis

-- ========================================================= comparisons

/-- The types that an analysis compares, a target with a value. -/
inductive Program.Compares (config : Config) (p : Program) (a : Analysis) :
    Ty → Ty → Prop where
  | initializer {t : Tag} {name : String} {ann : TypeName} {init : Expr} {m : Bool}
      {value : Ty} (stmt : .declaration t name (some ann) (some init) m ∈ p.stmts)
      (valueType : a.types[init.id]? = some value) :
      Compares config p a ann.valueType value
  | assigned {t u : Tag} {x : String} {e : Expr} {target value : Ty}
      (stmt : .assignment t (.identifier u x) e ∈ p.stmts)
      (targetType : a.types[u.id]? = some target)
      (valueType : a.types[e.id]? = some value) : Compares config p a target value
  | returned {t : Tag} {e : Expr} {ρ : Lookup} {result value : Ty}
      (visit : ⟨.ret t (some e), ρ, some result⟩ ∈ p.visits config)
      (valueType : a.types[e.id]? = some value) : Compares config p a result value
  | passed {t : Tag} {f arg : Expr} {args : List Expr} {ps : List Ty} {r : Ty} {i : Nat}
      {param value : Ty} (expr : .call t f args ∈ p.exprs)
      (callee : a.types[f.id]? = some (.func ps r)) (parameter : ps[i]? = some param)
      (argument : args[i]? = some arg) (valueType : a.types[arg.id]? = some value) :
      Compares config p a param value
  | operands {t : Tag} {op : BinaryOp} {l r : Expr} {left right : Ty}
      (expr : .binary t op l r ∈ p.exprs) (equality : op.operatorClass = .equality)
      (leftType : a.types[l.id]? = some left) (rightType : a.types[r.id]? = some right) :
      Compares config p a left right
  | swapped {t : Tag} {op : BinaryOp} {l r : Expr} {left right : Ty}
      (expr : .binary t op l r ∈ p.exprs) (equality : op.operatorClass = .equality)
      (leftType : a.types[l.id]? = some left) (rightType : a.types[r.id]? = some right) :
      Compares config p a right left

/-- A cause that tells a target and a value that does not fit it. -/
inductive Cause.Misfit : Cause → Ty → Ty → Prop where
  | initializer (name : String) (target value : Ty) :
      Misfit (.badInitializer name target value) target value
  | assigned (name : String) (target value : Ty) :
      Misfit (.badAssignment name target value) target value
  | returned (target value : Ty) : Misfit (.badReturn target value) target value
  | passed (callee : Option String) (index : Nat) (target value : Ty) :
      Misfit (.badArgument callee index target value) target value
  | operands {op : BinaryOp} (left right : Ty) (equality : op.operatorClass = .equality) :
      Misfit (.badOperands op left right) left right
  | swapped {op : BinaryOp} (left right : Ty) (equality : op.operatorClass = .equality) :
      Misfit (.badOperands op left right) right left

-- =========================================================== messages

/-- A message tells two types, one after the other, each by its name in quotes. -/
def Ty.ToldIn (a b : Ty) (message : String) : Prop :=
  ∃ before between after : String,
    message = before ++ ("'" ++ a.display ++ "'") ++ between ++ ("'" ++ b.display ++ "'")
      ++ after

namespace Cause

theorem Misfit.kind {c : Cause} {target value : Ty} (h : c.Misfit target value) :
    c.severity = .error ∧ c.kind = .typeMismatch := by
  cases h <;> exact ⟨rfl, rfl⟩

theorem toldIn_badOperands (op : BinaryOp) (left right : Ty) :
    left.ToldIn right (badOperands op left right).message := by
  refine ⟨"operator '" ++ op.symbol ++ "' cannot be applied to operands of type ", " and ",
    "", String.toList_inj.mp ?_⟩
  show ("operator '" ++ op.symbol ++ "' cannot be applied to operands of type '" ++ left.display
    ++ "' and '" ++ right.display ++ "'").toList = _
  simp

/-- The message about a value that does not fit its target tells both types, as they
come. -/
theorem Misfit.toldIn {c : Cause} {target value : Ty} (h : c.Misfit target value) :
    target.ToldIn value c.message ∨ value.ToldIn target c.message := by
  cases h with
  | initializer name =>
      refine .inl ⟨"cannot initialize '" ++ name ++ "' of type ", " with a value of type ", "",
        String.toList_inj.mp ?_⟩
      show ("cannot initialize '" ++ name ++ "' of type '" ++ target.display
        ++ "' with a value of type '" ++ value.display ++ "'").toList = _
      simp
  | assigned name =>
      refine .inr ⟨"cannot assign a value of type ", " to '" ++ name ++ "' of type ", "",
        String.toList_inj.mp ?_⟩
      show ("cannot assign a value of type '" ++ value.display ++ "' to '" ++ name
        ++ "' of type '" ++ target.display ++ "'").toList = _
      simp
  | returned =>
      refine .inl ⟨"mismatched return type: expected ", ", found ", "",
        String.toList_inj.mp ?_⟩
      show ("mismatched return type: expected '" ++ target.display ++ "', found '"
        ++ value.display ++ "'").toList = _
      simp
  | passed callee index =>
      refine .inl ⟨"argument " ++ toString index ++ " of '" ++ calleeName callee ++ "' expects ",
        ", found ", "", String.toList_inj.mp ?_⟩
      show ("argument " ++ toString index ++ " of '" ++ calleeName callee ++ "' expects '"
        ++ target.display ++ "', found '" ++ value.display ++ "'").toList = _
      simp
  | operands => exact .inl (toldIn_badOperands _ target value)
  | swapped => exact .inr (toldIn_badOperands _ value target)

end Cause

section

variable {config : Config} {p : Program} {a : Analysis} {target value : Ty}

-- ============================================================ shallow

/-- Whatever is recorded for an expression is shallow. -/
theorem Program.shallow_of_type {id : NodeId} {ty : Ty} (h : p.analyze config = .ok a)
    (hty : a.types[id]? = some ty) : ty.Shallow := by
  obtain ⟨ρ, e, hn, -, rfl⟩ := exists_node_of_type h hty
  exact e.shallow_typeIn (finds_bindable hn)

theorem Program.bindable_of_bound {d : Declared}
    (hd : d ∈ (p.course config).events.filterMap Event.bound?) : d.type.Bindable :=
  (p.lasts_bindable config).bound d hd

theorem Program.Holds.bindable {sym : Symbol} (hids : p.ids.Nodup)
    (h : p.Holds config sym) : sym.type.Bindable := by
  obtain ⟨d, hd, rfl⟩ := h.declares hids
  rw [Declares, ← p.course_eq_account config hids] at hd
  exact bindable_of_bound hd

theorem Program.exists_call_of_type {e : Expr} (h : p.analyze config = .ok a)
    (he : e ∈ p.exprs) (hty : a.types[e.id]? = some .void) :
    ∃ t f args, e = .call t f args := by
  obtain ⟨ρ, hn⟩ := exists_node config he
  rw [types_of_node h hn, Option.some.injEq] at hty
  exact Expr.exists_call_of_void (finds_bindable hn) hty

/-- Where types are compared, the target is shallow. -/
theorem Program.Compares.shallow (h : p.analyze config = .ok a)
    (hc : p.Compares config a target value) : target.Shallow := by
  cases hc with
  | initializer _ _ => exact (TypeName.scalar_valueType _).flat.shallow
  | assigned _ htarget _ => exact shallow_of_type h htarget
  | returned hv _ =>
      obtain ⟨id, sig, hsig, rfl⟩ := ((p.lasts_bindable config).visits _ hv).result _ rfl
      exact hsig.2.shallow
  | passed _ hcallee hparam _ _ =>
      have hfunc := shallow_of_type h hcallee
      exact (hfunc.1 _ (List.mem_of_getElem? hparam)).flat.shallow
  | operands _ _ hleft _ => exact shallow_of_type h hleft
  | swapped _ _ _ hright => exact shallow_of_type h hright

-- ============================================================ misfits

theorem Cause.Misfit.concern {c : Cause} (h : c.Misfit target value) :
    c.concern ≠ .binding := by
  cases h <;> exact nofun

theorem cause_of_complaint {ok : Bool} {node node' : NodeId} {c : Cause} {q : Position}
    {f : Finding} (h : .found node f ∈ complaint ok node' c q) :
    ok = false ∧ f.cause = c := by
  cases ok with
  | true => cases h
  | false =>
      obtain ⟨-, rfl⟩ := Event.found.inj (List.mem_singleton.mp h)
      exact ⟨rfl, rfl⟩

theorem cause_of_found {node node' : NodeId} {f g : Finding}
    (h : .found node f ∈ [Event.found node' g]) : f.cause = g.cause := by
  obtain ⟨-, rfl⟩ := Event.found.inj (List.mem_singleton.mp h)
  rfl

/-- Operands that an equality does not apply to fit in neither direction. -/
theorem Ty.rejects_of_equality {op : BinaryOp} {l r : Ty}
    (hop : op.operatorClass = .equality) (h : (l.binary? op r).isSome = false) :
    l.accepts r = false ∧ r.accepts l = false := by
  unfold binary? at h
  split at h
  case isTrue => cases h
  case isFalse =>
    simp only [hop] at h
    split at h
    case isTrue => cases h
    case isFalse hneither => rwa [← Bool.or_eq_false_iff, ← Bool.not_eq_true]

/-- An argument that is found not to fit is compared with its parameter. -/
theorem Expr.exists_argument_of_found {ρ : Lookup} {node node' : NodeId}
    {callee : Option String} {index : Nat} {ps : List Ty} {args : List Expr} {f : Finding}
    (hf : .found node f ∈ argumentEvents ρ node' callee index ps args)
    (hmisfit : f.cause.Misfit target value) :
    ∃ (i : Nat) (arg : Expr), ps[i]? = some target ∧ args[i]? = some arg
      ∧ arg.typeIn ρ = value ∧ target.accepts value = false := by
  induction ps generalizing index args with
  | nil => cases hf
  | cons p ps ih =>
      cases args with
      | nil => cases hf
      | cons arg args =>
          rcases List.mem_append.mp hf with hfirst | hrest
          · obtain ⟨hrejects, hcause⟩ := cause_of_complaint hfirst
            rw [hcause] at hmisfit
            cases hmisfit
            exact ⟨0, arg, rfl, rfl, rfl, hrejects⟩
          · obtain ⟨i, arg', hparam, harg, htype, hrejects⟩ := ih hrest
            exact ⟨i + 1, arg', hparam, harg, htype, hrejects⟩

section

variable {node : NodeId} {f : Finding}

/-- What is found at an expression not to fit is compared there. -/
theorem Program.compares_of_node {ρ : Lookup} {e : Expr} (h : p.analyze config = .ok a)
    (hn : (ρ, e) ∈ p.nodes config) (hf : .found node f ∈ e.verdict ρ)
    (hmisfit : f.cause.Misfit target value) :
    p.Compares config a target value ∧ target.accepts value = false := by
  have hexpr := mem_exprs_of_node hn
  have hpart {part : Expr} (hp : part ∈ e.parts) :
      a.types[part.id]? = some (part.typeIn ρ) := types_of_node h (node_of_part hn hp)
  cases e with
  | literal t v => cases hf
  | identifier t x =>
      rw [Expr.verdict] at hf
      cases hx : ρ x with
      | some d =>
          rw [hx] at hf
          cases List.mem_singleton.mp hf
      | none =>
          rw [hx] at hf
          rw [cause_of_found hf] at hmisfit
          cases hmisfit
  | binary t op l r =>
      obtain ⟨hnone, hcause⟩ := cause_of_complaint hf
      rw [hcause] at hmisfit
      have hl := hpart (List.mem_cons_self : l ∈ [l, r])
      have hr := hpart (List.mem_cons_of_mem l List.mem_cons_self : r ∈ [l, r])
      cases hmisfit with
      | operands _ _ hop =>
          exact ⟨.operands hexpr hop hl hr, (Ty.rejects_of_equality hop hnone).1⟩
      | swapped _ _ hop =>
          exact ⟨.swapped hexpr hop hl hr, (Ty.rejects_of_equality hop hnone).2⟩
  | unary t op operand =>
      rw [(cause_of_complaint hf).2] at hmisfit
      cases hmisfit
  | call t g args =>
      have hg := hpart (List.mem_cons_self : g ∈ g :: args)
      rw [Expr.verdict] at hf
      cases hcallee : g.typeIn ρ with
      | func ps r =>
          rw [hcallee] at hf hg
          rw [Expr.callEvents] at hf
          split at hf
          case isTrue =>
            obtain ⟨i, arg, hparam, harg, rfl, hrejects⟩ :=
              Expr.exists_argument_of_found hf hmisfit
            have hmem := List.mem_cons_of_mem g (List.mem_of_getElem? harg)
            exact ⟨.passed hexpr hg hparam harg (hpart hmem), hrejects⟩
          case isFalse =>
            rw [cause_of_found hf] at hmisfit
            cases hmisfit
      | error | unknown =>
          rw [hcallee] at hf
          cases hf
      | int | float | bool | string | void =>
          rw [hcallee] at hf
          rw [cause_of_found hf] at hmisfit
          cases hmisfit

/-- What is found about an initializer not to fit is compared with the
annotation. -/
theorem Program.compares_of_initializer {ρ : Lookup} {t : Tag} {name : String}
    {ann : Option TypeName} {init : Option Expr} {m : Bool}
    (hstmt : .declaration t name ann init m ∈ p.stmts)
    (htype : ∀ e ∈ init, a.types[e.id]? = some (e.typeIn ρ))
    (hf : .found node f ∈ initializerEvents t.id name (ann.map (·.valueType))
      (located init (init.map (·.typeIn ρ))))
    (hmisfit : f.cause.Misfit target value) :
    p.Compares config a target value ∧ target.accepts value = false := by
  cases init with
  | none => cases ann <;> cases hf
  | some e =>
      cases ann with
      | none =>
          rw [(cause_of_complaint hf).2] at hmisfit
          cases hmisfit
      | some ann =>
          obtain ⟨hrejects, hcause⟩ := cause_of_complaint hf
          rw [hcause] at hmisfit
          cases hmisfit
          exact ⟨.initializer hstmt (htype e rfl), hrejects⟩

/-- What is found about a value not to fit is compared with the symbol that
it is stored in. -/
theorem Program.compares_of_store {ρ : Lookup} {t u : Tag} {x : String} {e : Expr}
    {d : Declared} (hstmt : .assignment t (.identifier u x) e ∈ p.stmts)
    (htarget : a.types[u.id]? = some d.type) (hvalue : a.types[e.id]? = some (e.typeIn ρ))
    (hf : .found node f ∈ storeEvents t.id u d x (e.typeIn ρ) e.position)
    (hmisfit : f.cause.Misfit target value) :
    p.Compares config a target value ∧ target.accepts value = false := by
  unfold storeEvents at hf
  split at hf
  case isTrue =>
    rw [cause_of_found hf] at hmisfit
    cases hmisfit
  case isFalse =>
    split at hf
    case isTrue =>
      rw [cause_of_found hf] at hmisfit
      cases hmisfit
    case isFalse =>
      obtain ⟨hrejects, hcause⟩ := cause_of_complaint hf
      rw [hcause] at hmisfit
      cases hmisfit
      exact ⟨.assigned hstmt htarget hvalue, hrejects⟩

/-- What is found about a statement not to fit is compared there. -/
theorem Program.compares_of_verdict {v : Visit} (h : p.analyze config = .ok a)
    (hv : v ∈ p.visits config) (hf : .found node f ∈ v.verdict)
    (hmisfit : f.cause.Misfit target value) :
    p.Compares config a target value ∧ target.accepts value = false := by
  have hstmt := stmt_of_visit hv
  have hroot {e : Expr} (he : e ∈ v.stmt.roots) :
      a.types[e.id]? = some (e.typeIn v.names) := types_of_node h (node_of_root hv he)
  obtain ⟨s, ρ, expected⟩ := v
  cases s with
  | declaration t name ann init m =>
      rcases List.mem_append.mp hf with hann | hinit
      · cases ann with
        | none => cases hann
        | some ann =>
            exact (hmisfit.concern ((concerns_valueEvents _ _ _).of_found hann)).elim
      · exact compares_of_initializer hstmt
          (fun e he => hroot (Option.mem_toList.mpr he)) hinit hmisfit
  | assignment t x e =>
      cases x with
      | identifier u x =>
          have htarget := hroot List.mem_cons_self
          have hvalue := hroot (List.mem_cons_of_mem _ List.mem_cons_self)
          rw [Expr.typeIn] at htarget
          simp only [Visit.verdict] at hf htarget
          cases hx : ρ x with
          | none =>
              rw [hx] at hf
              cases hf
          | some d =>
              rw [hx] at hf htarget
              exact compares_of_store hstmt htarget hvalue hf hmisfit
      | literal | binary | unary | call =>
          rw [cause_of_found hf] at hmisfit
          cases hmisfit
  | ifElse | «while» =>
      rw [(cause_of_complaint hf).2] at hmisfit
      cases hmisfit
  | ret t e =>
      cases expected with
      | none =>
          rw [cause_of_found hf] at hmisfit
          cases hmisfit
      | some result =>
          cases e with
          | none =>
              rw [(cause_of_complaint hf).2] at hmisfit
              cases hmisfit
          | some e =>
              obtain ⟨hrejects, hcause⟩ := cause_of_complaint hf
              rw [hcause] at hmisfit
              cases hmisfit
              exact ⟨.returned hv (hroot List.mem_cons_self), hrejects⟩
  | expr | function | block => cases hf

/-- A finding that tells a target and a value tells types that were compared. -/
theorem Program.compares_of_finding (h : p.analyze config = .ok a) (hf : f ∈ a.findings)
    (hmisfit : f.cause.Misfit target value) :
    p.Compares config a target value ∧ target.accepts value = false := by
  rw [findings_of_analyze h] at hf
  obtain ⟨ev, hev, hfound⟩ := List.mem_filterMap.mp hf
  cases ev with
  | found node g =>
      obtain rfl := Option.some.inj hfound
      obtain ⟨v, hv, hremark⟩ := exists_visit_of_found hev hmisfit.concern
      rcases List.mem_append.mp hremark with hexpr | hverdict
      · obtain ⟨e, he, hremark⟩ := List.mem_flatMap.mp hexpr
        have hn : (v.names, e) ∈ p.nodes config := mem_nodes.mpr ⟨v, hv, rfl, he⟩
        rcases List.mem_append.mp hremark with hverdict | htyped
        · exact compares_of_node h hn hverdict hmisfit
        · cases List.mem_singleton.mp htyped
      · exact compares_of_verdict h hv hverdict hmisfit
  | typed | resolved | read | bound => cases hfound

end

-- ========================================================== the result

/-- Comparing signatures one level deep is enough. In a completed analysis
every recorded type is first-order with no `void` among the parameters of
a function, and so is that of every symbol, which is never `void` itself;
only calls are recorded as `void`. So wherever types are compared, the
comparison comes out as one at every depth would, and what is found not to
fit does not fit at any depth. What is found so is shown as an error about
types that tells both. -/
theorem Program.compared_at_every_depth (h : p.analyze config = .ok a) :
    (∀ (id : NodeId) (ty : Ty), a.types[id]? = some ty → ty.Shallow)
      ∧ (∀ d ∈ (p.course config).events.filterMap Event.bound?, d.type.Bindable)
      ∧ (p.ids.Nodup → ∀ sym, p.Holds config sym → sym.type.Bindable)
      ∧ (∀ e ∈ p.exprs, a.types[e.id]? = some .void → ∃ t f args, e = .call t f args)
      ∧ (∀ target value, p.Compares config a target value →
        target.accepts value = target.fits value)
      ∧ (∀ f ∈ a.findings, ∀ target value, f.cause.Misfit target value →
        p.Compares config a target value ∧ target.fits value = false)
      ∧ ∀ d ∈ a.diagnostics, ∃ f ∈ a.findings, f.diagnostic = d
        ∧ ∀ target value, f.cause.Misfit target value →
          d.severity = .error ∧ d.kind = .typeMismatch
            ∧ (target.ToldIn value d.message ∨ value.ToldIn target d.message)
            ∧ p.Compares config a target value ∧ target.fits value = false := by
  have hfound (f : Finding) (hf : f ∈ a.findings) (target value : Ty)
      (hmisfit : f.cause.Misfit target value) :
      p.Compares config a target value ∧ target.fits value = false := by
    obtain ⟨hc, hrejects⟩ := compares_of_finding h hf hmisfit
    exact ⟨hc, (hc.shallow h).accepts_eq_fits value ▸ hrejects⟩
  refine ⟨fun id ty => shallow_of_type h, fun d => bindable_of_bound,
    fun hids sym hholds => hholds.bindable hids, fun e => exists_call_of_type h,
    fun target value hc => (hc.shallow h).accepts_eq_fits value, hfound, fun d hd => ?shown⟩
  case shown =>
    obtain ⟨f, hf, rfl⟩ := List.mem_map.mp hd
    refine ⟨f, hf, rfl, fun target value hmisfit => ?_⟩
    exact ⟨hmisfit.kind.1, hmisfit.kind.2, hmisfit.toldIn, hfound f hf target value hmisfit⟩

/-- Functions whose types agree but for what is not annotated, and one that
gives nothing. A variable is initialized with the first, the second is
assigned to it, and so is the third. -/
def Program.functionsStored : Program :=
  ⟨[.function ⟨0, ⟨1, 1⟩⟩ "f" [⟨"x", some ⟨"int", ⟨1, 8⟩⟩, ⟨1, 5⟩⟩, ⟨"y", none, ⟨1, 13⟩⟩]
      (some ⟨"float", ⟨1, 17⟩⟩) ⟨1, 23⟩ [.ret ⟨1, ⟨1, 25⟩⟩ (some (.literal ⟨2, ⟨1, 32⟩⟩ (.int 1)))],
    .function ⟨3, ⟨2, 1⟩⟩ "g" [⟨"x", none, ⟨2, 5⟩⟩, ⟨"y", some ⟨"string", ⟨2, 11⟩⟩, ⟨2, 8⟩⟩] none
      ⟨2, 19⟩ [.ret ⟨4, ⟨2, 21⟩⟩ (some (.identifier ⟨5, ⟨2, 28⟩⟩ "x"))],
    .function ⟨6, ⟨3, 1⟩⟩ "h" [⟨"x", none, ⟨3, 5⟩⟩] none ⟨3, 8⟩ [],
    .declaration ⟨7, ⟨4, 1⟩⟩ "v" none (some (.identifier ⟨8, ⟨4, 9⟩⟩ "f")) true,
    .assignment ⟨9, ⟨5, 1⟩⟩ (.identifier ⟨10, ⟨5, 1⟩⟩ "v") (.identifier ⟨11, ⟨5, 5⟩⟩ "g"),
    .assignment ⟨12, ⟨6, 1⟩⟩ (.identifier ⟨13, ⟨6, 1⟩⟩ "v") (.identifier ⟨14, ⟨6, 5⟩⟩ "h")],
    .start⟩

/-- The type of the first function is shallow and not that of the second, but
the two are consistent. That of the third is found not to be. -/
theorem Program.compared_at_every_depth_functionsStored :
    ∃ a, functionsStored.analyze { warnUnused := false } = .ok a
      ∧ (Ty.func [.int, .unknown] .float).Shallow
      ∧ (Ty.func [.int, .unknown] .float).fits (.func [.unknown, .string] .unknown) = true
      ∧ functionsStored.Compares { warnUnused := false } a
          (.func [.int, .unknown] .float) (.func [.unknown] .void)
      ∧ (Ty.func [.int, .unknown] .float).fits (.func [.unknown] .void) = false
      ∧ a.diagnostics = [⟨.error, .typeMismatch, "cannot assign a value of type "
          ++ "'func(unknown) -> void' to 'v' of type 'func(int, unknown) -> float'",
          ⟨6, 5⟩, none⟩] := by
  obtain ⟨a, ha, hresults⟩ : ∃ a, functionsStored.analyze { warnUnused := false } = .ok a
      ∧ (a.types[10]?, a.types[11]?, a.findings, a.diagnostics)
        = (some (.func [.int, .unknown] .float), some (.func [.unknown, .string] .unknown),
            [⟨.badAssignment "v" (.func [.int, .unknown] .float) (.func [.unknown] .void),
              ⟨6, 5⟩, none⟩],
            [⟨.error, .typeMismatch, "cannot assign a value of type "
              ++ "'func(unknown) -> void' to 'v' of type 'func(int, unknown) -> float'",
              ⟨6, 5⟩, none⟩]) := analyze_ok_of_results (by decide +kernel)
  simp only [Prod.mk.injEq] at hresults
  obtain ⟨htarget, hvalue, hfindings, hdiagnostics⟩ := hresults
  obtain ⟨hshallow, -, -, -, hcompared, hfound, -⟩ := compared_at_every_depth ha
  have hstmt : functionsStored.stmts[6]? = some (.assignment ⟨9, ⟨5, 1⟩⟩
      (.identifier ⟨10, ⟨5, 1⟩⟩ "v") (.identifier ⟨11, ⟨5, 5⟩⟩ "g")) := rfl
  have hagree := hcompared _ _ (.assigned (List.mem_of_getElem? hstmt) htarget hvalue)
  obtain ⟨hc, hrejects⟩ := hfound _ (hfindings ▸ List.mem_cons_self) _ _ (.assigned _ _ _)
  exact ⟨a, ha, hshallow 10 _ htarget, hagree ▸ rfl, hc, hrejects, hdiagnostics⟩

end

end TreeCheck
