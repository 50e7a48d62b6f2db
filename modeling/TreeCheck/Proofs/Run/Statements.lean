/-
A completed run on a program is the replay of its course.

There is one lemma for each function of the analysis. Those for steps
inside one statement say that the state afterwards is a replay; those for
steps that bind names or open scopes say that a course is reached. The
recursive ones follow the recursion of the course.
-/
import TreeCheck.Proofs.Account.Distinct
import TreeCheck.Proofs.Run.Failure
import TreeCheck.Proofs.Run.Scopes

namespace TreeCheck.Analysis

variable {s s' : State} {ρ : Lookup} {φ : Frame} {outer : Env} {n : SymbolId}
  {σ : Signatures}

-- ========================================================= annotations

/-- An annotation gives the type that it names, and is reported if it names none. -/
theorem completes_namedType {a : TypeName} {ty : Ty} (node : NodeId)
    (hrun : Completes (namedType a) s ty s') :
    ty = a.type ∧ s' = replay s (a.events node) :=
  completes_orError node hrun

/-- Neither a variable nor a parameter may be void, so its annotation is
reported if it names no type, and also if it names that one. -/
theorem completes_valueType {name : String} {a : TypeName} {ty : Ty}
    (node : NodeId) (hrun : Completes (valueType name a) s ty s') :
    ty = a.valueType ∧ s' = replay s (a.valueEvents node name) := by
  simp only [valueType, completes_bind] at hrun
  obtain ⟨_, s₁, hnamed, hrun⟩ := hrun
  obtain ⟨rfl, rfl⟩ := completes_namedType node hnamed
  obtain ⟨rfl, rfl⟩ := completes_orError node hrun
  unfold TypeName.valueType TypeName.valueEvents
  rw [replay_append]
  by_cases hvoid : a.type = .void
  · simp only [hvoid, if_true, bne_self_eq_false]
    exact ⟨rfl, rfl⟩
  · simp only [hvoid, if_false, bne_iff_ne.mpr hvoid]
    exact ⟨rfl, rfl⟩

/-- A parameter without an annotation has no type that could be wrong. -/
theorem completes_paramType {p : Param} {ty : Ty} (node : NodeId)
    (hrun : Completes (paramType p) s ty s') :
    ty = p.type ∧ s' = replay s (p.events node) := by
  unfold paramType at hrun
  unfold Param.type Param.events
  cases hann : p.typeName with
  | none =>
      rw [hann] at hrun
      exact completes_pure.mp hrun
  | some a =>
      rw [hann] at hrun
      exact completes_valueType node hrun

/-- The annotations of parameters are looked at in order. -/
theorem completes_paramTypes {ps : List Param} {tys : List Ty} (node : NodeId)
    (hrun : Completes (ps.mapM paramType) s tys s') :
    tys = ps.map (·.type) ∧ s' = replay s (ps.flatMap (·.events node)) := by
  induction ps generalizing s tys with
  | nil => exact completes_pure.mp hrun
  | cons p ps ih =>
      simp only [List.mapM_cons, completes_bind, completes_pure] at hrun
      obtain ⟨_, s₁, hfirst, _, s₂, hrest, rfl, rfl⟩ := hrun
      obtain ⟨rfl, rfl⟩ := completes_paramType node hfirst
      obtain ⟨rfl, rfl⟩ := ih hrest
      simp only [List.map_cons, List.flatMap_cons, replay_append, and_self]

/-- The result of a function comes from its annotation, and without one from
its body. -/
theorem completes_resultType {result : Option TypeName} {body : List Stmt}
    {ty : Ty} (params : List Param) (node : NodeId)
    (hrun : Completes (resultType result body) s ty s') :
    ty = (Signature.of params result body).ret
      ∧ s' = replay s (result.elim [] (·.events node)) := by
  cases result with
  | none => exact completes_pure.mp hrun
  | some a => exact completes_namedType node hrun

-- =========================================================== functions

section

variable {t : Tag} {name : String} {params : List Param}
  {result : Option TypeName} {body : List Stmt} {sig : Signature}

/-- Keeping signatures is no event. -/
theorem Reaches.keep {c : Course} (h : Reaches s outer φ n c s')
    (σ' : Signatures) :
    Reaches s outer φ n { c with signatures := σ' }
      { s' with signatures := σ' } where
  mirrors := { h.mirrors with signatures := rfl }
  done := h.done
  advances := h.advances
  new := h.new

/-- To declare a function is to look at its annotations, to bind its name, and
to keep its signature for when its body is checked. -/
theorem reaches_declareFunction (h : Mirrors s (φ :: outer) n σ)
    (hrun : Completes (declareFunction t name params result body) s sig s') :
    sig = Signature.of params result body
      ∧ Reaches s outer φ n
          ⟨declaringFunction t name params result body φ n,
            σ.insert t.id (Signature.of params result body)⟩ s' := by
  simp only [declareFunction, completes_bind, completes_pure] at hrun
  obtain ⟨_, s₁, hparams, _, s₂, hresult, _, s₃, hdeclare, _, s₄, hkeep, rfl,
    rfl⟩ := hrun
  obtain ⟨rfl, rfl⟩ := completes_paramTypes t.id hparams
  obtain ⟨rfl, rfl⟩ := completes_resultType params t.id hresult
  refine ⟨rfl, ?_⟩
  rw [← replay_append] at hdeclare
  have hm := h.replay (reports_signatureEvents t.id params result).consults
  have hbound := reaches_declare t.id (.stmt t.id) hm hdeclare
  cases hkeep
  show Reaches s outer φ n _ { s₃ with
    signatures := s₃.signatures.insert t.id (Signature.of params result body) }
  rw [hbound.mirrors.signatures]
  exact hbound.after.keep _

/-- Declaring the functions of a list ahead reaches what `hoisting` says. -/
theorem reaches_hoist {earlier : List String} {ss : List Stmt} {u : Unit}
    (h : Mirrors s (φ :: outer) n σ)
    (hrun : Completes (hoist earlier ss) s u s') :
    Reaches s outer φ n
      ⟨hoisting earlier ss φ n, hoistedSignatures earlier ss σ⟩ s' := by
  induction ss generalizing s φ n σ earlier with
  | nil =>
      simp only [hoist, completes_pure] at hrun
      obtain ⟨-, rfl⟩ := hrun
      exact .events h consults_nil
  | cons stmt ss ih =>
      cases stmt with
      | function t name params result p body =>
          unfold hoisting hoistedSignatures
          by_cases hmem : name ∈ earlier
          · simp only [hoist, hmem, not_true, if_false] at hrun
            simp only [hmem, if_true, Stmt.isAhead, Stmt.variablesAfter, not_true,
              decide_false, Bool.false_eq_true, if_false]
            exact ih h hrun
          · simp only [hoist, hmem, not_false_eq_true, if_true,
              completes_bind] at hrun
            obtain ⟨sig, s₁, hdeclare, hrest⟩ := hrun
            obtain ⟨rfl, hbound⟩ := reaches_declareFunction h hdeclare
            simp only [hmem, if_false, Stmt.isAhead, Stmt.variablesAfter,
              not_false_eq_true, decide_true, if_true, Stmt.signed]
            exact hbound.andThen
              (f := fun φ n σ =>
                ⟨hoisting earlier ss φ n, hoistedSignatures earlier ss σ⟩)
              (ih hbound.mirrors hrest)
      | declaration | assignment | block | ifElse | «while» | ret | expr =>
          exact ih h hrun

/-- A function that was declared ahead has its signature already, and another
one is declared where it is reached. -/
theorem reaches_signatureOf (h : Mirrors s (φ :: outer) n σ)
    (hrun : Completes (signatureOf t name params result body) s sig s') :
    sig = σ[t.id]?.getD (Signature.of params result body)
      ∧ Reaches s outer φ n
        (reachingFunction t name params result body φ n σ) s' := by
  simp only [signatureOf, completes_bind] at hrun
  obtain ⟨_, s₁, hget, hrun⟩ := hrun
  cases hget
  rw [h.signatures] at hrun
  cases hσ : σ[t.id]? with
  | none =>
      have hmem : t.id ∉ σ := by
        rw [Std.TreeMap.mem_iff_isSome_getElem?, hσ]
        exact Bool.false_ne_true
      rw [hσ] at hrun
      rw [reachingFunction, if_neg hmem]
      exact reaches_declareFunction h hrun
  | some kept =>
      rw [hσ] at hrun
      obtain ⟨rfl, rfl⟩ := completes_pure.mp hrun
      have hmem : t.id ∈ σ :=
        Std.TreeMap.mem_iff_isSome_getElem?.mpr (by rw [hσ]; rfl)
      rw [reachingFunction, if_pos hmem]
      exact ⟨rfl, .events h consults_nil⟩

end

-- ====================================================== own statements

/-- A variable has the type of its annotation, or else that of its value. -/
theorem completes_variableType {name : String} {declared : Option Ty}
    {init : Option (Ty × Position)} {ty : Ty} (node : NodeId)
    (hrun : Completes (variableType name declared init) s ty s') :
    ty = variableTypeOf declared (init.map Prod.fst)
      ∧ s' = replay s (initializerEvents node name declared init) := by
  cases declared with
  | some declared =>
      cases init with
      | some init =>
          simp only [variableType, completes_bind, completes_pure] at hrun
          obtain ⟨_, s₁, hrequire, rfl, rfl⟩ := hrun
          exact ⟨rfl, completes_require node hrequire⟩
      | none => exact completes_pure.mp hrun
  | none =>
      cases init with
      | some init =>
          obtain ⟨found, p⟩ := init
          obtain ⟨rfl, rfl⟩ := completes_orError node hrun
          simp only [Option.map_some, variableTypeOf, initializerEvents]
          by_cases hvoid : found = .void
          · simp only [hvoid, if_true, bne_self_eq_false]
            exact ⟨rfl, rfl⟩
          · simp only [hvoid, if_false, bne_iff_ne.mpr hvoid]
            exact ⟨rfl, rfl⟩
      | none => exact completes_pure.mp hrun

theorem map_fst_located (e : Option Expr) (f : Expr → Ty) :
    (located e (e.map f)).map Prod.fst = e.map f := by
  cases e <;> rfl

/-- A variable is bound after its value has been typed, so the value does not
see it. -/
theorem reaches_declaration {inner : Context} {t : Tag} {name : String}
    {ann : Option TypeName} {init : Option Expr} {mutable : Bool} {u : Unit}
    (h : Mirrors s (φ :: outer) n σ)
    (hrun : Completes (do
      let declared ← ann.elim (pure none) fun a =>
      do pure (some (← valueType name a))
      let found ← typeOf? inner init
      let ty ← variableType name declared (located init found)
      declare ⟨name, .variable, ty, t.position, mutable⟩) s u s') :
    Reaches s outer φ n
      ⟨declaringVariable (Env.find (φ :: outer)) t name ann init mutable φ n, σ⟩
      s' := by
  simp only [completes_bind] at hrun
  obtain ⟨declared, s₁, hann, found, s₂, hinit, ty, s₃, htype, hdeclare⟩ := hrun
  have hann : declared = ann.map (·.valueType)
      ∧ s₁ = replay s (ann.elim [] (·.valueEvents t.id name)) := by
    cases ann with
    | none => exact completes_pure.mp hann
    | some a =>
        simp only [Option.elim, completes_bind, completes_pure] at hann
        obtain ⟨_, s₂, hvalue, rfl, rfl⟩ := hann
        obtain ⟨rfl, rfl⟩ := completes_valueType t.id hvalue
        exact ⟨rfl, rfl⟩
  obtain ⟨rfl, rfl⟩ := hann
  obtain ⟨rfl, rfl⟩ := completes_typeOf? (h.resolves.replay _) hinit
  obtain ⟨rfl, rfl⟩ := completes_variableType t.id htype
  rw [map_fst_located, ← replay_append, ← replay_append,
    ← List.append_assoc] at hdeclare
  have hm := h.replay (consults_declarationEvents t.id name ann init)
  exact (reaches_declare t.id (.stmt t.id) hm hdeclare).after

/-- A value can be stored in a mutable variable or parameter of a type that
accepts it. -/
theorem completes_checkStore {t : Tag} {d : Declared} {name : String} {found : Ty}
    {p : Position} {u : Unit} (node : NodeId)
    (hrun : Completes (checkStore t d.toSymbol name found p) s u s') :
    s' = replay s (storeEvents node t d name found p) := by
  unfold checkStore at hrun
  unfold storeEvents
  split
  case isTrue hkind =>
      rw [if_pos hkind] at hrun
      exact completes_report node hrun
  case isFalse hkind =>
      rw [if_neg hkind] at hrun
      split
      case isTrue hmutable =>
          rw [if_pos hmutable] at hrun
          exact completes_report node hrun
      case isFalse hmutable =>
          rw [if_neg hmutable] at hrun
          exact completes_require node hrun

/-- The target of an assignment is looked up without being read, and typed only
if it is no identifier. -/
theorem completes_checkAssignment {inner : Context} {target value : Expr}
    {u : Unit} (hρ : Resolves s ρ) (node : NodeId)
    (hrun : Completes (checkAssignment inner target value) s u s') :
    s' = replay s (assignmentEvents ρ node target value) := by
  cases target with
  | identifier t x =>
      simp only [checkAssignment, completes_bind] at hrun
      obtain ⟨_, s₁, hresolve, _, s₂, hrecord, _, s₃, hvalue, hrun⟩ := hrun
      obtain ⟨rfl, rfl⟩ := completes_resolve hρ hresolve
      obtain ⟨rfl, rfl⟩ := completes_record hrecord
      obtain ⟨rfl, rfl⟩ :=
        completes_typeOf ρ value ((hρ.replay _).replay _) hvalue
      simp only [assignmentEvents]
      cases hx : ρ x with
      | none =>
          rw [hx] at hrun
          exact (completes_pure.mp hrun).2
      | some d =>
          rw [hx] at hrun
          rw [completes_checkStore node hrun]
          simp only [replay_append]
          rfl
  | literal _ _ | binary _ _ _ _ | unary _ _ _ | call _ _ _ =>
      simp only [checkAssignment, completes_bind] at hrun
      obtain ⟨_, s₁, htarget, _, s₂, hvalue, hreport⟩ := hrun
      obtain ⟨rfl, rfl⟩ := completes_typeOf ρ _ hρ htarget
      obtain ⟨rfl, rfl⟩ := completes_typeOf ρ value (hρ.replay _) hvalue
      simp only [assignmentEvents, replay_append]
      exact completes_report node hreport

/-- A condition is typed and then compared. -/
theorem completes_checkCondition {inner : Context} {construct : Construct}
    {c : Expr} {u : Unit} (hρ : Resolves s ρ) (node : NodeId)
    (hrun : Completes (checkCondition inner construct c) s u s') :
    s' = replay s (conditionEvents ρ node construct c) := by
  simp only [checkCondition, completes_bind] at hrun
  obtain ⟨_, s₁, hc, hrun⟩ := hrun
  obtain ⟨rfl, rfl⟩ := completes_typeOf ρ c hρ hc
  rw [conditionEvents, replay_append]
  exact completes_require node hrun

/-- A `return` is compared with the result in force, if there is one. -/
theorem completes_checkReturn {position : Position} {expected : Option Ty}
    {value : Option (Ty × Position)} {u : Unit} (node : NodeId)
    (hrun : Completes (checkReturn position expected value) s u s') :
    s' = replay s (returnEvents node position expected value) := by
  cases expected with
  | none => exact completes_report node hrun
  | some expected =>
      cases value with
      | none => exact completes_require node hrun
      | some value => exact completes_require node hrun

/-- A branch runs in a scope of its own, unless it is a block and opens one
itself. -/
theorem reaches_inBranch {config : Config} {branch : Stmt} {body : Check Unit}
    {u : Unit} {course : Env → Frame → SymbolId → Signatures → Course}
    (h : Mirrors s (φ :: outer) n σ)
    (hrun : Completes (inBranch config branch body) s u s')
    (hbody : ∀ {t t' outer φ n σ}, Mirrors t (φ :: outer) n σ →
      Completes body t () t' →
      Reaches t outer φ n (course outer φ n σ) t') :
    Reaches s outer φ n (courseOfBranch config branch course outer φ n σ) s' := by
  unfold inBranch at hrun
  unfold courseOfBranch
  split
  case isTrue hblock =>
      rw [if_pos hblock] at hrun
      exact hbody h hrun
  case isFalse hblock =>
      rw [if_neg hblock] at hrun
      exact reaches_inScope h hrun hbody

-- ========================================================== statements

mutual

/-- Checking a statement reaches what its course says. -/
theorem reaches_checkStmt :
    (stmt : Stmt) → ∀ {ctx : Context} {s s' : State} {outer : Env}
    {φ : Frame} {n : SymbolId} {σ : Signatures} {u : Unit},
    Mirrors s (φ :: outer) n σ →
    Completes (checkStmt ctx stmt) s u s' →
    Reaches s outer φ n (stmt.course ctx.config ctx.expected outer φ n σ) s'
  | .declaration t name ann init mutable, ctx, s, s', outer, φ, n, σ, u, h,
      hrun => by
      simp only [checkStmt] at hrun
      obtain ⟨inner, s₁, hdescend, hchecks⟩ := completes_bind.mp hrun
      obtain ⟨rfl, rfl⟩ := completes_descend hdescend
      exact reaches_declaration h hchecks
  | .function t name params result p body, ctx, s, s', outer, φ, n, σ, u, h,
      hrun => by
      simp only [checkStmt, completes_bind] at hrun
      obtain ⟨inner, s₁, hdescend, sig, s₂, hsig, hscope⟩ := hrun
      obtain ⟨rfl, rfl⟩ := completes_descend hdescend
      obtain ⟨rfl, hown⟩ := reaches_signatureOf h hsig
      simp only [Stmt.course]
      refine hown.andThen ?_
      refine reaches_inScope hown.mirrors hscope ?_
      intro t₁ t₂ hm hbody
      simp only [completes_bind] at hbody
      obtain ⟨_, t₃, hparams, _, t₄, hhoist, hstmts⟩ := hbody
      have hp := reaches_declareParams t.id 0 hm hparams
      have hh := reaches_hoist hp.mirrors hhoist
      exact (hp.andThen (f := hoistingCourse body) hh).andThen
        (reaches_checkStmts body hh.mirrors hstmts)
  | .assignment t target value, ctx, s, s', outer, φ, n, σ, u, h, hrun => by
      simp only [checkStmt, completes_bind] at hrun
      obtain ⟨inner, s₁, hdescend, hrun⟩ := hrun
      obtain ⟨rfl, rfl⟩ := completes_descend hdescend
      rw [completes_checkAssignment h.resolves t.id hrun]
      exact .events h (consults_assignmentEvents _ _ _)
  | .block t p ss, ctx, s, s', outer, φ, n, σ, u, h, hrun => by
      simp only [checkStmt, completes_bind] at hrun
      obtain ⟨inner, s₁, hdescend, hscope⟩ := hrun
      obtain ⟨rfl, rfl⟩ := completes_descend hdescend
      simp only [Stmt.course]
      refine reaches_inScope h hscope ?_
      intro t₁ t₂ hm hbody
      obtain ⟨_, t₃, hhoist, hstmts⟩ := completes_bind.mp hbody
      have hh := reaches_hoist hm hhoist
      have hss := reaches_checkStmts ss hh.mirrors hstmts
      exact hh.andThen hss
  | .ifElse t c a none, ctx, s, s', outer, φ, n, σ, u, h, hrun => by
      simp only [checkStmt, completes_bind] at hrun
      obtain ⟨inner, s₁, hdescend, _, s₂, hc, ha⟩ := hrun
      obtain ⟨rfl, rfl⟩ := completes_descend hdescend
      obtain rfl := completes_checkCondition h.resolves t.id hc
      have hm := h.replay (consults_conditionEvents t.id .ifElse c)
      simp only [Stmt.course]
      exact (reaches_inBranch hm ha fun hm ha => reaches_checkStmt a hm ha).after
  | .ifElse t c a (some b), ctx, s, s', outer, φ, n, σ, u, h, hrun => by
      simp only [checkStmt, completes_bind] at hrun
      obtain ⟨inner, s₁, hdescend, _, s₂, hc, _, s₃, ha, hb⟩ := hrun
      obtain ⟨rfl, rfl⟩ := completes_descend hdescend
      obtain rfl := completes_checkCondition h.resolves t.id hc
      have hm := h.replay (consults_conditionEvents t.id .ifElse c)
      simp only [Stmt.course]
      have hthen := reaches_inBranch hm ha fun hm ha => reaches_checkStmt a hm ha
      have helse := reaches_inBranch hthen.mirrors hb fun hm hb =>
        reaches_checkStmt b hm hb
      exact (hthen.andThen helse).after
  | .while t c b, ctx, s, s', outer, φ, n, σ, u, h, hrun => by
      simp only [checkStmt, completes_bind] at hrun
      obtain ⟨inner, s₁, hdescend, _, s₂, hc, hb⟩ := hrun
      obtain ⟨rfl, rfl⟩ := completes_descend hdescend
      obtain rfl := completes_checkCondition h.resolves t.id hc
      have hm := h.replay (consults_conditionEvents t.id .while c)
      simp only [Stmt.course]
      exact (reaches_inBranch hm hb fun hm hb => reaches_checkStmt b hm hb).after
  | .ret t value, ctx, s, s', outer, φ, n, σ, u, h, hrun => by
      simp only [checkStmt, completes_bind] at hrun
      obtain ⟨inner, s₁, hdescend, _, s₂, hvalue, hrun⟩ := hrun
      obtain ⟨rfl, rfl⟩ := completes_descend hdescend
      obtain ⟨rfl, rfl⟩ := completes_typeOf? h.resolves hvalue
      rw [completes_checkReturn t.id hrun, ← replay_append]
      exact .events h (consults_returningEvents t ctx.expected value)
  | .expr t e, ctx, s, s', outer, φ, n, σ, u, h, hrun => by
      simp only [checkStmt, completes_bind, completes_pure] at hrun
      obtain ⟨inner, s₁, hdescend, _, s₂, he, _, rfl⟩ := hrun
      obtain ⟨rfl, rfl⟩ := completes_descend hdescend
      obtain ⟨rfl, rfl⟩ := completes_typeOf _ e h.resolves he
      exact .events h (e.consults_events _)

theorem reaches_checkStmts : (ss : List Stmt) → ∀ {ctx : Context} {s s' : State}
    {outer : Env} {φ : Frame} {n : SymbolId} {σ : Signatures} {u : Unit},
    Mirrors s (φ :: outer) n σ → Completes (checkStmts ctx ss) s u s' →
    Reaches s outer φ n (Stmt.courseAll ctx.config ss ctx.expected outer φ n σ) s'
  | [], ctx, s, s', outer, φ, n, σ, u, h, hrun => by
      obtain ⟨-, rfl⟩ := completes_pure.mp hrun
      exact .events h consults_nil
  | stmt :: ss, ctx, s, s', outer, φ, n, σ, u, h, hrun => by
      obtain ⟨_, s₁, hfirst, hrest⟩ := completes_bind.mp hrun
      have hreach := reaches_checkStmt stmt h hfirst
      simp only [Stmt.courseAll]
      exact hreach.andThen (reaches_checkStmts ss hreach.mirrors hrest)

end

end TreeCheck.Analysis

namespace TreeCheck

open Analysis

/-- A completed analysis ends in a state that holds its result: what the
course of the program says has been done, and the numbers and signatures
are those that the course comes to. -/
theorem Program.exists_end {config : Config} {p : Program} {a : Analysis}
    (h : p.analyze config = .ok a) :
    ∃ s, Completes (checkProgram config p) {} () s ∧ a = s.analysis
      ∧ s.log = replay {} (p.course config).events
      ∧ s.table.nextId = (p.course config).next
      ∧ s.signatures = (p.course config).signatures := by
  obtain ⟨s, hrun, rfl, -⟩ := covers_of_analyze h
  obtain ⟨t, hbody, hleave⟩ := completes_inScope hrun
  obtain ⟨_, t₁, hhoist, hstmts⟩ := completes_bind.mp hbody
  have hh := reaches_hoist Mirrors.start.enter hhoist
  have hss := reaches_checkStmts p.body hh.mirrors hstmts
  have hreach : Reaches _ [] [] 0 (p.course config) t := hh.andThen hss
  obtain ⟨top, rest, ht, -, hrest⟩ := hreach.mirrors.scopes_cons
  obtain rfl : rest = [] := List.map_eq_nil_iff.mp hrest
  obtain ⟨top', rest', ht', rfl⟩ := completes_leave hleave
  rw [ht] at ht'
  injection ht' with _ hnil
  subst hnil
  refine ⟨_, hrun, rfl, ?_, hreach.mirrors.next, hreach.mirrors.signatures⟩
  -- Nothing is around the global scope, so leaving it reports nothing.
  have hlog : t.log = replay {} (p.course config).events := hreach.done
  rw [← hlog]
  simp [State.log]

/-- What a completed analysis found is what the course of the program
says. -/
theorem Program.analysis_eq_course {config : Config} {p : Program} {a : Analysis}
    (h : p.analyze config = .ok a) :
    a = (replay {} (p.course config).events).analysis := by
  obtain ⟨s, -, rfl, hlog, -⟩ := exists_end h
  rw [← hlog]
  rfl

/-- Where the nodes have distinct identities, what a completed analysis
found is what the account of the program says. -/
theorem Program.analysis_eq_account {config : Config} {p : Program} {a : Analysis}
    (hids : p.ids.Nodup) (h : p.analyze config = .ok a) :
    a = (replay {} (p.account config)).analysis := by
  rw [← p.course_eq_account config hids]
  exact analysis_eq_course h

end TreeCheck
