/-
A whole analysis and its rerun.

Each function of the analysis is in lockstep with itself on the same part
of the program under other labels. There is one lemma for each, and the
recursive ones follow the recursion of expressions and statements. That
names are kept apart is needed in two places, the scopes and the names
that a statement list has taken before a function; that identities are,
where types and signatures are kept under them.
-/
import TreeCheck.Proofs.Relabeling.Lockstep

namespace TreeCheck

namespace Analysis

variable {K : Rerun}

-- ========================================================== expressions

/-- A name is read in lockstep with the new name: both are found, or neither. -/
theorem lockstep_readName (t : Tag) (x : String) :
    Lockstep K id (readName t x) (readName (t.relabel K.labels) (K.labels.name x)) := by
  refine lockstep_bind (lockstep_resolve t x) fun sym => ?_
  cases sym with
  | none => exact lockstep_pure Ty.error
  | some sym => exact lockstep_bind (lockstep_markUsed sym) fun _ => lockstep_pure sym.type

/-- Arguments are compared by types, which labels do not touch; only what is
reported has other labels. -/
theorem lockstep_checkArguments (callee : Option String) (i : Nat) (ps : List Ty)
    (args : List Expr) (found : List Ty) :
    Lockstep K id (checkArguments callee i ps args found)
      (checkArguments (callee.map K.labels.name) i ps (Expr.relabelAll K.labels args)
        found) := by
  induction ps generalizing i args found with
  | nil => exact lockstep_pure ()
  | cons p ps ih =>
      match args, found with
      | [], _ => exact lockstep_pure ()
      | _ :: _, [] => exact lockstep_pure ()
      | arg :: args, ty :: found =>
          rw [Expr.relabelAll, checkArguments, checkArguments, Expr.position_relabel]
          exact lockstep_bind (lockstep_require (by nofun) _ _) fun _ => ih (i + 1) args found

/-- The place of a callee's declaration is looked up in the scopes. -/
theorem lockstep_calleeDeclaration (f : Expr) :
    Lockstep K (Option.map K.labels.position) (calleeDeclaration f)
      (calleeDeclaration (f.relabel K.labels)) := by
  refine lockstep_of_run fun {s s'} h => ⟨_, s, s', rfl, ?_, h⟩
  have hplace : ((f.relabel K.labels).name?.bind fun x =>
        (s'.table.resolve x).bind fun sym => some sym.position)
      = (f.name?.bind fun x =>
          (s.table.resolve x).bind fun sym => some sym.position).map K.labels.position := by
    rw [Expr.name?_relabel]
    cases f.name? with
    | none => rfl
    | some x =>
        show ((s'.table.resolve (K.labels.name x)).bind _)
          = ((s.table.resolve x).bind _).map _
        rw [h.table.resolve K.faithful]
        cases s.table.resolve x <;> rfl
  exact congrArg (fun r => Except.ok (r, s')) hplace

/-- A call gives the same type, whatever the callee is called. -/
theorem lockstep_callType (p : Position) (f : Expr) (args : List Expr) (found : List Ty)
    (ty : Ty) :
    Lockstep K id (callType p f args found ty)
      (callType (K.labels.position p) (f.relabel K.labels) (Expr.relabelAll K.labels args)
        found ty) := by
  cases ty with
  | func params ret =>
      simp only [callType, Expr.length_relabelAll, Expr.name?_relabel]
      split
      · exact lockstep_bind (lockstep_checkArguments _ _ _ _ _) fun _ => lockstep_pure ret
      · refine lockstep_bind (lockstep_calleeDeclaration f) fun r => ?_
        exact lockstep_bind (lockstep_report (by nofun) p r) fun _ => lockstep_pure ret
  | error => exact lockstep_pure Ty.error
  | unknown => exact lockstep_pure Ty.unknown
  | int | float | bool | string | void =>
      simp only [callType, Expr.position_relabel]
      exact lockstep_bind (lockstep_report (by nofun) _ none) fun _ => lockstep_pure Ty.error

mutual

theorem lockstep_typeOf (d : Nat) (x : Option Ty) : (e : Expr) →
    Lockstep K id (typeOf ⟨K.first, d, x⟩ e)
      (typeOf ⟨K.second, d, x⟩ (e.relabel K.labels))
  | .literal t v => by
      rw [Expr.relabel, typeOf, typeOf]
      exact lockstep_descend d x t.position (lockstep_record t.id (literalType v))
  | .identifier t y => by
      rw [Expr.relabel, typeOf, typeOf]
      refine lockstep_descend d x t.position ?_
      exact lockstep_bind (lockstep_readName t y) fun ty => lockstep_record t.id ty
  | .binary t op l r => by
      rw [Expr.relabel, typeOf, typeOf]
      refine lockstep_descend d x t.position ?_
      refine lockstep_bind (lockstep_typeOf (d + 1) x l) fun left => ?_
      refine lockstep_bind (lockstep_typeOf (d + 1) x r) fun right => ?_
      exact lockstep_bind (lockstep_orError (by nofun) _ t.position) fun ty =>
        lockstep_record t.id ty
  | .unary t op e => by
      rw [Expr.relabel, typeOf, typeOf]
      refine lockstep_descend d x t.position ?_
      refine lockstep_bind (lockstep_typeOf (d + 1) x e) fun operand => ?_
      exact lockstep_bind (lockstep_orError (by nofun) _ t.position) fun ty =>
        lockstep_record t.id ty
  | .call t f args => by
      rw [Expr.relabel, typeOf, typeOf]
      refine lockstep_descend d x t.position ?_
      refine lockstep_bind (lockstep_typeOf (d + 1) x f) fun callee => ?_
      refine lockstep_bind (lockstep_typesOf (d + 1) x args) fun found => ?_
      exact lockstep_bind (lockstep_callType t.position f args found callee) fun ty =>
        lockstep_record t.id ty

/-- The same for the expressions of a list. -/
theorem lockstep_typesOf (d : Nat) (x : Option Ty) : (es : List Expr) →
    Lockstep K id (typesOf ⟨K.first, d, x⟩ es)
      (typesOf ⟨K.second, d, x⟩ (Expr.relabelAll K.labels es))
  | [] => lockstep_pure []
  | e :: es => by
      rw [Expr.relabelAll, typesOf, typesOf]
      refine lockstep_bind (lockstep_typeOf d x e) fun ty => ?_
      exact lockstep_bind (lockstep_typesOf d x es) fun tys => lockstep_pure (ty :: tys)

end

/-- The same for an expression that may be missing. -/
theorem lockstep_typeOf? (d : Nat) (x : Option Ty) (e : Option Expr) :
    Lockstep K id (typeOf? ⟨K.first, d, x⟩ e)
      (typeOf? ⟨K.second, d, x⟩ (e.map (Expr.relabel K.labels))) := by
  cases e with
  | none => exact lockstep_pure none
  | some e => exact lockstep_bind (lockstep_typeOf d x e) fun ty => lockstep_pure (some ty)

-- ========================================================= declarations

/-- The names of types are no labels, so an annotation names what it named. -/
theorem lockstep_namedType (a : TypeName) :
    Lockstep K id (namedType a) (namedType (a.relabel K.labels)) :=
  lockstep_orError (by nofun) _ a.position

theorem lockstep_valueType (x : String) (a : TypeName) :
    Lockstep K id (valueType x a)
      (valueType (K.labels.name x) (a.relabel K.labels)) :=
  lockstep_bind (lockstep_namedType a) fun _ => lockstep_orError (by nofun) _ a.position

/-- A parameter has the type it had, at a position of its own. -/
theorem lockstep_paramType (p : Param) :
    Lockstep K id (paramType p) (paramType (p.relabel K.labels)) := by
  obtain ⟨x, ann, q⟩ := p
  cases ann with
  | none => exact lockstep_pure Ty.unknown
  | some a => exact lockstep_valueType x a

/-- The types of parameters are found one after the other. -/
theorem lockstep_mapM_paramType (params : List Param) :
    Lockstep K id (params.mapM paramType)
      ((params.map (Param.relabel K.labels)).mapM paramType) := by
  induction params with
  | nil => exact lockstep_pure []
  | cons p ps ih =>
      rw [List.map_cons, List.mapM_cons, List.mapM_cons]
      refine lockstep_bind (lockstep_paramType p) fun ty => ?_
      exact lockstep_bind ih fun tys => lockstep_pure (ty :: tys)

/-- Whether a body returns a value does not depend on labels. -/
theorem lockstep_resultType (result : Option TypeName) (body : List Stmt) :
    Lockstep K id (resultType result body)
      (resultType (result.map (TypeName.relabel K.labels))
        (Stmt.relabelAll K.labels body)) := by
  cases result with
  | none =>
      rw [Option.map_none, resultType, resultType, Stmt.anyReturnsValue_relabelAll]
      exact lockstep_pure (if Stmt.anyReturnsValue body then Ty.unknown else Ty.void)
  | some a => exact lockstep_namedType a

/-- A function is declared under its new name and kept under its new identity. -/
theorem lockstep_declareFunction (t : Tag) (x : String) (params : List Param)
    (result : Option TypeName) (body : List Stmt) :
    Lockstep K id (declareFunction t x params result body)
      (declareFunction (t.relabel K.labels) (K.labels.name x)
        (params.map (Param.relabel K.labels)) (result.map (TypeName.relabel K.labels))
        (Stmt.relabelAll K.labels body)) := by
  refine lockstep_bind (lockstep_mapM_paramType params) fun types => ?_
  refine lockstep_bind (lockstep_resultType result body) fun ret => ?_
  refine lockstep_bind (lockstep_declare ⟨x, .function, .func types ret, t.position, false⟩)
    fun _ => ?_
  exact lockstep_of_run fun h => ⟨⟨types, ret⟩, _, _, rfl, rfl,
    { h with signatures := h.signatures.insert t.id ⟨types, ret⟩ }⟩

/-- The functions that are declared ahead of their place are the same: the names
taken before them compare alike. -/
theorem lockstep_hoist (earlier : List String) (ss : List Stmt) :
    Lockstep K id (hoist earlier ss)
      (hoist (earlier.map K.labels.name) (Stmt.relabelAll K.labels ss)) := by
  induction ss generalizing earlier with
  | nil => exact lockstep_pure ()
  | cons s ss ih =>
      cases s with
      | declaration _ x _ _ _ => exact ih (x :: earlier)
      | function t x params result _ body =>
          have htaken : K.labels.name x ∈ earlier.map K.labels.name ↔ x ∈ earlier :=
            List.mem_map_of_injective K.faithful.name
          rw [Stmt.relabelAll, Stmt.relabel]
          simp only [hoist, htaken]
          split
          · exact lockstep_bind (lockstep_declareFunction t x params result body)
              fun _ => ih earlier
          · exact ih earlier
      | ifElse _ _ _ b => cases b <;> exact ih earlier
      | assignment | block | «while» | ret | expr => exact ih earlier

/-- A function has a signature under its new identity if it had one under the
old, as no two identities become the same. -/
theorem lockstep_signatureOf (t : Tag) (x : String) (params : List Param)
    (result : Option TypeName) (body : List Stmt) :
    Lockstep K id (signatureOf t x params result body)
      (signatureOf (t.relabel K.labels) (K.labels.name x)
        (params.map (Param.relabel K.labels)) (result.map (TypeName.relabel K.labels))
        (Stmt.relabelAll K.labels body)) := by
  intro s s' h
  have hkept : s'.signatures[(t.relabel K.labels).id]? = s.signatures[t.id]? := by
    rw [Tag.relabel, h.signatures.getElem? K.faithful.node]
  simp only [signatureOf, StateT.run_bind, StateT.run_get, pure_bind, hkept]
  cases s.signatures[t.id]? with
  | some sig => exact lockstep_pure (g := id) sig s s' h
  | none => exact lockstep_declareFunction t x params result body s s' h

/-- Parameters are bound under their new names. -/
theorem lockstep_declareParams (params : List Param) (types : List Ty) :
    Lockstep K id (declareParams params types)
      (declareParams (params.map (Param.relabel K.labels)) types) := by
  induction params generalizing types with
  | nil => exact lockstep_pure ()
  | cons p ps ih =>
      cases types with
      | nil => exact lockstep_pure ()
      | cons ty tys =>
          exact lockstep_bind (lockstep_declare ⟨p.name, .parameter, ty, p.position, true⟩)
            fun _ => ih tys

/-- The place of an expression moves with it. -/
theorem located_relabel (e : Option Expr) (ty : Option Ty) :
    located (e.map (Expr.relabel K.labels)) ty
      = (located e ty).map (Prod.map id K.labels.position) := by
  cases e with
  | none => rfl
  | some e =>
      cases ty with
      | none => rfl
      | some ty =>
          show some (ty, (e.relabel K.labels).position) = _
          rw [Expr.position_relabel]
          rfl

/-- What a variable gets for a type does not depend on its name. -/
theorem lockstep_variableType (x : String) (declared : Option Ty)
    (init : Option (Ty × Position)) :
    Lockstep K id (variableType x declared init)
      (variableType (K.labels.name x) declared
        (init.map (Prod.map id K.labels.position))) := by
  match declared, init with
  | some ty, some (found, p) =>
      exact lockstep_bind (lockstep_require (by nofun) _ p) fun _ => lockstep_pure ty
  | some ty, none => exact lockstep_pure ty
  | none, some (found, p) => exact lockstep_orError (by nofun) _ p
  | none, none => exact lockstep_pure Ty.unknown

-- =========================================================== statements

/-- A symbol can be assigned to or cannot, under any name. -/
theorem lockstep_checkStore (t : Tag) (sym : Symbol) (x : String) (found : Ty)
    (p : Position) :
    Lockstep K id (checkStore t sym x found p)
      (checkStore (t.relabel K.labels) (sym.relabel K.labels) (K.labels.name x) found
        (K.labels.position p)) := by
  unfold checkStore
  by_cases hkind : sym.kind = .function
  · have hkind' : (sym.relabel K.labels).kind = .function := hkind
    rw [if_pos hkind, if_pos hkind']
    exact lockstep_report (by nofun) _ (some sym.position)
  · have hkind' : ¬ (sym.relabel K.labels).kind = .function := hkind
    rw [if_neg hkind, if_neg hkind']
    by_cases hmutable : (!sym.mutable) = true
    · have hmutable' : (!(sym.relabel K.labels).mutable) = true := hmutable
      rw [if_pos hmutable, if_pos hmutable']
      exact lockstep_report (by nofun) _ (some sym.position)
    · have hmutable' : ¬ (!(sym.relabel K.labels).mutable) = true := hmutable
      rw [if_neg hmutable, if_neg hmutable']
      exact lockstep_require (by nofun) _ p

/-- The target of an assignment is looked up under its new name. -/
theorem lockstep_checkAssignment (d : Nat) (x : Option Ty) (target value : Expr) :
    Lockstep K id (checkAssignment ⟨K.first, d, x⟩ target value)
      (checkAssignment ⟨K.second, d, x⟩ (target.relabel K.labels)
        (value.relabel K.labels)) := by
  cases target with
  | identifier t y =>
      rw [Expr.relabel, checkAssignment, checkAssignment]
      refine lockstep_bind (lockstep_resolve t y) fun sym => ?_
      have htype : symbolType (sym.map (Symbol.relabel K.labels)) = symbolType sym := by
        cases sym <;> rfl
      rw [htype]
      refine lockstep_bind (lockstep_record t.id (symbolType sym)) fun _ => ?_
      refine lockstep_bind (lockstep_typeOf d x value) fun found => ?_
      rw [Expr.position_relabel]
      cases sym with
      | none => exact lockstep_pure ()
      | some sym => exact lockstep_checkStore t sym y found value.position
  | literal | binary | unary | call =>
      refine lockstep_bind (lockstep_typeOf d x _) fun _ => ?_
      refine lockstep_bind (lockstep_typeOf d x value) fun _ => ?_
      exact lockstep_report (by nofun) _ none

theorem lockstep_checkCondition (d : Nat) (x : Option Ty) (c : Construct) (e : Expr) :
    Lockstep K id (checkCondition ⟨K.first, d, x⟩ c e)
      (checkCondition ⟨K.second, d, x⟩ c (e.relabel K.labels)) := by
  refine lockstep_bind (lockstep_typeOf d x e) fun ty => ?_
  rw [Expr.position_relabel]
  exact lockstep_require (by nofun) _ e.position

/-- A `return` is compared with the same result, at another position. -/
theorem lockstep_checkReturn (p : Position) (expected : Option Ty)
    (value : Option (Ty × Position)) :
    Lockstep K id (checkReturn p expected value)
      (checkReturn (K.labels.position p) expected
        (value.map (Prod.map id K.labels.position))) := by
  match expected, value with
  | none, _ => exact lockstep_report (by nofun) p none
  | some ty, some (found, q) => exact lockstep_require (by nofun) _ q
  | some ty, none => exact lockstep_require (by nofun) _ p

/-- A branch that is a block stays one. -/
theorem lockstep_inBranch {m m' : Check Unit} (s : Stmt) (h : Lockstep K id m m') :
    Lockstep K id (inBranch K.first s m) (inBranch K.second (s.relabel K.labels) m') := by
  unfold inBranch
  rw [Stmt.isBlock_relabel]
  split
  · exact h
  · exact lockstep_inScope h

theorem lockstep_declaredType (x : String) (ann : Option TypeName) :
    Lockstep K id (ann.elim (pure none) fun a => do pure (some (← valueType x a)))
      ((ann.map (TypeName.relabel K.labels)).elim (pure none) fun a => do
        pure (some (← valueType (K.labels.name x) a))) := by
  cases ann with
  | none => exact lockstep_pure none
  | some a => exact lockstep_bind (lockstep_valueType x a) fun ty => lockstep_pure (some ty)

mutual

theorem lockstep_checkStmt (d : Nat) (x : Option Ty) : (s : Stmt) →
    Lockstep K id (checkStmt ⟨K.first, d, x⟩ s)
      (checkStmt ⟨K.second, d, x⟩ (s.relabel K.labels))
  | .declaration t y ann init m => by
      rw [Stmt.relabel, checkStmt, checkStmt]
      refine lockstep_descend d x t.position ?_
      refine lockstep_bind (lockstep_declaredType y ann) fun declared => ?_
      refine lockstep_bind (lockstep_typeOf? (d + 1) x init) fun found => ?_
      rw [located_relabel]
      refine lockstep_bind (lockstep_variableType y declared (located init found))
        fun ty => ?_
      exact lockstep_declare ⟨y, .variable, ty, t.position, m⟩
  | .function t y params result q body => by
      rw [Stmt.relabel, checkStmt, checkStmt]
      refine lockstep_descend d x t.position ?_
      refine lockstep_bind (lockstep_signatureOf t y params result body) fun sig => ?_
      refine lockstep_inScope ?_
      refine lockstep_bind (lockstep_declareParams params sig.params) fun _ => ?_
      refine lockstep_bind (lockstep_hoist [] body) fun _ => ?_
      exact lockstep_checkStmts (d + 1) (some sig.ret) body
  | .assignment t target value => by
      rw [Stmt.relabel, checkStmt, checkStmt]
      exact lockstep_descend d x t.position
        (lockstep_checkAssignment (d + 1) x target value)
  | .block t q ss => by
      rw [Stmt.relabel, checkStmt, checkStmt]
      refine lockstep_descend d x t.position ?_
      refine lockstep_inScope ?_
      exact lockstep_bind (lockstep_hoist [] ss) fun _ => lockstep_checkStmts (d + 1) x ss
  | .ifElse t c a none => by
      rw [Stmt.relabel, checkStmt, checkStmt]
      refine lockstep_descend d x t.position ?_
      refine lockstep_bind (lockstep_checkCondition (d + 1) x .ifElse c) fun _ => ?_
      exact lockstep_inBranch a (lockstep_checkStmt (d + 1) x a)
  | .ifElse t c a (some b) => by
      rw [Stmt.relabel, checkStmt, checkStmt]
      refine lockstep_descend d x t.position ?_
      refine lockstep_bind (lockstep_checkCondition (d + 1) x .ifElse c) fun _ => ?_
      refine lockstep_bind (lockstep_inBranch a (lockstep_checkStmt (d + 1) x a))
        fun _ => ?_
      exact lockstep_inBranch b (lockstep_checkStmt (d + 1) x b)
  | .while t c b => by
      rw [Stmt.relabel, checkStmt, checkStmt]
      refine lockstep_descend d x t.position ?_
      refine lockstep_bind (lockstep_checkCondition (d + 1) x .while c) fun _ => ?_
      exact lockstep_inBranch b (lockstep_checkStmt (d + 1) x b)
  | .ret t value => by
      rw [Stmt.relabel, checkStmt, checkStmt]
      refine lockstep_descend d x t.position ?_
      refine lockstep_bind (lockstep_typeOf? (d + 1) x value) fun found => ?_
      rw [located_relabel]
      exact lockstep_checkReturn t.position x (located value found)
  | .expr t e => by
      rw [Stmt.relabel, checkStmt, checkStmt]
      refine lockstep_descend d x t.position ?_
      exact lockstep_bind (lockstep_typeOf (d + 1) x e) fun _ => lockstep_pure ()

/-- The same for the statements of a list, in order. -/
theorem lockstep_checkStmts (d : Nat) (x : Option Ty) : (ss : List Stmt) →
    Lockstep K id (checkStmts ⟨K.first, d, x⟩ ss)
      (checkStmts ⟨K.second, d, x⟩ (Stmt.relabelAll K.labels ss))
  | [] => lockstep_pure ()
  | s :: ss => by
      rw [Stmt.relabelAll, checkStmts, checkStmts]
      exact lockstep_bind (lockstep_checkStmt d x s) fun _ => lockstep_checkStmts d x ss

end

/-- Checking a program is in lockstep with checking it under other labels. -/
theorem lockstep_checkProgram (p : Program) :
    Lockstep K id (checkProgram K.first p) (checkProgram K.second (p.relabel K.labels)) :=
  lockstep_inScope (lockstep_bind (lockstep_hoist [] p.body) fun _ =>
    lockstep_checkStmts 0 none p.body)

end Analysis

-- ============================================================== analyses

open Analysis

/-- The result of an analysis and that of its rerun. -/
structure Analysis.Rerun.Results (K : Rerun) (a a' : Analysis) : Prop where
  types : FilledAlike K.labels.node a.types a'.types
  resolutions : FilledAlike K.labels.node a.resolutions a'.resolutions
  findings : K.Reported a.findings a'.findings

/-- A rerun ends as the analysis does: with the same error, up to labels, or with a
result if that has one. -/
theorem Program.analyze_rerun (K : Rerun) (p : Program) :
    (∃ e, p.analyze K.first = .error e
        ∧ (p.relabel K.labels).analyze K.second = .error (e.relabel K.labels))
      ∨ ∃ a a', p.analyze K.first = .ok a
        ∧ (p.relabel K.labels).analyze K.second = .ok a' ∧ K.Results a a' := by
  have hstart : K.Related {} {} := ⟨.fresh _, .empty, .empty, rfl, .empty, .nil⟩
  have hrun := lockstep_checkProgram (K := K) p {} {} hstart
  unfold analyze
  cases hfirst : (checkProgram K.first p).run {} with
  | error e =>
      rw [hfirst] at hrun
      rw [show (checkProgram K.second (p.relabel K.labels)).run {} = _ from hrun]
      exact .inl ⟨e, rfl, rfl⟩
  | ok r =>
      obtain ⟨u, t⟩ := r
      rw [hfirst] at hrun
      obtain ⟨t', hsecond, ht⟩ := hrun
      rw [hsecond]
      simp only [ht.table.isEmpty, ht.table.depth]
      cases t.table.isEmpty with
      | false => exact .inl ⟨_, rfl, rfl⟩
      | true => exact .inr ⟨_, _, rfl, rfl, ht.types, ht.resolutions, ht.findings⟩

/-- The rerun with the options of the analysis. -/
def Analysis.Rerun.under (config : Config) {T : Relabeling} (hT : T.Faithful) : Rerun :=
  ⟨T, hT, config.maxDepth, config.warnUnused, config.warnUnused⟩

/-- Under other labels and with the same options. -/
theorem Program.analyze_relabel {p q : Program} (config : Config) {T : Relabeling}
    (hT : T.Faithful) (hq : p.relabel T = q) :
    (∃ e, p.analyze config = .error e ∧ q.analyze config = .error (e.relabel T))
      ∨ ∃ a b, p.analyze config = .ok a ∧ q.analyze config = .ok b
        ∧ (Rerun.under config hT).Results a b := by
  subst hq
  exact p.analyze_rerun (.under config hT)

end TreeCheck
