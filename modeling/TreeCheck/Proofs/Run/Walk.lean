/-
The walk of an analysis over the outline of a program.

The outline lists the nodes with their depth. A walk visits them in this
order, all but the identifiers that are assigned to: such a target is
resolved without going down to it. Identities are recorded after the
parts of a node, so in another order than the outline's; only which of
them repeat matters.

There is one lemma for each function of the analysis, and the recursive
ones follow the recursion of the outline.
-/
import TreeCheck.Proofs.Run.Coverage

namespace TreeCheck

namespace Outline

/-- Whether a node is an identifier that is assigned to. -/
def Entry.isBareTarget (n : Entry) : Bool :=
  n.role == .target && n.node.expr?.any (·.name?.isSome)

/-- The nodes whose depth a walk checks: all but bare targets. -/
def visited (o : Outline) : Outline := o.filter (!·.isBareTarget)

/-- The identities of the expressions of an outline. -/
def exprIds (o : Outline) : List NodeId := o.filterMap (·.node.expr?.map Expr.id)

@[simp] theorem visited_append (o o' : Outline) :
    visited (o ++ o') = visited o ++ visited o' := List.filter_append ..

@[simp] theorem exprIds_append (o o' : Outline) :
    exprIds (o ++ o') = exprIds o ++ exprIds o' := List.filterMap_append ..

theorem mem_of_mem_visited {n : Entry} {o : Outline} (h : n ∈ visited o) :
    n ∈ o :=
  (List.mem_filter.mp h).1

/-- Statements are always visited. -/
@[simp] theorem visited_stmt (d : Nat) (r : Role) (s : Stmt) (o : Outline) :
    visited (⟨d, r, .stmt s⟩ :: o) = ⟨d, r, .stmt s⟩ :: visited o := by
  simp [visited, Entry.isBareTarget, Node.expr?]

@[simp] theorem exprIds_stmt (d : Nat) (r : Role) (s : Stmt) (o : Outline) :
    exprIds (⟨d, r, .stmt s⟩ :: o) = exprIds o := rfl

/-- An expression is recorded under its own identity. -/
@[simp] theorem exprIds_expr (d : Nat) (r : Role) (e : Expr) (o : Outline) :
    exprIds (⟨d, r, .expr e⟩ :: o) = e.id :: exprIds o := rfl

end Outline

namespace Analysis

open Outline

variable {limit : Nat}

-- ======================================================== expressions

/-- A name is looked up and marked as used, without a visit. -/
theorem walks_readName (t : Tag) (name : String) :
    Walks limit (readName t name) [] [] := by
  refine walks_then (walks_resolve t name) fun sym => ?_
  cases sym with
  | none => exact walks_pure _
  | some sym => exact walks_then (walks_markUsed sym) fun _ => walks_pure _

/-- Arguments have been typed when they are compared with the parameters. -/
theorem walks_checkArguments (callee : Option String) (i : Nat) (ps : List Ty)
    (args : List Expr) (found : List Ty) :
    Walks limit (checkArguments callee i ps args found) [] [] := by
  induction ps generalizing i args found with
  | nil => exact walks_pure ()
  | cons p ps ih =>
      match args, found with
      | [], _ => exact walks_pure ()
      | _ :: _, [] => exact walks_pure ()
      | _ :: args, _ :: found =>
          exact walks_then (walks_require _ _ _) fun _ => ih _ args found

/-- What a call gives is settled by types that are there already. -/
theorem walks_callType (position : Position) (callee : Expr) (args : List Expr)
    (found : List Ty) (ty : Ty) :
    Walks limit (callType position callee args found ty) [] [] := by
  cases ty with
  | func params ret =>
      simp only [callType]
      split
      · exact walks_then (walks_checkArguments _ _ _ _ _) fun _ => walks_pure _
      · refine walks_then ?_ fun r => walks_then (walks_report _ _ _) fun _ =>
          walks_pure _
        exact walks_then walks_get fun _ => walks_pure _
  | error => exact walks_pure _
  | unknown => exact walks_pure _
  | int | float | bool | string | void =>
      exact walks_then (walks_report _ _ _) fun _ => walks_pure _

/-- The outline of an expression that is no bare target: the expression
itself is visited like everything below it. -/
theorem visited_expr {d : Nat} {r : Role} {e : Expr} {o : Outline}
    (h : r = .target → e.name? = none) :
    visited (⟨d, r, .expr e⟩ :: o) = ⟨d, r, .expr e⟩ :: visited o := by
  have hbare : Entry.isBareTarget ⟨d, r, .expr e⟩ = false := by
    by_cases hr : r = .target
    · simp [Entry.isBareTarget, Node.expr?, h hr]
    · simp [Entry.isBareTarget, hr]
  simp [visited, hbare]

/-- A node is recorded after its parts, and listed before them. -/
private theorem walks_recorded {α : Type} {m : Check α} {vs : Outline}
    {ids : List NodeId} {id : NodeId} (h : Walks limit m vs (ids ++ [id])) :
    Walks limit m vs (id :: ids) :=
  h.perm (List.perm_append_singleton id ids)

mutual

/-- Typing an expression visits it and all below it, in pre-order, and
records all their identities. -/
theorem walks_typeOf (ctx : Context) (r : Role) : (e : Expr) →
    (r = .target → e.name? = none) →
    Walks ctx.config.maxDepth (typeOf ctx e)
      (e.outline ctx.depth r).visited (e.outline ctx.depth r).exprIds
  | .literal t v, h => by
      rw [Expr.outline, visited_expr h, exprIds_expr]
      refine walks_descend (n := ⟨ctx.depth, r, .expr (.literal t v)⟩) rfl ?_
      exact walks_record _ _
  | .identifier t x, h => by
      rw [Expr.outline, visited_expr h, exprIds_expr]
      refine walks_descend (n := ⟨ctx.depth, r, .expr (.identifier t x)⟩) rfl ?_
      exact walks_then (walks_readName t x) fun _ => walks_record _ _
  | .binary t op a b, h => by
      rw [Expr.outline, visited_expr h, exprIds_expr, visited_append,
        exprIds_append]
      refine walks_descend (n := ⟨ctx.depth, r, .expr (.binary t op a b)⟩) rfl ?_
      refine walks_recorded ?_
      rw [List.append_assoc, ← List.append_nil (visited (b.outline _ _))]
      refine walks_bind (walks_typeOf _ .left a nofun) fun _ => ?_
      refine walks_bind (walks_typeOf _ .right b nofun) fun _ => ?_
      exact walks_then (walks_orError _ _ _) fun _ => walks_record _ _
  | .unary t op a, h => by
      rw [Expr.outline, visited_expr h, exprIds_expr]
      refine walks_descend (n := ⟨ctx.depth, r, .expr (.unary t op a)⟩) rfl ?_
      refine walks_recorded ?_
      rw [← List.append_nil (visited _)]
      refine walks_bind (walks_typeOf _ .operand a nofun) fun _ => ?_
      exact walks_then (walks_orError _ _ _) fun _ => walks_record _ _
  | .call t f args, h => by
      rw [Expr.outline, visited_expr h, exprIds_expr, visited_append,
        exprIds_append]
      refine walks_descend (n := ⟨ctx.depth, r, .expr (.call t f args)⟩) rfl ?_
      refine walks_recorded ?_
      rw [List.append_assoc, ← List.append_nil (visited (Expr.outlines _ _ _))]
      refine walks_bind (walks_typeOf _ .callee f nofun) fun _ => ?_
      refine walks_bind (walks_typesOf _ .arg args nofun) fun _ => ?_
      exact walks_then (walks_callType _ _ _ _ _) fun _ => walks_record _ _

theorem walks_typesOf (ctx : Context) (r : Role) : (es : List Expr) →
    r ≠ .target →
    Walks ctx.config.maxDepth (typesOf ctx es)
      (Expr.outlines ctx.depth r es).visited
      (Expr.outlines ctx.depth r es).exprIds
  | [], _ => walks_pure []
  | e :: es, h => by
      rw [Expr.outlines, visited_append, exprIds_append]
      refine walks_bind (walks_typeOf ctx r e fun hr => absurd hr h) fun _ => ?_
      rw [← List.append_nil (visited _), ← List.append_nil (exprIds _)]
      exact walks_bind (walks_typesOf ctx r es h) fun _ => walks_pure _

end

/-- An expression that may be missing is visited if it is there. -/
theorem walks_typeOf? (ctx : Context) (r : Role) (e : Option Expr)
    (h : r ≠ .target) :
    Walks ctx.config.maxDepth (typeOf? ctx e)
      (Expr.outline? ctx.depth r e).visited
      (Expr.outline? ctx.depth r e).exprIds := by
  cases e with
  | none => exact walks_pure none
  | some e =>
      rw [Expr.outline?, Option.elim_some]
      rw [← List.append_nil (visited _), ← List.append_nil (exprIds _)]
      exact walks_bind (walks_typeOf ctx r e fun hr => absurd hr h) fun _ =>
        walks_pure _

-- ======================================================= declarations

/-- Annotations are no nodes. -/
theorem walks_paramType (p : Param) : Walks limit (paramType p) [] [] := by
  rw [paramType]
  cases p.typeName with
  | none => exact walks_pure _
  | some a => exact walks_then (walks_orError _ _ _) fun _ => walks_orError _ _ _

theorem walks_resultType (result : Option TypeName) (body : List Stmt) :
    Walks limit (resultType result body) [] [] := by
  cases result with
  | none => exact walks_pure _
  | some a => exact walks_orError _ _ _

/-- The annotations of all parameters of a function are looked at in a row. -/
theorem walks_mapM_paramType (params : List Param) :
    Walks limit (params.mapM paramType) [] [] := by
  induction params with
  | nil => exact walks_pure []
  | cons p ps ih =>
      rw [List.mapM_cons]
      exact walks_then (walks_paramType p) fun _ => walks_then ih fun _ =>
        walks_pure _

/-- To declare a function is not to go into its body. -/
theorem walks_declareFunction (t : Tag) (name : String) (params : List Param)
    (result : Option TypeName) (body : List Stmt) :
    Walks limit (declareFunction t name params result body) [] [] := by
  refine walks_then (walks_mapM_paramType params) fun _ => ?_
  refine walks_then (walks_resultType result body) fun _ => ?_
  refine walks_then (walks_declare _) fun _ => ?_
  refine walks_then ?_ fun _ => walks_pure _
  exact walks_of_run fun _ _ => ⟨_, _, rfl, rfl, rfl⟩

/-- So nothing is visited where functions are declared ahead of their places. -/
theorem walks_hoist (earlier : List String) (ss : List Stmt) :
    Walks limit (hoist earlier ss) [] [] := by
  induction ss generalizing earlier with
  | nil => exact walks_pure ()
  | cons s ss ih =>
      cases s with
      | declaration _ name _ _ _ => exact ih (name :: earlier)
      | function t name params result _ body =>
          simp only [hoist]
          split
          · exact walks_then (walks_declareFunction t name params result body)
              fun _ => ih earlier
          · exact ih earlier
      | assignment | block | ifElse | «while» | ret | expr => exact ih earlier

/-- Whether a function was declared ahead makes no difference to the visits. -/
theorem walks_signatureOf (t : Tag) (name : String) (params : List Param)
    (result : Option TypeName) (body : List Stmt) :
    Walks limit (signatureOf t name params result body) [] [] := by
  refine walks_then walks_get fun s => ?_
  cases s.signatures[t.id]? with
  | some sig => exact walks_pure sig
  | none => exact walks_declareFunction t name params result body

/-- Parameters are bound, not visited. -/
theorem walks_declareParams (params : List Param) (types : List Ty) :
    Walks limit (declareParams params types) [] [] := by
  induction params generalizing types with
  | nil => exact walks_pure ()
  | cons p ps ih =>
      cases types with
      | nil => exact walks_pure ()
      | cons ty tys => exact walks_then (walks_declare _) fun _ => ih tys

theorem walks_variableType (name : String) (declared : Option Ty)
    (init : Option (Ty × Position)) :
    Walks limit (variableType name declared init) [] [] := by
  match declared, init with
  | some ty, some (found, p) =>
      exact walks_then (walks_require _ _ _) fun _ => walks_pure _
  | some ty, none => exact walks_pure ty
  | none, some (found, p) => exact walks_orError _ _ _
  | none, none => exact walks_pure _

-- ========================================================= statements

/-- Whether a value can be stored is settled by the symbol and the type. -/
theorem walks_checkStore (t : Tag) (sym : Symbol) (name : String) (found : Ty)
    (p : Position) : Walks limit (checkStore t sym name found p) [] [] := by
  unfold checkStore
  split
  · exact walks_report _ _ _
  · split
    · exact walks_report _ _ _
    · exact walks_require _ _ _

/-- The value of a `return` has been typed when it is compared. -/
theorem walks_checkReturn (p : Position) (expected : Option Ty)
    (value : Option (Ty × Position)) :
    Walks limit (checkReturn p expected value) [] [] := by
  match expected, value with
  | none, _ => exact walks_report _ _ _
  | some ty, some (found, q) => exact walks_require _ _ _
  | some ty, none => exact walks_require _ _ _

/-- A condition is visited like any expression. -/
theorem walks_checkCondition (ctx : Context) (c : Construct) (e : Expr) :
    Walks ctx.config.maxDepth (checkCondition ctx c e)
      (e.outline ctx.depth .condition).visited
      (e.outline ctx.depth .condition).exprIds := by
  rw [← List.append_nil (visited _), ← List.append_nil (exprIds _)]
  exact walks_bind (walks_typeOf ctx .condition e nofun) fun _ =>
    walks_require _ _ _

/-- An assignment covers target and value; a bare target is recorded
without being visited. -/
theorem walks_checkAssignment (ctx : Context) (target value : Expr) :
    Walks ctx.config.maxDepth (checkAssignment ctx target value)
      ((target.outline ctx.depth .target).visited
        ++ (value.outline ctx.depth .value).visited)
      ((target.outline ctx.depth .target).exprIds
        ++ (value.outline ctx.depth .value).exprIds) := by
  cases target with
  | identifier t name =>
      refine walks_then (walks_resolve t name) fun sym => ?_
      have htarget : Walks ctx.config.maxDepth (record t.id (symbolType sym)) []
        [t.id] :=
        walks_record t.id (symbolType sym)
      refine walks_bind htarget fun _ => ?_
      rw [← List.append_nil (visited _), ← List.append_nil (exprIds _)]
      refine walks_bind (walks_typeOf ctx .value value nofun) fun _ => ?_
      cases sym with
      | none => exact walks_pure ()
      | some sym => exact walks_checkStore _ _ _ _ _
  | literal | binary | unary | call =>
      refine walks_bind (walks_typeOf ctx .target _ fun _ => rfl) fun _ => ?_
      rw [← List.append_nil (visited _), ← List.append_nil (exprIds _)]
      exact walks_bind (walks_typeOf ctx .value value nofun) fun _ =>
        walks_report _ _ _

/-- The scope around a branch adds nothing to its visits. -/
theorem walks_inBranch {body : Check Unit} {vs : Outline} {ids : List NodeId}
    (config : Config) (branch : Stmt) (h : Walks limit body vs ids) :
    Walks limit (inBranch config branch body) vs ids := by
  unfold inBranch
  split
  · exact h
  · exact walks_inScope config h

mutual

/-- Checking a statement visits it and all below it, in pre-order, and
records the identities of all its expressions. -/
theorem walks_checkStmt (ctx : Context) (r : Role) : (s : Stmt) →
    Walks ctx.config.maxDepth (checkStmt ctx s)
      (s.outline ctx.depth r).visited (s.outline ctx.depth r).exprIds
  | .declaration t name ann init mutable => by
      rw [Stmt.outline, visited_stmt, exprIds_stmt]
      refine walks_descend
        (n := ⟨_, r, .stmt (.declaration t name ann init mutable)⟩)
        rfl ?_
      refine walks_then ?_ fun _ => ?_
      · cases ann with
        | none => exact walks_pure none
        | some a =>
            refine walks_then ?_ fun _ => walks_pure _
            exact walks_then (walks_orError _ _ _) fun _ => walks_orError _ _ _
      rw [← List.append_nil (visited _), ← List.append_nil (exprIds _)]
      refine walks_bind (walks_typeOf? _ .init init nofun) fun _ => ?_
      exact walks_then (walks_variableType _ _ _) fun _ => walks_declare _
  | .function t name params result p body => by
      rw [Stmt.outline, visited_stmt, exprIds_stmt]
      refine walks_descend
        (n := ⟨_, r, .stmt (.function t name params result p body)⟩)
        rfl ?_
      refine walks_then (walks_signatureOf _ _ _ _ _) fun sig => ?_
      refine walks_inScope _ ?_
      refine walks_then (walks_declareParams _ _) fun _ => ?_
      refine walks_then (walks_hoist _ _) fun _ => ?_
      exact walks_checkStmts _ .body body
  | .assignment t target value => by
      rw [Stmt.outline, visited_stmt, exprIds_stmt, visited_append,
        exprIds_append]
      refine walks_descend
        (n := ⟨_, r, .stmt (.assignment t target value)⟩) rfl ?_
      exact walks_checkAssignment _ target value
  | .block t p ss => by
      rw [Stmt.outline, visited_stmt, exprIds_stmt]
      refine walks_descend (n := ⟨_, r, .stmt (.block t p ss)⟩) rfl ?_
      refine walks_inScope _ ?_
      exact walks_then (walks_hoist _ _) fun _ => walks_checkStmts _ .stmt ss
  | .ifElse t c a none => by
      rw [Stmt.outline, visited_stmt, exprIds_stmt, visited_append,
        exprIds_append]
      refine walks_descend (n := ⟨_, r, .stmt (.ifElse t c a none)⟩) rfl ?_
      refine walks_bind (walks_checkCondition _ _ c) fun _ => ?_
      exact walks_inBranch _ a (walks_checkStmt _ .thenBranch a)
  | .ifElse t c a (some b) => by
      rw [Stmt.outline, visited_stmt, exprIds_stmt, visited_append,
        exprIds_append, visited_append, exprIds_append, List.append_assoc,
        List.append_assoc]
      refine walks_descend (n := ⟨_, r, .stmt (.ifElse t c a (some b))⟩) rfl ?_
      refine walks_bind (walks_checkCondition _ _ c) fun _ => ?_
      refine walks_bind (walks_inBranch _ a (walks_checkStmt _ .thenBranch a))
        fun _ => ?_
      exact walks_inBranch _ b (walks_checkStmt _ .elseBranch b)
  | .while t c b => by
      rw [Stmt.outline, visited_stmt, exprIds_stmt, visited_append,
        exprIds_append]
      refine walks_descend (n := ⟨_, r, .stmt (.while t c b)⟩) rfl ?_
      refine walks_bind (walks_checkCondition _ _ c) fun _ => ?_
      exact walks_inBranch _ b (walks_checkStmt _ .body b)
  | .ret t value => by
      rw [Stmt.outline, visited_stmt, exprIds_stmt]
      refine walks_descend (n := ⟨_, r, .stmt (.ret t value)⟩) rfl ?_
      rw [← List.append_nil (visited _), ← List.append_nil (exprIds _)]
      exact walks_bind (walks_typeOf? _ .value value nofun) fun _ =>
        walks_checkReturn _ _ _
  | .expr t e => by
      rw [Stmt.outline, visited_stmt, exprIds_stmt]
      refine walks_descend (n := ⟨_, r, .stmt (.expr t e)⟩) rfl ?_
      rw [← List.append_nil (visited _), ← List.append_nil (exprIds _)]
      exact walks_bind (walks_typeOf _ .expr e nofun) fun _ => walks_pure _

theorem walks_checkStmts (ctx : Context) (r : Role) : (ss : List Stmt) →
    Walks ctx.config.maxDepth (checkStmts ctx ss)
      (Stmt.outlines ctx.depth r ss).visited
      (Stmt.outlines ctx.depth r ss).exprIds
  | [] => walks_pure ()
  | s :: ss => by
      rw [Stmt.outlines, visited_append, exprIds_append]
      exact walks_bind (walks_checkStmt ctx r s) fun _ =>
        walks_checkStmts ctx r ss

end

/-- Checking a program covers its whole outline, from an empty state. -/
theorem ends_checkProgram (config : Config) (p : Program) :
    Ends config.maxDepth p.outline.visited p.outline.exprIds {}
      ((checkProgram config p).run {}) := by
  refine ends_inScope config (walks_then (walks_hoist _ _) fun _ => ?_) {}
  exact walks_checkStmts { config } .body p.body

end Analysis

end TreeCheck
