/-
Checking statements.

The functions of a statement list are declared before its statements
are walked, so they can be called before their definition. A function
whose name an earlier variable of the list has taken is declared in its
own place instead: the clash is then reported at the function, and the
function wins. Either way a function is declared once, and the
signature it was declared with is kept under its identity until its
body is checked.
-/
import TreeCheck.Analysis.Expressions

namespace TreeCheck.Analysis

-- ============================================================= functions

/-- Declares a function and keeps its signature. -/
def declareFunction (t : Tag) (name : String) (params : List Param)
    (result : Option TypeName) (body : List Stmt) : Check Signature := do
  let types ← params.mapM paramType
  let ret ← resultType result body
  declare ⟨name, .function, .func types ret, t.position, false⟩
  modify fun s => { s with signatures := s.signatures.insert t.id ⟨types, ret⟩ }
  pure ⟨types, ret⟩

/-- Declares the functions of a statement list ahead of their place,
except where a variable before them has their name. -/
def hoist (earlier : List String) : List Stmt → Check Unit
  | [] => pure ()
  | .declaration _ name _ _ _ :: rest => hoist (name :: earlier) rest
  | .function t name params result _ body :: rest => do
    if name ∉ earlier then
      let _ ← declareFunction t name params result body
    hoist earlier rest
  | _ :: rest => hoist earlier rest

/-- The signature of a function whose place has been reached. -/
def signatureOf (t : Tag) (name : String) (params : List Param)
    (result : Option TypeName) (body : List Stmt) : Check Signature := do
  match (← get).signatures[t.id]? with
  | some sig => pure sig
  | none => declareFunction t name params result body

/-- Binds parameters, which can be assigned to, with their types. -/
def declareParams : List Param → List Ty → Check Unit
  | p :: ps, ty :: tys => do
    declare ⟨p.name, .parameter, ty, p.position, true⟩
    declareParams ps tys
  | _, _ => pure ()

-- ============================================================= variables

/-- The type that a declared variable gets from its annotation and its
initializer, with the position of the latter. -/
def variableType (name : String) (declared : Option Ty) (init : Option (Ty × Position)) :
    Check Ty :=
  match declared, init with
  | some ty, some (found, p) => do
    require (ty.accepts found) (.badInitializer name ty found) p
    pure ty
  | some ty, none => pure ty
  | none, some (found, p) =>
    orError (if found = .void then none else some found) (.voidInitializer name) p
  | none, none => pure .unknown

/-- What is wrong with storing a value in what a name resolved to. -/
def checkStore (t : Tag) (sym : Symbol) (name : String) (found : Ty) (p : Position) :
    Check Unit :=
  if sym.kind = .function then report (.assignToFunction name) t.position sym.position
  else if !sym.mutable then report (.assignToImmutable name) t.position sym.position
  else require (sym.type.accepts found) (.badAssignment name sym.type found) p

/-- Checks an assignment in the context of its parts. Writing to a name
is no use of it. -/
def checkAssignment (inner : Context) (target value : Expr) : Check Unit :=
  match target with
  | .identifier t name => do
    let sym ← resolve t name
    let _ ← record t.id (symbolType sym)
    let found ← typeOf inner value
    match sym with
    | some sym => checkStore t sym name found value.position
    | none => pure ()
  | target => do
    let _ ← typeOf inner target
    let _ ← typeOf inner value
    report .notAVariable target.position

-- ====================================================== control and return

/-- Whether a type can be that of a condition. -/
def isCondition (ty : Ty) : Bool := ty == .bool || ty.isPermissive

/-- Types the condition of a statement. -/
def checkCondition (inner : Context) (construct : Construct) (condition : Expr) :
    Check Unit := do
  let ty ← typeOf inner condition
  require (isCondition ty) (.badCondition construct ty) condition.position

/-- Compares what a `return` carries with what the function around it
returns. -/
def checkReturn (position : Position) (expected : Option Ty) (value : Option (Ty × Position)) :
    Check Unit :=
  match expected, value with
  | none, _ => report .returnOutside position
  | some ty, some (found, p) => require (ty.accepts found) (.badReturn ty found) p
  | some ty, none => require (ty == .void || ty.isPermissive) (.missingReturn ty) position

/-- Runs the check of a branch in a scope of its own, also where the
branch has no braces. A block brings its scope along. -/
def inBranch (config : Config) (branch : Stmt) (body : Check Unit) : Check Unit :=
  if branch.isBlock then body else inScope config body

/-- The type found for an optional expression, with its position. -/
def located (e : Option Expr) (ty : Option Ty) : Option (Ty × Position) :=
  match e, ty with
  | some e, some ty => some (ty, e.position)
  | _, _ => none

-- ============================================================= statements

mutual

/-- Checks a statement. -/
def checkStmt (ctx : Context) : Stmt → Check Unit
  | .declaration t name ann init mutable => do
    let inner ← ctx.descend t.position
    let declared ← ann.elim (pure none) fun a => do pure (some (← valueType name a))
    let found ← typeOf? inner init
    let ty ← variableType name declared (located init found)
    declare ⟨name, .variable, ty, t.position, mutable⟩
  | .function t name params result _ body => do
    let inner ← ctx.descend t.position
    let sig ← signatureOf t name params result body
    inScope ctx.config do
      declareParams params sig.params
      hoist [] body
      checkStmts (inner.returning sig.ret) body
  | .assignment t target value => do
    let inner ← ctx.descend t.position
    checkAssignment inner target value
  | .block t _ stmts => do
    let inner ← ctx.descend t.position
    inScope ctx.config do
      hoist [] stmts
      checkStmts inner stmts
  | .ifElse t condition thenBranch none => do
    let inner ← ctx.descend t.position
    checkCondition inner .ifElse condition
    inBranch ctx.config thenBranch (checkStmt inner thenBranch)
  | .ifElse t condition thenBranch (some elseBranch) => do
    let inner ← ctx.descend t.position
    checkCondition inner .ifElse condition
    inBranch ctx.config thenBranch (checkStmt inner thenBranch)
    inBranch ctx.config elseBranch (checkStmt inner elseBranch)
  | .while t condition body => do
    let inner ← ctx.descend t.position
    checkCondition inner .while condition
    inBranch ctx.config body (checkStmt inner body)
  | .ret t value => do
    let inner ← ctx.descend t.position
    let found ← typeOf? inner value
    checkReturn t.position ctx.expected (located value found)
  | .expr t e => do
    let inner ← ctx.descend t.position
    let _ ← typeOf inner e
termination_by structural s => s

/-- Checks the statements of a list in order. -/
def checkStmts (ctx : Context) : List Stmt → Check Unit
  | [] => pure ()
  | s :: ss => do
    checkStmt ctx s
    checkStmts ctx ss
termination_by structural ss => ss

end

/-- Checks a program in its global scope. -/
def checkProgram (config : Config) (p : Program) : Check Unit :=
  inScope config do
    hoist [] p.body
    checkStmts { config } p.body

end TreeCheck.Analysis
