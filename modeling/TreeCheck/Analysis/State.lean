/-
The state of an analysis and the steps that change it.

What an enclosing construct fixes for everything inside it — the
nesting depth, the result type a `return` has to meet — is passed down
as a context and cannot leak out. The state holds what flows forward
through the program: the open scopes, the tables that are the result,
the symbols read so far, the signatures of functions declared ahead of
their place, and the findings.
-/
import Std.Data.TreeSet
import TreeCheck.Analysis.Finding
import TreeCheck.Scope.Table
import TreeCheck.Syntax.Returns

namespace TreeCheck

/-- What an analysis can be asked to do differently. -/
structure Config where
  /-- Whether unused variables and parameters are reported. -/
  warnUnused : Bool := true
  /-- How deep statements and expressions may nest; the outermost
  statements have depth one. -/
  maxDepth : Nat := 512
deriving DecidableEq, Repr

/-- Why an analysis had to stop. None of these is the fault of the
analyzed program as its author wrote it. -/
inductive AnalysisError where
  | tooDeep (limit : Nat) (position : Position)
  | repeatedNode (id : NodeId)
  | bind (error : BindError)
  | leave (error : LeaveError)
  | stillOpen (scopes : Nat)
deriving DecidableEq, Repr

/-- The text of an analysis error. -/
def AnalysisError.message : AnalysisError → String
  | .tooDeep limit p => s!"nesting deeper than {limit} levels at {p.display}"
  | .repeatedNode id =>
    s!"node {NodeId.display id} reached twice; the tree shares or repeats nodes"
  | .bind e => e.message
  | .leave e => e.message
  | .stillOpen n => s!"{n} scope(s) still open after analysis"

/-- The type of every expression typed so far. -/
abbrev TypeTable := Std.TreeMap NodeId Ty

/-- The symbol that each identifier resolved to. -/
abbrev ResolutionTable := Std.TreeMap NodeId SymbolId

/-- Parameter and result types of a function. -/
structure Signature where
  params : List Ty
  ret : Ty
deriving DecidableEq, Repr

namespace Analysis

/-- The state of an analysis. -/
structure State where
  table : SymbolTable := {}
  types : TypeTable := {}
  resolutions : ResolutionTable := {}
  used : Std.TreeSet SymbolId := {}
  signatures : Std.TreeMap NodeId Signature := {}
  findings : Array Finding := #[]

/-- A step of an analysis. -/
abbrev Check := StateT State (Except AnalysisError)

/-- What the constructs around a node fix for it: the options, the number
of nodes around it, and the result type of the innermost function. -/
structure Context where
  config : Config
  depth : Nat := 0
  expected : Option Ty := none
deriving Repr

namespace Context

/-- The context of the parts of a node at a position, if the node itself
is not too deep. -/
def descend (ctx : Context) (p : Position) : Check Context :=
  if ctx.depth < ctx.config.maxDepth then pure { ctx with depth := ctx.depth + 1 }
  else throw (.tooDeep ctx.config.maxDepth p)

/-- The context of the body of a function with a given result type. -/
def returning (ctx : Context) (ret : Ty) : Context := { ctx with expected := some ret }

end Context

-- ============================================================== recording

/-- Adds a finding. -/
def report (cause : Cause) (position : Position) (related : Option Position := none) :
    Check Unit :=
  modify fun s => { s with findings := s.findings.push ⟨cause, position, related⟩ }

/-- Adds a finding unless a condition holds. -/
def require (ok : Bool) (cause : Cause) (position : Position) : Check Unit :=
  if ok then pure () else report cause position

/-- Records the type of a node and gives it back. A node has one type, so
a second recording under its identity is an error. -/
def record (id : NodeId) (ty : Ty) : Check Ty := do
  if (← get).types.contains id then throw (.repeatedNode id)
  modify fun s => { s with types := s.types.insert id ty }
  pure ty

/-- The type of something that failed is `error`, and the failure is
reported. -/
def orError (result : Option Ty) (cause : Cause) (position : Position) : Check Ty :=
  match result with
  | some ty => pure ty
  | none => do
    report cause position
    pure .error

-- ================================================================= scopes

/-- Binds a name. A name bound twice in one scope is reported, and the
later declaration takes its place. -/
def declare (b : Binding) : Check Unit := do
  match (← get).table.declare b with
  | .ok (_, table) => modify ({ · with table })
  | .error (.duplicate name previous) =>
    report (.duplicate name) b.position previous
    match (← get).table.shadow b with
    | .ok (_, table) => modify ({ · with table })
    | .error e => throw (.bind e)
  | .error .noScope => throw (.bind .noScope)

/-- The finding about a symbol whose scope is left, if it was never read:
functions need no caller, and a leading underscore asks for silence. -/
def unused? (used : Std.TreeSet SymbolId) (sym : Symbol) : Option Finding :=
  if sym.name.toList.head? = some '_' ∨ used.contains sym.id then none
  else match sym.kind with
    | .variable => some ⟨.unusedVariable sym.name, sym.position, none⟩
    | .parameter => some ⟨.unusedParameter sym.name, sym.position, none⟩
    | .function => none

/-- Leaves a scope and reports what was unused in it. The names of the
outermost scope may have readers elsewhere. -/
def leave (config : Config) (h : ScopeHandle) : Check Unit := do
  let s ← get
  match s.table.exit h with
  | .error e => throw (.leave e)
  | .ok (symbols, table) =>
    let warnings :=
      if config.warnUnused && s.table.depth != 1 then symbols.filterMap (unused? s.used) else []
    set { s with table, findings := s.findings ++ warnings }

/-- Runs a step in a scope of its own. -/
def inScope (config : Config) (body : Check Unit) : Check Unit := do
  let (h, table) := (← get).table.enter
  modify ({ · with table })
  body
  leave config h

/-- Reports a name that nothing binds. -/
def undefined (t : Tag) (name : String) : Check Unit := report (.undefined name) t.position

/-- The symbol that an identifier refers to, recorded as its resolution;
an identifier without one is reported. -/
def resolve (t : Tag) (name : String) : Check (Option Symbol) := do
  match (← get).table.resolve name with
  | some sym =>
    modify fun s => { s with resolutions := s.resolutions.insert t.id sym.id }
    pure (some sym)
  | none =>
    undefined t name
    pure none

/-- Marks a symbol as read. -/
def markUsed (sym : Symbol) : Check Unit :=
  modify fun s => { s with used := s.used.insert sym.id }

/-- The type of what an identifier resolved to. -/
def symbolType (sym : Option Symbol) : Ty := sym.elim .error (·.type)

-- ============================================================ annotations

/-- The type that an annotation names; an unknown name is reported. -/
def namedType (a : TypeName) : Check Ty :=
  orError (Ty.ofName? a.name) (.unknownType a.name) a.position

/-- The type that an annotation gives to a variable or parameter, which
cannot hold `void`. -/
def valueType (name : String) (a : TypeName) : Check Ty := do
  let ty ← namedType a
  orError (if ty = .void then none else some ty) (.voidVariable name) a.position

/-- The type of a parameter; without an annotation it is not known. -/
def paramType (p : Param) : Check Ty :=
  p.typeName.elim (pure .unknown) (valueType p.name)

/-- The result type of a function. Without an annotation, a body that
returns a value has an unknown one. -/
def resultType (result : Option TypeName) (body : List Stmt) : Check Ty :=
  result.elim (pure (if Stmt.anyReturnsValue body then .unknown else .void)) namedType

end Analysis

end TreeCheck
