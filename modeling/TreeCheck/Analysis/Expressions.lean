/-
Typing expressions.

The parts of an expression are typed before the expression, from left
to right, and every expression is recorded as soon as its type is
known, also when that type is `error`.
-/
import TreeCheck.Analysis.State

namespace TreeCheck.Analysis

/-- The type of a constant. -/
def literalType : Literal → Ty
  | .int _ => .int
  | .float _ => .float
  | .string _ => .string
  | .bool _ => .bool

/-- Reads a name: its type, with the symbol marked as used. -/
def readName (t : Tag) (name : String) : Check Ty := do
  match ← resolve t name with
  | some sym =>
    markUsed sym
    pure sym.type
  | none => pure .error

/-- Compares arguments with the parameters they are passed for, counting
from `index`, and reports each that does not fit. -/
def checkArguments (callee : Option String) (index : Nat) :
    List Ty → List Expr → List Ty → Check Unit
  | p :: ps, arg :: args, found :: rest => do
    require (p.accepts found) (.badArgument callee index p found) arg.position
    checkArguments callee (index + 1) ps args rest
  | _, _, _ => pure ()

/-- Where the function that a callee names is declared. -/
def calleeDeclaration (callee : Expr) : Check (Option Position) := do
  let s ← get
  pure do
    let name ← callee.name?
    let sym ← s.table.resolve name
    pure sym.position

/-- The type of a call whose callee and arguments have been typed. With a
wrong number of arguments none of them is looked at. -/
def callType (position : Position) (callee : Expr) (args : List Expr) (found : List Ty) :
    Ty → Check Ty
  | .func params ret => do
    if params.length = args.length then checkArguments callee.name? 1 params args found
    else
      report (.wrongArity callee.name? params.length args.length) position
        (← calleeDeclaration callee)
    pure ret
  | .error => pure .error
  | .unknown => pure .unknown
  | other => do
    report (.notCallable other) callee.position
    pure .error

mutual

/-- Types an expression and records the type. -/
def typeOf (ctx : Context) : Expr → Check Ty
  | .literal t v => do
    let _ ← ctx.descend t.position
    record t.id (literalType v)
  | .identifier t name => do
    let _ ← ctx.descend t.position
    record t.id (← readName t name)
  | .binary t op l r => do
    let inner ← ctx.descend t.position
    let left ← typeOf inner l
    let right ← typeOf inner r
    record t.id (← orError (left.binary? op right) (.badOperands op left right) t.position)
  | .unary t op e => do
    let inner ← ctx.descend t.position
    let operand ← typeOf inner e
    record t.id (← orError (operand.unary? op) (.badOperand op operand) t.position)
  | .call t f args => do
    let inner ← ctx.descend t.position
    let callee ← typeOf inner f
    let found ← typesOf inner args
    record t.id (← callType t.position f args found callee)
termination_by structural e => e

/-- Types a list of expressions from the front. -/
def typesOf (ctx : Context) : List Expr → Check (List Ty)
  | [] => pure []
  | e :: es => do
    let ty ← typeOf ctx e
    let tys ← typesOf ctx es
    pure (ty :: tys)
termination_by structural es => es

end

/-- Types an expression that may be absent. -/
def typeOf? (ctx : Context) (e : Option Expr) : Check (Option Ty) :=
  e.elim (pure none) fun e => do pure (some (← typeOf ctx e))

end TreeCheck.Analysis
