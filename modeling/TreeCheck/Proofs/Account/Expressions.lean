/-
The account of an expression.

Names are looked up in a fixed way, so the type of an expression is a
function of the expression, and what is found in it is the list of what
is found in its parts and then at itself.
-/
import TreeCheck.Proofs.Account.Event
import TreeCheck.Analysis.Expressions

namespace TreeCheck

open Analysis

/-- How names are looked up. -/
abbrev Lookup := String → Option Declared

/-- A finding about a node unless a condition holds. -/
def complaint (ok : Bool) (node : NodeId) (cause : Cause) (position : Position) :
    List Event :=
  if ok then [] else [.found node ⟨cause, position, none⟩]

/-- The type of what a call gives, by the type of its callee. -/
def Ty.result : Ty → Ty
  | .func _ r => r
  | .unknown => .unknown
  | .int | .float | .bool | .string | .void | .error => .error

namespace Expr

variable (ρ : Lookup)

mutual

/-- The type of an expression. -/
def typeIn : Expr → Ty
  | .literal _ v => literalType v
  | .identifier _ x => (ρ x).elim .error (·.type)
  | .binary _ op l r => ((l.typeIn).binary? op r.typeIn).getD .error
  | .unary _ op e => (e.typeIn.unary? op).getD .error
  | .call _ f _ => f.typeIn.result
termination_by structural e => e

end

/-- What is found about arguments, compared with the parameters from the
one with a given index on. -/
def argumentEvents (node : NodeId) (callee : Option String) :
    Nat → List Ty → List Expr → List Event
  | index, p :: ps, arg :: args =>
    complaint (p.accepts (arg.typeIn ρ)) node
        (.badArgument callee index p (arg.typeIn ρ)) arg.position
      ++ argumentEvents node callee (index + 1) ps args
  | _, _, _ => []

/-- What is found about a call as such. -/
def callEvents (t : Tag) (callee : Expr) (args : List Expr) : Ty → List Event
  | .func params _ =>
    if params.length = args.length then
      argumentEvents ρ t.id callee.name? 1 params args
    else [.found t.id ⟨.wrongArity callee.name? params.length args.length,
      t.position, (callee.name?.bind ρ).map (·.position)⟩]
  | .error | .unknown => []
  | other => [.found t.id ⟨.notCallable other, callee.position, none⟩]

/-- What is done about a name that is read. -/
def nameEvents (t : Tag) (x : String) : List Event :=
  match ρ x with
  | some d => [.resolved t.id d, .read d.id]
  | none => [.found t.id ⟨.undefined x, t.position, none⟩]

mutual

/-- The account of an expression: that of its parts, what is found about
itself, and its type. -/
def events : Expr → List Event
  | .literal t v => [.typed t.id (literalType v)]
  | .identifier t x => nameEvents ρ t x
      ++ [.typed t.id (typeIn ρ (.identifier t x))]
  | .binary t op l r =>
    l.events ++ r.events
      ++ complaint ((l.typeIn ρ).binary? op (r.typeIn ρ)).isSome t.id
          (.badOperands op (l.typeIn ρ) (r.typeIn ρ)) t.position
      ++ [.typed t.id (typeIn ρ (.binary t op l r))]
  | .unary t op e =>
    e.events
      ++ complaint ((e.typeIn ρ).unary? op).isSome t.id
          (.badOperand op (e.typeIn ρ)) t.position
      ++ [.typed t.id (typeIn ρ (.unary t op e))]
  | .call t f args =>
    f.events ++ eventsAll args ++ callEvents ρ t f args (f.typeIn ρ)
      ++ [.typed t.id (typeIn ρ (.call t f args))]
termination_by structural e => e

/-- The account of expressions from the front. -/
def eventsAll : List Expr → List Event
  | [] => []
  | e :: es => e.events ++ eventsAll es
termination_by structural es => es

end

/-- The account of an expression that may be absent. -/
def events? (e : Option Expr) : List Event := e.elim [] (events ρ)

end Expr

end TreeCheck
