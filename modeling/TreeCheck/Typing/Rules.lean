/-
Which value fits where, and what operators make of their operands.

Assignability is consistency of types with one conversion: an `int`
widens to `float` at the top of a type, never inside a function type.
Components of function types are compared one level deep: two differ
only if both are known and they are not equal.
-/
import TreeCheck.Syntax.Operator
import TreeCheck.Typing.Ty

namespace TreeCheck.Ty

/-- Whether two components of function types agree: one of them is
permissive or they are equal. -/
def agrees (a b : Ty) : Bool := a.isPermissive || b.isPermissive || a == b

/-- Whether two signatures agree in number of parameters, parameter by
parameter and in the result. -/
def signaturesAgree (ps : List Ty) (r : Ty) (qs : List Ty) (s : Ty) : Bool :=
  ps.length == qs.length && (ps.zip qs).all (fun (a, b) => a.agrees b) && r.agrees s

/-- Whether a value of type `value` may be stored where `target` is
declared. -/
def accepts (target value : Ty) : Bool :=
  if target.isPermissive || value.isPermissive then true
  else match target, value with
    | .float, .int => true
    | .func ps r, .func qs s => signaturesAgree ps r qs s
    | _, _ => target == value

/-- Whether an operand is of a given kind or not known. -/
def isOr (is : Ty → Bool) (t : Ty) : Bool := is t || t == .unknown

/-- The result of arithmetic on operands without `error`. Of one known
operand only as much is demanded as the operator needs, and the result
stays unknown. -/
def arithmetic? (op : BinaryOp) (left right : Ty) : Option Ty :=
  if left == .unknown || right == .unknown then
    let other := if left == .unknown then right else left
    if other == .unknown || other.isNumeric || (op == .add && other == .string) then
      some .unknown
    else none
  else match left, right with
    | .int, .int => some .int
    | .string, .string => if op == .add then some .string else none
    | l, r => if l.isNumeric && r.isNumeric then some .float else none

/-- The result of a binary operation, `none` if it does not apply. An
`error` operand makes the result `error`. -/
def binary? (op : BinaryOp) (left right : Ty) : Option Ty :=
  if left == .error || right == .error then some .error
  else match op.operatorClass with
    | .logical =>
      if isOr (· == .bool) left && isOr (· == .bool) right then some .bool else none
    | .equality => if left.accepts right || right.accepts left then some .bool else none
    | .ordering => if isOr isNumeric left && isOr isNumeric right then some .bool else none
    | .arithmetic => arithmetic? op left right

/-- Whether a unary operator applies to a known type. -/
def applies : UnaryOp → Ty → Bool
  | .neg, t => t.isNumeric
  | .not, t => t == .bool

/-- The result of a unary operation, `none` if it does not apply. -/
def unary? (op : UnaryOp) (operand : Ty) : Option Ty :=
  if operand.isPermissive || applies op operand then some operand else none

end TreeCheck.Ty
