/-
Static types: five built-in ones, function types, and two that stand
for what is not known. `unknown` is the type of what was left
unannotated; `error` is the type of what has been complained about
already, and keeps a complaint from being repeated further out.
-/

namespace TreeCheck

/-- Static types. -/
inductive Ty where
  | int
  | float
  | bool
  | string
  | void
  | func (params : List Ty) (ret : Ty)
  | unknown
  | error
deriving Repr, Inhabited

namespace Ty

-- ============================================================== equality

mutual

/-- Structural equality. -/
protected def beq : Ty → Ty → Bool
  | .int, .int | .float, .float | .bool, .bool | .string, .string | .void, .void
  | .unknown, .unknown | .error, .error => true
  | .func ps r, .func qs s => Ty.beqAll ps qs && r.beq s
  | _, _ => false
termination_by structural a => a

/-- Structural equality of lists of types. -/
protected def beqAll : List Ty → List Ty → Bool
  | [], [] => true
  | a :: as, b :: bs => a.beq b && Ty.beqAll as bs
  | _, _ => false
termination_by structural as => as

end

mutual

theorem beq_iff : (a b : Ty) → a.beq b = true ↔ a = b
  | .func ps r, b => by
    cases b <;> simp [Ty.beq, beqAll_iff ps, beq_iff r]
  | .int, b | .float, b | .bool, b | .string, b | .void, b | .unknown, b | .error, b => by
    cases b <;> simp [Ty.beq]

theorem beqAll_iff : (as bs : List Ty) → Ty.beqAll as bs = true ↔ as = bs
  | [], bs => by cases bs <;> simp [Ty.beqAll]
  | a :: as, bs => by
    cases bs <;> simp [Ty.beqAll, beq_iff a, beqAll_iff as]

end

instance : DecidableEq Ty := fun a b => decidable_of_iff _ (beq_iff a b)

-- =============================================================== display

mutual

/-- A type as it is shown in messages. -/
def display : Ty → String
  | .int => "int"
  | .float => "float"
  | .bool => "bool"
  | .string => "string"
  | .void => "void"
  | .func ps r => "func(" ++ displayAll ps ++ ") -> " ++ r.display
  | .unknown => "unknown"
  | .error => "\x7berror\x7d"
termination_by structural t => t

/-- The parameter list of a function type, separated by commas. -/
def displayAll : List Ty → String
  | [] => ""
  | p :: ps => p.display ++ displayMore ps
termination_by structural ps => ps

/-- The parameters after the first, each behind a comma. -/
def displayMore : List Ty → String
  | [] => ""
  | p :: ps => ", " ++ p.display ++ displayMore ps
termination_by structural ps => ps

end

-- ================================================================ classes

/-- The type that a written name stands for. Only the built-in types
have names. -/
def ofName? (name : String) : Option Ty :=
  [.int, .float, .bool, .string, .void].find? (·.display == name)

/-- `error` or `unknown`: fits everywhere, and nothing is reported. -/
def isPermissive : Ty → Bool
  | .unknown | .error => true
  | _ => false

/-- A type with arithmetic and an order. -/
def isNumeric : Ty → Bool
  | .int | .float => true
  | _ => false

end Ty

end TreeCheck
