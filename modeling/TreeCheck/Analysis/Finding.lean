/-
What an analysis finds wrong. A finding says why, with the names and
types it is about; how that reads as a diagnostic is settled here once,
so the analysis itself never builds a message.
-/
import TreeCheck.Diagnostic
import TreeCheck.Scope.Symbol
import TreeCheck.Typing.Rules

namespace TreeCheck

/-- The statements that have a condition. -/
inductive Construct where
  | ifElse
  | while
deriving DecidableEq, Repr

/-- The keyword of a statement with a condition. -/
def Construct.keyword : Construct → String
  | .ifElse => "if"
  | .while => "while"

/-- Why the analysis complains. A callee without a name of its own has
`none` for a name. -/
inductive Cause where
  | duplicate (name : String)
  | undefined (name : String)
  | unknownType (name : String)
  | voidVariable (name : String)
  | badInitializer (name : String) (declared found : Ty)
  | voidInitializer (name : String)
  | notAVariable
  | assignToFunction (name : String)
  | assignToImmutable (name : String)
  | badAssignment (name : String) (declared found : Ty)
  | badCondition (construct : Construct) (found : Ty)
  | returnOutside
  | badReturn (expected found : Ty)
  | missingReturn (expected : Ty)
  | badOperands (op : BinaryOp) (left right : Ty)
  | badOperand (op : UnaryOp) (operand : Ty)
  | notCallable (found : Ty)
  | wrongArity (callee : Option String) (expected found : Nat)
  | badArgument (callee : Option String) (index : Nat) (expected found : Ty)
  | unusedVariable (name : String)
  | unusedParameter (name : String)
deriving DecidableEq, Repr

namespace Cause

/-- The kind of diagnostic that a cause leads to. -/
def kind : Cause → DiagnosticKind
  | .duplicate _ => .duplicateDeclaration
  | .undefined _ => .undefinedIdentifier
  | .unknownType _ => .unknownType
  | .voidVariable _ | .badInitializer _ _ _ | .voidInitializer _ | .badAssignment _ _ _
  | .badCondition _ _ | .badReturn _ _ | .missingReturn _ | .badOperands _ _ _
  | .badOperand _ _ | .notCallable _ | .badArgument _ _ _ _ => .typeMismatch
  | .notAVariable | .assignToFunction _ => .invalidAssignmentTarget
  | .assignToImmutable _ => .assignToImmutable
  | .returnOutside => .returnOutsideFunction
  | .wrongArity _ _ _ => .arityMismatch
  | .unusedVariable _ | .unusedParameter _ => .unusedVariable

/-- How much a cause matters: what is unused does no harm. -/
def severity : Cause → Severity
  | .duplicate _ | .undefined _ | .unknownType _ | .voidVariable _ | .badInitializer _ _ _
  | .voidInitializer _ | .notAVariable | .assignToFunction _ | .assignToImmutable _
  | .badAssignment _ _ _ | .badCondition _ _ | .returnOutside | .badReturn _ _
  | .missingReturn _ | .badOperands _ _ _ | .badOperand _ _ | .notCallable _
  | .wrongArity _ _ _ | .badArgument _ _ _ _ => .error
  | .unusedVariable _ | .unusedParameter _ => .warning

/-- The warnings are the causes of one kind, cause by cause. -/
theorem severity_eq_warning_iff (c : Cause) : c.severity = .warning ↔ c.kind = .unusedVariable := by
  cases c <;> simp [severity, kind]

theorem severity_eq_error_iff (c : Cause) : c.severity = .error ↔ c.kind ≠ .unusedVariable := by
  rw [ne_eq, ← c.severity_eq_warning_iff]
  cases c.severity <;> simp

/-- How a callee is called in messages. -/
def calleeName (callee : Option String) : String := callee.getD "function"

/-- The message of a finding. -/
def message : Cause → String
  | .duplicate n => s!"'{n}' is already declared in this scope"
  | .undefined n => s!"undefined identifier '{n}'"
  | .unknownType n => s!"unknown type '{n}'"
  | .voidVariable n => s!"'{n}' cannot have type 'void'"
  | .badInitializer n declared found =>
    s!"cannot initialize '{n}' of type '{declared.display}' with a value of type '{found.display}'"
  | .voidInitializer n => s!"cannot initialize '{n}' with a value of type 'void'"
  | .notAVariable => "left-hand side of an assignment must be a variable"
  | .assignToFunction n => s!"cannot assign to function '{n}'"
  | .assignToImmutable n => s!"cannot assign to immutable variable '{n}'"
  | .badAssignment n declared found =>
    s!"cannot assign a value of type '{found.display}' to '{n}' of type '{declared.display}'"
  | .badCondition c found =>
    s!"{c.keyword} condition must be of type 'bool', found '{found.display}'"
  | .returnOutside => "'return' outside of a function"
  | .badReturn expected found =>
    s!"mismatched return type: expected '{expected.display}', found '{found.display}'"
  | .missingReturn expected => s!"missing return value: function returns '{expected.display}'"
  | .badOperands op l r =>
    s!"operator '{op.symbol}' cannot be applied to operands of type '{l.display}' and '{r.display}'"
  | .badOperand op t =>
    s!"operator '{op.symbol}' cannot be applied to operand of type '{t.display}'"
  | .notCallable t => s!"value of type '{t.display}' is not callable"
  | .wrongArity callee expected found =>
    let plural := if expected = 1 then "" else "s"
    s!"'{calleeName callee}' expects {expected} argument{plural}, found {found}"
  | .badArgument callee index expected found =>
    s!"argument {index} of '{calleeName callee}' expects '{expected.display}', found '{found.display}'"
  | .unusedVariable n => s!"unused variable '{n}'"
  | .unusedParameter n => s!"unused parameter '{n}'"

/-- What the related place of a finding is said to be. Only findings
about a name that has a declaration have one. -/
def relatedMessage : Cause → String
  | .duplicate n => s!"'{n}' previously declared here"
  | .assignToFunction n | .assignToImmutable n => s!"'{n}' declared here"
  | .wrongArity callee _ _ => s!"'{calleeName callee}' declared here"
  | _ => ""

end Cause

/-- One thing found: why, where, and the place of the declaration that
explains it. -/
structure Finding where
  cause : Cause
  position : Position
  related : Option Position := none
deriving DecidableEq, Repr

/-- The diagnostic that reports a finding. -/
def Finding.diagnostic (f : Finding) : Diagnostic where
  severity := f.cause.severity
  kind := f.cause.kind
  message := f.cause.message
  position := f.position
  related := f.related.map (⟨f.cause.relatedMessage, ·⟩)

end TreeCheck
