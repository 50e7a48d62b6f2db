/-
Diagnostics: complaints about an analyzed program, in the form in which
they are shown. Each has a kind with a stable code, a severity, a
message with the place it is about, and possibly a second place that
explains it.
-/
import TreeCheck.Position

namespace TreeCheck

/-- How much a diagnostic matters. Only errors make an analysis fail. -/
inductive Severity where
  | error
  | warning
deriving DecidableEq, Repr

/-- The word for a severity. -/
def Severity.display : Severity → String
  | .error => "error"
  | .warning => "warning"

/-- What kind of complaint a diagnostic is. -/
inductive DiagnosticKind where
  | duplicateDeclaration
  | undefinedIdentifier
  | typeMismatch
  | arityMismatch
  | unknownType
  | invalidAssignmentTarget
  | assignToImmutable
  | returnOutsideFunction
  | unusedVariable
deriving DecidableEq, Repr

namespace DiagnosticKind

/-- Every kind, each once. -/
def all : List DiagnosticKind :=
  [.duplicateDeclaration, .undefinedIdentifier, .typeMismatch, .arityMismatch, .unknownType,
    .invalidAssignmentTarget, .assignToImmutable, .returnOutsideFunction, .unusedVariable]

/-- The stable code of a kind. -/
def code : DiagnosticKind → String
  | .duplicateDeclaration => "E0001"
  | .undefinedIdentifier => "E0002"
  | .typeMismatch => "E0003"
  | .arityMismatch => "E0004"
  | .unknownType => "E0005"
  | .invalidAssignmentTarget => "E0006"
  | .assignToImmutable => "E0007"
  | .returnOutsideFunction => "E0008"
  | .unusedVariable => "W0001"

/-- The heading of a kind, shown above a snippet. -/
def title : DiagnosticKind → String
  | .duplicateDeclaration => "duplicate declaration"
  | .undefinedIdentifier => "undefined identifier"
  | .typeMismatch => "mismatched types"
  | .arityMismatch => "wrong number of arguments"
  | .unknownType => "unknown type"
  | .invalidAssignmentTarget => "invalid assignment target"
  | .assignToImmutable => "assignment to immutable variable"
  | .returnOutsideFunction => "return outside of function"
  | .unusedVariable => "unused variable"

/-- The name of a kind in machine-readable reports. -/
def name : DiagnosticKind → String
  | .duplicateDeclaration => "DuplicateDeclaration"
  | .undefinedIdentifier => "UndefinedIdentifier"
  | .typeMismatch => "TypeMismatch"
  | .arityMismatch => "ArityMismatch"
  | .unknownType => "UnknownType"
  | .invalidAssignmentTarget => "InvalidAssignmentTarget"
  | .assignToImmutable => "AssignToImmutable"
  | .returnOutsideFunction => "ReturnOutsideFunction"
  | .unusedVariable => "UnusedVariable"

/-- The kind with a given name. -/
def ofName? (s : String) : Option DiagnosticKind := all.find? (·.name == s)

end DiagnosticKind

/-- A second place that explains a diagnostic. -/
structure Related where
  message : String
  position : Position
deriving DecidableEq, Repr

/-- A complaint as it is shown. -/
structure Diagnostic where
  severity : Severity
  kind : DiagnosticKind
  message : String
  position : Position
  related : Option Related := none
deriving DecidableEq, Repr

namespace Diagnostic

/-- Whether a diagnostic makes an analysis fail. -/
def isError (d : Diagnostic) : Bool := d.severity == .error

/-- A diagnostic on one line, without its related place. -/
def display (d : Diagnostic) : String :=
  s!"{d.position.display} {d.severity.display}[{d.kind.code}]: {d.message}"

end Diagnostic

/-- Diagnostics in the order in which they were reported. -/
abbrev Diagnostics := List Diagnostic

namespace Diagnostics

/-- Whether one of the diagnostics is an error. -/
def hasErrors (ds : Diagnostics) : Bool := ds.any (·.isError)

/-- The number of errors. -/
def errorCount (ds : Diagnostics) : Nat := ds.countP (·.isError)

/-- The number of warnings: all that are not errors. -/
def warningCount (ds : Diagnostics) : Nat := ds.length - ds.errorCount

end Diagnostics

end TreeCheck
