/-
Diagnostics and checked files as JSON, for readers that are programs.
-/
import TreeCheck.Json.Writer
import TreeCheck.Session

namespace TreeCheck

open Json (Value)

/-- A count as JSON. -/
def countValue (n : Nat) : Value := .number (.int n)

/-- A position as JSON. -/
def Position.toJson (p : Position) : Value :=
  .object [("line", countValue p.line), ("column", countValue p.column)]

/-- A diagnostic as JSON; without a related place there is no member for
it. -/
def Diagnostic.toJson (d : Diagnostic) : Value :=
  let related (r : Related) : String × Value :=
    ("related", .object [("message", .string r.message), ("position", r.position.toJson)])
  .object ([("severity", .string d.severity.display), ("kind", .string d.kind.name),
    ("message", .string d.message), ("position", d.position.toJson)]
    ++ (d.related.map related).toList)

/-- The report on a checked file. A failure takes the place of an
analysis; `quiet` leaves out what is no error. -/
def CheckedFile.toJson (quiet : Bool) (f : CheckedFile) : Value :=
  match f.outcome with
  | .ok a =>
    .object [("path", .string f.path), ("success", .bool a.isSuccess),
      ("diagnostics",
        .array ((a.diagnostics.filter fun d => !quiet || d.isError).map Diagnostic.toJson))]
  | .error e =>
    .object [("path", .string f.path), ("success", .bool false), ("fatal", .string e.message),
      ("diagnostics", .array [])]

end TreeCheck
