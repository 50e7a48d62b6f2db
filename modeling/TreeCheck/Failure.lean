/-
Failures: what ends the work on a document or a program without a
result. Complaints about an analyzed program are not among them.
-/
import TreeCheck.Analysis.State
import TreeCheck.Document.Lower
import TreeCheck.Document.Root

namespace TreeCheck

/-- What is wrong with a document. Errors of its text and of its root have
a place in it; what is wrong further in is told by itself. -/
inductive DocumentError where
  | root (error : Document.RootError) (location : Json.Location)
  | decode (error : Document.DecodeError)
  | lower (error : Document.LowerError)

/-- The text of a document error. -/
def DocumentError.message : DocumentError → String
  | .root e l => e.message ++ l.phrase
  | .decode e => e.message
  | .lower e => e.message

/-- Why a file could not be read, in the words and with the number of the
operating system, if it has one for it. -/
structure FileError where
  reason : String
  code : Option Nat
deriving DecidableEq, Repr

/-- The text of a file error. -/
def FileError.message (e : FileError) : String :=
  match e.code with
  | some n => s!"{e.reason} (os error {n})"
  | none => e.reason

/-- What can end the work on a document or a program. -/
inductive Failure where
  | malformed (error : DocumentError)
  | internal (error : AnalysisError)
  | alreadyCompleted
  | file (error : FileError)

/-- The text of a failure. -/
def Failure.message : Failure → String
  | .malformed e => s!"malformed input: {e.message}"
  | .internal e => s!"internal invariant violated: {e.message}"
  | .alreadyCompleted => "analysis already completed"
  | .file e => s!"IO error: {e.message}"

end TreeCheck
