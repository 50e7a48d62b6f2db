/-
A whole analysis: from a program to its findings and tables, and an
analyzer that grants exactly one run.
-/
import TreeCheck.Analysis.Statements

namespace TreeCheck

/-- What a completed analysis found. -/
structure Analysis where
  findings : List Finding
  types : TypeTable
  resolutions : ResolutionTable

namespace Analysis

/-- The result that a final state holds. -/
def State.analysis (s : State) : Analysis where
  findings := s.findings.toList
  types := s.types
  resolutions := s.resolutions

/-- The findings as they are shown. -/
def diagnostics (a : Analysis) : Diagnostics := a.findings.map Finding.diagnostic

/-- An analysis succeeds if it reports no error. -/
def isSuccess (a : Analysis) : Bool := !a.diagnostics.hasErrors

end Analysis

/-- Analyzes a program. What is wrong with the program is part of the
result; an error means that the tree could not be walked to its end. -/
def Program.analyze (config : Config) (p : Program) : Except AnalysisError Analysis :=
  match (Analysis.checkProgram config p).run {} with
  | .error e => .error e
  | .ok (_, s) =>
    if s.table.isEmpty then .ok s.analysis else .error (.stillOpen s.table.depth)

/-- Where an analyzer is in its life. -/
inductive Lifecycle where
  | notStarted
  | completed
deriving DecidableEq, Repr

/-- The name of a stage of life. -/
def Lifecycle.name : Lifecycle → String
  | .notStarted => "NotStarted"
  | .completed => "Completed"

/-- An analyzer: its options and whether it has been used. -/
structure Analyzer where
  config : Config := {}
  state : Lifecycle := .notStarted
deriving DecidableEq, Repr

/-- Runs an analyzer. It is used up whatever comes out, and a used one
gives `none`. -/
def Analyzer.run (a : Analyzer) (p : Program) :
    Option (Except AnalysisError Analysis) × Analyzer :=
  match a.state with
  | .completed => (none, a)
  | .notStarted => (some (p.analyze a.config), { a with state := .completed })

end TreeCheck
