/-
Reports for human readers.

A diagnostic is shown with a snippet if the source file is at hand and
has every line that the diagnostic is about. Otherwise the whole of it
is told inline, with its positions written out.
-/
import TreeCheck.Diagnostic
import TreeCheck.Failure
import TreeCheck.Report.Snippet

namespace TreeCheck.Report

/-- What a diagnostic is shown with: a registered source file by its
number, or only the path of the document. -/
inductive Target where
  | file (id : Nat)
  | path (path : String)
deriving DecidableEq, Repr

/-- The first line of a report. -/
def heading (severity : String) (code : Option String) (message : String) : String :=
  severity ++ code.elim "" (fun c => "[" ++ c ++ "]") ++ ": " ++ message

/-- A note below a report. -/
def note (message : String) : List String :=
  match Lines.display message with
  | [] => []
  | first :: rest => (" = " ++ first) :: rest.map ("   " ++ ·)

/-- Lines as a text that ends with an empty line. -/
def text (lines : List String) : String := String.join (lines.map (· ++ "\n")) ++ "\n"

/-- The heading of a diagnostic with a given message. -/
def diagnosticHeading (d : Diagnostic) (message : String) : String :=
  heading d.severity.display (some d.kind.code) message

/-- A diagnostic told with positions in a file of some name. -/
def inline (name : String) (d : Diagnostic) : String :=
  let located (p : Position) (message : String) : String := s!"{name}:{p.display}: {message}"
  text (diagnosticHeading d (located d.position d.message)
    :: d.related.elim [] fun r => note (located r.position r.message))

/-- The labels of a diagnostic in a file, unless one of its positions has
no line there. -/
def labels? (f : SourceFile) (d : Diagnostic) : Option (List Snippet.Label) := do
  let range ← f.byteRange? d.position
  let primary : Snippet.Label := ⟨true, range, d.message⟩
  match d.related with
  | none => some [primary]
  | some r => do
    let range ← f.byteRange? r.position
    some [primary, ⟨false, range, r.message⟩]

/-- A diagnostic in a file: with a snippet if all of it has a place there. -/
def inFile (f : SourceFile) (d : Diagnostic) : String :=
  match labels? f d with
  | some labels => text (diagnosticHeading d d.kind.title :: Snippet.render f labels)
  | none => inline f.name d

/-- A diagnostic as it is shown. A file that is not registered has no
name. -/
def diagnostic (files : List SourceFile) (target : Target) (d : Diagnostic) : String :=
  match target with
  | .path p => inline p d
  | .file id => (files[id]?).elim (inline "" d) (inFile · d)

/-- A failure of the work on a document as it is shown. A failure that is
not the document's fault is called a bug. -/
def failure (path : String) : Failure → String
  | .malformed e => text [heading "error" none s!"{path}: malformed AST input: {e.message}"]
  | .internal e => text [heading "bug" none s!"{path}: internal invariant violated: {e.message}"]
  | .alreadyCompleted => text [heading "bug" none s!"{path}: analysis already completed"]
  | .file e => text [heading "error" none s!"{path}: IO error: {e.message}"]

end TreeCheck.Report
