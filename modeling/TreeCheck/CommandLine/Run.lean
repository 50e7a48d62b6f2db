/-
The program as a function: from its arguments and the files it may read
to what it writes and the code it ends with.
-/
import TreeCheck.CommandLine.Options
import TreeCheck.Report.Human
import TreeCheck.Report.Machine

namespace TreeCheck.CommandLine

/-- What a run of the program leaves. -/
structure Output where
  code : Nat
  stdout : String := ""
  stderr : String := ""
deriving DecidableEq, Repr

/-- What reading a path gives. -/
abbrev Files := String → Except FileError (List UInt8)

/-- What is wrong with a source file that is no text. -/
def notText : FileError := ⟨"stream did not contain valid UTF-8", none⟩

/-- The source file of an annotated report. -/
def readSource (files : Files) (path : String) : Except FileError SourceFile := do
  let bytes ← files path
  match Utf8.decode? bytes with
  | some text => pure ⟨path, text⟩
  | none => .error notText

/-- The options of the analysis. -/
def Options.config (o : Options) : Config := ⟨o.warnUnused, o.maxDepth⟩

/-- The inputs, loaded and analyzed. -/
def checkInputs (files : Files) (o : Options) : List CheckedFile :=
  o.inputs.map fun path => CheckedFile.check o.config path (files path)

/-- The line that sums up the diagnostics of a file. -/
def summary (path : String) (ds : Diagnostics) : String :=
  s!"{path}: {ds.errorCount} error(s), {ds.warningCount} warning(s)\n"

/-- The report on a file for human readers. -/
def humanReport (o : Options) (sources : List SourceFile) (f : CheckedFile) : String :=
  match f.outcome with
  | .error e => Report.failure f.path e
  | .ok a =>
    let target := if sources.isEmpty then Report.Target.path f.path else .file 0
    let shown := a.diagnostics.filter fun d => !o.quiet || d.isError
    String.join (shown.map (Report.diagnostic sources target))
      ++ (if o.quiet then "" else summary f.path a.diagnostics)

/-- The report on all files for programs. -/
def machineReport (o : Options) (fs : List CheckedFile) : String :=
  (Json.Value.array (fs.map (·.toJson o.quiet))).spread 0 ++ "\n"

/-- An error of the program itself. -/
def abort (message : String) : Output :=
  { code := Status.fatal.code, stderr := s!"error: {message}\n" }

/-- Runs the program with options. A source file is wanted for the human
format only, and is read after the inputs have been analyzed. -/
def runWith (files : Files) (o : Options) : Output :=
  if o.source.isSome && 1 < o.inputs.length then
    abort "--source can only be used with a single input file"
  else
    let checked := checkInputs files o
    let code := (Status.ofFiles checked).code
    match o.format with
    | .json => { code, stdout := machineReport o checked }
    | .human =>
      let report (sources : List SourceFile) : Output :=
        { code, stderr := String.join (checked.map (humanReport o sources)) }
      match o.source with
      | none => report []
      | some path =>
        match readSource files path with
        | .ok source => report [source]
        | .error e => abort s!"failed to read source file {path}: {e.message}"

/-- Runs the program. -/
def run (files : Files) (args : List String) : Output :=
  match parse args with
  | .error e => { code := 2, stderr := e.text }
  | .ok (.show text) => { code := 0, stdout := text }
  | .ok (.run o) => runWith files o

/-- The files that a run may read. -/
def wanted (args : List String) : List String :=
  match parse args with
  | .ok (.run o) => o.inputs ++ o.source.toList
  | _ => []

end TreeCheck.CommandLine
