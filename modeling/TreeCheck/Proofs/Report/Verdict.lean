/-
What the options of output do not change.

Warnings are left out in two places: an analysis need not look for them,
and a report need not show them. Whichever it is, what is left of a file
is the same: `CheckedFile.report_true`, where the reference is a report
that shows errors only. The verdict on a file can be read off that, since
a file fails by its errors, and so can the status of the whole run. The
format of the output comes last and decides about neither.

What is said of reports can be seen in the document that is printed,
since no other reports are printed as the same text
(`CommandLine.writeReports_injective`).
-/
import TreeCheck.CommandLine.Run
import TreeCheck.Directory
import TreeCheck.Proofs.Relabeling.Correctness
import TreeCheck.Proofs.Report.Machine

namespace TreeCheck

open Analysis

-- ======================================================== errors alone

/-- Errors are what is not about an unused name. -/
theorem Finding.isError_diagnostic (f : Finding) :
    f.diagnostic.isError = decide (f.cause.kind ≠ .unusedVariable) := by
  have h := f.severity_diagnostic
  rw [Bool.eq_iff_iff, decide_eq_true_iff]
  show (f.diagnostic.severity == .error) = true ↔ ¬ f.diagnostic.kind = .unusedVariable
  rw [← h]
  cases f.diagnostic.severity with
  | error => exact iff_of_true rfl nofun
  | warning => exact iff_of_false nofun (· rfl)

theorem Analysis.isSuccess_eq (a : Analysis) :
    a.isSuccess = !a.diagnostics.any fun d => d.severity = .error := rfl

/-- With warnings or without, an analysis fails alike, or has the same errors; without
them it has nothing else. -/
theorem Program.analyze_errors (p : Program) (limit : Nat) (warns : Bool) :
    (∃ e, p.analyze ⟨warns, limit⟩ = .error e ∧ p.analyze ⟨false, limit⟩ = .error e)
      ∨ ∃ a off, p.analyze ⟨warns, limit⟩ = .ok a ∧ p.analyze ⟨false, limit⟩ = .ok off
        ∧ off.diagnostics = a.diagnostics.filter (·.isError) := by
  rcases p.analyze_unwarned limit with
    ⟨e, hon, hoff⟩ | ⟨on, off, hon, hoff, -, -, hfindings⟩
  · cases warns with
    | true => exact .inl ⟨e, hon, hoff⟩
    | false => exact .inl ⟨e, hoff, hoff⟩
  · have herrors : off.diagnostics = on.diagnostics.filter (·.isError) := by
      rw [filter_diagnostics Finding.isError_diagnostic, diagnostics, hfindings]
    cases warns with
    | true => exact .inr ⟨on, off, hon, hoff, herrors⟩
    | false =>
      refine .inr ⟨off, off, hoff, hoff, ?_⟩
      rw [herrors, List.filter_filter]
      simp only [Bool.and_self]

-- ============================================================== reports

/-- The report on a checked file for programs, before it is put into JSON. -/
structure FileReport where
  path : String
  success : Bool
  fatal : Option String := none
  diagnostics : Diagnostics
deriving DecidableEq, Repr

namespace FileReport

/-- A report as JSON; without a failure there is no member for it. -/
def toJson (r : FileReport) : Json.Value :=
  .object ([("path", .string r.path), ("success", .bool r.success)]
    ++ (r.fatal.map fun message => ("fatal", .string message)).toList
    ++ [("diagnostics", .array (r.diagnostics.map Diagnostic.toJson))])

theorem isWhole_toJson (r : FileReport) : r.toJson.isWhole = true := by
  have hdiagnostics := Json.Value.allWhole_map Diagnostic.isWhole_toJson r.diagnostics
  unfold toJson
  cases r.fatal with
  | none => simp [Json.Value.isWhole, Json.Value.membersWhole, hdiagnostics]
  | some message => simp [Json.Value.isWhole, Json.Value.membersWhole, hdiagnostics]

/-- A report is told by its JSON, where the message of a failure is a member of its own. -/
theorem toJson_injective : Function.Injective toJson := by
  rintro ⟨path, success, fatal, diagnostics⟩ ⟨path', success', fatal', diagnostics'⟩ h
  have hsame {ds ds' : Diagnostics} (h : ds.map Diagnostic.toJson = ds'.map Diagnostic.toJson) :
      ds = ds' := Diagnostic.toJson_injective.list_map h
  cases fatal with
  | none =>
    cases fatal' with
    | some message => simp [toJson] at h
    | none =>
      simp only [toJson, Option.map_none, Option.toList_none, List.append_nil, List.cons_append,
        List.nil_append, Json.Value.object.injEq, List.cons.injEq, Prod.mk.injEq,
        Json.Value.string.injEq, Json.Value.bool.injEq, Json.Value.array.injEq, true_and,
        and_true] at h
      obtain ⟨rfl, rfl, hdiagnostics⟩ := h
      rw [hsame hdiagnostics]
  | some message =>
    cases fatal' with
    | none => simp [toJson] at h
    | some message' =>
      simp only [toJson, Option.map_some, Option.toList_some, List.cons_append, List.nil_append,
        Json.Value.object.injEq, List.cons.injEq, Prod.mk.injEq, Json.Value.string.injEq,
        Json.Value.bool.injEq, Json.Value.array.injEq, true_and, and_true] at h
      obtain ⟨rfl, rfl, rfl, hdiagnostics⟩ := h
      rw [hsame hdiagnostics]

/-- A report without the diagnostics that are no errors. -/
def errorsOnly (r : FileReport) : FileReport :=
  { r with diagnostics := r.diagnostics.filter (·.isError) }

/-- The status of the file that a report is on. -/
def status (r : FileReport) : Status :=
  if r.fatal.isSome then .fatal else if r.success then .clean else .errors

end FileReport

namespace CheckedFile

/-- The report on a checked file; `quiet` leaves out what is no error. -/
def report (quiet : Bool) (f : CheckedFile) : FileReport :=
  match f.outcome with
  | .ok a =>
    { path := f.path, success := a.isSuccess,
      diagnostics := a.diagnostics.filter fun d => !quiet || d.isError }
  | .error e => { path := f.path, success := false, fatal := some e.message, diagnostics := [] }

variable (f : CheckedFile) (quiet : Bool)

theorem toJson_eq : f.toJson quiet = (f.report quiet).toJson := by
  unfold toJson report
  cases f.outcome with
  | ok a => rfl
  | error e => rfl

theorem path_report : (f.report quiet).path = f.path := by
  unfold report
  cases f.outcome with
  | ok a => rfl
  | error e => rfl

theorem status_report : (f.report quiet).status = Status.ofFile f := by
  unfold report Status.ofFile
  cases f.outcome with
  | ok a => cases h : a.isSuccess <;> simp [FileReport.status, h]
  | error e => rfl

/-- What a report leaves out is no error. -/
theorem errorsOnly_report : (f.report quiet).errorsOnly = f.report true := by
  unfold report
  cases f.outcome with
  | ok a =>
    simp only [FileReport.errorsOnly, List.filter_filter]
    congr 1
    refine List.filter_congr fun d _ => ?_
    cases d.isError <;> simp
  | error e => rfl

/-- Whether a file ended without an analysis. -/
def isFatal : Bool := f.outcome matches .error _

/-- Whether a file has a diagnostic that is an error. -/
def hasErrorDiagnostic : Bool :=
  match f.outcome with
  | .ok a => a.diagnostics.any fun d => d.severity = .error
  | .error _ => false

theorem success_report : (f.report quiet).success = !(f.isFatal || f.hasErrorDiagnostic) := by
  unfold report isFatal hasErrorDiagnostic
  cases f.outcome with
  | ok a => exact isSuccess_eq a
  | error e => rfl

/-- Analyzed with warnings or without, a file fails alike, or has the same errors. -/
theorem check_cases (warns : Bool) (limit : Nat) (path : String)
    (content : Except FileError (List UInt8)) :
    (∃ e, check ⟨warns, limit⟩ path content = ⟨path, .error e⟩
        ∧ check ⟨false, limit⟩ path content = ⟨path, .error e⟩)
      ∨ ∃ a off, check ⟨warns, limit⟩ path content = ⟨path, .ok a⟩
        ∧ check ⟨false, limit⟩ path content = ⟨path, .ok off⟩
        ∧ off.diagnostics = a.diagnostics.filter (·.isError) := by
  cases content with
  | error e => exact .inl ⟨.file e, rfl, rfl⟩
  | ok bytes =>
    simp only [check, checkDocument]
    cases Document.load .stream bytes with
    | error e => exact .inl ⟨.malformed e, rfl, rfl⟩
    | ok p =>
      rcases p.analyze_errors limit warns with ⟨e, hwarns, hoff⟩ | ⟨a, off, hwarns, hoff, herrors⟩
      · exact .inl ⟨.internal e, by simp only [hwarns]; rfl, by simp only [hoff]; rfl⟩
      · exact .inr ⟨a, off, by simp only [hwarns]; rfl, by simp only [hoff]; rfl, herrors⟩

/-- Shown without warnings, a file is reported on as if it had been analyzed without
them. -/
theorem report_true (warns : Bool) (limit : Nat) (path : String)
    (content : Except FileError (List UInt8)) :
    (check ⟨warns, limit⟩ path content).report true
      = (check ⟨false, limit⟩ path content).report false := by
  rcases check_cases warns limit path content with
    ⟨e, hwarns, hoff⟩ | ⟨a, off, hwarns, hoff, herrors⟩
  · rw [hwarns, hoff]
    rfl
  · have hsuccess : a.isSuccess = off.isSuccess := by
      rw [isSuccess, isSuccess, herrors, Diagnostics.hasErrors, Diagnostics.hasErrors,
        List.any_filter]
      simp only [Bool.and_self]
    rw [hwarns, hoff]
    simp only [report, hsuccess, herrors, List.filter_filter]
    rfl

end CheckedFile

-- ============================================================ exit codes

/-- The exit code for files: 2 if one of them failed, otherwise 1 if one of them has an
error diagnostic, otherwise 0. -/
def exitCode (fs : List CheckedFile) : Nat :=
  if fs.any (·.isFatal) then 2 else if fs.any (·.hasErrorDiagnostic) then 1 else 0

namespace Status

theorem code_max (a b : Status) : (max a b).code = Nat.max a.code b.code := by
  cases a <;> cases b <;> rfl

theorem code_ofFile (f : CheckedFile) :
    (ofFile f).code = if f.isFatal then 2 else if f.hasErrorDiagnostic then 1 else 0 := by
  unfold ofFile CheckedFile.isFatal CheckedFile.hasErrorDiagnostic
  cases f.outcome with
  | error e => rfl
  | ok a =>
    have hsuccess := isSuccess_eq a
    cases herror : a.diagnostics.any fun d => d.severity = .error with
    | true => simp only [hsuccess, herror]; rfl
    | false => simp only [hsuccess, herror]; rfl

theorem exitCode_cons (f : CheckedFile) (fs : List CheckedFile) :
    exitCode (f :: fs) = Nat.max (ofFile f).code (exitCode fs) := by
  rw [code_ofFile, exitCode, exitCode, List.any_cons, List.any_cons]
  cases f.isFatal <;> cases f.hasErrorDiagnostic <;> cases fs.any (·.isFatal) <;>
    cases fs.any (·.hasErrorDiagnostic) <;> rfl

/-- The worst of the statuses has the greatest code. -/
theorem code_ofFiles (fs : List CheckedFile) : (ofFiles fs).code = exitCode fs := by
  have hfold (s : Status) :
      ((fs.map ofFile).foldl max s).code = Nat.max s.code (exitCode fs) := by
    induction fs generalizing s with
    | nil => exact (Nat.max_eq_left (Nat.zero_le s.code)).symm
    | cons f fs ih =>
      rw [List.map_cons, List.foldl_cons, ih, code_max, exitCode_cons]
      exact Nat.max_assoc _ _ _
  rw [ofFiles, hfold]
  exact Nat.max_eq_right (Nat.zero_le _)

end Status

namespace CommandLine

-- ================================================================ runs

/-- The reports that a run makes in the format for programs. -/
def reports (files : Files) (o : Options) : List FileReport :=
  (checkInputs files o).map (·.report o.quiet)

/-- Reports as they are written. -/
def writeReports (rs : List FileReport) : String :=
  (Json.Value.array (rs.map FileReport.toJson)).spread 0 ++ "\n"

/-- The text of reports tells the reports. -/
theorem writeReports_injective : Function.Injective writeReports := by
  intro rs rs' h
  have hwhole (rs : List FileReport) :
      (Json.Value.array (rs.map FileReport.toJson)).isWhole = true :=
    Json.Value.allWhole_map FileReport.isWhole_toJson rs
  have htexts := congrArg String.toList h
  rw [writeReports, writeReports, String.toList_append, String.toList_append] at htexts
  obtain ⟨hvalues, -⟩ := Json.spread_append_inj 0 _ _ (hwhole rs) (hwhole rs')
    (Json.endsNumber_cons rfl) (Json.endsNumber_cons rfl) htexts
  exact FileReport.toJson_injective.list_map (Json.Value.array.inj hvalues)

/-- Options under which a run shows no warnings. -/
def Options.Spares (o : Options) : Prop := o.quiet = true ∨ o.warnUnused = false

variable {files : Files} {o o' : Options}

theorem machineReport_eq :
    machineReport o (checkInputs files o) = writeReports (reports files o) := by
  unfold machineReport writeReports reports
  rw [List.map_map]
  simp only [CheckedFile.toJson_eq]
  rfl

/-- A run without a source file ends with the code of what it has checked. -/
theorem code_runWith (hsource : o.source = none) :
    (runWith files o).code = exitCode (checkInputs files o) := by
  rw [← Status.code_ofFiles]
  unfold runWith
  rw [hsource]
  cases o.format with
  | human => rfl
  | json => rfl

theorem stdout_runWith (hsource : o.source = none) (hformat : o.format = .json) :
    (runWith files o).stdout = writeReports (reports files o) := by
  rw [← machineReport_eq]
  unfold runWith
  rw [hsource, hformat]
  rfl

theorem paths_reports : (reports files o).map (·.path) = o.inputs := by
  unfold reports checkInputs
  rw [List.map_map, List.map_map]
  exact List.map_id'' (fun path => CheckedFile.path_report _ _) _

/-- The errors reported are those of the inputs, analyzed without warnings. -/
theorem errorsOnly_reports :
    (reports files o).map FileReport.errorsOnly
      = o.inputs.map fun path =>
        (CheckedFile.check ⟨false, o.maxDepth⟩ path (files path)).report false := by
  unfold reports checkInputs
  rw [List.map_map, List.map_map]
  refine List.map_congr_left fun path _ => ?_
  exact (CheckedFile.errorsOnly_report _ _).trans (CheckedFile.report_true _ _ _ _)

/-- The status of a file can be read off its errors. -/
theorem statuses_checkInputs :
    (checkInputs files o).map Status.ofFile
      = ((reports files o).map FileReport.errorsOnly).map FileReport.status := by
  unfold reports
  rw [List.map_map, List.map_map]
  exact List.map_congr_left fun f _ => (f.status_report o.quiet).symm

/-- Where no warnings are shown, there is nothing to leave out. -/
theorem Options.Spares.errorsOnly_reports (h : o.Spares) :
    (reports files o).map FileReport.errorsOnly = reports files o := by
  unfold reports
  rw [List.map_map]
  refine List.map_congr_left fun f hf => ?_
  rw [Function.comp_apply, CheckedFile.errorsOnly_report]
  cases hquiet : o.quiet with
  | true => rfl
  | false =>
    have hwarns : o.warnUnused = false := h.resolve_left fun h => by rw [hquiet] at h; cases h
    obtain ⟨path, -, rfl⟩ := List.mem_map.mp hf
    rw [config, hwarns]
    exact CheckedFile.report_true false o.maxDepth path (files path)

/-- What is said of files does not depend on how it is said. Two runs on the same
inputs, with the same depth and without a source file, end with the same
code, which is that of the worst input. In the format for programs the text
tells the reports: one for each input, in their order; an input is without
success if it failed or has an error. Path, success and failure are the same in both
runs; where the second is quiet, it reports the errors of the first; and two
runs that show no warnings, for one reason or the other, write the same. -/
theorem verdicts_of_inputs (files : Files) {args args' : List String} {o o' : Options}
    (hargs : parse args = .ok (.run o)) (hargs' : parse args' = .ok (.run o'))
    (hinputs : o'.inputs = o.inputs) (hdepth : o'.maxDepth = o.maxDepth)
    (hsource : o.source = none) (hsource' : o'.source = none) :
    (run files args').code = (run files args).code
      ∧ (run files args).code = exitCode (checkInputs files o)
      ∧ (o.format = .json → (run files args).stdout = writeReports (reports files o)
        ∧ ∀ rs, (run files args).stdout = writeReports rs → rs = reports files o)
      ∧ (reports files o).map (·.path) = o.inputs
      ∧ (∀ f ∈ checkInputs files o, (f.report o.quiet).success = false
          ↔ f.isFatal = true ∨ f.hasErrorDiagnostic = true)
      ∧ (reports files o').map (fun r => (r.path, r.success, r.fatal))
          = (reports files o).map (fun r => (r.path, r.success, r.fatal))
      ∧ (o'.quiet = true → (reports files o').map (·.diagnostics)
          = (reports files o).map (·.diagnostics.filter (·.isError)))
      ∧ (o.Spares → o'.Spares → o.format = .json → o'.format = .json →
          (run files args').stdout = (run files args).stdout) := by
  have hrun : run files args = runWith files o := by rw [run, hargs]
  have hrun' : run files args' = runWith files o' := by rw [run, hargs']
  have herrors : (reports files o').map FileReport.errorsOnly
      = (reports files o).map FileReport.errorsOnly := by
    rw [errorsOnly_reports, errorsOnly_reports, hinputs, hdepth]
  rw [hrun, hrun', code_runWith hsource, code_runWith hsource']
  refine ⟨?_, rfl, fun hformat => ⟨stdout_runWith hsource hformat, fun rs hrs => ?_⟩,
    paths_reports, fun f _ => ?_, ?_, fun hquiet => ?_,
    fun hspares hspares' hformat hformat' => ?_⟩
  · rw [← Status.code_ofFiles, ← Status.code_ofFiles, Status.ofFiles, Status.ofFiles,
      statuses_checkInputs, statuses_checkInputs, herrors]
  · exact writeReports_injective (hrs.symm.trans (stdout_runWith hsource hformat))
  · rw [CheckedFile.success_report, Bool.not_eq_false', Bool.or_eq_true]
  · have hverdicts := congrArg (List.map fun r : FileReport => (r.path, r.success, r.fatal)) herrors
    rw [List.map_map, List.map_map] at hverdicts
    exact hverdicts
  · rw [← Options.Spares.errorsOnly_reports (.inl hquiet), herrors, List.map_map]
    rfl
  · rw [stdout_runWith hsource hformat, stdout_runWith hsource' hformat',
      ← hspares.errorsOnly_reports, ← hspares'.errorsOnly_reports, herrors]

/-- The text, in pieces, of a program with a variable that is declared twice and not
used, and a name that is not declared. -/
def carelessText : List String :=
  ["\x7b\"kind\":\"Program\",\"body\":[",
    "\x7b\"kind\":\"Block\",\"position\":[1,1],", "\"statements\":[",
    "\x7b\"kind\":\"Declaration\",", "\"name\":\"x\",\"position\":[1,3]\x7d,",
    "\x7b\"kind\":\"Declaration\",", "\"name\":\"x\",\"position\":[1,7]\x7d]\x7d,",
    "\x7b\"kind\":\"Identifier\",", "\"name\":\"y\",\"position\":[2,1]\x7d]\x7d"]

/-- A place where there is one file. -/
def oneFile : Files := fun path =>
  if path = "a.json" then .ok (carelessText.flatMap Utf8.encode) else .error Directory.notFound

/-- The lines of the document about that file and one that is missing, without
warnings. -/
def carelessReport : List String :=
  ["[",
    "  \x7b",
    "    \"path\": \"a.json\",",
    "    \"success\": false,",
    "    \"diagnostics\": [",
    "      \x7b",
    "        \"severity\": \"error\",",
    "        \"kind\": \"DuplicateDeclaration\",",
    "        \"message\": \"'x' is already declared in this scope\",",
    "        \"position\": \x7b",
    "          \"line\": 1,",
    "          \"column\": 7",
    "        \x7d,",
    "        \"related\": \x7b",
    "          \"message\": \"'x' previously declared here\",",
    "          \"position\": \x7b",
    "            \"line\": 1,",
    "            \"column\": 3",
    "          \x7d",
    "        \x7d",
    "      \x7d,",
    "      \x7b",
    "        \"severity\": \"error\",",
    "        \"kind\": \"UndefinedIdentifier\",",
    "        \"message\": \"undefined identifier 'y'\",",
    "        \"position\": \x7b",
    "          \"line\": 2,",
    "          \"column\": 1",
    "        \x7d",
    "      \x7d",
    "    ]",
    "  \x7d,",
    "  \x7b",
    "    \"path\": \"b.json\",",
    "    \"success\": false,",
    "    \"fatal\": \"IO error: No such file or directory (os error 2)\",",
    "    \"diagnostics\": []",
    "  \x7d",
    "]"]

/-- A file with two errors and a warning, and one that is missing: reported quietly,
the warning is gone, and the code is the same. The document says it all. -/
theorem verdicts_of_inputs_careless :
    ∃ o o', parse ["a.json", "b.json"] = .ok (.run o)
      ∧ parse ["-q", "a.json", "b.json", "--format", "json"] = .ok (.run o')
      ∧ (run oneFile ["a.json", "b.json"]).code = 2
      ∧ (run oneFile ["-q", "a.json", "b.json", "--format", "json"]).code = 2
      ∧ (reports oneFile o).map (·.diagnostics.map (·.kind))
        = [[.duplicateDeclaration, .unusedVariable, .undefinedIdentifier], []]
      ∧ (reports oneFile o').map (·.diagnostics.map (·.kind))
        = [[.duplicateDeclaration, .undefinedIdentifier], []]
      ∧ (run oneFile ["-q", "a.json", "b.json", "--format", "json"]).stdout
        = String.join (carelessReport.map (· ++ "\n"))
      ∧ ∀ rs, writeReports rs = String.join (carelessReport.map (· ++ "\n")) →
        rs = reports oneFile o' := by
  let o : Options := { inputs := ["a.json", "b.json"] }
  let o' : Options := { o with quiet := true, format := .json }
  have hargs : parse ["a.json", "b.json"] = .ok (.run o) := rfl
  have hargs' : parse ["-q", "a.json", "b.json", "--format", "json"] = .ok (.run o') := rfl
  have hloud : ((run oneFile ["a.json", "b.json"]).code,
      (reports oneFile o).map (·.diagnostics.map (·.kind)),
      ((reports oneFile o).map (·.diagnostics.filter (·.isError))).map (List.map (·.kind)))
        = (2, [[.duplicateDeclaration, .unusedVariable, .undefinedIdentifier], []],
          [[.duplicateDeclaration, .undefinedIdentifier], []]) := by
    decide +kernel
  have htext : (run oneFile ["-q", "a.json", "b.json", "--format", "json"]).stdout
      = String.join (carelessReport.map (· ++ "\n")) := by
    decide +kernel
  obtain ⟨hcode, hshown⟩ := Prod.mk.inj hloud
  obtain ⟨hkinds, herrors⟩ := Prod.mk.inj hshown
  obtain ⟨hsame, -, -, -, -, -, hquiet, -⟩ :=
    verdicts_of_inputs oneFile hargs hargs' rfl rfl rfl rfl
  obtain ⟨-, -, hdocument, -⟩ := verdicts_of_inputs oneFile hargs' hargs' rfl rfl rfl rfl
  refine ⟨_, _, hargs, hargs', hcode, hsame.trans hcode, hkinds, ?_, htext, fun rs hrs => ?_⟩
  · rw [← herrors, ← hquiet rfl, List.map_map]
    rfl
  · exact (hdocument rfl).2 rs (htext.trans hrs.symm)

end CommandLine

end TreeCheck
