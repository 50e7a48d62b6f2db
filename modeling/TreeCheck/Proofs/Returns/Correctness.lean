/-
What is found about `return`s.

A course comes by every `return` once, with the result of the innermost
function around it in force. So what is found about `return`s can be
told without a course: each is compared with that function, by the type
recorded for its value, or is found to be outside of all functions
(`Program.perm_ofReturn`).
-/
import TreeCheck.Proofs.Declarations.Correctness
import TreeCheck.Proofs.Returns.Source

namespace TreeCheck

open Analysis

-- ============================================================= collecting

/-- Whether a cause is about a `return`. -/
def Cause.ofReturn (c : Cause) : Bool := c.isMismatchedReturn || c.isStrayReturn

/-- The finding about a `return` that an event reports, with its node. -/
def Event.ofReturn? : Event → Option (NodeId × Finding)
  | .found node f => if f.cause.ofReturn then some (node, f) else none
  | _ => none

/-- What is to be found at a `return`, by the result in force. -/
def Return.events (a : Analysis) (r : Return) (expected : Option Ty) :
    List (NodeId × Finding) :=
  (r.findings a expected).map (r.tag.id, ·)

theorem Cause.ofReturn_eq_false {c : Cause} (h : c.concern ≠ .statement) :
    c.ofReturn = false := by
  cases c with
  | badReturn | missingReturn | returnOutside => exact absurd rfl h
  | _ => rfl

theorem Cause.ofReturn_of_mismatched (c : Cause) (h : c.isMismatchedReturn = true) :
    c.ofReturn = true := by
  rw [ofReturn, h, Bool.true_or]

theorem Cause.ofReturn_of_stray (c : Cause) (h : c.isStrayReturn = true) :
    c.ofReturn = true := by
  rw [ofReturn, h, Bool.or_true]

theorem ofReturn?_found {node : NodeId} {f : Finding} (h : f.cause.ofReturn = false) :
    (Event.found node f).ofReturn? = none :=
  if_neg (Bool.eq_false_iff.mp h)

theorem ofReturn?_complaint {ok : Bool} {node : NodeId} {c : Cause} {q : Position}
    (h : c.ofReturn = false) :
    (complaint ok node c q).filterMap Event.ofReturn? = [] := by
  cases ok with
  | true => rfl
  | false => exact List.filterMap_cons_none (ofReturn?_found h)

/-- What is remarked at an expression is about no `return`. -/
theorem ofReturn?_remarks (ρ : Lookup) (e : Expr) :
    (e.remarks ρ).filterMap Event.ofReturn? = [] := by
  rw [Expr.remarks, List.filterMap_append]
  refine List.append_eq_nil_iff.mpr ⟨List.filterMap_eq_nil_iff.mpr fun ev hev => ?_, rfl⟩
  cases ev with
  | found node f =>
      have hconcern := Expr.concern_of_verdict
        (List.mem_filterMap.mpr ⟨_, hev, rfl⟩ : f ∈ (e.verdict ρ).filterMap _)
      exact ofReturn?_found (Cause.ofReturn_eq_false (by rw [hconcern]; decide))
  | typed | resolved | read | bound => rfl

theorem ofReturn?_declaration {ρ : Lookup} {expected : Option Ty} {t : Tag}
    {name : String} {ann : Option TypeName} {init : Option Expr} {m : Bool} :
    (Visit.verdict ⟨.declaration t name ann init m, ρ, expected⟩).filterMap
      Event.ofReturn? = [] := by
  rw [Visit.verdict, List.filterMap_append]
  refine List.append_eq_nil_iff.mpr ⟨?_, ?_⟩
  · cases ann with
    | none => rfl
    | some ann =>
        rw [Option.elim_some, TypeName.valueEvents, TypeName.events,
          List.filterMap_append, ofReturn?_complaint rfl, ofReturn?_complaint rfl]
        rfl
  · unfold initializerEvents
    split
    · exact ofReturn?_complaint rfl
    · exact ofReturn?_complaint rfl
    · rfl

theorem ofReturn?_assignment {ρ : Lookup} {expected : Option Ty} {t : Tag}
    {target value : Expr} :
    (Visit.verdict ⟨.assignment t target value, ρ, expected⟩).filterMap
      Event.ofReturn? = [] := by
  cases target with
  | identifier target x =>
      simp only [Visit.verdict]
      cases ρ x with
      | none => rfl
      | some d =>
          rw [Option.elim_some, storeEvents]
          split
          · rfl
          · split
            · rfl
            · exact ofReturn?_complaint rfl
  | literal | binary | unary | call => rfl

/-- A `return` with a value of a recorded type is found to be what the tables
say. -/
theorem ofReturn?_returnEvents {a : Analysis} {ρ : Lookup} {t : Tag}
    {value : Option Expr} (htype : ∀ e ∈ value, a.type e = e.typeIn ρ)
    (expected : Option Ty) :
    (returnEvents t.id t.position expected
        (located value (value.map (·.typeIn ρ)))).filterMap Event.ofReturn?
      = Return.events a ⟨t, value⟩ expected := by
  have hcomplaint {ok : Bool} {c : Cause} {q : Position} (hc : c.ofReturn = true) :
      (complaint ok t.id c q).filterMap Event.ofReturn?
        = (if ok then [] else [⟨c, q, none⟩]).map (t.id, ·) := by
    cases ok with
    | true => rfl
    | false => exact List.filterMap_cons_some (if_pos hc)
  cases expected with
  | none => rfl
  | some ret =>
      cases value with
      | none => exact hcomplaint rfl
      | some e =>
          have hvalue : a.type e = e.typeIn ρ := htype e rfl
          simp only [Return.events, Return.findings, Option.elim_some,
            Return.mismatches, hvalue]
          exact hcomplaint rfl

section

variable {config : Config} {p : Program} {a : Analysis} {f : FunctionDef} {r : Return}

/-- What is found about `return`s at a visit. -/
theorem Program.ofReturn?_visit {v : Visit} (h : p.analyze config = .ok a)
    (hv : v ∈ p.visits config) :
    v.remarks.filterMap Event.ofReturn?
      = v.stmt.return?.toList.flatMap (Return.events a · v.expected) := by
  have hexprs : (v.stmt.exprs.flatMap (Expr.remarks v.names)).filterMap
      Event.ofReturn? = [] := by
    rw [List.filterMap_flatMap, List.flatMap_eq_nil_iff]
    exact fun e _ => ofReturn?_remarks v.names e
  rw [Visit.remarks, List.filterMap_append, hexprs, List.nil_append]
  obtain ⟨s, ρ, expected⟩ := v
  cases s with
  | declaration => exact ofReturn?_declaration
  | assignment => exact ofReturn?_assignment
  | ifElse | «while» => exact ofReturn?_complaint rfl
  | expr | function | block => rfl
  | ret t value =>
      have htype : ∀ e ∈ value, a.type e = e.typeIn ρ := fun e he =>
        type_of_node h (node_of_root hv (Option.mem_toList.mpr he))
      rw [Stmt.return?, Option.toList_some, List.flatMap_singleton]
      exact ofReturn?_returnEvents htype expected

/-- What is found about `return`s is found at each of them, by the result of
the function around it. -/
theorem Program.perm_ofReturn (hids : p.ids.Nodup) (h : p.analyze config = .ok a) :
    ((p.account config).filterMap Event.ofReturn?).Perm
      (p.returns.flatMap fun r =>
        r.events a (FunctionDef.expected (p.functionAround r.stmt))) := by
  have hshown : ∀ e : Event, e.shows = false → e.ofReturn? = none :=
    hidden_eq_none (fun _ => rfl) fun _ => rfl
  have hbinding : ∀ node f, f.cause.concern = .binding →
      (Event.found node f).ofReturn? = none := fun node f hf =>
    ofReturn?_found (Cause.ofReturn_eq_false (by rw [hf]; decide))
  rw [← p.course_eq_account config hids]
  refine ((p.splits_course config).perm_collected hshown hbinding).trans (.of_eq ?_)
  -- The visits matter only by their statements and the results in force.
  have hreturning : ∀ w : Stmt × Option FunctionDef,
      (expectingWithin w).1.return?.toList.flatMap
          (Return.events a · (expectingWithin w).2)
        = (returningWithin w).toList.flatMap fun q =>
            q.1.events a (FunctionDef.expected q.2) := by
    intro w
    rw [returningWithin, expectingWithin]
    cases w.1.return? <;> rfl
  calc (p.visits config).flatMap (fun v => v.remarks.filterMap Event.ofReturn?)
      = (p.visits config).flatMap fun v =>
          v.stmt.return?.toList.flatMap (Return.events a · v.expected) :=
        List.flatMap_congr fun v hv => ofReturn?_visit h hv
    _ = ((p.visits config).map Visit.expecting).flatMap fun w =>
          w.1.return?.toList.flatMap (Return.events a · w.2) := by
        rw [List.flatMap_map]
        rfl
    _ = (p.within.filterMap returningWithin).flatMap fun q =>
          q.1.events a (FunctionDef.expected q.2) := by
        rw [expecting_visits config hids, List.flatMap_map,
          List.filterMap_eq_flatMap_toList, List.flatMap_assoc]
        exact List.flatMap_congr fun w _ => hreturning w
    _ = _ := by
        rw [returning_within hids, List.flatMap_map]

/-- The findings of a kind that is about `return`s are found at the
`return`s. -/
theorem Program.perm_findings_returns {of : Cause → Bool} (hids : p.ids.Nodup)
    (h : p.analyze config = .ok a) (hof : ∀ c, of c = true → c.ofReturn = true) :
    (a.findings.filter (of ·.cause)).Perm
      (p.returns.flatMap fun r =>
        (r.findings a (FunctionDef.expected (p.functionAround r.stmt))).filter
          (of ·.cause)) := by
  have hnodes : a.findings.filter (of ·.cause)
      = ((p.account config).filterMap Event.ofReturn?).filterMap fun n =>
          (some n.2).filter (of ·.cause) := by
    rw [findings_eq_account hids h, List.filter_filterMap, List.filterMap_filterMap]
    refine List.filterMap_congr fun e _ => ?_
    cases e with
    | found node f =>
        simp only [Event.ofReturn?, Event.finding?]
        split
        case isTrue => rfl
        case isFalse hnot => exact if_neg fun hf => hnot (hof _ hf)
    | typed | resolved | read | bound => rfl
  rw [hnodes]
  refine ((perm_ofReturn hids h).filterMap _).trans (.of_eq ?_)
  rw [List.filterMap_flatMap]
  refine List.flatMap_congr fun r _ => ?_
  rw [Return.events, List.filterMap_map]
  exact congrFun List.filterMap_eq_filter _

-- ============================================================= functions

/-- What is found not to fit where a `return` is compared with the function
around it; outside of functions nothing is compared. -/
def compared (a : Analysis) (q : Return × Option FunctionDef) : List Finding :=
  (FunctionDef.expected q.2).elim [] (q.1.mismatches a)

/-- A function compares the `return`s that belong to it. -/
theorem FunctionDef.compared_returning (a : Analysis) (f : FunctionDef) :
    f.returning.flatMap (compared a)
      = f.returns.flatMap (Return.mismatches a · f.signature.ret) := by
  rw [returning, List.flatMap_map]
  rfl

/-- What does not fit is found by functions, each comparing the `return`s that
belong to it. -/
theorem Program.perm_mismatches (hids : p.ids.Nodup) (h : p.analyze config = .ok a) :
    (a.findings.filter (·.cause.isMismatchedReturn)).Perm
      (p.functions.flatMap fun f =>
        f.returns.flatMap (Return.mismatches a · f.signature.ret)) := by
  have hstray : ((Stmt.ownReturnsAll p.body).map (·, none)).flatMap (compared a) = [] := by
    rw [List.flatMap_map]
    exact List.flatMap_eq_nil_iff.mpr fun _ _ => rfl
  have hown : ((Stmt.ownReturnsAll p.body).map (·, none)
        ++ p.functions.flatMap FunctionDef.returning).flatMap (compared a)
      = p.functions.flatMap fun f =>
          f.returns.flatMap (Return.mismatches a · f.signature.ret) := by
    rw [List.flatMap_append, hstray, List.nil_append, List.flatMap_assoc]
    exact List.flatMap_congr fun f _ => f.compared_returning a
  rw [← hown]
  refine (perm_findings_returns hids h Cause.ofReturn_of_mismatched).trans ?_
  refine (List.Perm.of_eq ?_).trans (p.perm_returning.flatMap_right (compared a))
  rw [returning_within hids, List.flatMap_map]
  exact List.flatMap_congr fun r _ => r.filter_mismatched a _

/-- At the `return`s of a function without an annotation, no value is found
not to fit, and none to be missing. -/
theorem Program.fits_of_unannotated {fd : Finding} (hids : p.ids.Nodup)
    (h : p.analyze config = .ok a) (hf : f ∈ p.functions) (hresult : f.result = none)
    (hr : r ∈ f.returns) (hfd : .found r.tag.id fd ∈ p.account config) :
    fd.cause.isMismatchedReturn = false := by
  cases hmismatch : fd.cause.isMismatchedReturn with
  | false => rfl
  | true =>
      exfalso
      have hmem : (r.tag.id, fd) ∈ (p.account config).filterMap Event.ofReturn? :=
        List.mem_filterMap.mpr ⟨_, hfd, if_pos (fd.cause.ofReturn_of_mismatched hmismatch)⟩
      obtain ⟨hmine, haround⟩ := functionAround_of_returns hids hf hr
      obtain ⟨r', hr', hevent⟩ :=
        List.mem_flatMap.mp ((perm_ofReturn hids h).mem_iff.mp hmem)
      obtain ⟨fd', hfound, heq⟩ := List.mem_map.mp hevent
      obtain ⟨hid, rfl⟩ := Prod.mk.inj heq
      obtain rfl := return_eq_of_id hids hr' hmine hid
      rw [haround] at hfound
      have hmismatches : fd' ∈ r'.mismatches a f.signature.ret := hfound
      rw [f.mismatches_eq_nil a hresult hr] at hmismatches
      cases hmismatches

/-- A function without an annotation gets no complaint about what it
returns. Where the nodes of a program have distinct identities, all
findings of a completed analysis about returned or missing values come
from the `return`s of functions with an annotation; no such finding is
made at a `return` of another function. The result that the analysis has
recorded for this one, and in the type of every identifier that is
resolved to it, is unknown if one of its `return`s has a value, and void
otherwise. The diagnostics show the same findings, and say what was
expected and what was found. -/
theorem Program.unannotated_returns_fit (hids : p.ids.Nodup)
    (h : p.analyze config = .ok a) :
    a.findings = (p.account config).filterMap Event.finding?
      ∧ (a.findings.filter (·.cause.isMismatchedReturn)).Perm
        ((p.functions.filter (·.result.isSome)).flatMap fun f =>
          f.returns.flatMap (Return.mismatches a · f.signature.ret))
      ∧ (a.diagnostics.filter (Diagnostic.isMismatch ['m'])).Perm
        ((p.functions.filter (·.result.isSome)).flatMap fun f =>
          f.returns.flatMap (Return.mismatchDiagnostics a · f.signature.ret))
      ∧ ∃ s, Completes (checkProgram config p) {} () s ∧ a = s.analysis
        ∧ ∀ f ∈ p.functions, f.result = none →
          (∀ r ∈ f.returns, ∀ fd, .found r.tag.id fd ∈ p.account config →
            fd.cause.isMismatchedReturn = false)
          ∧ s.signatures[f.tag.id]? = some ⟨f.params.map (·.type), f.inferred⟩
          ∧ ∀ (id : NodeId) (k : SymbolId), a.resolutions[id]? = some k →
            p.declarations[k]? = some (.stmt f.tag.id) →
            a.types[id]? = some (.func (f.params.map (·.type)) f.inferred) := by
  obtain ⟨s, hrun, ha, -, hsignatures⟩ := signatures_of_analyze hids h
  have hannotated : (a.findings.filter (·.cause.isMismatchedReturn)).Perm
      ((p.functions.filter (·.result.isSome)).flatMap fun f =>
        f.returns.flatMap (Return.mismatches a · f.signature.ret)) := by
    refine (perm_mismatches hids h).trans (.of_eq ?_)
    rw [flatMap_filter]
    refine List.flatMap_congr fun f _ => ?_
    split
    case isTrue => rfl
    case isFalse hnone =>
      have hresult : f.result = none := by simpa using hnone
      exact List.flatMap_eq_nil_iff.mpr fun r hr => f.mismatches_eq_nil a hresult hr
  refine ⟨findings_eq_account hids h, hannotated, ?shown, s, hrun, ha, fun f hf hresult =>
    ⟨?fits, ?kept, ?resolved⟩⟩
  case shown =>
    refine (perm_diagnostics Finding.isMismatch_return hannotated).trans (.of_eq ?_)
    simp only [List.map_flatMap, Return.diagnostic_mismatches]
  case fits => exact fun r hr fd hfd => fits_of_unannotated hids h hf hresult hr hfd
  case kept =>
    rw [hsignatures f hf, ← f.ret_signature hresult]
    rfl
  case resolved =>
    intro id k hk hsite
    rw [← f.ret_signature hresult]
    exact type_of_resolved hids h hf List.mem_cons_self hk hsite

/-- A function that returns a value from a block in a loop and also nothing;
and one that itself returns nothing, from a branch, behind a function in
it that returns a string for a number. Both are called. -/
def Program.unannotated : Program :=
  ⟨[.function ⟨0, ⟨1, 1⟩⟩ "f" [⟨"x", none, ⟨1, 5⟩⟩] none ⟨1, 8⟩
      [.while ⟨1, ⟨2, 3⟩⟩ (.identifier ⟨2, ⟨2, 9⟩⟩ "x")
        (.block ⟨3, ⟨2, 11⟩⟩ ⟨2, 11⟩
          [.ret ⟨4, ⟨2, 13⟩⟩ (some (.identifier ⟨5, ⟨2, 20⟩⟩ "x"))]),
      .ret ⟨6, ⟨3, 3⟩⟩ none],
    .function ⟨7, ⟨4, 1⟩⟩ "g" [] none ⟨4, 7⟩
      [.function ⟨8, ⟨5, 3⟩⟩ "h" [] (some ⟨"int", ⟨5, 11⟩⟩) ⟨5, 15⟩
        [.ret ⟨9, ⟨5, 17⟩⟩ (some (.literal ⟨10, ⟨5, 24⟩⟩ (.string "s")))],
      .ifElse ⟨11, ⟨6, 3⟩⟩ (.literal ⟨12, ⟨6, 6⟩⟩ (.bool true)) (.ret ⟨13, ⟨6, 12⟩⟩ none)
        none],
    .expr ⟨14, ⟨7, 1⟩⟩ (.call ⟨15, ⟨7, 1⟩⟩ (.identifier ⟨16, ⟨7, 1⟩⟩ "f")
      [.literal ⟨17, ⟨7, 3⟩⟩ (.int 1)]),
    .expr ⟨18, ⟨8, 1⟩⟩ (.call ⟨19, ⟨8, 1⟩⟩ (.identifier ⟨20, ⟨8, 1⟩⟩ "g") [])],
    .start⟩

/-- Only the string does not fit; the value that the inner function returns
is not taken for one of the outer. -/
theorem Program.unannotated_returns_fit_called :
    unannotated.ids.Nodup
      ∧ ∃ a, unannotated.analyze { warnUnused := false } = .ok a
      ∧ (a.findings.filter (·.cause.isMismatchedReturn)).Perm
        [⟨.badReturn .int .string, ⟨5, 24⟩, none⟩]
      ∧ (a.diagnostics.filter (Diagnostic.isMismatch ['m'])).Perm
        [⟨.error, .typeMismatch, "mismatched return type: expected 'int', found 'string'",
          ⟨5, 24⟩, none⟩]
      ∧ (∃ s, Completes (checkProgram { warnUnused := false } unannotated) {} () s
        ∧ a = s.analysis ∧ s.signatures[0]? = some ⟨[.unknown], .unknown⟩
        ∧ s.signatures[7]? = some ⟨[], .void⟩)
      ∧ a.types[16]? = some (.func [.unknown] .unknown)
      ∧ a.types[20]? = some (.func [] .void) := by
  have hids : unannotated.ids.Nodup := by decide
  obtain ⟨a, ha, hresults⟩ : ∃ a, unannotated.analyze { warnUnused := false } = .ok a
      ∧ (a.resolutions[16]?, a.resolutions[20]?,
          (unannotated.functions.filter (·.result.isSome)).flatMap fun f =>
            f.returns.flatMap (Return.mismatches a · f.signature.ret),
          (unannotated.functions.filter (·.result.isSome)).flatMap fun f =>
            f.returns.flatMap (Return.mismatchDiagnostics a · f.signature.ret))
        = (some 0, some 1, [⟨.badReturn .int .string, ⟨5, 24⟩, none⟩],
          [⟨.error, .typeMismatch, "mismatched return type: expected 'int', found 'string'",
            ⟨5, 24⟩, none⟩]) :=
    analyze_ok_of_results (by decide +kernel)
  simp only [Prod.mk.injEq] at hresults
  obtain ⟨hf, hg, hmismatches, hmessages⟩ := hresults
  obtain ⟨-, hperm, hshown, s, hrun, hs, hfunctions⟩ := unannotated_returns_fit hids ha
  obtain ⟨-, hkept, htype⟩ := hfunctions _ (List.mem_of_getElem? (i := 0) rfl) rfl
  obtain ⟨-, hkept', htype'⟩ := hfunctions _ (List.mem_of_getElem? (i := 1) rfl) rfl
  rw [hmismatches] at hperm
  rw [hmessages] at hshown
  exact ⟨hids, a, ha, hperm, hshown, ⟨s, hrun, hs, hkept, hkept'⟩, htype 16 0 hf rfl,
    htype' 20 1 hg rfl⟩

/-- A `return` is compared with the innermost function around it. Where the
nodes of a program have distinct identities, the function that is found
around a `return` is the innermost one, whatever functions there are
before it; a completed analysis finds at each `return` what this
function says about the type recorded for its value, or, if there is
none, once that it is outside of all functions; and it finds nothing
else about `return`s. All of this is shown as errors that say so. -/
theorem Program.returns_compared_with_innermost (hids : p.ids.Nodup)
    (h : p.analyze config = .ok a) :
    (∀ r ∈ p.returns,
        FunctionDef.Innermost p.functions r.stmt (p.functionAround r.stmt))
      ∧ a.findings = (p.account config).filterMap Event.finding?
      ∧ ((p.account config).filterMap Event.ofReturn?).Perm
        (p.returns.flatMap fun r =>
          r.events a (FunctionDef.expected (p.functionAround r.stmt)))
      ∧ (a.findings.filter (·.cause.kind = .returnOutsideFunction)).Perm
        ((p.returns.filter fun r => (p.functionAround r.stmt).isNone).map
          Return.strayFinding)
      ∧ (a.findings.filter (·.cause.isMismatchedReturn)).Perm
        (p.returns.flatMap fun r => (p.functionAround r.stmt).elim [] fun f =>
          r.mismatches a f.signature.ret)
      ∧ (a.diagnostics.filter (·.kind = .returnOutsideFunction)).Perm
        ((p.returns.filter fun r => (p.functionAround r.stmt).isNone).map
          Return.strayDiagnostic)
      ∧ (a.diagnostics.filter (Diagnostic.isMismatch ['m'])).Perm
        (p.returns.flatMap fun r => (p.functionAround r.stmt).elim [] fun f =>
          r.mismatchDiagnostics a f.signature.ret) := by
  have hstray : (a.findings.filter (·.cause.kind = .returnOutsideFunction)).Perm
      ((p.returns.filter fun r => (p.functionAround r.stmt).isNone).map
        Return.strayFinding) := by
    refine (perm_findings_returns hids h Cause.ofReturn_of_stray).trans (.of_eq ?_)
    rw [List.map_eq_flatMap, flatMap_filter]
    refine List.flatMap_congr fun r _ => ?_
    rw [Return.filter_stray, FunctionDef.expected, Option.isNone_map]
  have hcompared : (a.findings.filter (·.cause.isMismatchedReturn)).Perm
      (p.returns.flatMap fun r => (p.functionAround r.stmt).elim [] fun f =>
        r.mismatches a f.signature.ret) := by
    refine (perm_findings_returns hids h Cause.ofReturn_of_mismatched).trans (.of_eq ?_)
    refine List.flatMap_congr fun r _ => ?_
    rw [Return.filter_mismatched, FunctionDef.expected]
    cases p.functionAround r.stmt <;> rfl
  refine ⟨fun r hr => innermost_functionAround hids (mem_returns.mp hr),
    findings_eq_account hids h, perm_ofReturn hids h, hstray, hcompared, ?outside, ?misfit⟩
  case outside =>
    refine (perm_diagnostics (fun _ => rfl) hstray).trans (.of_eq ?_)
    rw [List.map_map]
    rfl
  case misfit =>
    refine (perm_diagnostics Finding.isMismatch_return hcompared).trans (.of_eq ?_)
    rw [List.map_flatMap]
    refine List.flatMap_congr fun r _ => ?_
    cases p.functionAround r.stmt with
    | none => rfl
    | some f => exact r.diagnostic_mismatches a f.signature.ret

/-- A function that returns a string behind a function that may, and behind a
`return` outside of all functions; another such `return` is in a block
behind it. -/
def Program.nestedReturns : Program :=
  ⟨[.ret ⟨0, ⟨1, 1⟩⟩ (some (.literal ⟨1, ⟨1, 8⟩⟩ (.int 1))),
    .function ⟨2, ⟨2, 1⟩⟩ "outer" [] (some ⟨"int", ⟨2, 10⟩⟩) ⟨2, 14⟩
      [.function ⟨3, ⟨3, 3⟩⟩ "inner" [] (some ⟨"string", ⟨3, 12⟩⟩) ⟨3, 19⟩
        [.ret ⟨4, ⟨3, 21⟩⟩ (some (.literal ⟨5, ⟨3, 28⟩⟩ (.string "a")))],
      .ifElse ⟨6, ⟨4, 3⟩⟩ (.literal ⟨7, ⟨4, 6⟩⟩ (.bool true))
        (.block ⟨8, ⟨4, 12⟩⟩ ⟨4, 12⟩
          [.ret ⟨9, ⟨4, 14⟩⟩ (some (.literal ⟨10, ⟨4, 21⟩⟩ (.string "b")))]) none,
      .ret ⟨11, ⟨5, 3⟩⟩ (some (.literal ⟨12, ⟨5, 10⟩⟩ (.int 2)))],
    .block ⟨13, ⟨6, 1⟩⟩ ⟨6, 1⟩ [.ret ⟨14, ⟨6, 3⟩⟩ none]],
    .start⟩

/-- Two `return`s are outside of all functions, and the second string is
compared with the outer function. -/
theorem Program.returns_compared_with_innermost_nested :
    nestedReturns.ids.Nodup
      ∧ ∃ a, nestedReturns.analyze { warnUnused := false } = .ok a
      ∧ (∃ f, f.tag.id = 2 ∧ FunctionDef.Innermost nestedReturns.functions
        (.ret ⟨9, ⟨4, 14⟩⟩ (some (.literal ⟨10, ⟨4, 21⟩⟩ (.string "b")))) (some f))
      ∧ (a.findings.filter (·.cause.kind = .returnOutsideFunction)).Perm
        [⟨.returnOutside, ⟨1, 1⟩, none⟩, ⟨.returnOutside, ⟨6, 3⟩, none⟩]
      ∧ (a.findings.filter (·.cause.isMismatchedReturn)).Perm
        [⟨.badReturn .int .string, ⟨4, 21⟩, none⟩]
      ∧ (a.diagnostics.filter (·.kind = .returnOutsideFunction)).Perm
        [⟨.error, .returnOutsideFunction, "'return' outside of a function", ⟨1, 1⟩, none⟩,
          ⟨.error, .returnOutsideFunction, "'return' outside of a function", ⟨6, 3⟩, none⟩] := by
  have hids : nestedReturns.ids.Nodup := by decide
  obtain ⟨a, ha, hmismatches⟩ : ∃ a, nestedReturns.analyze { warnUnused := false } = .ok a
      ∧ (nestedReturns.returns.flatMap fun r =>
          (nestedReturns.functionAround r.stmt).elim [] fun f =>
            r.mismatches a f.signature.ret)
        = [⟨.badReturn .int .string, ⟨4, 21⟩, none⟩] :=
    analyze_ok_of_results (by decide +kernel)
  obtain ⟨hinnermost, -, -, hstray, hcompared, hshown, -⟩ :=
    returns_compared_with_innermost hids ha
  have hreturn := hinnermost ⟨⟨9, ⟨4, 14⟩⟩, some (.literal ⟨10, ⟨4, 21⟩⟩ (.string "b"))⟩
    (List.mem_of_getElem? (i := 2) rfl)
  rw [hmismatches] at hcompared
  exact ⟨hids, a, ha, ⟨_, rfl, hreturn⟩, hstray, hcompared, hshown⟩

end

end TreeCheck
