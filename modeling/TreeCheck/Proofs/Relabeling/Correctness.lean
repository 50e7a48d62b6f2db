/-
What an analysis does not depend on.

Names matter to it only by being the same or not, and by beginning with an
underscore, which is looked at for warnings alone
(`Program.renaming_invariant`). Identities are no more than keys, and
positions are no more than passed on (`Program.relabeling_equivariant`).
Whether warnings are wanted decides about the warnings and nothing else
(`Program.warnings_only`).
-/
import TreeCheck.Proofs.Relabeling.Labels
import TreeCheck.Proofs.Run.Diagnostics
import TreeCheck.Proofs.Visits.Recorded

namespace TreeCheck

open Analysis

-- =============================================================== names

/-- The diagnostic that shows a finding under new names: the texts say the new
ones, and all else is as without them. -/
def Finding.diagnosticUnder (ν : String → String) (f : Finding) : Diagnostic where
  severity := f.cause.severity
  kind := f.cause.kind
  message := (f.cause.rename ν).message
  position := f.position
  related := f.related.map (⟨(f.cause.rename ν).relatedMessage, ·⟩)

theorem Finding.diagnostic_rename (ν : String → String) (f : Finding) :
    (f.relabel { name := ν }).diagnostic = f.diagnosticUnder ν := by
  rw [diagnosticUnder, ← f.cause.kind_rename ν, ← f.cause.severity_rename ν, relabel,
    Option.map_id_fun]
  rfl

/-- The names of a program may be chosen freely. If no two of them become the same,
the program under the new names cannot be analyzed either, for the same
reason; or it has the same tables, and the same errors about the new names.
If moreover underscores at the beginning are neither taken away nor added,
it has the same findings about the new names, warnings included. The
diagnostics that show them differ in what they call the names alone. -/
theorem Program.renaming_invariant (p : Program) (config : Config) {ν : String → String}
    (hν : Set.InjOn ν {x | x ∈ p.names}) :
    (∃ e, p.analyze config = .error e
        ∧ (p.relabel { name := ν }).analyze config = .error e)
      ∨ ∃ a b, p.analyze config = .ok a
        ∧ (p.relabel { name := ν }).analyze config = .ok b
        ∧ b.types = a.types ∧ b.resolutions = a.resolutions
        ∧ b.findings.filter (·.cause.kind ≠ .unusedVariable)
          = (a.findings.filter (·.cause.kind ≠ .unusedVariable)).map
            (Finding.relabel { name := ν })
        ∧ ((∀ x ∈ p.names, (ν x).toList.head? = some '_' ↔ x.toList.head? = some '_') →
          b.findings = a.findings.map (Finding.relabel { name := ν }))
        ∧ b.diagnostics.filter (·.kind ≠ .unusedVariable)
          = (a.findings.filter (·.cause.kind ≠ .unusedVariable)).map
            (Finding.diagnosticUnder ν)
        ∧ ((∀ x ∈ p.names, (ν x).toList.head? = some '_' ↔ x.toList.head? = some '_') →
          b.diagnostics = a.findings.map (Finding.diagnosticUnder ν)) := by
  obtain ⟨ν', hinj, hsame, -, hkeeps⟩ := exists_injective_name hν
  have hself : p.relabel { name := ν' } = p.relabel { name := ν } :=
    relabel_congr rfl hsame (fun _ _ => rfl) fun _ _ => rfl
  rcases analyze_relabel config ⟨hinj, Function.injective_id⟩ hself with
    ⟨e, hfirst, hsecond⟩ | ⟨a, b, hfirst, hsecond, hresults⟩
  · have he : e.relabel { name := ν' } = e.relabel {} :=
      relabel_error_congr (fun _ _ => rfl) (fun _ _ => rfl) hfirst
    rw [he, e.relabel_id] at hsecond
    exact .inl ⟨e, hfirst, hsecond⟩
  · have hfinding : ∀ f ∈ a.findings,
        f.relabel { name := ν' } = f.relabel { name := ν } :=
      fun f hf => relabel_finding_congr hsame (fun _ _ => rfl) hfirst hf
    have herrors : b.findings.filter (·.cause.kind ≠ .unusedVariable)
        = (a.findings.filter (·.cause.kind ≠ .unusedVariable)).map
          (Finding.relabel { name := ν }) := by
      rw [hresults.findings.errors]
      exact List.map_congr_left fun f hf => hfinding f (List.mem_filter.mp hf).1
    have hall (hν : ∀ x ∈ p.names, (ν x).toList.head? = some '_' ↔ x.toList.head? = some '_') :
        b.findings = a.findings.map (Finding.relabel { name := ν }) := by
      rw [hresults.findings.same rfl (hkeeps hν)]
      exact List.map_congr_left hfinding
    refine .inr ⟨a, b, hfirst, hsecond, hresults.types.eq_of_id,
      hresults.resolutions.eq_of_id, herrors, hall, ?_, fun hν => ?_⟩
    · refine (filter_diagnostics fun _ => rfl).trans ((congrArg _ herrors).trans ?_)
      rw [List.map_map]
      exact List.map_congr_left fun f _ => f.diagnostic_rename ν
    · rw [diagnostics, hall hν, List.map_map]
      exact List.map_congr_left fun f _ => f.diagnostic_rename ν

/-- A variable, a function of the same name, blocks with variables that are not read,
and a call with too many arguments. -/
def Program.overloaded : Program :=
  ⟨[.declaration ⟨0, ⟨1, 1⟩⟩ "f" none (some (.literal ⟨1, ⟨1, 9⟩⟩ (.int 1))) false,
    .function ⟨2, ⟨2, 1⟩⟩ "f" [⟨"n", none, ⟨2, 12⟩⟩] none ⟨2, 15⟩
      [.ret ⟨3, ⟨2, 17⟩⟩ (some (.identifier ⟨4, ⟨2, 24⟩⟩ "n"))],
    .block ⟨5, ⟨3, 1⟩⟩ ⟨3, 1⟩
      [.declaration ⟨6, ⟨4, 3⟩⟩ "z" none none true,
        .block ⟨7, ⟨5, 3⟩⟩ ⟨5, 3⟩ [.declaration ⟨8, ⟨5, 5⟩⟩ "_y" none none true]],
    .expr ⟨9, ⟨7, 1⟩⟩ (.call ⟨10, ⟨7, 1⟩⟩ (.identifier ⟨11, ⟨7, 1⟩⟩ "f")
      [.literal ⟨12, ⟨7, 3⟩⟩ (.int 2), .identifier ⟨13, ⟨7, 6⟩⟩ "x"])],
    .start⟩

/-- Exchanges two names. -/
def exchangedName (x : String) : String := if x = "f" then "z" else if x = "z" then "f" else x

/-- Puts an underscore before a name, and takes one away from another. -/
def silencedName (x : String) : String := if x = "z" then "_z" else if x = "_y" then "y" else x

/-- With two names exchanged, the warning is about the other one, and so are the
errors. With an underscore more and one less, the warning is about another
variable, and the errors are what they were. -/
theorem Program.renaming_invariant_overloaded :
    Set.InjOn exchangedName {x | x ∈ overloaded.names}
      ∧ Set.InjOn silencedName {x | x ∈ overloaded.names}
      ∧ ∃ a b c, overloaded.analyze {} = .ok a
        ∧ (overloaded.relabel { name := exchangedName }).analyze {} = .ok b
        ∧ (overloaded.relabel { name := silencedName }).analyze {} = .ok c
        ∧ a.findings.map (·.cause) = [.duplicate "f", .unusedVariable "z", .undefined "x",
          .wrongArity (some "f") 1 2]
        ∧ b.types = a.types ∧ b.resolutions = a.resolutions
        ∧ b.findings = a.findings.map (Finding.relabel { name := exchangedName })
        ∧ b.diagnostics.map (·.message) = ["'z' is already declared in this scope",
          "unused variable 'f'", "undefined identifier 'x'", "'z' expects 1 argument, found 2"]
        ∧ c.types = a.types ∧ c.resolutions = a.resolutions
        ∧ c.findings.map (·.cause) = [.duplicate "f", .unusedVariable "y", .undefined "x",
          .wrongArity (some "f") 1 2]
        ∧ c.findings.filter (·.cause.kind ≠ .unusedVariable)
          = (a.findings.filter (·.cause.kind ≠ .unusedVariable)).map
            (Finding.relabel { name := silencedName }) := by
  have hexchanged : ∀ x ∈ overloaded.names, ∀ y ∈ overloaded.names,
      exchangedName x = exchangedName y → x = y := by decide
  have hsilenced : ∀ x ∈ overloaded.names, ∀ y ∈ overloaded.names,
      silencedName x = silencedName y → x = y := by decide
  have hkeeps : ∀ x ∈ overloaded.names,
      (exchangedName x).toList.head? = some '_' ↔ x.toList.head? = some '_' := by decide
  obtain ⟨a, ha, hcauses⟩ : ∃ a, overloaded.analyze {} = .ok a
      ∧ a.findings.map (·.cause) = [.duplicate "f", .unusedVariable "z", .undefined "x",
        .wrongArity (some "f") 1 2] :=
    analyze_ok_of_results (by decide +kernel)
  obtain ⟨c, hc, hcauses'⟩ : ∃ c, (overloaded.relabel { name := silencedName }).analyze {} = .ok c
      ∧ c.findings.map (·.cause) = [.duplicate "f", .unusedVariable "y", .undefined "x",
        .wrongArity (some "f") 1 2] :=
    analyze_ok_of_results (by decide +kernel)
  rcases overloaded.renaming_invariant {} (fun x hx y hy => hexchanged x hx y hy) with
    ⟨e, he, -⟩ | ⟨a', b, ha', hb, htypes, hresolutions, -, hfindings, -, hshown⟩
  · cases ha.symm.trans he
  obtain rfl : a = a' := Except.ok.inj (ha.symm.trans ha')
  have hmessages : b.diagnostics.map (·.message)
      = (a.findings.map (·.cause)).map fun c => (c.rename exchangedName).message := by
    rw [hshown hkeeps, List.map_map, List.map_map]
    rfl
  rw [hcauses] at hmessages
  rcases overloaded.renaming_invariant {} (fun x hx y hy => hsilenced x hx y hy) with
    ⟨e, he, -⟩ | ⟨a', c', ha', hc', htypes', hresolutions', herrors, -, -, -⟩
  · cases ha.symm.trans he
  obtain rfl : a = a' := Except.ok.inj (ha.symm.trans ha')
  obtain rfl : c = c' := Except.ok.inj (hc.symm.trans hc')
  exact ⟨fun x hx y hy => hexchanged x hx y hy, fun x hx y hy => hsilenced x hx y hy, a, b, c,
    ha, hb, hc, hcauses, htypes, hresolutions, hfindings hkeeps, hmessages, htypes',
    hresolutions', hcauses', herrors⟩

-- ================================================= identities and positions

/-- A diagnostic at other positions. -/
def Diagnostic.move (f : Position → Position) (d : Diagnostic) : Diagnostic :=
  { d with
    position := f d.position
    related := d.related.map fun r => { r with position := f r.position } }

/-- Positions do not get into messages. -/
theorem Finding.diagnostic_relabel {T : Relabeling} (hname : T.name = id) (g : Finding) :
    (g.relabel T).diagnostic = g.diagnostic.move T.position := by
  obtain ⟨c, q, r⟩ := g
  rw [relabel, hname, c.rename_id]
  cases r <;> rfl

/-- What an analysis keeps about a node it keeps under an identity of the program. -/
theorem Program.keys_subset {config : Config} {p : Program} {a : Analysis}
    (h : p.analyze config = .ok a) :
    (∀ id ∈ a.types, id ∈ p.ids) ∧ ∀ id ∈ a.resolutions, id ∈ p.ids := by
  refine ⟨fun id hid => ?_, fun id hid => ?_⟩
  · obtain ⟨e, he, rfl⟩ := List.mem_map.mp ((mem_types_of_analyze h id).mp hid)
    exact id_mem_ids he
  · obtain ⟨ρ, t, x, hn, rfl⟩ := exists_node_of_resolution h hid
    exact id_mem_ids (mem_exprs_of_node hn)

/-- An analysis follows the identities and positions of a program. If the identities
are renumbered, no two of them to the same, and all positions are moved in
any way, the program cannot be analyzed for the reason that follows; or its
tables are renumbered and its diagnostics are moved, in the same order. No
diagnostic points to anything but a node, a parameter or an annotation. -/
theorem Program.relabeling_equivariant (p : Program) (config : Config)
    {r : NodeId → NodeId} (hr : Set.InjOn r {id | id ∈ p.ids})
    (f : Position → Position) :
    (∃ e, p.analyze config = .error e
        ∧ (p.relabel { node := r, position := f, brace := f }).analyze config
          = .error (e.relabel { node := r, position := f, brace := f }))
      ∨ ∃ a b, p.analyze config = .ok a
        ∧ (p.relabel { node := r, position := f, brace := f }).analyze config = .ok b
        ∧ (∀ (id : NodeId) (ty : Ty),
            b.types[id]? = some ty ↔ ∃ k, r k = id ∧ a.types[k]? = some ty)
        ∧ (∀ (id : NodeId) (n : SymbolId),
            b.resolutions[id]? = some n ↔ ∃ k, r k = id ∧ a.resolutions[k]? = some n)
        ∧ b.diagnostics = a.diagnostics.map (Diagnostic.move f)
        ∧ ∀ d ∈ a.diagnostics,
            d.position ∈ p.positions ∧ ∀ q ∈ d.related, q.position ∈ p.positions := by
  obtain ⟨r', hinj, hsame⟩ := exists_injective_node hr
  have hself : p.relabel { node := r', position := f, brace := f }
      = p.relabel { node := r, position := f, brace := f } :=
    relabel_congr rfl (fun _ _ => rfl) hsame fun _ _ => rfl
  rcases analyze_relabel config ⟨Function.injective_id, hinj⟩ hself with
    ⟨e, hfirst, hsecond⟩ | ⟨a, b, hfirst, hsecond, hresults⟩
  · have he : e.relabel { node := r', position := f, brace := f }
        = e.relabel { node := r, position := f, brace := f } :=
      relabel_error_congr hsame (fun _ _ => rfl) hfirst
    rw [he] at hsecond
    exact .inl ⟨e, hfirst, hsecond⟩
  · obtain ⟨htypes, hresolutions⟩ := keys_subset hfirst
    refine .inr ⟨a, b, hfirst, hsecond, fun id ty => ?_, fun id n => ?_, ?_, fun d hd => ?_⟩
    · exact hresults.types.getElem?_eq_some_iff hinj fun k hk => hsame k (htypes k hk)
    · exact hresults.resolutions.getElem?_eq_some_iff hinj fun k hk =>
        hsame k (hresolutions k hk)
    · have hfindings := hresults.findings.same rfl fun _ => Iff.rfl
      rw [diagnostics, diagnostics, hfindings, List.map_map, List.map_map]
      exact List.map_congr_left fun g _ => g.diagnostic_relabel rfl
    · obtain ⟨g, hg, rfl⟩ := List.mem_map.mp hd
      obtain ⟨hown, hrelated⟩ := positions_of_finding hfirst hg
      refine ⟨hown, fun q hq => ?_⟩
      obtain ⟨q', hq', rfl⟩ := Option.map_eq_some_iff.mp (Option.mem_def.mp hq)
      exact hrelated q' hq'

/-- Renumbered from behind, with all positions at the beginning of their lines, the
program has its diagnostics there. -/
theorem Program.relabeling_equivariant_overloaded :
    Set.InjOn (fun id : NodeId => 13 - id) {id | id ∈ overloaded.ids}
      ∧ ∃ a b, overloaded.analyze {} = .ok a
        ∧ (overloaded.relabel
          { node := (13 - ·), position := (⟨·.line, 1⟩), brace := (⟨·.line, 1⟩) }).analyze {}
          = .ok b
        ∧ (∀ (id : NodeId) (ty : Ty),
            b.types[id]? = some ty ↔ ∃ k : NodeId, 13 - k = id ∧ a.types[k]? = some ty)
        ∧ (∀ (id : NodeId) (n : SymbolId), b.resolutions[id]? = some n
            ↔ ∃ k : NodeId, 13 - k = id ∧ a.resolutions[k]? = some n)
        ∧ b.diagnostics = a.diagnostics.map (Diagnostic.move (⟨·.line, 1⟩))
        ∧ a.diagnostics.map (·.position) = [⟨2, 1⟩, ⟨4, 3⟩, ⟨7, 6⟩, ⟨7, 1⟩]
        ∧ ∀ d ∈ a.diagnostics,
            d.position ∈ overloaded.positions
              ∧ ∀ q ∈ d.related, q.position ∈ overloaded.positions := by
  have hdistinct : ∀ k ∈ overloaded.ids, ∀ k' ∈ overloaded.ids, 13 - k = 13 - k' → k = k' := by
    decide
  obtain ⟨a, ha, hplaces⟩ : ∃ a, overloaded.analyze {} = .ok a
      ∧ a.diagnostics.map (·.position) = [⟨2, 1⟩, ⟨4, 3⟩, ⟨7, 6⟩, ⟨7, 1⟩] :=
    analyze_ok_of_results (by decide +kernel)
  rcases overloaded.relabeling_equivariant {} (r := (13 - ·))
      (fun k hk k' hk' => hdistinct k hk k' hk') (⟨·.line, 1⟩) with
    ⟨e, he, -⟩ | ⟨a', b, ha', hb, htypes, hresolutions, hdiagnostics, hpositions⟩
  · cases ha.symm.trans he
  obtain rfl : a = a' := Except.ok.inj (ha.symm.trans ha')
  exact ⟨fun k hk k' hk' => hdistinct k hk k' hk', a, b, ha, hb, htypes, hresolutions,
    hdiagnostics, hplaces, hpositions⟩

-- ============================================================== warnings

theorem Finding.severity_diagnostic (f : Finding) :
    f.diagnostic.severity = .warning ↔ f.diagnostic.kind = .unusedVariable :=
  f.cause.severity_eq_warning_iff

/-- Where only unused names are warnings, there are errors without them if there are
errors at all. -/
theorem Diagnostics.hasErrors_filter {ds : Diagnostics}
    (h : ∀ d ∈ ds, d.severity = .warning ↔ d.kind = .unusedVariable) :
    hasErrors (ds.filter (·.kind ≠ .unusedVariable)) = ds.hasErrors := by
  rw [Bool.eq_iff_iff, hasErrors, hasErrors, List.any_eq_true, List.any_eq_true]
  constructor
  · rintro ⟨d, hd, herror⟩
    exact ⟨d, (List.mem_filter.mp hd).1, herror⟩
  · rintro ⟨d, hd, herror⟩
    refine ⟨d, List.mem_filter.mpr ⟨hd, decide_eq_true fun hkind => ?_⟩, herror⟩
    have hwarning := (h d hd).mpr hkind
    rw [Diagnostic.isError, hwarning] at herror
    cases herror

/-- Without warnings an analysis ends as with them, and finds the same but for the
unused names. -/
theorem Program.analyze_unwarned (p : Program) (limit : Nat) :
    (∃ e, p.analyze ⟨true, limit⟩ = .error e ∧ p.analyze ⟨false, limit⟩ = .error e)
      ∨ ∃ on off, p.analyze ⟨true, limit⟩ = .ok on ∧ p.analyze ⟨false, limit⟩ = .ok off
        ∧ off.types = on.types ∧ off.resolutions = on.resolutions
        ∧ off.findings = on.findings.filter (·.cause.kind ≠ .unusedVariable) := by
  let K : Rerun := ⟨{}, ⟨Function.injective_id, Function.injective_id⟩, limit, true, false⟩
  have hrerun := p.analyze_rerun K
  rw [show p.relabel K.labels = p from p.relabel_id] at hrerun
  rcases hrerun with ⟨e, hon, hoff⟩ | ⟨on, off, hon, hoff, hresults⟩
  · rw [show e.relabel K.labels = e from e.relabel_id] at hoff
    exact .inl ⟨e, hon, hoff⟩
  · have herrors := hresults.findings.errors
    rw [List.filter_eq_self.mpr fun f hf =>
        decide_eq_true (hresults.findings.silent rfl f hf),
      show Finding.relabel K.labels = id from funext Finding.relabel_id,
      List.map_id] at herrors
    exact .inr ⟨on, off, hon, hoff, hresults.types.eq_of_id, hresults.resolutions.eq_of_id,
      herrors⟩

/-- An analysis with warnings and one without end alike: with the same error, or with
the same tables, the same verdict and the same diagnostics but for the
unused names. These are what is a warning among the diagnostics. -/
theorem Program.warnings_only (p : Program) (limit : Nat) :
    (∃ e, p.analyze ⟨true, limit⟩ = .error e ∧ p.analyze ⟨false, limit⟩ = .error e)
      ∨ ∃ on off, p.analyze ⟨true, limit⟩ = .ok on ∧ p.analyze ⟨false, limit⟩ = .ok off
        ∧ off.types = on.types ∧ off.resolutions = on.resolutions
        ∧ off.diagnostics = on.diagnostics.filter (·.kind ≠ .unusedVariable)
        ∧ (∀ d ∈ on.diagnostics, d.severity = .warning ↔ d.kind = .unusedVariable)
        ∧ off.isSuccess = on.isSuccess := by
  rcases p.analyze_unwarned limit with
    hfailed | ⟨on, off, hon, hoff, htypes, hresolutions, hfindings⟩
  · exact .inl hfailed
  · have hdiagnostics : off.diagnostics
        = on.diagnostics.filter (·.kind ≠ .unusedVariable) := by
      rw [diagnostics, diagnostics, hfindings, List.filter_map]
      rfl
    have hseverity : ∀ d ∈ on.diagnostics, d.severity = .warning ↔ d.kind = .unusedVariable := by
      intro d hd
      obtain ⟨f, -, rfl⟩ := List.mem_map.mp hd
      exact f.severity_diagnostic
    refine .inr ⟨on, off, hon, hoff, htypes, hresolutions, hdiagnostics, hseverity, ?_⟩
    rw [isSuccess, isSuccess, hdiagnostics, Diagnostics.hasErrors_filter hseverity]

/-- Without warnings the one between the errors is left out. -/
theorem Program.warnings_only_overloaded :
    ∃ on off, overloaded.analyze ⟨true, 512⟩ = .ok on ∧ overloaded.analyze ⟨false, 512⟩ = .ok off
      ∧ on.diagnostics.map (·.kind) = [.duplicateDeclaration, .unusedVariable,
        .undefinedIdentifier, .arityMismatch]
      ∧ off.types = on.types ∧ off.resolutions = on.resolutions
      ∧ off.diagnostics = on.diagnostics.filter (·.kind ≠ .unusedVariable)
      ∧ off.isSuccess = on.isSuccess := by
  obtain ⟨on, hon, hkinds⟩ : ∃ on, overloaded.analyze ⟨true, 512⟩ = .ok on
      ∧ on.diagnostics.map (·.kind) = [.duplicateDeclaration, .unusedVariable,
        .undefinedIdentifier, .arityMismatch] :=
    analyze_ok_of_results (by decide +kernel)
  rcases overloaded.warnings_only 512 with
    ⟨e, he, -⟩ | ⟨on', off, hon', hoff, htypes, hresolutions, hdiagnostics, -, hsuccess⟩
  · cases hon.symm.trans he
  obtain rfl : on = on' := Except.ok.inj (hon.symm.trans hon')
  exact ⟨on, off, hon, hoff, hkinds, htypes, hresolutions, hdiagnostics, hsuccess⟩

end TreeCheck
