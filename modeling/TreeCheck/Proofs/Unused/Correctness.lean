/-
Warnings about unused names are exact.

The symbols of a scope come out of a table by name, replaced ones are
gone, and whether a symbol was used is kept in a set over the whole run.
What comes out is nevertheless what a reader of the source expects: of
the variables and parameters of every scope but the global one, those
that nothing reads are reported, in the order of their declarations, as
the last that is said about their scope.
-/
import TreeCheck.Proofs.Run.Diagnostics
import TreeCheck.Proofs.Unused.Leaving

namespace TreeCheck

open Analysis

section

variable {config : Config} {p : Program} {a : Analysis}

/-- The unused names that a completed analysis finds are those that the account
of its program reports. -/
theorem Program.unused_of_analyze (hids : p.ids.Nodup)
    (h : p.analyze config = .ok a) :
    a.findings.filter (·.cause.kind = .unusedVariable)
      = (p.account config).filterMap Event.unused? := by
  rw [findings_eq_account hids h, List.filter_filterMap]
  rfl

/-- What is read of the global scope is not asked, and everything else in a
program is settled by its account. -/
theorem Program.settles_account (hids : p.ids.Nodup)
    (h : p.analyze config = .ok a) :
    Settles (p.reads a) [] [] 0 ((hoisting [] p.body [] 0).andThen
      (Stmt.walkAll config p.body none [] [])) where
  below := by
    intro ψ hψ d hd
    rw [List.mem_singleton.mp hψ] at hd
    cases hd
  sites := nodup_sites hids config
  told := fun _ hd _ => reads_site hids h hd

theorem Program.perm_unused (hids : p.ids.Nodup) (hwarn : config.warnUnused = true)
    (h : p.analyze config = .ok a) :
    (a.findings.filter (·.cause.kind = .unusedVariable)).Perm
      (p.regions.tail.flatMap (Region.warnings (p.reads a))) := by
  have hwarns : Warns (p.reads a) [] [] 0 ([] ++ Stmt.regionsAll p.body)
      ((hoisting [] p.body [] 0).andThen (Stmt.walkAll config p.body none [] [])) :=
    (warns_hoisting [] p.body).andThen (Stmt.warns_walkAll hwarn p.body none [] [] _ _)
  rw [unused_of_analyze hids h]
  exact hwarns.unused (settles_account hids h)

/-- Warnings about unused names are exact. Where the nodes of a program have
distinct identities and unused names are asked for, a completed analysis
reports, up to order, the variables and parameters of all scopes other
than the global one that are the last declaration of their name in their
scope, do not begin with an underscore, and have no identifier resolved
to them but targets of assignments; each once and at its position, and
nothing else. It leaves every scope, and where it does, the unused names
of the scope follow on everything that has been found so far, in the
order of the source. They are shown as warnings that say whether it is a
variable or a parameter, and its name. -/
theorem Program.unused_reported (hids : p.ids.Nodup)
    (hwarn : config.warnUnused = true) (h : p.analyze config = .ok a) :
    (a.findings.filter (·.cause.kind = .unusedVariable)).Perm
      (p.regions.tail.flatMap (Region.warnings (p.reads a)))
    ∧ (∀ r ∈ p.regions.tail, ∃ t, p.Leaves config r t)
    ∧ (∀ r ∈ p.regions.tail, ∀ t, p.Leaves config r t →
      (t.findings.toList ++ r.warnings (p.reads a)) <+: a.findings)
    ∧ (a.diagnostics.filter (·.kind = .unusedVariable)).Perm
      (p.regions.tail.flatMap fun r => (r.unused (p.reads a)).map unusedDiagnostic)
    ∧ ∀ r ∈ p.regions.tail, ∀ t, p.Leaves config r t →
      (t.analysis.diagnostics ++ (r.unused (p.reads a)).map unusedDiagnostic)
        <+: a.diagnostics := by
  have hperm := perm_unused hids hwarn h
  refine ⟨hperm, fun r hr => exists_leaves h r (List.mem_of_mem_tail hr),
    fun r hr t hleaves => hleaves.warns hwarn hids h hr, ?shown, fun r hr t hleaves => ?last⟩
  case shown =>
    refine (perm_diagnostics (fun _ => rfl) hperm).trans (.of_eq ?_)
    rw [List.map_flatMap]
    exact List.flatMap_congr fun r _ => r.diagnostic_warnings (p.reads a)
  case last =>
    rw [← r.diagnostic_warnings, diagnostics, ← List.map_append]
    exact (hleaves.warns hwarn hids h hr).map _

/-- A global variable, and a function with three parameters, a variable that
another one of its name replaces, and a block with a variable. One
parameter is assigned to the variable. -/
def Program.idle : Program :=
  ⟨[.declaration ⟨0, ⟨1, 1⟩⟩ "g" none none true,
    .function ⟨1, ⟨2, 1⟩⟩ "f"
      [⟨"a", none, ⟨2, 8⟩⟩, ⟨"b", none, ⟨2, 11⟩⟩, ⟨"_c", none, ⟨2, 14⟩⟩] none ⟨2, 18⟩
      [.declaration ⟨2, ⟨3, 3⟩⟩ "x" none none true,
        .declaration ⟨3, ⟨4, 3⟩⟩ "x" none none true,
        .assignment ⟨4, ⟨5, 3⟩⟩ (.identifier ⟨5, ⟨5, 3⟩⟩ "x")
          (.identifier ⟨6, ⟨5, 7⟩⟩ "b"),
        .block ⟨7, ⟨6, 3⟩⟩ ⟨6, 3⟩ [.declaration ⟨8, ⟨6, 5⟩⟩ "y" none none true]]],
    .start⟩

/-- The variable of the block, the first parameter and the later of the two
variables are unused. -/
theorem Program.unused_idle :
    idle.ids.Nodup ∧ ∃ a, idle.analyze {} = .ok a
      ∧ (a.findings.filter (·.cause.kind = .unusedVariable)).Perm
        [⟨.unusedParameter "a", ⟨2, 8⟩, none⟩, ⟨.unusedVariable "x", ⟨4, 3⟩, none⟩,
          ⟨.unusedVariable "y", ⟨6, 5⟩, none⟩]
      ∧ (a.diagnostics.filter (·.kind = .unusedVariable)).Perm
        [⟨.warning, .unusedVariable, "unused parameter 'a'", ⟨2, 8⟩, none⟩,
          ⟨.warning, .unusedVariable, "unused variable 'x'", ⟨4, 3⟩, none⟩,
          ⟨.warning, .unusedVariable, "unused variable 'y'", ⟨6, 5⟩, none⟩]
      ∧ ∃ r ∈ idle.regions.tail, ∃ t, idle.Leaves {} r t
        ∧ (t.findings.toList ++ [⟨.unusedParameter "a", ⟨2, 8⟩, none⟩,
          ⟨.unusedVariable "x", ⟨4, 3⟩, none⟩]) <+: a.findings := by
  have hids : idle.ids.Nodup := by decide
  obtain ⟨a, ha, hresolved⟩ : ∃ a, idle.analyze {} = .ok a
      ∧ a.resolutions[6]? = some 3 :=
    analyze_ok_of_results (by decide +kernel)
  have hnumbers : idle.numbersRead a = [3] := by
    have htargets : idle.targets = [5] := rfl
    have hidentifiers : idle.identifiers
        = [(⟨5, ⟨5, 3⟩⟩, "x"), (⟨6, ⟨5, 7⟩⟩, "b")] := rfl
    simp [numbersRead, htargets, hidentifiers, hresolved]
  have hreads : idle.reads a = fun site => [3].contains (idle.declarations.idxOf site) := by
    funext site
    rw [reads, hnumbers]
  obtain ⟨hreported, hexists, hleft, hshown, -⟩ := unused_reported hids rfl ha
  rw [hreads] at hreported hleft hshown
  obtain ⟨r, hr, hwarnings⟩ : ∃ r ∈ idle.regions.tail,
      r.warnings (fun site => [3].contains (idle.declarations.idxOf site))
        = [⟨.unusedParameter "a", ⟨2, 8⟩, none⟩, ⟨.unusedVariable "x", ⟨4, 3⟩, none⟩] :=
    ⟨_, List.mem_cons_self, by decide +kernel⟩
  obtain ⟨t, ht⟩ := hexists r hr
  have hprefix := hleft r hr t ht
  rw [hwarnings] at hprefix
  refine ⟨hids, a, ha, hreported.trans (.of_eq ?found), hshown.trans (.of_eq ?shown), r, hr,
    t, ht, hprefix⟩
  case found => decide +kernel
  case shown => decide +kernel

end

end TreeCheck
