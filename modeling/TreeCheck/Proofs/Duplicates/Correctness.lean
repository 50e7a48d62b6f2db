/-
Duplicate declarations come in the order of the source.

An analysis declares most functions of a list before it comes to the
first statement. Still, what it says about the declarations of one name
in one scope is what a reader of the source expects: each but the first
is reported once, as a duplicate of the one before it, and the last one
is what the name is bound to in the end.
-/
import TreeCheck.Proofs.Duplicates.Bound
import TreeCheck.Proofs.Run.Diagnostics
import TreeCheck.Proofs.Visits.Recorded

namespace TreeCheck

open Analysis

section

variable {config : Config} {p : Program} {a : Analysis}

theorem Cause.kind_duplicateDeclaration_iff {c : Cause} :
    c.kind = .duplicateDeclaration ↔ ∃ x, c = .duplicate x := by
  constructor
  · intro h
    cases c with
    | duplicate x => exact ⟨x, rfl⟩
    | _ => cases h
  · rintro ⟨x, rfl⟩
    rfl

/-- The duplicates of a name that an analysis finds are those that the account
of its program reports. -/
theorem Program.duplicates_of_analyze (hids : p.ids.Nodup)
    (h : p.analyze config = .ok a) (x : String) :
    a.findings.filter (·.cause = .duplicate x)
      = (p.account config).filterMap (Event.duplicate? x) := by
  rw [findings_eq_account hids h, List.filter_filterMap]
  rfl

/-- A diagnostic that a name is declared already shows such a finding. -/
theorem Finding.diagnostic_duplicate (x : String) (f : Finding) :
    (decide (f.diagnostic.kind = .duplicateDeclaration)
        && decide (f.diagnostic.message = s!"'{x}' is already declared in this scope"))
      = decide (f.cause = .duplicate x) := by
  rw [← Bool.decide_and, decide_eq_decide]
  constructor
  · rintro ⟨hkind, hmessage⟩
    obtain ⟨y, hy⟩ := Cause.kind_duplicateDeclaration_iff.mp hkind
    rw [diagnostic, hy] at hmessage
    rw [hy, Cause.message_duplicate_inj hmessage]
  · intro hcause
    rw [diagnostic, hcause]
    exact ⟨rfl, rfl⟩

/-- Duplicates come in the order of the source. Where the nodes of a program
have distinct identities, a completed analysis finds of the declarations
of each name in each scope all but the first to be a duplicate of the
one before it, once and in this order, and no other duplicate. It leaves
every scope, and where it does, a name is bound to its last declaration
in the scope. What is found is shown as errors that say the name, in the
same order. -/
theorem Program.duplicates_in_source_order (hids : p.ids.Nodup)
    (h : p.analyze config = .ok a) :
    (∀ x, (a.findings.filter (·.cause = .duplicate x)).Perm
      (p.regions.flatMap (Region.duplicates x)))
    ∧ (∀ r ∈ p.regions, ∀ x, (r.duplicates x).Sublist a.findings)
    ∧ (∀ f ∈ a.findings, f.cause.kind = .duplicateDeclaration →
      ∃ r ∈ p.regions, ∃ x, f ∈ r.duplicates x)
    ∧ (∀ r ∈ p.regions, ∃ t, p.Leaves config r t)
    ∧ (∀ r t, p.Leaves config r t → ∀ x,
      (t.table.resolveLocal x).map p.bound = (r.named x).getLast?.map some)
    ∧ (∀ x, (a.diagnostics.filter fun d => d.kind = .duplicateDeclaration
        && d.message = s!"'{x}' is already declared in this scope").Perm
      (p.regions.flatMap (Region.duplicateDiagnostics x)))
    ∧ (∀ r ∈ p.regions, ∀ x, (r.duplicateDiagnostics x).Sublist a.diagnostics)
    ∧ ∀ d ∈ a.diagnostics, d.kind = .duplicateDeclaration →
      ∃ r ∈ p.regions, ∃ x, d ∈ r.duplicateDiagnostics x := by
  have hperm (x : String) : (a.findings.filter (·.cause = .duplicate x)).Perm
      (p.regions.flatMap (Region.duplicates x)) := by
    rw [duplicates_of_analyze hids h x]
    exact p.perm_duplicates config x
  have hsublist (r : Region) (hr : r ∈ p.regions) (x : String) :
      (r.duplicates x).Sublist a.findings := by
    have hsome := p.sublist_duplicates config hr x
    rw [← duplicates_of_analyze hids h x] at hsome
    exact hsome.trans List.filter_sublist
  have hregion (f : Finding) (hf : f ∈ a.findings)
      (hkind : f.cause.kind = .duplicateDeclaration) :
      ∃ r ∈ p.regions, ∃ x, f ∈ r.duplicates x := by
    obtain ⟨x, hx⟩ := Cause.kind_duplicateDeclaration_iff.mp hkind
    have hmem : f ∈ a.findings.filter (·.cause = .duplicate x) :=
      List.mem_filter.mpr ⟨hf, decide_eq_true hx⟩
    obtain ⟨r, hr, hfr⟩ := List.mem_flatMap.mp ((hperm x).mem_iff.mp hmem)
    exact ⟨r, hr, x, hfr⟩
  refine ⟨hperm, hsublist, hregion, exists_leaves h,
    fun r t hleaves => hleaves.resolveLocal hids, fun x => ?shown, fun r hr x => ?part,
    fun d hd hkind => ?sole⟩
  case shown =>
    refine (perm_diagnostics (Finding.diagnostic_duplicate x) (hperm x)).trans (.of_eq ?_)
    rw [List.map_flatMap]
    exact List.flatMap_congr fun r _ => r.diagnostic_duplicates x
  case part =>
    rw [← r.diagnostic_duplicates x]
    exact (hsublist r hr x).map _
  case sole =>
    obtain ⟨f, hf, rfl⟩ := List.mem_map.mp hd
    obtain ⟨r, hr, x, hfr⟩ := hregion f hf hkind
    refine ⟨r, hr, x, ?_⟩
    rw [← r.diagnostic_duplicates x]
    exact List.mem_map_of_mem hfr

/-- A function, another one and a variable of the same name, in this order,
a function behind a variable of its name, and a variable behind two
parameters of its name. -/
def Program.oftenDeclared : Program :=
  ⟨[.function ⟨0, ⟨1, 1⟩⟩ "f" [⟨"x", none, ⟨1, 8⟩⟩, ⟨"x", none, ⟨1, 11⟩⟩] none
      ⟨1, 14⟩ [.declaration ⟨1, ⟨2, 3⟩⟩ "x" none none true],
    .declaration ⟨2, ⟨3, 1⟩⟩ "g" none none true,
    .function ⟨3, ⟨4, 1⟩⟩ "g" [] none ⟨4, 10⟩ [],
    .function ⟨4, ⟨5, 1⟩⟩ "f" [] none ⟨5, 10⟩ [],
    .declaration ⟨5, ⟨6, 1⟩⟩ "f" none none true],
    .start⟩

/-- The second function is declared ahead, and the variable behind it is a
duplicate of it. The function behind the variable is not declared ahead. -/
theorem Program.duplicates_oftenDeclared :
    oftenDeclared.ids.Nodup ∧ ∃ a, oftenDeclared.analyze {} = .ok a
      ∧ (a.findings.filter (·.cause = .duplicate "f")).Perm
        [⟨.duplicate "f", ⟨5, 1⟩, some ⟨1, 1⟩⟩, ⟨.duplicate "f", ⟨6, 1⟩, some ⟨5, 1⟩⟩]
      ∧ (a.findings.filter (·.cause = .duplicate "g")).Perm
        [⟨.duplicate "g", ⟨4, 1⟩, some ⟨3, 1⟩⟩]
      ∧ (a.findings.filter (·.cause = .duplicate "x")).Perm
        [⟨.duplicate "x", ⟨1, 11⟩, some ⟨1, 8⟩⟩,
          ⟨.duplicate "x", ⟨2, 3⟩, some ⟨1, 11⟩⟩]
      ∧ (a.diagnostics.filter fun d => d.kind = .duplicateDeclaration
          && d.message = "'g' is already declared in this scope").Perm
        [⟨.error, .duplicateDeclaration, "'g' is already declared in this scope", ⟨4, 1⟩,
          some ⟨"'g' previously declared here", ⟨3, 1⟩⟩⟩]
      ∧ ∃ t, oftenDeclared.Leaves {} { stmts := oftenDeclared.body } t
        ∧ (t.table.resolveLocal "f").map oftenDeclared.bound
          = some (some ⟨"f", .variable, ⟨.stmt 5, ⟨6, 1⟩⟩⟩)
        ∧ (t.table.resolveLocal "g").map oftenDeclared.bound
          = some (some ⟨"g", .function, ⟨.stmt 3, ⟨4, 1⟩⟩⟩) := by
  have hids : oftenDeclared.ids.Nodup := by decide
  obtain ⟨a, ha⟩ : ∃ a, oftenDeclared.analyze {} = .ok a :=
    analyze_ok (by decide) (by decide)
  obtain ⟨hfound, -, -, hexists, hbound, hshown, -⟩ := duplicates_in_source_order hids ha
  obtain ⟨t, ht⟩ := hexists { stmts := oftenDeclared.body } List.mem_cons_self
  exact ⟨hids, a, ha, hfound "f", hfound "g", hfound "x", hshown "g", t, ht,
    hbound _ t ht "f", hbound _ t ht "g"⟩

end

end TreeCheck
