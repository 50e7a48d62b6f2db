/-
Unused declarations, read off the source and the resolutions.

A variable or a parameter of a scope is unused if no identifier has been
resolved to it, other than as the target of an assignment. Of the
declarations of one name the last replaces the others, so it is the only
one that is asked. Functions need no caller, and a leading underscore
asks for silence.

An analysis binds the declarations of a region in an order of its own.
That order agrees with the source name by name, and on the variables and
parameters as a whole (`Region.Order`), which is all that matters here.
-/
import TreeCheck.Proofs.Duplicates.Source
import TreeCheck.Proofs.Tables.Identifiers

namespace TreeCheck

-- ============================================================== reading

/-- The identity of the identifier that a statement assigns to. -/
def Stmt.target? : Stmt → Option NodeId
  | .assignment _ (.identifier t _) _ => some t.id
  | _ => none

/-- The identifiers of a program that are assigned to. -/
def Program.targets (p : Program) : List NodeId := p.stmts.filterMap Stmt.target?

/-- The symbols that identifiers have been resolved to, other than the targets
of assignments. -/
def Program.numbersRead (p : Program) (a : Analysis) : List SymbolId :=
  p.identifiers.filterMap fun i =>
    if i.1.id ∈ p.targets then none else a.resolutions[i.1.id]?

/-- Whether an identifier that is read has been resolved to the declaration at
a place. -/
def Program.reads (p : Program) (a : Analysis) (site : Site) : Bool :=
  (p.numbersRead a).contains (p.declarations.idxOf site)

-- =============================================================== unused

/-- The variables and parameters of a region that are not read, in the order of
the source. Those that another declaration of their name replaces, or
that begin with an underscore, do not count. -/
def Region.unused (reads : Site → Bool) (r : Region) : List (Decl Place) :=
  r.declarations.filter fun d =>
    d.kind ≠ .function ∧ (r.named d.name).getLast? = some d
      ∧ d.name.toList.head? ≠ some '_' ∧ reads d.info.site = false

/-- What is found about an unused declaration. -/
def unusedFinding (d : Decl Place) : Finding :=
  ⟨if d.kind = .parameter then .unusedParameter d.name else .unusedVariable d.name,
    d.info.position, none⟩

/-- How an unused declaration is shown: as a warning at its place. -/
def unusedDiagnostic (d : Decl Place) : Diagnostic :=
  ⟨.warning, .unusedVariable,
    if d.kind = .parameter then s!"unused parameter '{d.name}'" else s!"unused variable '{d.name}'",
    d.info.position, none⟩

theorem diagnostic_unusedFinding (d : Decl Place) :
    (unusedFinding d).diagnostic = unusedDiagnostic d := by
  rw [unusedFinding, unusedDiagnostic]
  split <;> rfl

section

variable {r : Region} {ds : List (Decl Place)}

/-- What is unused can be told in any order that agrees with the source. -/
theorem Region.Order.unused (h : r.Order ds) (reads : Site → Bool) :
    r.unused reads = ds.filter fun d =>
      d.kind ≠ .function ∧ (r.named d.name).getLast? = some d
        ∧ d.name.toList.head? ≠ some '_' ∧ reads d.info.site = false := by
  have hsplit (es : List (Decl Place)) : (es.filter fun d =>
      decide (d.kind ≠ .function ∧ (r.named d.name).getLast? = some d
        ∧ d.name.toList.head? ≠ some '_' ∧ reads d.info.site = false))
      = (es.filter (·.kind ≠ .function)).filter fun d =>
        decide ((r.named d.name).getLast? = some d
          ∧ d.name.toList.head? ≠ some '_' ∧ reads d.info.site = false) := by
    rw [List.filter_filter]
    refine List.filter_congr fun d _ => ?_
    rw [← Bool.decide_and]
    exact decide_eq_decide.mpr and_comm
  rw [Region.unused, hsplit, hsplit, h.values]

end

end TreeCheck
