/-
Every declaration and every annotation is processed exactly once.

Whether a function is declared ahead of its list, where it is reached,
or as a branch of its own, its heading is said once (`Program.perm_said`),
and what is said names the function and its parameters with the types of
its own annotations. The numbers that the run has given are as many as
there are declarations, so nothing else was declared either. Findings
about annotations come from the same headings, so they too are as many
as the annotations that deserve one.
-/
import TreeCheck.Proofs.Declarations.Walks
import TreeCheck.Proofs.Functions.Kept
import TreeCheck.Proofs.Tables.Identifiers
import TreeCheck.Proofs.Unused.Leaving

namespace TreeCheck

open Analysis

section

variable {config : Config} {p : Program} {a : Analysis} {f : FunctionDef}
  {site : Site} {b : Binding}

/-- An account says of declarations what the statements of the program say,
each thing once. -/
theorem Program.perm_said (config : Config) (p : Program) :
    (said (p.account config)).Perm (p.stmts.flatMap Stmt.saying) := by
  have hall := Stmt.perm_saidAll config p.body none [] []
    (hoisting [] p.body [] 0).frame (hoisting [] p.body [] 0).next
  rw [account, Walk.events_andThen, said_append, said_hoisting, stmts_eq_flatMap,
    List.flatMap_assoc]
  exact hall

/-- An account binds every function and its parameters, each once, with the
types of the function's own annotations. -/
theorem Program.perm_declared (config : Config) (p : Program) :
    ((p.account config).filterMap Event.declaration?).Perm
      (p.functions.flatMap FunctionDef.declarations) := by
  rw [← filterMap_said declarative?_bind_declaration?]
  refine ((p.perm_said config).filterMap _).trans (.of_eq ?_)
  rw [List.filterMap_flatMap, functions, List.filterMap_eq_flatMap_toList,
    List.flatMap_assoc]
  exact List.flatMap_congr fun s _ => s.declarations_saying

/-- The findings of a kind that is about annotations are what the statements
say of it. -/
theorem Program.perm_reported {of : Cause → Bool} (hids : p.ids.Nodup)
    (h : p.analyze config = .ok a) (hof : ∀ c, of c = true → c.ofAnnotation = true) :
    (a.findings.filter (of ·.cause)).Perm
      (p.stmts.flatMap fun s => s.saying.filterMap (Event.report? of)) := by
  have hreported : a.findings.filter (of ·.cause)
      = (said (p.account config)).filterMap (Event.report? of) := by
    rw [filterMap_said (declarative?_bind_report? hof), findings_eq_account hids h,
      List.filter_filterMap]
    rfl
  rw [hreported, ← List.filterMap_flatMap]
  exact (p.perm_said config).filterMap _

/-- What a function declares, the account has bound. -/
theorem Program.exists_bound (config : Config) (hf : f ∈ p.functions)
    (hb : (site, b) ∈ f.declarations) :
    ∃ d, p.Declares config d ∧ d.site = site ∧ d.toBinding = b := by
  have hmem : (site, b) ∈ (p.account config).filterMap Event.declaration? :=
    (p.perm_declared config).mem_iff.mpr (List.mem_flatMap.mpr ⟨f, hf, hb⟩)
  obtain ⟨e, he, hdeclaration⟩ := List.mem_filterMap.mp hmem
  cases e with
  | bound d =>
      rw [Event.declaration?] at hdeclaration
      split at hdeclaration
      case isTrue => cases hdeclaration
      case isFalse =>
        obtain ⟨rfl, rfl⟩ := Prod.mk.inj (Option.some.inj hdeclaration)
        exact ⟨d, List.mem_filterMap.mpr ⟨_, he, rfl⟩, rfl, rfl⟩
  | typed | resolved | read | found => cases hdeclaration

/-- Where identities are distinct, a place tells what is bound there. -/
theorem Program.Declares.eq_of_site {d d' : Declared} (hids : p.ids.Nodup)
    (h : p.Declares config d) (h' : p.Declares config d') (hsite : d.site = d'.site) :
    d = d' :=
  List.inj_on_of_nodup_map (nodup_sites hids config) h h' hsite

/-- What is bound at the place of a function or of a parameter is what the
function declares there. -/
theorem Program.Declares.toBinding_eq {d : Declared} (hids : p.ids.Nodup)
    (h : p.Declares config d) (hf : f ∈ p.functions) (hb : (site, b) ∈ f.declarations)
    (hsite : d.site = site) : d.toBinding = b := by
  obtain ⟨d', hd', hsite', rfl⟩ := exists_bound config hf hb
  rw [h.eq_of_site hids hd' (hsite.trans hsite'.symm)]

/-- A function and each of its parameters have one number. -/
theorem Program.count_declarations (hids : p.ids.Nodup) (hf : f ∈ p.functions)
    (hb : (site, b) ∈ f.declarations) : p.declarations.count site = 1 := by
  obtain ⟨d, hd, rfl, -⟩ := exists_bound {} hf hb
  exact List.count_eq_one_of_mem (nodup_declarations hids)
    (List.mem_of_getElem? (declarations_of_bound hd))

/-- What a run holds under the number of a function or of a parameter is
what the function declares. -/
theorem Program.Holds.toBinding_eq {sym : Symbol} (hids : p.ids.Nodup)
    (h : p.Holds config sym) (hf : f ∈ p.functions) (hb : (site, b) ∈ f.declarations)
    (hsite : p.declarations[sym.id]? = some site) : sym.toBinding = b := by
  obtain ⟨d, hd, rfl⟩ := h.declares hids
  have hown := declarations_of_bound hd
  rw [hsite] at hown
  exact hd.toBinding_eq hids hf hb (Option.some.inj hown).symm

/-- An identifier that is resolved to a function or to a parameter has the
type that the function declares. -/
theorem Program.type_of_resolved {id : NodeId} {k : SymbolId} (hids : p.ids.Nodup)
    (h : p.analyze config = .ok a) (hf : f ∈ p.functions)
    (hb : (site, b) ∈ f.declarations) (hk : a.resolutions[id]? = some k)
    (hsite : p.declarations[k]? = some site) : a.types[id]? = some b.type := by
  have hid : id ∈ a.resolutions :=
    Std.TreeMap.mem_iff_isSome_getElem?.mpr (Option.isSome_of_eq_some hk)
  obtain ⟨ρ, t, x, hn, rfl⟩ := exists_node_of_resolution h hid
  rw [resolutions_of_node h hn] at hk
  obtain ⟨d, hx, rfl⟩ := Option.map_eq_some_iff.mp hk
  obtain ⟨-, hholds, -, htype⟩ := resolved_of_found hids h hn hx
  rw [htype, ← hholds.toBinding_eq hids hf hb hsite]

-- =============================================================== the result

/-- Every declaration and annotation is processed exactly once. Where the
nodes of a program have distinct identities, a completed analysis has
bound every function and every parameter once, wherever the function
stands, with the types of its own annotations. It ends with as many
numbers given as there are declarations, and with the own signature of
each function. So the place of a function or parameter has one number,
what the run holds under it is what the function declares, and so is the
type of every identifier that is resolved to it. Unknown types are
reported once for each annotation whose name is not built in, at its
position; and so is each void annotation of a variable or parameter. Both
are shown as errors that say the name. -/
theorem Program.declared_exactly_once (hids : p.ids.Nodup)
    (h : p.analyze config = .ok a) :
    ((p.account config).filterMap Event.declaration?).Perm
        (p.functions.flatMap FunctionDef.declarations)
      ∧ (∃ s, Completes (checkProgram config p) {} () s ∧ a = s.analysis
        ∧ s.table.nextId = p.declarations.length
        ∧ ∀ f ∈ p.functions, s.signatures[f.tag.id]? = some f.signature)
      ∧ (∀ f ∈ p.functions, ∀ (site : Site) (b : Binding), (site, b) ∈ f.declarations →
        p.declarations.count site = 1
        ∧ (∀ sym, p.Holds config sym → p.declarations[sym.id]? = some site →
          sym.toBinding = b)
        ∧ ∀ (id : NodeId) (k : SymbolId), a.resolutions[id]? = some k →
          p.declarations[k]? = some site → a.types[id]? = some b.type)
      ∧ (a.findings.filter (·.cause.kind = .unknownType)).Perm
        ((p.annotations.filter (·.name ∉ Ty.builtinNames)).map TypeName.unknownFinding)
      ∧ (a.findings.filter (·.cause.isVoid)).Perm
        ((p.valueAnnotations.filter (·.2.name = "void")).map voidFinding)
      ∧ (a.diagnostics.filter (·.kind = .unknownType)).Perm
        ((p.annotations.filter (·.name ∉ Ty.builtinNames)).map TypeName.unknownDiagnostic)
      ∧ (a.diagnostics.filter (Diagnostic.isMismatch ['\''])).Perm
        ((p.valueAnnotations.filter (·.2.name = "void")).map voidDiagnostic) := by
  have hunknown : (a.findings.filter (·.cause.kind = .unknownType)).Perm
      ((p.annotations.filter (·.name ∉ Ty.builtinNames)).map TypeName.unknownFinding) := by
    have hof : ∀ c, Cause.isUnknownType c = true → c.ofAnnotation = true := by
      intro c hc
      cases c with
      | unknownType => rfl
      | _ => cases hc
    refine (perm_reported hids h hof).trans (.of_eq ?_)
    rw [annotations, List.filter_flatMap, List.map_flatMap]
    exact List.flatMap_congr fun s _ => s.unknown_saying
  have hvoid : (a.findings.filter (·.cause.isVoid)).Perm
      ((p.valueAnnotations.filter (·.2.name = "void")).map voidFinding) := by
    have hof : ∀ c, Cause.isVoid c = true → c.ofAnnotation = true := by
      intro c hc
      cases c with
      | voidVariable => rfl
      | _ => cases hc
    refine (perm_reported hids h hof).trans (.of_eq ?_)
    rw [valueAnnotations, List.filter_flatMap, List.map_flatMap]
    exact List.flatMap_congr fun s _ => s.void_saying
  refine ⟨p.perm_declared config, signatures_of_analyze hids h, ?declared, hunknown, hvoid,
    ?unknown, ?void⟩
  case declared =>
    intro f hf site b hb
    refine ⟨count_declarations hids hf hb, fun sym hholds hsite => ?_,
      fun id k hk hsite => ?_⟩
    · exact hholds.toBinding_eq hids hf hb hsite
    · exact type_of_resolved hids h hf hb hk hsite
  case unknown =>
    refine (perm_diagnostics (fun _ => rfl) hunknown).trans (.of_eq ?_)
    rw [List.map_map]
    rfl
  case void =>
    refine (perm_diagnostics Finding.isMismatch_void hvoid).trans (.of_eq ?_)
    rw [List.map_map]
    rfl

/-- A function that is declared ahead of its list, with an unknown result; a
variable of an unknown type and, behind it, a function of the same name
with a void parameter, which so has to wait for its place; and as a
branch of its own a function that returns its parameter, next to a void
variable. -/
def Program.scattered : Program :=
  ⟨[.function ⟨0, ⟨1, 1⟩⟩ "f" [] (some ⟨"number", ⟨1, 9⟩⟩) ⟨1, 16⟩ [],
    .declaration ⟨1, ⟨2, 1⟩⟩ "g" (some ⟨"text", ⟨2, 8⟩⟩) none true,
    .function ⟨2, ⟨3, 1⟩⟩ "g" [⟨"u", some ⟨"void", ⟨3, 8⟩⟩, ⟨3, 5⟩⟩] none ⟨3, 14⟩
      [.expr ⟨3, ⟨3, 16⟩⟩ (.identifier ⟨4, ⟨3, 16⟩⟩ "g")],
    .ifElse ⟨5, ⟨4, 1⟩⟩ (.literal ⟨6, ⟨4, 4⟩⟩ (.bool true))
      (.function ⟨7, ⟨4, 10⟩⟩ "g" [⟨"x", some ⟨"string", ⟨4, 17⟩⟩, ⟨4, 14⟩⟩] none ⟨4, 25⟩
        [.ret ⟨8, ⟨4, 27⟩⟩ (some (.identifier ⟨9, ⟨4, 34⟩⟩ "x"))])
      (some (.declaration ⟨10, ⟨5, 6⟩⟩ "v" (some ⟨"void", ⟨5, 13⟩⟩) none true))],
    .start⟩

/-- The three functions and their two parameters are bound once each, the
function in the branch returns a string for its own annotation, and each
annotation that deserves a finding has one. -/
theorem Program.declared_exactly_once_scattered :
    scattered.ids.Nodup
      ∧ ∃ a, scattered.analyze { warnUnused := false } = .ok a
      ∧ [(Site.stmt 0, (⟨"f", .function, .func [] .error, ⟨1, 1⟩, false⟩ : Binding)),
          (.stmt 2, ⟨"g", .function, .func [.error] .void, ⟨3, 1⟩, false⟩),
          (.param 2 0, ⟨"u", .parameter, .error, ⟨3, 5⟩, true⟩),
          (.stmt 7, ⟨"g", .function, .func [.string] .unknown, ⟨4, 10⟩, false⟩),
          (.param 7 0, ⟨"x", .parameter, .string, ⟨4, 14⟩, true⟩)].Perm
            ((scattered.account { warnUnused := false }).filterMap Event.declaration?)
      ∧ scattered.declarations.count (.param 7 0) = 1
      ∧ a.types[9]? = some .string
      ∧ (a.findings.filter (·.cause.kind = .unknownType)).Perm
          [⟨.unknownType "number", ⟨1, 9⟩, none⟩, ⟨.unknownType "text", ⟨2, 8⟩, none⟩]
      ∧ (a.findings.filter (·.cause.isVoid)).Perm
          [⟨.voidVariable "u", ⟨3, 8⟩, none⟩, ⟨.voidVariable "v", ⟨5, 13⟩, none⟩]
      ∧ (a.diagnostics.filter (·.kind = .unknownType)).Perm
          [⟨.error, .unknownType, "unknown type 'number'", ⟨1, 9⟩, none⟩,
            ⟨.error, .unknownType, "unknown type 'text'", ⟨2, 8⟩, none⟩]
      ∧ (a.diagnostics.filter (Diagnostic.isMismatch ['\''])).Perm
          [⟨.error, .typeMismatch, "'u' cannot have type 'void'", ⟨3, 8⟩, none⟩,
            ⟨.error, .typeMismatch, "'v' cannot have type 'void'", ⟨5, 13⟩, none⟩] := by
  have hids : scattered.ids.Nodup := by decide
  obtain ⟨a, ha, hresolution⟩ : ∃ a, scattered.analyze { warnUnused := false } = .ok a
      ∧ a.resolutions[9]? = some 5 := analyze_ok_of_results (by decide +kernel)
  obtain ⟨hdeclared, -, heach, hunknown, hvoid, hshown, hshown'⟩ :=
    declared_exactly_once hids ha
  have hbranch : (⟨⟨7, ⟨4, 10⟩⟩, "g", [⟨"x", some ⟨"string", ⟨4, 17⟩⟩, ⟨4, 14⟩⟩], none,
      ⟨4, 25⟩, [.ret ⟨8, ⟨4, 27⟩⟩ (some (.identifier ⟨9, ⟨4, 34⟩⟩ "x"))]⟩ : FunctionDef)
        ∈ scattered.functions := List.mem_of_getElem? (i := 2) rfl
  obtain ⟨hcount, -, htype⟩ := heach _ hbranch (.param 7 0)
    ⟨"x", .parameter, .string, ⟨4, 14⟩, true⟩ (List.mem_of_getElem? (i := 1) rfl)
  exact ⟨hids, a, ha, hdeclared.symm, hcount, htype 9 5 hresolution rfl, hunknown, hvoid,
    hshown, hshown'⟩

end

end TreeCheck
