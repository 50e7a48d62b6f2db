/-
The table of resolutions, accounted for.

Every identifier of a program is looked up once, whether it is read or
assigned to. If its name is found, the resolution is kept and the type
of the symbol is recorded; if not, the identifier is reported and
recorded as an error. So the entries of the table and the reports of
undefined names share the identifiers of the program among them. Callees
are looked up once more for the place of their declaration, which leaves
no trace in either.
-/
import TreeCheck.Proofs.Run.Diagnostics
import TreeCheck.Proofs.Tables.Types
import TreeCheck.Proofs.Visits.Sight

namespace TreeCheck

open Analysis

-- ========================================================== identifiers

/-- The tag and the name of an identifier. -/
def Expr.identifier? : Expr → Option (Tag × String)
  | .identifier t x => some (t, x)
  | _ => none

theorem Expr.identifier?_eq_some {e : Expr} {i : Tag × String} :
    e.identifier? = some i ↔ e = .identifier i.1 i.2 := by
  obtain ⟨t, x⟩ := i
  cases e <;> simp [identifier?]

/-- The identifiers of a program, in pre-order: those that are expressions
of their own, and targets of assignments. -/
def Program.identifiers (p : Program) : List (Tag × String) :=
  p.exprs.filterMap Expr.identifier?

/-- What is found about an identifier that nothing binds. -/
def undefinedFinding (i : Tag × String) : Finding :=
  ⟨.undefined i.2, i.1.position, none⟩

/-- How an identifier that nothing binds is shown: as an error at its place. -/
def undefinedDiagnostic (i : Tag × String) : Diagnostic :=
  ⟨.error, .undefinedIdentifier, s!"undefined identifier '{i.2}'", i.1.position, none⟩

section

variable {config : Config} {p : Program} {a : Analysis} {t : Tag} {x : String}

theorem Program.mem_identifiers :
    (t, x) ∈ p.identifiers ↔ .identifier t x ∈ p.exprs := by
  rw [identifiers, List.mem_filterMap]
  constructor
  · intro h
    obtain ⟨e, he, hi⟩ := h
    rwa [Expr.identifier?_eq_some.mp hi] at he
  · intro h
    exact ⟨_, h, rfl⟩

/-- The identifiers of a program are visited, like all its expressions. -/
theorem Program.identifiers_eq_nodes (config : Config) (p : Program) :
    p.identifiers = (p.nodes config).filterMap (·.2.identifier?) := by
  rw [identifiers, ← p.map_snd_nodes config, List.filterMap_map]
  rfl

/-- No two identifiers share an identity. -/
theorem Program.nodup_identifiers (h : p.analyze config = .ok a) :
    (p.identifiers.map (·.1.id)).Nodup := by
  have hexprs := List.pairwise_map.mp (shallow_of_analyze h).2
  rw [List.Nodup, List.pairwise_map, identifiers, List.pairwise_filterMap]
  refine hexprs.imp fun {e e'} hne => ?_
  intro i hi i' hi'
  rw [Expr.identifier?_eq_some] at hi hi'
  rw [hi, hi'] at hne
  exact hne

-- ============================================================ undefined

/-- The undefined name that an event reports. -/
def Event.undefined? (e : Event) : Option Finding :=
  e.finding?.filter (·.cause.kind = .undefinedIdentifier)

/-- Of all causes, one leads to a diagnostic of this kind. -/
theorem Cause.kind_undefinedIdentifier_iff {c : Cause} :
    c.kind = .undefinedIdentifier ↔ ∃ x, c = .undefined x := by
  constructor
  · intro h
    cases c with
    | undefined x => exact ⟨x, rfl⟩
    | _ => cases h
  · rintro ⟨x, rfl⟩
    rfl

theorem Event.undefined?_found {node : NodeId} {f : Finding}
    (h : ∀ x, f.cause ≠ .undefined x) : Event.undefined? (.found node f) = none := by
  rw [Event.undefined?, Event.finding?, Option.filter_some, if_neg]
  rw [decide_eq_true_eq]
  intro hkind
  obtain ⟨x, hx⟩ := Cause.kind_undefinedIdentifier_iff.mp hkind
  exact h x hx

/-- That a name is undefined is a finding about an expression. -/
theorem nodal_undefined? : Nodal Event.undefined? where
  shown := hidden_eq_none (fun _ => rfl) fun _ => rfl
  about := by
    intro node f hf
    refine Event.undefined?_found fun x hx => hf ?_
    rw [hx]
    rfl

theorem undefined?_complaint {ok : Bool} {node : NodeId} {c : Cause} {q : Position}
    (hc : ∀ x, c ≠ .undefined x) :
    (complaint ok node c q).filterMap Event.undefined? = [] := by
  cases ok with
  | true => rfl
  | false => exact List.filterMap_cons_none (Event.undefined?_found hc)

theorem undefined?_callEvents (ρ : Lookup) (t : Tag) (f : Expr) (args : List Expr)
    (ty : Ty) : (Expr.callEvents ρ t f args ty).filterMap Event.undefined? = [] := by
  have hargs (index : Nat) (ps : List Ty) (args : List Expr) :
      (Expr.argumentEvents ρ t.id f.name? index ps args).filterMap Event.undefined?
        = [] := by
    induction ps generalizing index args with
    | nil => rfl
    | cons p ps ih =>
        cases args with
        | nil => rfl
        | cons arg args =>
            have hfirst : (complaint (p.accepts (arg.typeIn ρ)) t.id
                (.badArgument f.name? index p (arg.typeIn ρ))
                arg.position).filterMap Event.undefined? = [] :=
              undefined?_complaint fun _ h => by cases h
            rw [Expr.argumentEvents, List.filterMap_append, hfirst, ih]
            rfl
  cases ty with
  | func ps r =>
      simp only [Expr.callEvents]
      split
      · exact hargs 1 ps args
      · exact List.filterMap_cons_none (Event.undefined?_found fun _ h => by cases h)
  | error | unknown => rfl
  | int | float | bool | string | void =>
      exact List.filterMap_cons_none (Event.undefined?_found fun _ h => by cases h)

/-- A node reports an undefined name if it is an identifier whose name is not
found. -/
theorem Expr.undefined?_remarks (ρ : Lookup) (e : Expr) :
    (e.remarks ρ).filterMap Event.undefined?
      = ((e.identifier?.filter fun i : Tag × String => (ρ i.2).isNone).map
          undefinedFinding).toList := by
  rw [remarks, List.filterMap_append]
  show (e.verdict ρ).filterMap Event.undefined? ++ [] = _
  rw [List.append_nil]
  cases e with
  | literal => rfl
  | identifier t x =>
      show (verdict ρ (.identifier t x)).filterMap _
        = (((some (t, x)).filter fun i : Tag × String => (ρ i.2).isNone).map
          undefinedFinding).toList
      rw [Option.filter_some]
      cases hx : ρ x with
      | none =>
          rw [verdict, hx]
          rfl
      | some d =>
          rw [verdict, hx]
          rfl
  | binary | unary => exact undefined?_complaint fun _ h => by cases h
  | call t f args => exact undefined?_callEvents ρ t f args (f.typeIn ρ)

/-- The identifiers that a completed analysis has not resolved are those whose
names it has not found. -/
theorem Program.unresolved_iff {ρ : Lookup} (h : p.analyze config = .ok a)
    (hn : (ρ, .identifier t x) ∈ p.nodes config) :
    t.id ∉ a.resolutions ↔ ρ x = none := by
  rw [Std.TreeMap.mem_iff_isSome_getElem?, resolutions_of_node h hn]
  cases ρ x <;> simp

/-- A completed analysis reports, up to order, each identifier that it has
not resolved, at its position, and no other undefined name. -/
theorem Program.perm_undefined (h : p.analyze config = .ok a) :
    (a.findings.filter (·.cause.kind = .undefinedIdentifier)).Perm
      ((p.identifiers.filter fun i => i.1.id ∉ a.resolutions).map
        undefinedFinding) := by
  have hcollected : a.findings.filter (·.cause.kind = .undefinedIdentifier)
      = (p.course config).events.filterMap Event.undefined? := by
    rw [findings_of_analyze h, List.filter_filterMap]
    rfl
  rw [hcollected]
  refine (p.perm_collected nodal_undefined? config).trans (.of_eq ?_)
  simp only [Expr.undefined?_remarks]
  rw [← List.filterMap_eq_flatMap_toList, p.identifiers_eq_nodes config,
    List.filter_filterMap, List.map_filterMap]
  refine List.filterMap_congr fun n hn => ?_
  obtain ⟨ρ, e⟩ := n
  cases e with
  | identifier t x =>
      have hiff := unresolved_iff h hn
      show (Option.filter _ (some (t, x))).map _ = (Option.filter _ (some (t, x))).map _
      rw [Option.filter_some, Option.filter_some]
      simp only [Option.isNone_iff_eq_none, decide_eq_true_eq, hiff]
  | literal | binary | unary | call => rfl

-- =========================================================== accounting

/-- An identifier that is found has the symbol's number for its resolution
and the symbol's type for its own. -/
theorem Program.resolved_of_found {ρ : Lookup} {d : Declared}
    (hids : p.ids.Nodup) (h : p.analyze config = .ok a)
    (hn : (ρ, .identifier t x) ∈ p.nodes config) (hx : ρ x = some d) :
    d.name = x ∧ p.Holds config d.toSymbol ∧ a.resolutions[t.id]? = some d.id
      ∧ a.types[t.id]? = some d.type := by
  obtain ⟨v, hv, rfl, -⟩ := mem_nodes.mp hn
  obtain ⟨hname, hholds⟩ := (sees_visits h v hv).holds hids hx
  refine ⟨hname, hholds, ?_, ?_⟩
  · rw [resolutions_of_node h hn, hx]
    rfl
  · have htype := types_of_node h hn
    rw [Expr.typeIn, hx] at htype
    exact htype

theorem Program.error_of_missing {ρ : Lookup} (h : p.analyze config = .ok a)
    (hn : (ρ, .identifier t x) ∈ p.nodes config) (hx : ρ x = none) :
    a.resolutions[t.id]? = none ∧ a.types[t.id]? = some .error := by
  refine ⟨?_, ?_⟩
  · rw [resolutions_of_node h hn, hx]
    rfl
  · have htype := types_of_node h hn
    rw [Expr.typeIn, hx] at htype
    exact htype

/-- The entries of the table of resolutions are the identifiers that it
resolves. -/
theorem Program.mem_resolutions (h : p.analyze config = .ok a) (id : NodeId) :
    id ∈ a.resolutions
      ↔ id ∈ (p.identifiers.filter fun i => i.1.id ∈ a.resolutions).map (·.1.id) := by
  rw [List.mem_map]
  constructor
  · intro hid
    obtain ⟨ρ, t, x, hn, rfl⟩ := exists_node_of_resolution h hid
    refine ⟨(t, x), List.mem_filter.mpr ⟨?_, decide_eq_true hid⟩, rfl⟩
    exact mem_identifiers.mpr (mem_exprs_of_node hn)
  · rintro ⟨i, hi, rfl⟩
    exact of_decide_eq_true (List.mem_filter.mp hi).2

/-- The identifiers that are not resolved are shown as undefined. -/
theorem Program.perm_undefined_diagnostics (h : p.analyze config = .ok a) :
    (a.diagnostics.filter (·.kind = .undefinedIdentifier)).Perm
      ((p.identifiers.filter fun i => i.1.id ∉ a.resolutions).map undefinedDiagnostic) := by
  refine (perm_diagnostics (fun _ => rfl) (perm_undefined h)).trans (.of_eq ?_)
  rw [List.map_map]
  rfl

/-- Every identifier is resolved or reported. -/
theorem Program.size_resolutions (h : p.analyze config = .ok a) :
    a.resolutions.size
        + (a.findings.filter (·.cause.kind = .undefinedIdentifier)).length
      = p.identifiers.length := by
  have hnodup : ((p.identifiers.filter fun i => i.1.id ∈ a.resolutions).map
      (·.1.id)).Nodup :=
    (nodup_identifiers h).sublist (List.filter_sublist.map _)
  have hresolved : a.resolutions.size
      = (p.identifiers.filter fun i => i.1.id ∈ a.resolutions).length := by
    rw [size_eq_length hnodup (mem_resolutions h), List.length_map]
  have hreported := (perm_undefined h).length_eq
  rw [List.length_map] at hreported
  rw [hresolved, hreported]
  simp only [decide_not]
  exact (List.length_eq_length_filter_add _).symm

/-- Resolution accounting. Where the nodes of a program have distinct
identities, a completed analysis has resolved an identifier to a symbol
that the run has held under its name, and gives it the type of the
symbol; or it has not resolved the identifier, and gives it the type
`error`. The unresolved identifiers are reported as undefined, each once
and at its position, and nothing else is. The table of resolutions has
entries for identifiers only, so entries and reports add up to the
identifiers. A symbol is told by its number, so identifiers that are
resolved to the same symbol have the same name and the same type. What is
reported is shown as an error that says the name. -/
theorem Program.resolutions_accounted (hids : p.ids.Nodup)
    (h : p.analyze config = .ok a) :
    (∀ t x, .identifier t x ∈ p.exprs →
      (∃ sym, p.Holds config sym ∧ sym.name = x
        ∧ a.resolutions[t.id]? = some sym.id ∧ a.types[t.id]? = some sym.type)
      ∨ (a.resolutions[t.id]? = none ∧ a.types[t.id]? = some .error))
    ∧ (a.findings.filter (·.cause.kind = .undefinedIdentifier)).Perm
      ((p.identifiers.filter fun i => i.1.id ∉ a.resolutions).map undefinedFinding)
    ∧ (∀ id ∈ a.resolutions, ∃ t x, .identifier t x ∈ p.exprs ∧ t.id = id)
    ∧ a.resolutions.size
        + (a.findings.filter (·.cause.kind = .undefinedIdentifier)).length
      = p.identifiers.length
    ∧ (∀ sym sym', p.Holds config sym → p.Holds config sym' → sym.id = sym'.id →
      sym = sym')
    ∧ (∀ t x t' x' k, .identifier t x ∈ p.exprs → .identifier t' x' ∈ p.exprs →
      a.resolutions[t.id]? = some k → a.resolutions[t'.id]? = some k →
      x = x' ∧ a.types[t.id]? = a.types[t'.id]?)
    ∧ (a.diagnostics.filter (·.kind = .undefinedIdentifier)).Perm
      ((p.identifiers.filter fun i => i.1.id ∉ a.resolutions).map undefinedDiagnostic)
    ∧ a.resolutions.size
        + (a.diagnostics.filter (·.kind = .undefinedIdentifier)).length
      = p.identifiers.length := by
  have hfound (t : Tag) (x : String) (ht : .identifier t x ∈ p.exprs) :
      (∃ sym, p.Holds config sym ∧ sym.name = x
        ∧ a.resolutions[t.id]? = some sym.id ∧ a.types[t.id]? = some sym.type)
      ∨ (a.resolutions[t.id]? = none ∧ a.types[t.id]? = some .error) := by
    obtain ⟨ρ, hn⟩ := exists_node config ht
    cases hx : ρ x with
    | none => exact .inr (error_of_missing h hn hx)
    | some d =>
        obtain ⟨hname, hholds, hresolved, htype⟩ := resolved_of_found hids h hn hx
        exact .inl ⟨d.toSymbol, hholds, hname, hresolved, htype⟩
  have hkey (t : Tag) (x : String) (k : SymbolId) (ht : .identifier t x ∈ p.exprs)
      (hk : a.resolutions[t.id]? = some k) :
      ∃ sym, p.Holds config sym ∧ sym.name = x ∧ sym.id = k
        ∧ a.types[t.id]? = some sym.type := by
    rcases hfound t x ht with ⟨sym, hholds, hname, hresolved, htype⟩ | ⟨hnone, -⟩
    · rw [hk, Option.some.injEq] at hresolved
      exact ⟨sym, hholds, hname, hresolved.symm, htype⟩
    · rw [hk] at hnone
      cases hnone
  refine ⟨hfound, perm_undefined h, fun id hid => ?keys, size_resolutions h,
    fun sym sym' hs hs' => hs.eq_of_id hids hs', ?same, perm_undefined_diagnostics h, ?shown⟩
  case keys =>
    obtain ⟨ρ, t, x, hn, rfl⟩ := exists_node_of_resolution h hid
    exact ⟨t, x, mem_exprs_of_node hn, rfl⟩
  case same =>
    intro t x t' x' k ht ht' hk hk'
    obtain ⟨sym, hs, rfl, hid, htype⟩ := hkey t x k ht hk
    obtain ⟨sym', hs', rfl, hid', htype'⟩ := hkey t' x' k ht' hk'
    obtain rfl := hs.eq_of_id hids hs' (hid.trans hid'.symm)
    exact ⟨rfl, htype.trans htype'.symm⟩
  case shown =>
    rw [filter_diagnostics fun _ => rfl, List.length_map]
    exact size_resolutions h

/-- A variable, an assignment of an undefined name to it, and its name once
more. -/
def Program.ofMissingValue : Program :=
  ⟨[.declaration ⟨0, ⟨1, 1⟩⟩ "x" none (some (.literal ⟨1, ⟨1, 9⟩⟩ (.int 1))) true,
    .assignment ⟨2, ⟨2, 1⟩⟩ (.identifier ⟨3, ⟨2, 1⟩⟩ "x")
      (.identifier ⟨4, ⟨2, 5⟩⟩ "y"),
    .expr ⟨5, ⟨3, 1⟩⟩ (.identifier ⟨6, ⟨3, 1⟩⟩ "x")],
    .start⟩

/-- Two of three identifiers are resolved, both to the variable. -/
theorem Program.resolutions_ofMissingValue :
    ofMissingValue.ids.Nodup ∧ ∃ a, ofMissingValue.analyze {} = .ok a
      ∧ a.resolutions[3]? = some 0 ∧ a.resolutions[6]? = some 0
      ∧ (∃ sym, ofMissingValue.Holds {} sym ∧ sym.name = "x"
        ∧ a.resolutions[3]? = some sym.id ∧ a.types[3]? = some sym.type)
      ∧ (a.findings.filter (·.cause.kind = .undefinedIdentifier)).Perm
        [⟨.undefined "y", ⟨2, 5⟩, none⟩]
      ∧ (a.diagnostics.filter (·.kind = .undefinedIdentifier)).Perm
        [⟨.error, .undefinedIdentifier, "undefined identifier 'y'", ⟨2, 5⟩, none⟩]
      ∧ a.resolutions.size
        + (a.findings.filter (·.cause.kind = .undefinedIdentifier)).length = 3
      ∧ a.types[3]? = a.types[6]? := by
  have hids : ofMissingValue.ids.Nodup := by decide
  obtain ⟨a, ha, hresolved⟩ : ∃ a, ofMissingValue.analyze {} = .ok a
      ∧ (a.resolutions[3]?, a.resolutions[4]?, a.resolutions[6]?)
        = (some 0, none, some 0) :=
    analyze_ok_of_results (by decide +kernel)
  rw [Prod.mk.injEq, Prod.mk.injEq] at hresolved
  obtain ⟨h₃, h₄, h₆⟩ := hresolved
  obtain ⟨hfound, hreported, -, hsize, -, hsame, hshown, -⟩ := resolutions_accounted hids ha
  have hkept {id : NodeId} {k : SymbolId} (h : a.resolutions[id]? = some k) :
      id ∈ a.resolutions :=
    Std.TreeMap.mem_iff_isSome_getElem?.mpr (by rw [h]; rfl)
  have hmissing : 4 ∉ a.resolutions := by
    rw [Std.TreeMap.mem_iff_isSome_getElem?, h₄]
    exact nofun
  have hidentifiers : ofMissingValue.identifiers
      = [(⟨3, ⟨2, 1⟩⟩, "x"), (⟨4, ⟨2, 5⟩⟩, "y"), (⟨6, ⟨3, 1⟩⟩, "x")] := rfl
  have hunresolved : (ofMissingValue.identifiers.filter
      fun i => i.1.id ∉ a.resolutions) = [(⟨4, ⟨2, 5⟩⟩, "y")] := by
    simp [hidentifiers, hkept h₃, hmissing, hkept h₆]
  rw [hunresolved] at hreported hshown
  have hfirst : .identifier ⟨3, ⟨2, 1⟩⟩ "x" ∈ ofMissingValue.exprs :=
    mem_identifiers.mp (by decide)
  have hlast : .identifier ⟨6, ⟨3, 1⟩⟩ "x" ∈ ofMissingValue.exprs :=
    mem_identifiers.mp (by decide)
  refine ⟨hids, a, ha, h₃, h₆, ?_, hreported, hshown, hsize, ?_⟩
  · rcases hfound _ _ hfirst with hsym | ⟨hnone, -⟩
    · exact hsym
    · rw [h₃] at hnone
      cases hnone
  · exact (hsame _ _ _ _ 0 hfirst hlast h₃ h₆).2

end

end TreeCheck
