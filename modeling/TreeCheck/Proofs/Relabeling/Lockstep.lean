/-
Two runs in lockstep.

A rerun is an analysis under other labels, with its own choice whether
unused names are reported. `Lockstep` compares a step of the first run
with its counterpart in the rerun: from states that are related, either
both complete, with results and states that are related again, or both
fail with the same error, up to labels.

What is reported need not be quite the same in both, because a scope
that is left is asked for its unused names, and the answer looks at the
options and at how a name begins. `Reported` says what holds in any case,
and what holds on top of that in the cases of interest.

There is one lemma for each single step. Sequences and scopes are put
together from them.
-/
import TreeCheck.Proofs.Account.Reports
import TreeCheck.Proofs.Relabeling.Tables
import TreeCheck.Proofs.Run.Steps

namespace TreeCheck

/-- A relabeling that neither takes a leading underscore off a name nor puts one
there. -/
def Relabeling.KeepsUnderscores (T : Relabeling) : Prop :=
  ∀ x, (T.name x).toList.head? = some '_' ↔ x.toList.head? = some '_'

namespace Analysis

/-- Two analyses with the same limit, the second one under other labels. -/
structure Rerun where
  labels : Relabeling
  faithful : labels.Faithful
  limit : Nat
  /-- Whether the first analysis reports unused names. -/
  warns : Bool
  /-- Whether the second one does. -/
  warns' : Bool

namespace Rerun

variable (K : Rerun)

/-- The options of the first analysis. -/
def first : Config := ⟨K.warns, K.limit⟩

/-- The options of the second one. -/
def second : Config := ⟨K.warns', K.limit⟩

/-- How the findings of both compare: in what is no warning they always agree; a
second analysis without warnings has none; and with the same options, they
agree in everything if underscores are kept. -/
structure Reported (fs fs' : List Finding) : Prop where
  errors : fs'.filter (·.cause.kind ≠ .unusedVariable)
    = (fs.filter (·.cause.kind ≠ .unusedVariable)).map (Finding.relabel K.labels)
  silent : K.warns' = false → ∀ f ∈ fs', f.cause.kind ≠ .unusedVariable
  same : K.warns' = K.warns → K.labels.KeepsUnderscores →
    fs' = fs.map (Finding.relabel K.labels)

/-- A state of the second analysis at the same point as one of the first. -/
structure Related (s s' : State) : Prop where
  table : s.table.Relabeled K.labels s'.table
  types : FilledAlike K.labels.node s.types s'.types
  resolutions : FilledAlike K.labels.node s.resolutions s'.resolutions
  used : s'.used = s.used
  signatures : FilledAlike K.labels.node s.signatures s'.signatures
  findings : K.Reported s.findings.toList s'.findings.toList

end Rerun

-- ============================================================= findings

namespace Rerun.Reported

variable {K : Rerun} {fs fs' gs gs' : List Finding}

theorem nil : K.Reported [] [] := ⟨rfl, fun _ => nofun, fun _ _ => rfl⟩

theorem append (h : K.Reported fs fs') (h' : K.Reported gs gs') :
    K.Reported (fs ++ gs) (fs' ++ gs') where
  errors := by
    rw [List.filter_append, List.filter_append, List.map_append, h.errors, h'.errors]
  silent hoff := List.forall_mem_append.mpr ⟨h.silent hoff, h'.silent hoff⟩
  same hwarns hkeeps := by
    rw [List.map_append, h.same hwarns hkeeps, h'.same hwarns hkeeps]

/-- An error is reported by both. -/
theorem error {f : Finding} (hf : f.cause.kind ≠ .unusedVariable) :
    K.Reported [f] [f.relabel K.labels] where
  errors := by
    have hf' : (f.relabel K.labels).cause.kind ≠ .unusedVariable := by
      rwa [f.kind_relabel]
    simp [hf]
  silent _ g hg := by
    rw [List.mem_singleton.mp hg, f.kind_relabel]
    exact hf
  same _ _ := rfl

/-- Where underscores are kept, a symbol is unused under other labels if it was before. -/
theorem unused?_relabel (hkeeps : K.labels.KeepsUnderscores) (used : Std.TreeSet SymbolId)
    (sym : Symbol) :
    unused? used (sym.relabel K.labels)
      = (unused? used sym).map (Finding.relabel K.labels) := by
  have hsilent : ((sym.relabel K.labels).name.toList.head? = some '_'
        ∨ used.contains (sym.relabel K.labels).id = true)
      ↔ (sym.name.toList.head? = some '_' ∨ used.contains sym.id = true) :=
    or_congr_left (hkeeps sym.name)
  have hkind : (sym.relabel K.labels).kind = sym.kind := rfl
  unfold unused?
  rw [hkind]
  by_cases h : sym.name.toList.head? = some '_' ∨ used.contains sym.id = true
  · rw [if_pos h, if_pos (hsilent.mpr h), Option.map_none]
  · rw [if_neg h, if_neg (mt hsilent.mp h)]
    cases sym.kind <;> rfl

theorem kind_of_mem_unused {used : Std.TreeSet SymbolId} {symbols : List Symbol}
    {f : Finding} (h : f ∈ symbols.filterMap (unused? used)) :
    f.cause.kind = .unusedVariable := by
  obtain ⟨sym, -, hsym⟩ := List.mem_filterMap.mp h
  exact kind_unused hsym

/-- What both report about the unused names of a scope. -/
theorem unused (used : Std.TreeSet SymbolId) (inner : Bool) (symbols : List Symbol) :
    K.Reported (if K.warns && inner then symbols.filterMap (unused? used) else [])
      (if K.warns' && inner
        then (symbols.map (Symbol.relabel K.labels)).filterMap (unused? used) else []) := by
  have hnone (on : Bool) (symbols : List Symbol) :
      (if on then symbols.filterMap (unused? used) else []).filter
        (·.cause.kind ≠ .unusedVariable) = [] := by
    refine List.filter_eq_nil_iff.mpr fun f hf => ?_
    split at hf
    · simp [kind_of_mem_unused hf]
    · cases hf
  refine ⟨?_, fun hoff => ?_, fun hwarns hkeeps => ?_⟩
  · rw [hnone, hnone, List.map_nil]
  · rw [hoff, Bool.false_and]
    exact nofun
  · rw [hwarns]
    split
    · rw [List.filterMap_map, List.map_filterMap]
      exact List.filterMap_congr fun sym _ => unused?_relabel hkeeps used sym
    · rfl

end Rerun.Reported

-- ============================================================== lockstep

section

variable (K : Rerun) {α β α' β' : Type}

/-- From related states, two steps end alike: both complete, the second one with the
result that `g` makes of the first one's and in a related state, or both
fail with the same error, up to labels. -/
def Lockstep (g : α → β) (m : Check α) (m' : Check β) : Prop :=
  ∀ s s' : State, K.Related s s' →
    match m.run s with
    | .ok (a, t) => ∃ t', m'.run s' = .ok (g a, t') ∧ K.Related t t'
    | .error e => m'.run s' = .error (e.relabel K.labels)

variable {K} {g : α → β} {g' : α' → β'}

theorem lockstep_pure (a : α) : Lockstep K g (pure a) (pure (g a)) :=
  fun _ s' h => ⟨s', rfl, h⟩

/-- Sequences of steps in lockstep are in lockstep. -/
theorem lockstep_bind {m : Check α} {m' : Check β} {f : α → Check α'} {f' : β → Check β'}
    (h : Lockstep K g m m') (hf : ∀ a, Lockstep K g' (f a) (f' (g a))) :
    Lockstep K g' (m >>= f) (m' >>= f') := by
  intro s s' hs
  have hfirst := h s s' hs
  rw [StateT.run_bind, StateT.run_bind]
  cases hm : m.run s with
  | error e =>
      rw [hm] at hfirst
      rw [show m'.run s' = _ from hfirst]
      rfl
  | ok r =>
      obtain ⟨a, t⟩ := r
      rw [hm] at hfirst
      obtain ⟨t', hm', ht⟩ := hfirst
      rw [hm']
      exact hf a t t' ht

/-- A step that completes on both sides. -/
theorem lockstep_of_run {m : Check α} {m' : Check β}
    (h : ∀ {s s' : State}, K.Related s s' → ∃ a t t',
      m.run s = .ok (a, t) ∧ m'.run s' = .ok (g a, t') ∧ K.Related t t') :
    Lockstep K g m m' := by
  intro s s' hs
  obtain ⟨a, t, t', hm, hm', ht⟩ := h hs
  rw [hm]
  exact ⟨t', hm', ht⟩

end

-- ============================================================ recording

section

variable {K : Rerun} {s s' : State}

theorem Rerun.Related.push {f : Finding} (h : K.Related s s')
    (hf : f.cause.kind ≠ .unusedVariable) :
    K.Related { s with findings := s.findings.push f }
      { s' with findings := s'.findings.push (f.relabel K.labels) } where
  table := h.table
  types := h.types
  resolutions := h.resolutions
  used := h.used
  signatures := h.signatures
  findings := by
    rw [Array.toList_push, Array.toList_push]
    exact h.findings.append (.error hf)

theorem lockstep_report {c : Cause} (hc : c.kind ≠ .unusedVariable) (p : Position)
    (r : Option Position) :
    Lockstep K id (report c p r)
      (report (c.rename K.labels.name) (K.labels.position p) (r.map K.labels.position)) :=
  lockstep_of_run fun h => ⟨_, _, _, rfl, rfl, h.push hc⟩

theorem lockstep_require {c : Cause} (hc : c.kind ≠ .unusedVariable) (ok : Bool)
    (p : Position) :
    Lockstep K id (require ok c p)
      (require ok (c.rename K.labels.name) (K.labels.position p)) := by
  cases ok with
  | true => exact lockstep_pure ()
  | false => exact lockstep_report hc p none

theorem lockstep_orError {c : Cause} (hc : c.kind ≠ .unusedVariable) (r : Option Ty)
    (p : Position) :
    Lockstep K id (orError r c p)
      (orError r (c.rename K.labels.name) (K.labels.position p)) := by
  cases r with
  | some ty => exact lockstep_pure ty
  | none => exact lockstep_bind (lockstep_report hc p none) fun _ => lockstep_pure Ty.error

theorem lockstep_descend (d : Nat) (x : Option Ty) (p : Position) {α β : Type} {g : α → β}
    {f : Context → Check α} {f' : Context → Check β}
    (h : Lockstep K g (f ⟨K.first, d + 1, x⟩) (f' ⟨K.second, d + 1, x⟩)) :
    Lockstep K g (Context.descend ⟨K.first, d, x⟩ p >>= f)
      (Context.descend ⟨K.second, d, x⟩ (K.labels.position p) >>= f') := by
  intro s s' hs
  have hfirst : (Context.descend ⟨K.first, d, x⟩ p).run s
      = if d < K.limit then .ok (⟨K.first, d + 1, x⟩, s) else .error (.tooDeep K.limit p) :=
    run_descend _ p
  have hsecond : (Context.descend ⟨K.second, d, x⟩ (K.labels.position p)).run s'
      = if d < K.limit then .ok (⟨K.second, d + 1, x⟩, s')
        else .error (.tooDeep K.limit (K.labels.position p)) := run_descend _ _
  rw [StateT.run_bind, StateT.run_bind, hfirst, hsecond]
  by_cases hd : d < K.limit
  · rw [if_pos hd, if_pos hd]
    exact h s s' hs
  · rw [if_neg hd, if_neg hd]
    rfl

theorem lockstep_record (id' : NodeId) (ty : Ty) :
    Lockstep K id (record id' ty) (record (K.labels.node id') ty) := by
  intro s s' h
  have hmem : K.labels.node id' ∈ s'.types ↔ id' ∈ s.types :=
    h.types.mem_iff K.faithful.node id'
  rw [run_record, run_record]
  by_cases hold : id' ∈ s.types
  · rw [if_pos hold, if_pos (hmem.mpr hold)]
    rfl
  · rw [if_neg hold, if_neg (mt hmem.mp hold)]
    exact ⟨_, rfl, { h with types := h.types.insert id' ty }⟩

theorem lockstep_markUsed (sym : Symbol) :
    Lockstep K id (markUsed sym) (markUsed (sym.relabel K.labels)) :=
  lockstep_of_run fun h =>
    ⟨_, _, _, rfl, rfl, { h with used := congrArg (·.insert sym.id) h.used }⟩

-- ================================================================ scopes

/-- An identifier resolves to the same symbol under other labels. -/
theorem lockstep_resolve (t : Tag) (x : String) :
    Lockstep K (Option.map (Symbol.relabel K.labels)) (resolve t x)
      (resolve (t.relabel K.labels) (K.labels.name x)) := by
  refine lockstep_of_run fun {s s'} h => ?_
  have hrun := run_resolve (s := s) t x
  have hrun' := run_resolve (s := s') (t.relabel K.labels) (K.labels.name x)
  rw [h.table.resolve K.faithful] at hrun'
  refine ⟨_, _, _, hrun, hrun', ?_⟩
  cases s.table.resolve x with
  | some sym => exact { h with resolutions := h.resolutions.insert t.id sym.id }
  | none => exact h.push (f := ⟨.undefined x, t.position, none⟩) nofun

/-- Where no scope is open, no name can be bound. -/
theorem run_declare_outside (b : Binding) (h : s.table.scopes = []) :
    (declare b).run s = .error (.bind .noScope) := by
  have hnone : s.table.declare b = .error .noScope := by
    unfold SymbolTable.declare SymbolTable.tryDeclare SymbolTable.resolveLocal
      SymbolTable.tryShadow
    rw [h]
    rfl
  simp only [declare, StateT.run_bind, StateT.run_get, pure_bind, hnone]
  rfl

theorem lockstep_declare (b : Binding) :
    Lockstep K id (declare b) (declare (b.relabel K.labels)) := by
  intro s s' h
  cases hscopes : s.table.scopes with
  | nil =>
      have hdepth := h.table.depth
      rw [SymbolTable.depth, SymbolTable.depth, hscopes] at hdepth
      have hscopes' := List.eq_nil_of_length_eq_zero hdepth
      rw [run_declare_outside b hscopes]
      exact run_declare_outside _ hscopes'
  | cons top outer =>
      obtain ⟨top', outer', hscopes', hfind, hbind⟩ := h.table.bind K.faithful hscopes
      have hbound : K.Related
          { s with table := { s.table with
            scopes := top.bind ⟨b, s.table.nextId⟩ :: outer,
            nextId := s.table.nextId + 1 } }
          { s' with table := { s'.table with
            scopes := top'.bind ⟨b.relabel K.labels, s'.table.nextId⟩ :: outer',
            nextId := s'.table.nextId + 1 } } := { h with table := hbind b }
      have hname : top'.find? (b.relabel K.labels).name
          = (top.find? b.name).map (Symbol.relabel K.labels) := hfind b.name
      rw [run_declare b hscopes]
      refine ⟨_, run_declare _ hscopes', ?_⟩
      rw [hname]
      cases top.find? b.name with
      | none => exact hbound
      | some previous =>
          have hkind : (Cause.duplicate b.name).kind ≠ .unusedVariable := by simp [Cause.kind]
          exact hbound.push
            (f := ⟨.duplicate b.name, b.position, some previous.position⟩) hkind

theorem lockstep_leave (handle : ScopeHandle) :
    Lockstep K id (leave K.first handle) (leave K.second handle) := by
  intro s s' h
  have hexit := h.table.exit handle
  have hdepth := h.table.depth
  simp only [leave, StateT.run_bind, StateT.run_get, pure_bind]
  cases hleft : s.table.exit handle with
  | error e =>
      rw [hleft] at hexit
      rw [show s'.table.exit handle = _ from hexit]
      rfl
  | ok r =>
      obtain ⟨symbols, u⟩ := r
      rw [hleft] at hexit
      obtain ⟨u', hleft', hu⟩ := hexit
      rw [hleft']
      refine ⟨_, rfl, { h with table := hu, findings := ?_ }⟩
      rw [Array.toList_appendList, Array.toList_appendList, hdepth, h.used]
      exact h.findings.append (.unused s.used _ symbols)

/-- A scope around steps in lockstep. -/
theorem lockstep_inScope {m m' : Check Unit} (h : Lockstep K id m m') :
    Lockstep K id (inScope K.first m) (inScope K.second m') := by
  intro s s' hs
  obtain ⟨hhandle, hopened⟩ := hs.table.enter
  have hbody : Lockstep K id (m >>= fun _ => leave K.first s.table.enter.1)
      (m' >>= fun _ => leave K.second s'.table.enter.1) := by
    rw [hhandle]
    exact lockstep_bind h fun _ => lockstep_leave _
  exact hbody _ _ { hs with table := hopened }

end

end Analysis

end TreeCheck
