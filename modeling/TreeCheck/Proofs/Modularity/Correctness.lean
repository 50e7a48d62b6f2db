/-
Scopes are modular.

What is inside a block, a branch or a function body can be replaced by
anything else that agrees on whether it returns a value: outside, every
expression keeps its type, every identifier is resolved to the same
declaration or is not resolved, and the same errors are found in the
same order. Symbols get other numbers, and warnings may differ, as a
name around can be read inside.
-/
import TreeCheck.Proofs.Modularity.Twins
import TreeCheck.Proofs.Run.Diagnostics
import TreeCheck.Proofs.Scoping.Correctness

namespace TreeCheck

open Analysis

-- ============================================================== accounts

/-- Two sequences of events that are alike around a part of each, which is about
some nodes only. -/
def AlikeAround (K ids ids' : List NodeId) (es es' : List Event) : Prop :=
  ∃ before inside after before' inside' after',
    es = before ++ (inside ++ after) ∧ es' = before' ++ (inside' ++ after')
    ∧ Within ids inside ∧ Within ids' inside'
    ∧ EventsAlike K before before' ∧ EventsAlike K after after'

section

variable {K ids ids' : List NodeId} {es es' : List Event} {id : NodeId}

theorem EventsAlike.resolved (h : EventsAlike K es es') {d : Declared}
    (hd : .resolved id d ∈ es) :
    ∃ d', .resolved id d' ∈ es' ∧ d'.site = d.site := by
  have htold := mem_told_of_resolved hd
  rw [h.told] at htold
  obtain ⟨d', hd', hblank⟩ := exists_resolved_of_told htold
  exact ⟨d', hd', Declared.site_eq_of_blank hblank⟩

theorem EventsAlike.symm (h : EventsAlike K es es') : EventsAlike K es' es where
  told := h.told.symm
  kept := by
    intro id d hd
    have htold := mem_told_of_resolved hd
    rw [← h.told] at htold
    obtain ⟨d', hd', hblank⟩ := exists_resolved_of_told htold
    exact Declared.site_eq_of_blank hblank ▸ h.kept id d' hd'

theorem AlikeAround.symm (h : AlikeAround K ids ids' es es') :
    AlikeAround K ids' ids es' es := by
  obtain ⟨before, inside, after, before', inside', after', hes, hes', hin, hin', hb, ha⟩ := h
  exact ⟨before', inside', after', before, inside, after, hes', hes, hin', hin, hb.symm,
    ha.symm⟩

/-- A type that is recorded around is recorded by both. -/
theorem AlikeAround.typed (h : AlikeAround K ids ids' es es') (hid : id ∉ ids) {ty : Ty}
    (hty : .typed id ty ∈ es) : .typed id ty ∈ es' := by
  obtain ⟨before, inside, after, before', inside', after', rfl, rfl, hin, -, hb, ha⟩ := h
  rcases List.mem_append.mp hty with hty | hty
  · rw [← mem_told_typed, hb.told, mem_told_typed] at hty
    exact List.mem_append_left _ hty
  · rcases List.mem_append.mp hty with hty | hty
    · exact absurd (hin.1 id ty hty) hid
    · rw [← mem_told_typed, ha.told, mem_told_typed] at hty
      exact List.mem_append_right _ (List.mem_append_right _ hty)

/-- What is resolved around is resolved by both, to the same place. -/
theorem AlikeAround.resolved (h : AlikeAround K ids ids' es es') (hid : id ∉ ids)
    {d : Declared} (hd : .resolved id d ∈ es) :
    d.site.node ∈ K ∧ ∃ d', .resolved id d' ∈ es' ∧ d'.site = d.site := by
  obtain ⟨before, inside, after, before', inside', after', rfl, rfl, hin, -, hb, ha⟩ := h
  rcases List.mem_append.mp hd with hd | hd
  · obtain ⟨d', hd', hsite⟩ := hb.resolved hd
    exact ⟨hb.kept id d hd, d', List.mem_append_left _ hd', hsite⟩
  · rcases List.mem_append.mp hd with hd | hd
    · exact absurd (hin.2 id d hd) hid
    · obtain ⟨d', hd', hsite⟩ := ha.resolved hd
      exact ⟨ha.kept id d hd, d', List.mem_append_right _ (List.mem_append_right _ hd'),
        hsite⟩

end

-- ================================================================ tables

section

variable {config : Config} {p p' : Program} {a a' : Analysis} {K ids ids' : List NodeId}
  {id : NodeId}

/-- A resolution leads to the declaration with its number. -/
theorem Program.declarations_of_resolved {d : Declared}
    (hd : .resolved id d ∈ p.account config) : p.declarations[d.id]? = some d.site :=
  declarations_of_bound (p.resolved_bound config (id, d) (Event.mem_resolved?.mpr hd))

theorem AlikeAround.types
    (haround : AlikeAround K ids ids' (p.account config) (p'.account config))
    (hids : p.ids.Nodup) (hids' : p'.ids.Nodup) (h : p.analyze config = .ok a)
    (h' : p'.analyze config = .ok a') (hid : id ∉ ids) {ty : Ty}
    (hty : a.types[id]? = some ty) : a'.types[id]? = some ty := by
  rw [Program.types_eq_some_iff h, p.course_eq_account config hids] at hty
  rw [Program.types_eq_some_iff h', p'.course_eq_account config hids']
  exact haround.typed hid hty

theorem AlikeAround.resolutions
    (haround : AlikeAround K ids ids' (p.account config) (p'.account config))
    (hids : p.ids.Nodup) (hids' : p'.ids.Nodup) (h : p.analyze config = .ok a)
    (h' : p'.analyze config = .ok a') (hid : id ∉ ids) {k : SymbolId}
    (hk : a.resolutions[id]? = some k) :
    ∃ k' site, a'.resolutions[id]? = some k' ∧ p.declarations[k]? = some site
      ∧ p'.declarations[k']? = some site ∧ site.node ∈ K := by
  rw [Program.resolutions_eq_some_iff h, p.course_eq_account config hids] at hk
  obtain ⟨d, hd, rfl⟩ := hk
  obtain ⟨hkept, d', hd', hsite⟩ := haround.resolved hid hd
  refine ⟨d'.id, d.site, ?_, Program.declarations_of_resolved hd, ?_, hkept⟩
  · rw [Program.resolutions_eq_some_iff h', p'.course_eq_account config hids']
    exact ⟨d', hd', rfl⟩
  · rw [← hsite]
    exact Program.declarations_of_resolved hd'

end

-- ============================================================== findings

/-- The findings of a completed run, cut where the run comes to the content of a
slot and where it has checked it. -/
def Program.FindsAround (config : Config) (p : Program) (a : Analysis) (slot : Slot)
    (x : slot.Content) (before inside after : List Finding) : Prop :=
  ∃ ctx s t, p.Opens config slot x ctx s ∧ Completes (slot.check ctx x) s () t
    ∧ s.findings.toList = before ∧ t.findings.toList = before ++ inside
    ∧ a.findings = before ++ (inside ++ after)

/-- How the errors among what has been found are shown. -/
def shownErrors (fs : List Finding) : Diagnostics :=
  (fs.map Finding.diagnostic).filter Diagnostic.isError

/-- Whether a finding is an error stands in its diagnostic. -/
theorem shownErrors_eq (fs : List Finding) :
    shownErrors fs = (errors fs).map Finding.diagnostic := by
  rw [shownErrors, errors, List.filter_map]
  exact congrArg _ (List.filter_congr fun f _ => beq_eq_decide ..)

section

variable {config : Config} {p p' : Program} {a a' : Analysis} {slot : Slot}
  {x y : slot.Content}

theorem Scene.RunsContent.findsAround {S : Scene} {ctx : Context} {s : State}
    (hids : p.ids.Nodup) (h : p.analyze config = .ok a)
    (hruns : S.RunsContent config p ctx s slot x) :
    ∃ inside, p.account config = S.before ++ (inside ++ S.after)
      ∧ Within (slot.ids x) inside
      ∧ p.FindsAround config a slot x (S.before.filterMap Event.finding?)
        (inside.filterMap Event.finding?) (S.after.filterMap Event.finding?) := by
  obtain ⟨t, hchecked⟩ := hruns.completes
  obtain ⟨σ, ids, hholds⟩ := hruns.scene.holds
  have hdone := hruns.scene.checked hchecked
  refine ⟨_, hholds.account, slot.within_walk config ctx.expected _ _ _ x, ctx, s, t,
    hruns.opened, hchecked, ?_, ?_, ?_⟩
  · show s.log.findings.toList = _
    rw [hholds.done, toList_findings_replay]
    rfl
  · show t.log.findings.toList = _
    rw [hdone, toList_findings_replay, List.filterMap_append]
    rfl
  · rw [Program.findings_eq_account hids h, hholds.account, List.filterMap_append,
      List.filterMap_append]

theorem Slot.Meet.around {K : List NodeId} (hids : p.ids.Nodup) (hids' : p'.ids.Nodup)
    (h : p.analyze config = .ok a) (h' : p'.analyze config = .ok a')
    (hmeet : slot.Meet config K p p' x y) :
    AlikeAround K (slot.ids x) (slot.ids y) (p.account config) (p'.account config)
    ∧ ∃ before inside after before' inside' after',
      p.FindsAround config a slot x before inside after
      ∧ p'.FindsAround config a' slot y before' inside' after'
      ∧ errors before = errors before' ∧ errors after = errors after' := by
  obtain ⟨S, S', ctx, ctx', s, s', hruns, hruns', htwin, -⟩ := hmeet
  obtain ⟨inside, haccount, hwithin, hfinds⟩ := hruns.findsAround hids h
  obtain ⟨inside', haccount', hwithin', hfinds'⟩ := hruns'.findsAround hids' h'
  refine ⟨⟨S.before, inside, S.after, S'.before, inside', S'.after, haccount, haccount',
    hwithin, hwithin', htwin.before, htwin.after⟩, _, _, _, _, _, _, hfinds, hfinds', ?_, ?_⟩
  · rw [errors_finding?, errors_finding?, htwin.before.told]
  · rw [errors_finding?, errors_finding?, htwin.after.told]

end

-- ============================================================ modularity

section

variable {config : Config} {a a' : Analysis}

/-- Scopes are modular. A program has a block, a branch or a function body with
one content or with another; in both cases the identities of its nodes
are distinct, and the contents agree on whether they return a value from
the function around. If both analyses complete, then an expression that
is not in the content has the same type in both. An identifier that is
not in the content is resolved in both or in neither, and if so to the
same declaration, which is not in the contents. And up to where the
content is checked, and from there on, both find the same errors in the
same order, and show them in the same way. -/
theorem Way.modular (w : Way) (slot : Slot) (x y : slot.Content)
    (hids : (w.fill (slot.fill x)).ids.Nodup)
    (hids' : (w.fill (slot.fill y)).ids.Nodup)
    (hreturns : Stmt.anyReturnsValue (slot.stmts x) = Stmt.anyReturnsValue (slot.stmts y))
    (h : (w.fill (slot.fill x)).analyze config = .ok a)
    (h' : (w.fill (slot.fill y)).analyze config = .ok a') :
    (∀ e ∈ (w.fill (slot.fill x)).exprs, e.id ∉ slot.ids x →
      e ∈ (w.fill (slot.fill y)).exprs ∧ e.id ∉ slot.ids y
      ∧ ∃ ty, a.types[e.id]? = some ty ∧ a'.types[e.id]? = some ty)
    ∧ (∀ t name, .identifier t name ∈ (w.fill (slot.fill x)).exprs → t.id ∉ slot.ids x →
      (a.resolutions[t.id]? = none ∧ a'.resolutions[t.id]? = none)
      ∨ ∃ k k' site, a.resolutions[t.id]? = some k ∧ a'.resolutions[t.id]? = some k'
        ∧ (w.fill (slot.fill x)).declarations[k]? = some site
        ∧ (w.fill (slot.fill y)).declarations[k']? = some site
        ∧ site.node ∉ slot.ids x ∧ site.node ∉ slot.ids y)
    ∧ ∃ before inside after before' inside' after',
      (w.fill (slot.fill x)).FindsAround config a slot x before inside after
      ∧ (w.fill (slot.fill y)).FindsAround config a' slot y before' inside' after'
      ∧ errors before = errors before' ∧ errors after = errors after'
      ∧ a.diagnostics = (before ++ (inside ++ after)).map Finding.diagnostic
      ∧ a'.diagnostics = (before' ++ (inside' ++ after')).map Finding.diagnostic
      ∧ shownErrors before = shownErrors before'
      ∧ shownErrors after = shownErrors after' := by
  have haround : ∀ l ∈ w.around slot, l.1 ∈ (w.around slot).map (·.1) :=
    fun l hl => List.mem_map_of_mem hl
  have houtside := (List.forall_mem_append.mp haround).2
  have hmeet := (w.meet hids hids' h h' haround hreturns).enters houtside hreturns
  obtain ⟨halike, before, inside, after, before', inside', after', hfinds, hfinds', hbefore,
    hafter⟩ := hmeet.around hids hids' h h'
  have hall : a.findings = before ++ (inside ++ after) := by
    obtain ⟨_, _, _, -, -, -, -, hall⟩ := hfinds
    exact hall
  have hall' : a'.findings = before' ++ (inside' ++ after') := by
    obtain ⟨_, _, _, -, -, -, -, hall'⟩ := hfinds'
    exact hall'
  refine ⟨fun e he hid => ?_, fun t name ht hid => ?_, before, inside, after, before', inside',
    after', hfinds, hfinds', hbefore, hafter, congrArg _ hall, congrArg _ hall', ?_, ?_⟩
  · obtain ⟨l, hl, hel⟩ := w.exists_around he hid
    obtain ⟨ρ, hn⟩ := Program.exists_node config he
    have hty := Program.types_of_node h hn
    refine ⟨w.mem_exprs_iff.mpr (.inl ⟨l, hl, hel⟩), ?_, _, hty, ?_⟩
    · exact w.not_mem_ids hids' hl (List.mem_cons_of_mem _ (List.mem_map_of_mem hel))
    · exact halike.types hids hids' h h' hid hty
  · obtain ⟨l, hl, hel⟩ := w.exists_around ht hid
    have hid' : t.id ∉ slot.ids y :=
      w.not_mem_ids hids' hl (List.mem_cons_of_mem _ (List.mem_map_of_mem hel))
    cases hk : a.resolutions[t.id]? with
    | none =>
        refine .inl ⟨rfl, ?_⟩
        cases hk' : a'.resolutions[t.id]? with
        | none => rfl
        | some k' =>
            obtain ⟨k, -, hsome, -⟩ :=
              halike.symm.resolutions hids' hids h' h hid' hk'
            rw [hk] at hsome
            cases hsome
    | some k =>
        obtain ⟨k', site, hk', hsite, hsite', hkept⟩ :=
          halike.resolutions hids hids' h h' hid hk
        obtain ⟨l, hl, hnode⟩ := List.mem_map.mp hkept
        refine .inr ⟨k, k', site, rfl, hk', hsite, hsite', ?_, ?_⟩
        · exact w.not_mem_ids hids hl (hnode ▸ List.mem_cons_self)
        · exact w.not_mem_ids hids' hl (hnode ▸ List.mem_cons_self)
  · rw [shownErrors_eq, shownErrors_eq, hbefore]
  · rw [shownErrors_eq, shownErrors_eq, hafter]

/-- A block behind a variable, and before another variable with the first one
for its value and an assignment to it. -/
def Way.besideBlock : Way :=
  .top [.declaration ⟨0, ⟨1, 1⟩⟩ "x" none (some (.literal ⟨1, ⟨1, 9⟩⟩ (.int 1))) true]
    [.declaration ⟨3, ⟨5, 1⟩⟩ "y" none (some (.identifier ⟨4, ⟨5, 9⟩⟩ "x")) true,
      .assignment ⟨5, ⟨6, 1⟩⟩ (.identifier ⟨6, ⟨6, 1⟩⟩ "y")
        (.identifier ⟨7, ⟨6, 5⟩⟩ "z")]
    .start

def Slot.ofBlock : Slot := .body (.block ⟨2, ⟨2, 1⟩⟩ ⟨2, 1⟩)

/-- A string of the name of the variable before the block. -/
def Slot.shadowing : Slot.ofBlock.Content :=
  [.declaration ⟨8, ⟨3, 3⟩⟩ "x" none (some (.literal ⟨9, ⟨3, 11⟩⟩ (.string ""))) true]

/-- Two variables, of the names of the one behind the block and of none. -/
def Slot.anticipating : Slot.ofBlock.Content :=
  [.declaration ⟨10, ⟨3, 3⟩⟩ "y" none none true,
    .declaration ⟨11, ⟨4, 3⟩⟩ "z" none none true]

/-- The value behind the block has a type, the assignment a variable with one
number or another, and the undefined name is reported behind the block. -/
theorem Way.modular_besideBlock :
    (besideBlock.fill (Slot.ofBlock.fill Slot.shadowing)).ids.Nodup
    ∧ (besideBlock.fill (Slot.ofBlock.fill Slot.anticipating)).ids.Nodup
    ∧ ∃ a a',
      (besideBlock.fill (Slot.ofBlock.fill Slot.shadowing)).analyze {} = .ok a
      ∧ (besideBlock.fill (Slot.ofBlock.fill Slot.anticipating)).analyze {} = .ok a'
      ∧ (∃ ty, a.types[4]? = some ty ∧ a'.types[4]? = some ty)
      ∧ a.resolutions[6]? = some 2 ∧ a'.resolutions[6]? = some 3
      ∧ a.diagnostics.filter (·.isError)
        = [⟨.error, .undefinedIdentifier, "undefined identifier 'z'", ⟨6, 5⟩, none⟩]
      ∧ (besideBlock.fill (Slot.ofBlock.fill Slot.shadowing)).declarations[2]?
        = (besideBlock.fill (Slot.ofBlock.fill Slot.anticipating)).declarations[3]?
      ∧ ∃ before inside after before' inside' after',
        (besideBlock.fill (Slot.ofBlock.fill Slot.shadowing)).FindsAround {} a
          Slot.ofBlock Slot.shadowing before inside after
        ∧ (besideBlock.fill (Slot.ofBlock.fill Slot.anticipating)).FindsAround {} a'
          Slot.ofBlock Slot.anticipating before' inside' after'
        ∧ errors before = errors before' ∧ errors after = errors after'
        ∧ a.diagnostics = (before ++ (inside ++ after)).map Finding.diagnostic
        ∧ a'.diagnostics = (before' ++ (inside' ++ after')).map Finding.diagnostic
        ∧ shownErrors before = shownErrors before'
        ∧ shownErrors after = shownErrors after' := by
  have hids : (besideBlock.fill (Slot.ofBlock.fill Slot.shadowing)).ids.Nodup := by decide
  have hids' : (besideBlock.fill (Slot.ofBlock.fill Slot.anticipating)).ids.Nodup := by
    decide
  obtain ⟨a, ha, hresults⟩ : ∃ a,
      (besideBlock.fill (Slot.ofBlock.fill Slot.shadowing)).analyze {} = .ok a
        ∧ (a.resolutions[6]?, a.diagnostics.filter (·.isError))
          = (some 2,
            [⟨.error, .undefinedIdentifier, "undefined identifier 'z'", ⟨6, 5⟩, none⟩]) :=
    Program.analyze_ok_of_results (by decide +kernel)
  obtain ⟨a', ha', hk'⟩ : ∃ a,
      (besideBlock.fill (Slot.ofBlock.fill Slot.anticipating)).analyze {} = .ok a
        ∧ a.resolutions[6]? = some 3 :=
    Program.analyze_ok_of_results (by decide +kernel)
  obtain ⟨hk, hshown⟩ := Prod.mk.inj hresults
  obtain ⟨htypes, hresolved, hfindings⟩ :=
    modular besideBlock Slot.ofBlock Slot.shadowing Slot.anticipating hids hids' rfl ha ha'
  have hexprs : (besideBlock.fill (Slot.ofBlock.fill Slot.shadowing)).exprs
      = [.literal ⟨1, ⟨1, 9⟩⟩ (.int 1), .literal ⟨9, ⟨3, 11⟩⟩ (.string ""),
        .identifier ⟨4, ⟨5, 9⟩⟩ "x", .identifier ⟨6, ⟨6, 1⟩⟩ "y",
        .identifier ⟨7, ⟨6, 5⟩⟩ "z"] := rfl
  rw [hexprs] at htypes hresolved
  obtain ⟨-, -, hty⟩ := htypes (.identifier ⟨4, ⟨5, 9⟩⟩ "x") (by simp) (by decide)
  refine ⟨hids, hids', a, a', ha, ha', hty, hk, hk', hshown, ?_, hfindings⟩
  rcases hresolved ⟨6, ⟨6, 1⟩⟩ "y" (by simp) (by decide) with ⟨hnone, -⟩ | hsome
  · rw [hk] at hnone
    cases hnone
  · obtain ⟨k, k', site, hsome, hsome', hsite, hsite', -⟩ := hsome
    obtain rfl := Option.some.inj (hk.symm.trans hsome)
    obtain rfl := Option.some.inj (hk'.symm.trans hsome')
    exact hsite.trans hsite'.symm

end

end TreeCheck
