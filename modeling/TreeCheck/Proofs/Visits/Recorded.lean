/-
What a completed analysis records, node by node.

Along a course every expression of a program is met once, with certain
names in force. These pairs are the nodes of the program, and they tell
all that an analysis holds about expressions: the type it records, what
it resolves an identifier to, and what it finds. A completed analysis
met no expression identity twice, so the tables keep everything.
-/
import Mathlib.Data.List.Nodup
import TreeCheck.Proofs.Account.Clean
import TreeCheck.Proofs.Run.Statements
import TreeCheck.Proofs.Visits.Remarks

namespace TreeCheck

open Analysis

-- =============================================================== nodes

/-- The expressions of a visited statement, with the names in force. -/
def Visit.nodes (v : Visit) : List (Lookup × Expr) := v.stmt.exprs.map (v.names, ·)

/-- The expressions of a program in pre-order, each with the names in force
where it stands. -/
def Program.nodes (config : Config) (p : Program) : List (Lookup × Expr) :=
  (p.visits config).flatMap Visit.nodes

section

variable {config : Config} {p : Program} {v : Visit} {ρ : Lookup} {e : Expr}

theorem Program.map_snd_nodes (config : Config) (p : Program) :
    (p.nodes config).map Prod.snd = p.exprs := by
  have hnodes : (fun v => (Visit.nodes v).map Prod.snd)
      = Stmt.exprs ∘ Visit.stmt := by
    funext v
    rw [Visit.nodes, List.map_map]
    exact List.map_id _
  rw [p.exprs_eq_flatMap, ← p.stmts_visits config, nodes,
    List.map_flatMap, hnodes, List.flatMap_map]
  rfl

theorem Program.exists_visit {s : Stmt} (config : Config) (h : s ∈ p.stmts) :
    ∃ v ∈ p.visits config, v.stmt = s := by
  rw [← p.stmts_visits config] at h
  exact List.mem_map.mp h

theorem Program.exists_node (config : Config) (h : e ∈ p.exprs) :
    ∃ ρ, (ρ, e) ∈ p.nodes config := by
  rw [← p.map_snd_nodes config] at h
  obtain ⟨⟨ρ, e⟩, hmem, rfl⟩ := List.mem_map.mp h
  exact ⟨ρ, hmem⟩

theorem Program.mem_exprs_of_node (h : (ρ, e) ∈ p.nodes config) : e ∈ p.exprs := by
  rw [← p.map_snd_nodes config]
  exact List.mem_map_of_mem h

theorem Program.mem_nodes :
    (ρ, e) ∈ p.nodes config
      ↔ ∃ v ∈ p.visits config, v.names = ρ ∧ e ∈ v.stmt.exprs := by
  simp only [nodes, Visit.nodes, List.mem_flatMap, List.mem_map, Prod.mk.injEq]
  constructor
  · intro h
    obtain ⟨v, hv, _, he, rfl, rfl⟩ := h
    exact ⟨v, hv, rfl, he⟩
  · intro h
    obtain ⟨v, hv, rfl, he⟩ := h
    exact ⟨v, hv, e, he, rfl, rfl⟩

/-- What stands directly in a visited statement is a node. -/
theorem Program.node_of_root (hv : v ∈ p.visits config) (he : e ∈ v.stmt.roots) :
    (v.names, e) ∈ p.nodes config :=
  mem_nodes.mpr ⟨v, hv, rfl, List.mem_flatMap.mpr ⟨e, he, e.mem_nested_self⟩⟩

/-- The nodes of a node have the same names in force. -/
theorem Program.node_of_nested {inner : Expr} (h : (ρ, e) ∈ p.nodes config)
    (hinner : inner ∈ e.nested) : (ρ, inner) ∈ p.nodes config := by
  obtain ⟨v, hv, hnames, he⟩ := mem_nodes.mp h
  obtain ⟨root, hroot, he⟩ := List.mem_flatMap.mp he
  refine mem_nodes.mpr ⟨v, hv, hnames, List.mem_flatMap.mpr ⟨root, hroot, ?_⟩⟩
  exact root.nested_subset he hinner

theorem Program.node_of_part {part : Expr} (h : (ρ, e) ∈ p.nodes config)
    (hpart : part ∈ e.parts) : (ρ, part) ∈ p.nodes config :=
  node_of_nested h (Expr.mem_nested_of_mem_parts hpart)

end

-- =========================================================== collecting

/-- What is collected from events is about expressions only: from reads and
bindings, and from findings about anything else, nothing is. -/
structure Nodal {β : Type} (g : Event → Option β) : Prop where
  shown : ∀ e, e.shows = false → g e = none
  about : ∀ node f, f.cause.concern ≠ .expression → g (.found node f) = none

section

variable {β : Type} {g : Event → Option β}

theorem filterMap_shows (hg : ∀ e, e.shows = false → g e = none) (es : List Event) :
    (es.filter Event.shows).filterMap g = es.filterMap g := by
  rw [List.filterMap_filter]
  refine List.filterMap_congr fun e _ => ?_
  cases hshows : e.shows with
  | true => rfl
  | false => exact (hg e hshows).symm

/-- What is collected from events that split into visits is what is collected
at the visits, if nothing is collected from reads, from bindings and from
findings about bindings. -/
theorem Splits.perm_collected {es : List Event} {vs : List Visit}
    (hshown : ∀ e, e.shows = false → g e = none)
    (hbinding : ∀ node f, f.cause.concern = .binding → g (.found node f) = none)
    (h : Splits es vs) :
    (es.filterMap g).Perm (vs.flatMap fun v => v.remarks.filterMap g) := by
  obtain ⟨rest, hperm, hrest⟩ := h
  have hnone : rest.filterMap g = [] := by
    refine List.filterMap_eq_nil_iff.mpr fun e he => ?_
    obtain ⟨node, f, rfl, hf⟩ := hrest e he
    exact hbinding node f hf
  rw [← filterMap_shows hshown]
  refine (hperm.filterMap g).trans (.of_eq ?_)
  rw [List.filterMap_append, hnone, List.append_nil, List.filterMap_flatMap]

theorem Nodal.filterMap_concerns {of : Concern → Prop} {es : List Event}
    (hg : Nodal g) (h : Concerns of es) (hof : ∀ c, of c → c ≠ .expression) :
    es.filterMap g = [] := by
  refine List.filterMap_eq_nil_iff.mpr fun e he => ?_
  obtain ⟨node, f, rfl, hf⟩ := h e he
  exact hg.about node f (hof _ hf)

/-- What is collected from events that split into visits is what is collected at
the nodes of these. -/
theorem Nodal.perm_splits {es : List Event} {vs : List Visit} (hg : Nodal g)
    (h : Splits es vs) :
    (es.filterMap g).Perm ((vs.flatMap Visit.nodes).flatMap fun n =>
      (n.2.remarks n.1).filterMap g) := by
  have hbinding : ∀ node f, f.cause.concern = .binding → g (.found node f) = none :=
    fun node f hf => hg.about node f (by rw [hf]; decide)
  have hvisit (v : Visit) : v.remarks.filterMap g
      = v.nodes.flatMap fun n => (n.2.remarks n.1).filterMap g := by
    rw [Visit.remarks, List.filterMap_append,
      hg.filterMap_concerns v.concerns_verdict fun _ h => h, List.append_nil,
      List.filterMap_flatMap, Visit.nodes, List.flatMap_map]
  rw [List.flatMap_assoc]
  refine (h.perm_collected hg.shown hbinding).trans (.of_eq ?_)
  exact List.flatMap_congr fun v _ => hvisit v

/-- What is collected along a course is what is collected at the nodes. -/
theorem Program.perm_collected (hg : Nodal g) (config : Config) (p : Program) :
    ((p.course config).events.filterMap g).Perm
      ((p.nodes config).flatMap fun n => (n.2.remarks n.1).filterMap g) :=
  hg.perm_splits (p.splits_course config)

/-- Reads and bindings are all that is not shown. -/
theorem hidden_eq_none (hread : ∀ k, g (.read k) = none)
    (hbound : ∀ d, g (.bound d) = none) : ∀ e, e.shows = false → g e = none := by
  intro e he
  cases e with
  | read k => exact hread k
  | bound d => exact hbound d
  | typed | resolved | found => cases he

end

theorem nodal_typed? : Nodal Event.typed? where
  shown := hidden_eq_none (fun _ => rfl) fun _ => rfl
  about := fun _ _ _ => rfl

theorem nodal_resolved? : Nodal Event.resolved? where
  shown := hidden_eq_none (fun _ => rfl) fun _ => rfl
  about := fun _ _ _ => rfl

-- =============================================================== tables

section

variable {es : List Event} {vs : List Visit}

/-- Every node of a visit is recorded, with its type under the names in force. -/
theorem Splits.perm_typed (h : Splits es vs) :
    (es.filterMap Event.typed?).Perm
      ((vs.flatMap Visit.nodes).map fun n => (n.2.id, n.2.typeIn n.1)) := by
  refine (nodal_typed?.perm_splits h).trans (.of_eq ?_)
  simp only [Expr.typed_remarks]
  exact List.flatMap_pure_eq_map _ _

/-- An identifier of a visit is resolved to what its name is looked up as. -/
theorem Splits.perm_resolved (h : Splits es vs) :
    (es.filterMap Event.resolved?).Perm
      ((vs.flatMap Visit.nodes).filterMap fun n =>
        (n.2.name?.bind n.1).map fun d => (n.2.id, d)) := by
  refine (nodal_resolved?.perm_splits h).trans (.of_eq ?_)
  simp only [Expr.resolved_remarks]
  rw [List.filterMap_eq_flatMap_toList]

end

section

variable {config : Config} {p : Program} {a : Analysis} {ρ : Lookup} {e : Expr}

theorem Program.nodup_nodes (h : p.analyze config = .ok a) :
    ((p.nodes config).map fun n => n.2.id).Nodup := by
  have hids := (shallow_of_analyze h).2
  rw [← p.map_snd_nodes config, List.map_map] at hids
  exact hids

theorem Program.perm_typed (config : Config) (p : Program) :
    ((p.course config).events.filterMap Event.typed?).Perm
      ((p.nodes config).map fun n => (n.2.id, n.2.typeIn n.1)) :=
  (p.splits_course config).perm_typed

theorem Program.types_of_analyze (h : p.analyze config = .ok a) :
    a.types = ((p.course config).events.filterMap Event.typed?).foldl
      (fun m e => m.insert e.1 e.2) {} := by
  rw [analysis_eq_course h]
  exact types_replay {} _

/-- The type that is recorded for a node is its type under the names in
force. -/
theorem Program.types_of_node (h : p.analyze config = .ok a)
    (hn : (ρ, e) ∈ p.nodes config) :
    a.types[e.id]? = some (e.typeIn ρ) := by
  have hperm := p.perm_typed config
  have hkeys : (((p.course config).events.filterMap Event.typed?).map
      Prod.fst).Nodup := by
    refine (hperm.map Prod.fst).nodup_iff.mpr ?_
    rw [List.map_map]
    exact nodup_nodes h
  rw [types_of_analyze h]
  refine getElem?_foldl_insert_of_mem hkeys (hperm.mem_iff.mpr ?_)
  exact List.mem_map.mpr ⟨(ρ, e), hn, rfl⟩

/-- Types are recorded for nodes only. -/
theorem Program.exists_node_of_type {id : NodeId} {ty : Ty}
    (h : p.analyze config = .ok a) (hty : a.types[id]? = some ty) :
    ∃ ρ e, (ρ, e) ∈ p.nodes config ∧ e.id = id ∧ e.typeIn ρ = ty := by
  by_cases hid : id ∈ ((p.course config).events.filterMap Event.typed?).map
      Prod.fst
  · obtain ⟨_, hr, rfl⟩ := List.mem_map.mp hid
    obtain ⟨⟨ρ, e⟩, hn, rfl⟩ :=
      List.mem_map.mp ((p.perm_typed config).mem_iff.mp hr)
    rw [types_of_node h hn, Option.some.injEq] at hty
    exact ⟨ρ, e, hn, rfl, hty⟩
  · rw [types_of_analyze h, getElem?_foldl_insert_of_not_mem hid,
      Std.TreeMap.getElem?_emptyc] at hty
    cases hty

theorem Program.perm_resolved (config : Config) (p : Program) :
    ((p.course config).events.filterMap Event.resolved?).Perm
      ((p.nodes config).filterMap fun n =>
        (n.2.name?.bind n.1).map fun d => (n.2.id, d)) :=
  (p.splits_course config).perm_resolved

/-- Every node is resolved at most once. -/
theorem Program.nodup_resolved (h : p.analyze config = .ok a) :
    (((p.course config).events.filterMap Event.resolved?).map Prod.fst).Nodup := by
  refine ((p.perm_resolved config).map Prod.fst).nodup_iff.mpr ?_
  rw [List.Nodup, List.pairwise_map, List.pairwise_filterMap]
  refine (List.pairwise_map.mp (nodup_nodes h)).imp fun {n m} hne => ?_
  intro r hr r' hr'
  obtain ⟨_, -, rfl⟩ := Option.map_eq_some_iff.mp hr
  obtain ⟨_, -, rfl⟩ := Option.map_eq_some_iff.mp hr'
  exact hne

theorem Program.resolutions_of_analyze (h : p.analyze config = .ok a) :
    a.resolutions
      = (((p.course config).events.filterMap Event.resolved?).map
          fun r => (r.1, r.2.id)).foldl (fun m e => m.insert e.1 e.2) {} := by
  rw [analysis_eq_course h, List.foldl_map]
  exact resolutions_replay {} _

/-- What a node was resolved to, its name is looked up as. -/
theorem Program.exists_node_of_resolved {r : NodeId × Declared}
    (hr : r ∈ (p.course config).events.filterMap Event.resolved?) :
    ∃ ρ t x, (ρ, .identifier t x) ∈ p.nodes config ∧ t.id = r.1 ∧ ρ x = some r.2 := by
  obtain ⟨⟨ρ, e⟩, hn, he⟩ :=
    List.mem_filterMap.mp ((p.perm_resolved config).mem_iff.mp hr)
  obtain ⟨d, hd, rfl⟩ := Option.map_eq_some_iff.mp he
  obtain ⟨x, hx, hfound⟩ := Option.bind_eq_some_iff.mp hd
  obtain ⟨t, rfl⟩ := Expr.name?_eq_some.mp hx
  exact ⟨ρ, t, x, hn, rfl, hfound⟩

/-- An identifier is resolved to what its name is looked up as. -/
theorem Program.resolutions_of_node {t : Tag} {x : String}
    (h : p.analyze config = .ok a)
    (hn : (ρ, .identifier t x) ∈ p.nodes config) :
    a.resolutions[t.id]? = (ρ x).map (·.id) := by
  rw [resolutions_of_analyze h]
  cases hx : ρ x with
  | none =>
      rw [getElem?_foldl_insert_of_not_mem]
      · exact Std.TreeMap.getElem?_emptyc
      · intro hmem
        rw [List.map_map] at hmem
        obtain ⟨r, hr, hid⟩ := List.mem_map.mp hmem
        obtain ⟨ρ', t', x', hn', ht, hfound⟩ := exists_node_of_resolved hr
        have hsame := List.inj_on_of_nodup_map (nodup_nodes h) hn' hn (ht.trans hid)
        injection hsame with hρ he
        injection he with _ hname
        rw [hρ, hname, hx] at hfound
        cases hfound
  | some d =>
      refine getElem?_foldl_insert_of_mem ?_ ?_
      · rw [List.map_map]
        exact nodup_resolved h
      · refine List.mem_map.mpr ⟨(t.id, d), (p.perm_resolved config).mem_iff.mpr ?_,
          rfl⟩
        refine List.mem_filterMap.mpr ⟨_, hn, ?_⟩
        show (ρ x).map (fun d => (t.id, d)) = _
        rw [hx]
        rfl

/-- Resolutions are kept for identifiers only. -/
theorem Program.exists_node_of_resolution {id : NodeId}
    (h : p.analyze config = .ok a) (hid : id ∈ a.resolutions) :
    ∃ ρ t x, (ρ, .identifier t x) ∈ p.nodes config ∧ t.id = id := by
  by_cases hmem : id ∈ ((p.course config).events.filterMap Event.resolved?).map
      Prod.fst
  · obtain ⟨r, hr, rfl⟩ := List.mem_map.mp hmem
    obtain ⟨ρ, t, x, hn, ht, -⟩ := exists_node_of_resolved hr
    exact ⟨ρ, t, x, hn, ht⟩
  · rw [resolutions_of_analyze h, Std.TreeMap.mem_iff_isSome_getElem?,
      getElem?_foldl_insert_of_not_mem, Std.TreeMap.getElem?_emptyc] at hid
    · cases hid
    · rw [List.map_map]
      exact hmem

/-- The types of a completed analysis are those that its course records. -/
theorem Program.types_eq_some_iff (h : p.analyze config = .ok a) {id : NodeId}
    {ty : Ty} :
    a.types[id]? = some ty ↔ .typed id ty ∈ (p.course config).events := by
  rw [← Event.mem_typed?, (p.perm_typed config).mem_iff, List.mem_map]
  constructor
  · intro hty
    obtain ⟨ρ, e, hn, rfl, rfl⟩ := exists_node_of_type h hty
    exact ⟨(ρ, e), hn, rfl⟩
  · rintro ⟨⟨ρ, e⟩, hn, heq⟩
    obtain ⟨rfl, rfl⟩ := Prod.mk.inj heq
    exact types_of_node h hn

/-- The resolutions of a completed analysis are those that its course makes. -/
theorem Program.resolutions_eq_some_iff (h : p.analyze config = .ok a) {id : NodeId}
    {k : SymbolId} :
    a.resolutions[id]? = some k
      ↔ ∃ d, .resolved id d ∈ (p.course config).events ∧ d.id = k := by
  constructor
  · intro hk
    have hid : id ∈ a.resolutions :=
      Std.TreeMap.mem_iff_isSome_getElem?.mpr (Option.isSome_of_eq_some hk)
    obtain ⟨ρ, t, x, hn, rfl⟩ := exists_node_of_resolution h hid
    rw [resolutions_of_node h hn] at hk
    obtain ⟨d, hx, rfl⟩ := Option.map_eq_some_iff.mp hk
    refine ⟨d, Event.mem_resolved?.mp ((p.perm_resolved config).mem_iff.mpr ?_), rfl⟩
    refine List.mem_filterMap.mpr ⟨_, hn, ?_⟩
    show (ρ x).map (fun d => (t.id, d)) = _
    rw [hx]
    rfl
  · rintro ⟨d, hd, rfl⟩
    obtain ⟨ρ, t, x, hn, rfl, hx⟩ := exists_node_of_resolved (Event.mem_resolved?.mpr hd)
    rw [resolutions_of_node h hn, hx]
    rfl

-- ============================================================= findings

theorem Program.findings_of_analyze (h : p.analyze config = .ok a) :
    a.findings = (p.course config).events.filterMap Event.finding? := by
  rw [analysis_eq_course h]
  exact toList_findings_replay {} _

/-- Where identities are distinct, what an analysis finds is what the account
of its program reports. -/
theorem Program.findings_eq_account (hids : p.ids.Nodup) (h : p.analyze config = .ok a) :
    a.findings = (p.account config).filterMap Event.finding? := by
  rw [findings_of_analyze h, p.course_eq_account config hids]

theorem Program.mem_findings (h : p.analyze config = .ok a) {node : NodeId}
    {f : Finding} (hf : .found node f ∈ (p.course config).events) :
    f ∈ a.findings := by
  rw [findings_of_analyze h]
  exact List.mem_filterMap.mpr ⟨.found node f, hf, rfl⟩

/-- What is remarked at a visit is said in the course. -/
theorem Program.mem_course_of_visit {v : Visit} {ev : Event}
    (hv : v ∈ p.visits config) (hev : ev ∈ v.remarks) :
    ev ∈ (p.course config).events := by
  obtain ⟨rest, hperm, -⟩ := p.splits_course config
  refine List.mem_of_mem_filter (hperm.mem_iff.mpr ?_)
  exact List.mem_append_left _ (List.mem_flatMap.mpr ⟨v, hv, hev⟩)

/-- A finding that is about no binding is remarked at a visit. -/
theorem Program.exists_visit_of_found {node : NodeId} {f : Finding}
    (hf : .found node f ∈ (p.course config).events) (hconcern : f.cause.concern ≠ .binding) :
    ∃ v ∈ p.visits config, .found node f ∈ v.remarks := by
  obtain ⟨rest, hperm, hrest⟩ := p.splits_course config
  have hshown := hperm.mem_iff.mp (List.mem_filter.mpr ⟨hf, rfl⟩)
  rcases List.mem_append.mp hshown with hvisit | hbinding
  · exact List.mem_flatMap.mp hvisit
  · exact (hconcern (hrest.of_found hbinding)).elim

theorem Program.mem_course_of_node {ev : Event} (hn : (ρ, e) ∈ p.nodes config)
    (hev : ev ∈ e.remarks ρ) : ev ∈ (p.course config).events := by
  obtain ⟨v, hv, rfl, he⟩ := mem_nodes.mp hn
  refine mem_course_of_visit hv (List.mem_append_left _ ?_)
  exact List.mem_flatMap.mpr ⟨e, he, hev⟩

/-- The course of a program in which no error is reported is clean. -/
theorem Program.clean_course (h : p.analyze config = .ok a)
    (herrors : ∀ d ∈ a.diagnostics, d.severity ≠ .error) :
    Clean (p.course config).events := by
  rw [analysis_eq_course h] at herrors
  exact (no_errors_replay_iff _).mp herrors

theorem Clean.mono {es fs : List Event} (h : Clean es) (hfs : ∀ e ∈ fs, e ∈ es) :
    Clean fs :=
  fun e he => h e (hfs e he)

theorem clean_filter_shows {es : List Event} :
    Clean (es.filter Event.shows) ↔ Clean es := by
  constructor
  · intro h e he
    cases e with
    | read | bound => rfl
    | typed | resolved | found =>
        exact h _ (List.mem_filter.mpr ⟨he, rfl⟩)
  · exact fun h => h.mono fun e he => List.mem_of_mem_filter he

/-- An expression is clean if nothing is found at its nodes. -/
theorem Program.clean_events_of_node (hclean : Clean (p.course config).events)
    (hn : (ρ, e) ∈ p.nodes config) : Clean (e.events ρ) := by
  refine clean_filter_shows.mp (hclean.mono fun ev hev => ?_)
  obtain ⟨inner, hinner, hev⟩ :=
    List.mem_flatMap.mp ((e.perm_events ρ).mem_iff.mp hev)
  exact mem_course_of_node (node_of_nested hn hinner) hev

end

end TreeCheck
