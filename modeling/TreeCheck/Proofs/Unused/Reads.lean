/-
What an account reads.

Wherever an identifier is resolved, its symbol is read at once, unless
the identifier is the target of an assignment. So the numbers that an
account reads are those of the resolutions it makes for other
identifiers, and these can be found in the table of resolutions.
-/
import Mathlib.Data.List.Pairwise
import TreeCheck.Proofs.Account.Composition
import TreeCheck.Proofs.Unused.Source

namespace TreeCheck

open Analysis

-- ============================================================== echoing

/-- Events read what they resolve, except for some nodes. -/
def Echoes (T : List NodeId) (es : List Event) : Prop :=
  ∀ k, .read k ∈ es ↔ ∃ id d, .resolved id d ∈ es ∧ id ∉ T ∧ d.id = k

section

variable {T : List NodeId} {es fs : List Event} {ρ : Lookup}

theorem echoes_append (h : Echoes T es) (h' : Echoes T fs) : Echoes T (es ++ fs) := by
  intro k
  rw [List.mem_append, h k, h' k]
  constructor
  · rintro (⟨id, d, hd, hT, hk⟩ | ⟨id, d, hd, hT, hk⟩)
    · exact ⟨id, d, List.mem_append_left _ hd, hT, hk⟩
    · exact ⟨id, d, List.mem_append_right _ hd, hT, hk⟩
  · intro h
    obtain ⟨id, d, hd, hT, hk⟩ := h
    rcases List.mem_append.mp hd with hd | hd
    · exact .inl ⟨id, d, hd, hT, hk⟩
    · exact .inr ⟨id, d, hd, hT, hk⟩

/-- Where nothing is resolved and nothing read, there is nothing to echo. -/
theorem echoes_of_none (hread : ∀ k, .read k ∉ es) (hresolved : ∀ id d, .resolved id d ∉ es) :
    Echoes T es := by
  intro k
  refine iff_of_false (hread k) ?_
  rintro ⟨id, d, hd, -⟩
  exact hresolved id d hd

theorem Binds.echoes (h : Binds es) : Echoes T es := by
  refine echoes_of_none (fun k hk => ?_) fun id d hd => ?_
  · rcases h _ hk with ⟨d, hd⟩ | ⟨node, f, hf⟩
    · cases hd
    · cases hf
  · rcases h _ hd with ⟨d, hd⟩ | ⟨node, f, hf⟩
    · cases hd
    · cases hf

theorem Reports.echoes (h : Reports es) : Echoes T es := h.binds.echoes

theorem echoes_typed (id : NodeId) (ty : Ty) : Echoes T [.typed id ty] :=
  echoes_of_none (fun k => by simp) fun id' d => by simp

-- ========================================================== expressions

theorem echoes_nameEvents {t : Tag} (x : String) (ht : t.id ∉ T) :
    Echoes T (Expr.nameEvents ρ t x) := by
  unfold Expr.nameEvents
  cases ρ x with
  | none => exact (reports_found _ _).echoes
  | some d =>
      intro k
      constructor
      · intro hk
        have hk : k = d.id := by simpa using hk
        exact ⟨t.id, d, List.mem_cons_self, ht, hk.symm⟩
      · rintro ⟨id, d', hd', -, rfl⟩
        have hd' : id = t.id ∧ d' = d := by simpa using hd'
        rw [hd'.2]
        exact List.mem_cons_of_mem _ List.mem_cons_self

mutual

/-- An expression reads what it resolves. -/
theorem Expr.echoes_events : (e : Expr) → (∀ e' ∈ e.nested, e'.id ∉ T) →
    Echoes T (e.events ρ)
  | .literal t v, h => echoes_typed _ _
  | .identifier t x, h =>
      echoes_append (echoes_nameEvents x (h _ (Expr.mem_nested_self _)))
        (echoes_typed _ _)
  | .binary t op l r, h => by
      rw [Expr.nested, List.forall_mem_cons, List.forall_mem_append] at h
      simp only [Expr.events]
      refine echoes_append (echoes_append (echoes_append ?_ ?_) ?_) (echoes_typed _ _)
      · exact Expr.echoes_events l h.2.1
      · exact Expr.echoes_events r h.2.2
      · exact (reports_complaint _ _ _ _).echoes
  | .unary t op e, h => by
      rw [Expr.nested, List.forall_mem_cons] at h
      simp only [Expr.events]
      refine echoes_append (echoes_append ?_ ?_) (echoes_typed _ _)
      · exact Expr.echoes_events e h.2
      · exact (reports_complaint _ _ _ _).echoes
  | .call t f args, h => by
      rw [Expr.nested, List.forall_mem_cons, List.forall_mem_append] at h
      simp only [Expr.events]
      refine echoes_append (echoes_append (echoes_append ?_ ?_) ?_) (echoes_typed _ _)
      · exact Expr.echoes_events f h.2.1
      · exact Expr.echoes_eventsAll args h.2.2
      · exact (reports_callEvents _ _ _ _).echoes

theorem Expr.echoes_eventsAll : (es : List Expr) →
    (∀ e' ∈ Expr.nestedAll es, e'.id ∉ T) → Echoes T (Expr.eventsAll ρ es)
  | [], h => reports_nil.echoes
  | e :: es, h => by
      rw [Expr.nestedAll, List.forall_mem_append] at h
      exact echoes_append (Expr.echoes_events e h.1) (Expr.echoes_eventsAll es h.2)

end

theorem Expr.echoes_events? {e : Option Expr}
    (h : ∀ e' ∈ e.toList.flatMap Expr.nested, e'.id ∉ T) :
    Echoes T (Expr.events? ρ e) := by
  cases e with
  | none => exact reports_nil.echoes
  | some e =>
      rw [Option.toList_some, List.flatMap_singleton] at h
      exact e.echoes_events h

-- =========================================================== statements

/-- The expressions of a statement that are read, and not assigned to. -/
def Stmt.readRoots : Stmt → List Expr
  | .assignment _ (.identifier _ _) value => [value]
  | s => s.roots

/-- Of the nodes of a statement, some are only its target. -/
structure Stmt.Spares (T : List NodeId) (s : Stmt) : Prop where
  target : ∀ id, s.target? = some id → id ∈ T
  reads : ∀ e ∈ s.readRoots.flatMap Expr.nested, e.id ∉ T

theorem echoes_assignmentEvents {t : Tag} {target value : Expr}
    (h : Stmt.Spares T (.assignment t target value)) :
    Echoes T (assignmentEvents ρ t.id target value) := by
  cases target with
  | identifier t' x =>
      have hvalue : Echoes T (value.events ρ) :=
        value.echoes_events fun e he => h.reads e (List.mem_append_left _ he)
      have ht' : t'.id ∈ T := h.target t'.id rfl
      simp only [assignmentEvents]
      cases ρ x with
      | none =>
          refine echoes_append (echoes_of_none (fun k => ?_) fun id d => ?_) hvalue
          · simp
          · simp
      | some d =>
          -- The target is resolved and not read.
          have hspared : Echoes T [.resolved t'.id d, .typed t'.id d.type] := by
            intro k
            refine iff_of_false (by simp) ?_
            rintro ⟨id, d', hd', hT, -⟩
            have hid : id = t'.id ∧ d' = d := by simpa using hd'
            exact hT (hid.1 ▸ ht')
          refine echoes_append (echoes_append hspared hvalue) ?_
          exact (reports_storeEvents _ _ _ _ _ _).echoes
  | literal | binary | unary | call =>
      have hroots := h.reads
      simp only [Stmt.readRoots, Stmt.roots, List.flatMap_cons, List.flatMap_nil,
        List.append_nil, List.forall_mem_append] at hroots
      refine echoes_append (echoes_append ?_ ?_) (reports_found _ _).echoes
      · exact Expr.echoes_events _ hroots.1
      · exact Expr.echoes_events _ hroots.2

/-- What a statement does about its expressions echoes. -/
theorem Stmt.echoes_consulting {s : Stmt} (h : s.Spares T) (expected : Option Ty) :
    Echoes T (s.consulting expected ρ) := by
  have hreads := h.reads
  cases s with
  | declaration t name ann init m =>
      refine echoes_append (echoes_append ?_ (Expr.echoes_events? hreads)) ?_
      · cases ann with
        | none => exact reports_nil.echoes
        | some a => exact (reports_valueEvents _ _ a).echoes
      · exact (reports_initializerEvents _ _ _ _).echoes
  | assignment t target value => exact echoes_assignmentEvents h
  | ifElse t c a b =>
      refine echoes_append (c.echoes_events fun e he => ?_) (reports_complaint _ _ _ _).echoes
      exact hreads e (List.mem_append_left _ he)
  | «while» t c b =>
      refine echoes_append (c.echoes_events fun e he => ?_) (reports_complaint _ _ _ _).echoes
      exact hreads e (List.mem_append_left _ he)
  | ret t value =>
      exact echoes_append (Expr.echoes_events? hreads) (reports_returnEvents _ _ _ _).echoes
  | expr t e => exact e.echoes_events fun e' he => hreads e' (List.mem_append_left _ he)
  | function | block => exact reports_nil.echoes

theorem composes_echoes (config : Config) (T : List NodeId) :
    Composes config (Stmt.Spares T) fun f =>
      ∀ outer φ n, Echoes T (f outer φ n).events where
  same := fun _ _ _ => reports_nil.echoes
  andThen := fun h h' outer φ n => echoes_append (h outer φ n) (h' outer _ _)
  closed := fun h outer φ n =>
    echoes_append (h (φ :: outer) [] n) (reports_leavingEvents _ _).echoes
  reports := fun hes h outer φ n => echoes_append hes.echoes (h outer φ n)
  consults := fun expected hs h outer φ n =>
    echoes_append (Stmt.echoes_consulting hs expected) (h outer φ n)
  declares := fun b _ _ _ _ _ => (binds_declaring _ _ b _ _).echoes
  binds := fun hs _ _ _ =>
    echoes_append (Stmt.echoes_consulting hs none) (binds_declaring _ _ _ _ _).echoes

end

-- ============================================================= accounts

section

variable {config : Config} {p : Program} {a : Analysis}

/-- As no two expressions have one identity, the targets of assignments are
targets only. -/
theorem Program.spares (h : p.analyze config = .ok a) :
    ∀ s ∈ p.stmts, s.Spares p.targets := by
  have hids := (shallow_of_analyze h).2
  rw [p.exprs_eq_flatMap, List.map_flatMap, List.nodup_flatMap] at hids
  obtain ⟨hown, hdisjoint⟩ := hids
  intro s hs
  refine ⟨fun id hid => List.mem_filterMap.mpr ⟨s, hs, hid⟩, fun e he hmem => ?_⟩
  obtain ⟨s', hs', htarget⟩ := List.mem_filterMap.mp hmem
  obtain ⟨t, t', x, value, rfl⟩ : ∃ t t' x value,
      s' = .assignment t (.identifier t' x) value := by
    unfold Stmt.target? at htarget
    split at htarget
    · exact ⟨_, _, _, _, rfl⟩
    · cases htarget
  have htarget : t'.id = e.id := Option.some.inj htarget
  by_cases hsame : s = .assignment t (.identifier t' x) value
  · subst hsame
    have hnodup := (hown _ hs)
    simp only [Stmt.exprs, Stmt.roots, List.flatMap_cons, List.flatMap_nil, Expr.nested,
      List.append_nil, List.singleton_append, List.map_cons, List.nodup_cons] at hnodup
    simp only [Stmt.readRoots, List.flatMap_cons, List.flatMap_nil,
      List.append_nil] at he
    refine hnodup.1 ?_
    show t'.id ∈ _
    rw [htarget]
    exact List.mem_map_of_mem he
  · have hexprs : e ∈ s.exprs := by
      unfold Stmt.readRoots at he
      split at he
      · rw [Stmt.exprs, Stmt.roots, List.flatMap_cons]
        exact List.mem_append_right _ he
      · exact he
    have : Std.Symm (Function.onFun List.Disjoint fun s : Stmt => s.exprs.map Expr.id) :=
      ⟨fun _ _ h _ ha hb => h hb ha⟩
    refine hdisjoint.forall hs hs' hsame (List.mem_map_of_mem hexprs) ?_
    rw [← htarget]
    exact List.mem_map_of_mem (a := Expr.identifier t' x) List.mem_cons_self

theorem Program.echoes_account (h : p.analyze config = .ok a) :
    Echoes p.targets (p.account config) :=
  p.composed_body (composes_echoes config p.targets) (spares h) [] [] 0

/-- The numbers that an account reads can be found in the table of
resolutions. -/
theorem Program.read_iff (hids : p.ids.Nodup) (h : p.analyze config = .ok a)
    (k : SymbolId) : .read k ∈ p.account config ↔ k ∈ p.numbersRead a := by
  rw [echoes_account h k, numbersRead, List.mem_filterMap, ← p.course_eq_account config hids]
  constructor
  · rintro ⟨id, d, hd, hT, rfl⟩
    obtain ⟨ρ, t, x, hn, rfl, -⟩ := exists_node_of_resolved (Event.mem_resolved?.mpr hd)
    refine ⟨(t, x), mem_identifiers.mpr (mem_exprs_of_node hn), ?_⟩
    rw [if_neg hT]
    exact (resolutions_eq_some_iff h).mpr ⟨d, hd, rfl⟩
  · rintro ⟨⟨t, x⟩, hi, hk⟩
    by_cases hT : t.id ∈ p.targets
    · rw [if_pos hT] at hk
      cases hk
    · rw [if_neg hT] at hk
      obtain ⟨d, hd, rfl⟩ := (resolutions_eq_some_iff h).mp hk
      exact ⟨t.id, d, hd, hT, rfl⟩

/-- A symbol is read by the account if its declaration is, by the
resolutions. -/
theorem Program.reads_site (hids : p.ids.Nodup) (h : p.analyze config = .ok a)
    {d : Declared} (hd : p.Declares config d) :
    .read d.id ∈ p.account config ↔ p.reads a d.site = true := by
  rw [read_iff hids h, reads, (idxOf_site_of_bound hids hd).2, List.contains_iff_mem]

end

end TreeCheck
