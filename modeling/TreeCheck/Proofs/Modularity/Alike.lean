/-
Events that differ in numbers only.

Symbols are numbered in the order of their declarations, so what stands
before a declaration shifts its number. Nothing else depends on the
numbers: with all of them blanked, what a statement does about its
expressions is a function of the statement and of the blanked names in
force (`Stmt.blank_consulting`). Two walks of one source from frames
that are alike are therefore alike (`composes_alike`), except for
warnings about unused names, which do ask for numbers.
-/
import TreeCheck.Proofs.Account.Renaming
import TreeCheck.Proofs.Visits.Recorded

namespace TreeCheck

open Analysis

-- ============================================================== blanking

/-- A symbol without its number. -/
def Declared.blank (d : Declared) : Declared := { d with id := 0 }

theorem Declared.site_eq_of_blank {d d' : Declared} (h : d'.blank = d.blank) :
    d'.site = d.site := by
  have hsite : d'.blank.site = d.blank.site := congrArg Declared.site h
  exact hsite

/-- A lookup of names that hides the numbers of symbols. -/
def Lookup.blank (ρ : Lookup) : Lookup := fun x => (ρ x).map Declared.blank

/-- An event without the numbers of symbols. -/
def Event.blank : Event → Event
  | .resolved id d => .resolved id d.blank
  | .read _ => .read 0
  | .bound d => .bound d.blank
  | .typed id ty => .typed id ty
  | .found node f => .found node f

theorem Event.blank_eq_rename : Event.blank = Event.rename fun _ => 0 := by
  funext e
  cases e <;> rfl

theorem Lookup.blank_eq_rename (ρ : Lookup) : Lookup.blank ρ = Lookup.rename (fun _ => 0) ρ :=
  rfl

theorem Reports.blank {es : List Event} (h : Reports es) : es.map Event.blank = es := by
  rw [Event.blank_eq_rename]
  exact h.rename fun _ => 0

-- ============================================================ statements

section

variable (ρ : Lookup)

theorem Expr.map_typeIn_blank (e : Option Expr) :
    e.map (·.typeIn (Lookup.blank ρ)) = e.map (·.typeIn ρ) :=
  Expr.map_typeIn_rename (fun _ => 0) ρ e

/-- With the numbers blanked, a statement does not tell them apart. -/
theorem Stmt.blank_consulting (s : Stmt) (expected : Option Ty) :
    (s.consulting expected ρ).map Event.blank = s.consulting expected (Lookup.blank ρ) := by
  rw [Event.blank_eq_rename, Lookup.blank_eq_rename]
  exact s.rename_consulting (fun _ => 0) ρ expected

variable (s : Stmt) (expected : Option Ty)

theorem Stmt.splits_consulting :
    Splits (s.consulting expected ρ) [⟨s, ρ, expected⟩] := by
  cases s with
  | declaration t name ann init m => exact splits_declarationEvents ρ expected t _ _ _ _
  | assignment t target value => exact splits_assignmentEvents ρ expected t _ _
  | ifElse | «while» => exact splits_conditionEvents ρ expected rfl rfl
  | ret t value => exact splits_returningEvents ρ expected t value
  | expr t e => exact splits_expr ρ expected t e
  | function | block => exact (Splits.concerns concerns_nil).enter ρ expected rfl

end

section

variable {ρ : Lookup} {s : Stmt} {expected : Option Ty} {id : NodeId}

/-- A statement records types for its own expressions. -/
theorem Stmt.mem_exprs_of_typed {ty : Ty} (h : .typed id ty ∈ s.consulting expected ρ) :
    ∃ e ∈ s.exprs, e.id = id := by
  rw [← Event.mem_typed?, (s.splits_consulting ρ expected).perm_typed.mem_iff,
    List.flatMap_singleton, Visit.nodes, List.map_map] at h
  obtain ⟨e, he, heq⟩ := List.mem_map.mp h
  exact ⟨e, he, congrArg Prod.fst heq⟩

/-- A statement resolves its own expressions, to symbols that it finds. -/
theorem Stmt.mem_exprs_of_resolved {d : Declared}
    (h : .resolved id d ∈ s.consulting expected ρ) :
    (∃ e ∈ s.exprs, e.id = id) ∧ ∃ x, ρ x = some d := by
  rw [← Event.mem_resolved?, (s.splits_consulting ρ expected).perm_resolved.mem_iff,
    List.flatMap_singleton, Visit.nodes, List.filterMap_map] at h
  obtain ⟨e, he, heq⟩ := List.mem_filterMap.mp h
  obtain ⟨d', hfound, hpair⟩ := Option.map_eq_some_iff.mp heq
  obtain ⟨hid, rfl⟩ := Prod.mk.inj hpair
  obtain ⟨x, -, hx⟩ := Option.bind_eq_some_iff.mp hfound
  exact ⟨⟨e, he, hid⟩, x, hx⟩

end

-- =============================================================== telling

/-- Whether an event is more than a warning. -/
def Event.matters : Event → Bool
  | .found _ f => f.cause.severity = .error
  | .typed _ _ | .resolved _ _ | .read _ | .bound _ => true

/-- What events tell, apart from the numbers of symbols and from warnings. -/
def told (es : List Event) : List Event := (es.map Event.blank).filter Event.matters

theorem told_append (es fs : List Event) : told (es ++ fs) = told es ++ told fs := by
  rw [told, List.map_append, List.filter_append, told, told]

theorem told_leavingEvents (config : Config) (w : Walk) :
    told (leavingEvents config w) = [] := by
  rw [told, (reports_leavingEvents config w).blank, List.filter_eq_nil_iff]
  intro e he
  obtain ⟨node, f, rfl, hkind⟩ := exists_unused_of_leavingEvents he
  simp [Event.matters, Cause.severity_eq_error_iff, hkind]

/-- The errors among what has been found. -/
def errors (fs : List Finding) : List Finding := fs.filter (·.cause.severity = .error)

section

variable {es : List Event} {id : NodeId} {ty : Ty} {d : Declared}

theorem errors_finding? (es : List Event) :
    errors (es.filterMap Event.finding?) = (told es).filterMap Event.finding? := by
  rw [errors, told, List.filter_filterMap, List.filterMap_filter, List.filterMap_map]
  refine List.filterMap_congr fun e _ => ?_
  cases e with
  | found node f => rfl
  | typed | resolved | read | bound => rfl

theorem mem_told_typed : .typed id ty ∈ told es ↔ .typed id ty ∈ es := by
  rw [told, List.mem_filter, List.mem_map]
  constructor
  · rintro ⟨⟨e, he, heq⟩, -⟩
    cases e with
    | typed id' ty' => exact heq ▸ he
    | resolved | read | bound | found => cases heq
  · exact fun h => ⟨⟨_, h, rfl⟩, rfl⟩

theorem mem_told_of_resolved (h : .resolved id d ∈ es) :
    .resolved id d.blank ∈ told es :=
  List.mem_filter.mpr ⟨List.mem_map.mpr ⟨_, h, rfl⟩, rfl⟩

theorem exists_resolved_of_told (h : .resolved id d ∈ told es) :
    ∃ d', .resolved id d' ∈ es ∧ d'.blank = d := by
  obtain ⟨e, he, heq⟩ := List.mem_map.mp (List.mem_filter.mp h).1
  cases e with
  | resolved id' d' =>
      obtain ⟨rfl, rfl⟩ := Event.resolved.inj heq
      exact ⟨d', he, rfl⟩
  | typed | read | bound | found => cases heq

end

-- ================================================================= alike

/-- Events that tell the same. What they resolve stands at some of the
statements. -/
structure EventsAlike (K : List NodeId) (es es' : List Event) : Prop where
  told : told es = told es'
  kept : ∀ id d, .resolved id d ∈ es → d.site.node ∈ K

/-- Frames of the same symbols, but for their numbers, which some of the
statements declare. -/
structure Frame.Alike (K : List NodeId) (φ φ' : Frame) : Prop where
  blank : φ.map Declared.blank = φ'.map Declared.blank
  kept : ∀ d ∈ φ, d.site.node ∈ K

/-- Environments of frames that are alike. -/
def Env.Alike (K : List NodeId) : Env → Env → Prop := List.Forall₂ (Frame.Alike K)

structure Walk.Alike (K : List NodeId) (w w' : Walk) : Prop where
  frame : Frame.Alike K w.frame w'.frame
  events : EventsAlike K w.events w'.events

section

variable {K : List NodeId} {es es' fs fs' : List Event} {φ φ' : Frame} {Γ Γ' : Env}
  {w w' : Walk}

theorem EventsAlike.nil : EventsAlike K [] [] := ⟨rfl, nofun⟩

theorem EventsAlike.append (h : EventsAlike K es es') (h' : EventsAlike K fs fs') :
    EventsAlike K (es ++ fs) (es' ++ fs') where
  told := by rw [told_append, told_append, h.told, h'.told]
  kept := by
    intro id d hd
    rcases List.mem_append.mp hd with hd | hd
    · exact h.kept id d hd
    · exact h'.kept id d hd

/-- Where nothing is resolved, nothing has to be kept. -/
theorem eventsAlike_of_told (hresolved : es.filterMap Event.resolved? = [])
    (htold : told es = told es') : EventsAlike K es es' where
  told := htold
  kept := by
    intro id d hd
    have hnone := List.filterMap_eq_nil_iff.mp hresolved _ hd
    cases hnone

theorem Reports.alike (h : Reports es) : EventsAlike K es es :=
  eventsAlike_of_told h.resolved rfl

theorem Frame.Alike.nil : Frame.Alike K [] [] := ⟨rfl, nofun⟩

theorem Frame.Alike.find (h : Frame.Alike K φ φ') (x : String) :
    (Frame.find φ x).map Declared.blank = (Frame.find φ' x).map Declared.blank := by
  have hmap (φ : Frame) : (Frame.find φ x).map Declared.blank
      = Frame.find (φ.map Declared.blank) x := by
    rw [Frame.find, Frame.find, List.find?_map]
    rfl
  rw [hmap, hmap, h.blank]

theorem Env.Alike.blank_find (h : Env.Alike K Γ Γ') :
    Lookup.blank (Env.find Γ) = Lookup.blank (Env.find Γ') := by
  funext x
  show (Env.find Γ x).map Declared.blank = (Env.find Γ' x).map Declared.blank
  induction h with
  | nil => rfl
  | @cons φ φ' Γ Γ' hφ _ ih =>
      have hfind := hφ.find x
      rw [Env.find_cons, Env.find_cons]
      cases hx : Frame.find φ x with
      | none =>
          rw [hx, Option.map_none] at hfind
          rw [Option.map_eq_none_iff.mp hfind.symm, Option.none_or, Option.none_or]
          exact ih
      | some d =>
          rw [hx, Option.map_some] at hfind
          obtain ⟨d', hx', hblank⟩ := Option.map_eq_some_iff.mp hfind.symm
          rw [hx']
          exact congrArg some hblank.symm

theorem Env.Alike.kept (h : Env.Alike K Γ Γ') {x : String} {d : Declared}
    (hx : Env.find Γ x = some d) : d.site.node ∈ K := by
  induction h with
  | nil => cases hx
  | @cons φ φ' Γ Γ' hφ _ ih =>
      rw [Env.find_cons] at hx
      rcases Option.or_eq_some_iff.mp hx with hx | ⟨-, hx⟩
      · exact hφ.kept d (Frame.mem_of_find hx)
      · exact ih hx

theorem Walk.Alike.after (h : w.Alike K w') (hes : EventsAlike K es es') :
    (w.after es).Alike K (w'.after es') :=
  ⟨h.frame, hes.append h.events⟩

theorem Stmt.alike_consulting {s : Stmt} (h : Env.Alike K Γ Γ')
    (expected : Option Ty) :
    EventsAlike K (s.consulting expected (Env.find Γ))
      (s.consulting expected (Env.find Γ')) where
  told := by
    rw [TreeCheck.told, s.blank_consulting, h.blank_find, ← s.blank_consulting]
    rfl
  kept := by
    intro id d hd
    obtain ⟨x, hx⟩ := (Stmt.mem_exprs_of_resolved hd).2
    exact h.kept hx

theorem alike_declaring (h : Frame.Alike K φ φ') {node : NodeId} {site : Site}
    (hsite : site.node ∈ K) (b : Binding) (n n' : SymbolId) :
    (declaring node site b φ n).Alike K (declaring node site b φ' n') where
  frame := ⟨congrArg (List.cons _) h.blank,
    List.forall_mem_cons.mpr ⟨hsite, h.kept⟩⟩
  events := by
    have hduplicate : duplicateEvents node b (Frame.find φ b.name)
        = duplicateEvents node b (Frame.find φ' b.name) := by
      have hblank (o : Option Declared) :
          duplicateEvents node b o = duplicateEvents node b (o.map Declared.blank) := by
        cases o <;> rfl
      rw [hblank, h.find, ← hblank]
    refine EventsAlike.append ?_ (eventsAlike_of_told rfl rfl)
    rw [hduplicate]
    exact (reports_duplicateEvents _ _ _).alike

end

-- ================================================================= walks

/-- Walks of one source that are alike where the frames are that they start
from. -/
def AlikeWalks (K : List NodeId) (f : Env → Frame → SymbolId → Walk) : Prop :=
  ∀ outer outer' φ φ' n n', Env.Alike K outer outer' → Frame.Alike K φ φ' →
    (f outer φ n).Alike K (f outer' φ' n')

/-- Walks are alike if their statements are among those that may declare. -/
theorem composes_alike (config : Config) (K : List NodeId) :
    Composes config (fun s => s.id ∈ K) (AlikeWalks K) where
  same := fun _ _ _ _ _ _ _ hφ => ⟨hφ, .nil⟩
  andThen := by
    intro f g hf hg outer outer' φ φ' n n' hΓ hφ
    have h := hf outer outer' φ φ' n n' hΓ hφ
    have h' := hg outer outer' _ _ (f outer φ n).next (f outer' φ' n').next hΓ h.frame
    exact ⟨h'.frame, h.events.append h'.events⟩
  closed := by
    intro f hf outer outer' φ φ' n n' hΓ hφ
    have h := hf _ _ _ _ n n' (List.Forall₂.cons hφ hΓ) .nil
    refine ⟨hφ, h.events.append (eventsAlike_of_told ?_ ?_)⟩
    · exact (reports_leavingEvents _ _).resolved
    · rw [told_leavingEvents, told_leavingEvents]
  reports := fun hes hf outer outer' φ φ' n n' hΓ hφ =>
    (hf outer outer' φ φ' n n' hΓ hφ).after hes.alike
  consults := fun expected _ hf outer outer' φ φ' n n' hΓ hφ =>
    (hf outer outer' φ φ' n n' hΓ hφ).after
      (Stmt.alike_consulting (List.Forall₂.cons hφ hΓ) expected)
  declares := fun b hs hsite _ _ _ _ n n' _ hφ =>
    alike_declaring hφ (hsite ▸ hs) b n n'
  binds := by
    intro t name ann init m hs outer outer' φ φ' n n' hΓ hφ
    have hΓ' : Env.Alike K (φ :: outer) (φ' :: outer') := List.Forall₂.cons hφ hΓ
    have htype : init.map (·.typeIn (Env.find (φ :: outer)))
        = init.map (·.typeIn (Env.find (φ' :: outer'))) := by
      rw [← Expr.map_typeIn_blank, hΓ'.blank_find, Expr.map_typeIn_blank]
    have hsite : (Site.stmt t.id).node ∈ K := hs
    simp only [declaringVariable]
    rw [htype]
    exact (alike_declaring hφ hsite _ n n').after
      (Stmt.alike_consulting (s := .declaration t name ann init m) hΓ' none)

-- =============================================================== content

/-- Events that record and resolve nodes of a list only. -/
def Within (ids : List NodeId) (es : List Event) : Prop :=
  (∀ id ty, .typed id ty ∈ es → id ∈ ids) ∧ ∀ id d, .resolved id d ∈ es → id ∈ ids

section

variable {ids : List NodeId} {es fs : List Event}

theorem Within.append (h : Within ids es) (h' : Within ids fs) :
    Within ids (es ++ fs) := by
  refine ⟨fun id ty hmem => ?_, fun id d hmem => ?_⟩
  · exact (List.mem_append.mp hmem).elim (h.1 id ty) (h'.1 id ty)
  · exact (List.mem_append.mp hmem).elim (h.2 id d) (h'.2 id d)

theorem Binds.within (h : Binds es) : Within ids es := by
  refine ⟨fun id ty hmem => ?_, fun id d hmem => ?_⟩
  · rcases h _ hmem with ⟨d, hd⟩ | ⟨node, f, hf⟩
    · cases hd
    · cases hf
  · rcases h _ hmem with ⟨d, hd⟩ | ⟨node, f, hf⟩
    · cases hd
    · cases hf

theorem Stmt.within_consulting {s : Stmt} (h : ∀ e ∈ s.exprs, e.id ∈ ids)
    (expected : Option Ty) (ρ : Lookup) : Within ids (s.consulting expected ρ) := by
  refine ⟨fun id ty hmem => ?_, fun id d hmem => ?_⟩
  · obtain ⟨e, he, rfl⟩ := Stmt.mem_exprs_of_typed hmem
    exact h e he
  · obtain ⟨⟨e, he, rfl⟩, -⟩ := Stmt.mem_exprs_of_resolved hmem
    exact h e he

/-- A walk records and resolves the expressions of the statements that it is
about. -/
theorem composes_within (config : Config) (ids : List NodeId) :
    Composes config (fun s => ∀ e ∈ s.exprs, e.id ∈ ids) fun f =>
      ∀ outer φ n, Within ids (f outer φ n).events where
  same := fun _ _ _ => reports_nil.binds.within
  andThen := fun h h' outer φ n => (h outer φ n).append (h' outer _ _)
  closed := fun h outer φ n =>
    (h (φ :: outer) [] n).append (reports_leavingEvents _ _).binds.within
  reports := fun hes h outer φ n => hes.binds.within.append (h outer φ n)
  consults := fun expected hs h outer φ n =>
    (Stmt.within_consulting hs expected _).append (h outer φ n)
  declares := fun b _ _ _ _ _ => (binds_declaring _ _ b _ _).within
  binds := fun hs _ _ _ =>
    (Stmt.within_consulting (s := .declaration _ _ _ _ _) hs none _).append
      (binds_declaring _ _ _ _ _).within

end

end TreeCheck
