/-
Resolution follows the scoping rule.

The resolutions of an account are compared with the occurrences of the
source, both from the front. A statement is walked with a frame that
realises its scope, inside an environment that realises the scopes
around; where a function is walked, its own declaration has been passed.
A branch that is a function without braces is the one place where a
function is ahead in its list and yet declared only where it stands.
-/
import Mathlib.Data.List.Basic
import TreeCheck.Proofs.Account.Binding
import TreeCheck.Proofs.Scoping.Frames
import TreeCheck.Proofs.Scoping.Lookup

namespace TreeCheck

open Analysis

/-- The resolution that an event makes, by the place of the declaration. -/
def Event.resolvedSite? (e : Event) : Option (NodeId × Site) :=
  e.resolved?.map fun r => (r.1, r.2.site)

/-- The resolution that the scoping rule asks for. -/
def Occurrence.resolution? (o : Occurrence) : Option (NodeId × Site) :=
  o.declaration.map fun site => (o.tag.id, site)

/-- Events resolve some occurrences, and as the scoping rule asks. -/
def Tells (es : List Event) (os : List Occurrence) : Prop :=
  es.filterMap Event.resolvedSite? = os.filterMap Occurrence.resolution?

variable {es fs : List Event} {os qs : List Occurrence} {ρ : Lookup}
  {scopes : List (Level Site)}

theorem Tells.append (h : Tells es os) (h' : Tells fs qs) :
    Tells (es ++ fs) (os ++ qs) := by
  rw [Tells, List.filterMap_append, List.filterMap_append, h, h']

/-- What resolves nothing may stand behind. -/
theorem Tells.pass (h : Tells es os) (h' : Tells fs []) :
    Tells (es ++ fs) os := by
  have happend := h.append h'
  rwa [List.append_nil] at happend

/-- What resolves nothing may stand in front. -/
theorem Tells.skip (h : Tells es []) (h' : Tells fs os) : Tells (es ++ fs) os :=
  h.append h'

theorem tells_nil : Tells [] [] := rfl

theorem tells_of_resolved (h : es.filterMap Event.resolved? = []) :
    Tells es [] := by
  refine List.filterMap_eq_nil_iff.mpr fun e he => ?_
  rw [Event.resolvedSite?, List.filterMap_eq_nil_iff.mp h e he]
  rfl

theorem Reports.tells (h : Reports es) : Tells es [] :=
  tells_of_resolved h.resolved

theorem Binds.tells (h : Binds es) : Tells es [] := tells_of_resolved h.resolved

-- ========================================================= expressions

/-- Names are looked up as the scoping rule says. -/
def Follows (ρ : Lookup) (scopes : List (Level Site)) : Prop :=
  ∀ x, (ρ x).map (·.site) = (findLevel scopes x).map (·.info)

theorem RealisesAll.follows {Γ : Env} (h : RealisesAll Declared.site Γ scopes) :
    Follows Γ.find scopes := by
  intro x
  rw [← h x, Option.map_map]
  rfl

/-- What resolves identifiers by such a lookup resolves occurrences. -/
theorem ResolvesTo.tells {names : List (Tag × String)} (h : ResolvesTo ρ es names)
    (hρ : Follows ρ scopes) : Tells es (occurring scopes names) := by
  have hsites : es.filterMap Event.resolvedSite?
      = (es.filterMap Event.resolved?).map fun r => (r.1, r.2.site) := by
    rw [List.map_filterMap]
    rfl
  rw [Tells, hsites, h, lookedUp, occurring, List.map_filterMap,
    List.filterMap_map]
  refine List.filterMap_congr fun r _ => ?_
  show Option.map _ ((ρ r.2).map _) = Option.map _ ((findLevel scopes r.2).map _)
  rw [← hρ r.2, Option.map_map, Option.map_map]
  rfl

-- ============================================================ scopes

/-- The frame of a scope at its first statement shows the level at its
opening. -/
theorem shows_opening (function : NodeId) (params : List Param) (ss : List Stmt)
    (n m : SymbolId) :
    Shows Declared.site (.opened function params ss n m) []
      (.opening (paramDecls function 0 params) ss) := by
  refine shows_of_decls ?_
  rw [Frame.opened, decls_hoisting (δ := Stmt.declared) [] (fun _ _ _ _ _ _ _ _ => rfl),
    decls_declaringParams
      (π := fun i p => ⟨p.name, .parameter, .param function i⟩)
      (fun _ _ _ => rfl)]
  simp [paramDecls]

/-- A branch without braces is entered with nothing bound. -/
theorem realises_branch (a : Stmt) (n : SymbolId) :
    Realises Declared.site (a.own false [] n)
      ((Level.opening [] [a]).inside Stmt.declared a) := by
  cases a with
  | function t name params result p body =>
      intro x
      by_cases hx : name = x
      · simp [Stmt.own, declaringFunction, declaring, Level.inside, Level.opening,
          Level.pass, Level.add, Level.find, Level.hasVariable,
          Stmt.functionsAhead, Stmt.isAhead, Stmt.declared, lastNamed,
          Frame.find, Declared.decl, hx]
      · simp [Stmt.own, declaringFunction, declaring, Level.inside, Level.opening,
          Level.pass, Level.add, Level.find, Level.hasVariable,
          Stmt.functionsAhead, Stmt.isAhead, Stmt.declared, lastNamed,
          Frame.find, hx]
  | declaration | assignment | block | ifElse | «while» | ret | expr =>
      exact fun _ => rfl

/-- A statement that has been walked is passed. -/
theorem Shows.walk {φ : Frame} {earlier : List String} {here : Level Site}
    (h : Shows Declared.site φ earlier here) (config : Config) (s : Stmt)
    (expected : Option Ty) (outer : Env) (n : SymbolId) :
    Shows Declared.site
      (s.walk config expected (s.isAhead earlier) outer φ n).frame
      (s.variablesAfter earlier) (here.pass s.declared) := by
  cases s with
  | declaration t name ann init m => exact h.add_variable _ rfl
  | function t name params result p body =>
      rw [Stmt.frame_walk rfl]
      by_cases hmem : name ∈ earlier
      · simp only [Stmt.isAhead, hmem, not_true, decide_false, Stmt.own,
          Bool.false_eq_true, if_false]
        exact h.add_behind
          ⟨⟨⟨name, .function, _, t.position, false⟩, n⟩, .stmt t.id⟩
          rfl hmem
      · simp only [Stmt.isAhead, hmem, not_false_eq_true, decide_true, Stmt.own,
          if_true]
        exact h.add_ahead ⟨name, .function, .stmt t.id⟩ rfl hmem
  | assignment | block | ifElse | «while» | ret | expr =>
      rw [Stmt.frame_walk rfl]
      exact h

/-- A statement is entered as the scoping rule says. -/
theorem Shows.own {φ : Frame} {earlier : List String} {here : Level Site}
    (h : Shows Declared.site φ earlier here) (s : Stmt) (n : SymbolId) :
    Realises Declared.site (s.own (s.isAhead earlier) φ n)
      (here.inside Stmt.declared s) := by
  cases s with
  | function t name params result p body =>
      have hwalk := h.walk {} (.function t name params result p body) none [] n
      rw [Stmt.frame_walk rfl] at hwalk
      exact hwalk.find
  | declaration | assignment | block | ifElse | «while» | ret | expr =>
      exact h.find

-- ========================================================== statements

theorem Tells.closed {w : Walk} (h : Tells w.events os) (config : Config)
    (φ : Frame) :
    Tells (w.closed config φ).events os :=
  h.pass (reports_leavingEvents config w).tells

/-- A branch is a scope, also where it brings its own: a block declares
nothing in the list of one that it makes up. -/
theorem tells_walkBranch {config : Config} {a : Stmt} {expected : Option Ty}
    {outer : Env} {φ : Frame} {n : SymbolId}
    (hΓ : RealisesAll Declared.site (φ :: outer) scopes)
    (ha : ∀ {outer φ n here around},
      RealisesAll Declared.site (a.own false φ n :: outer)
        (here.inside Stmt.declared a :: around) →
      Tells (a.walk config expected false outer φ n).events
      (a.occurrences here around)) :
    Tells (walkBranch config a (a.walk config expected false) outer φ n).events
      (a.occurrences (.opening [] [a]) scopes) := by
  unfold walkBranch
  cases a with
  | block t p ss =>
      refine ha fun x => ?_
      rw [findLevel_cons]
      exact hΓ x
  | declaration | function | assignment | ifElse | «while» | ret | expr =>
      exact (ha ((realises_branch _ n).cons hΓ)).closed config φ

mutual

/-- A statement that is entered as the scoping rule says resolves its
identifiers as the rule says. -/
theorem Stmt.tells_walk (config : Config) : (s : Stmt) → ∀ {expected : Option Ty}
    {ahead : Bool} {outer : Env} {φ : Frame} {n : SymbolId} {here : Level Site}
    {around : List (Level Site)},
    RealisesAll Declared.site (s.own ahead φ n :: outer)
      (here.inside Stmt.declared s :: around) →
    Tells (s.walk config expected ahead outer φ n).events
      (s.occurrences here around)
  | .declaration t name ann init m, expected, ahead, outer, φ, n, here, around,
      h => by
      simp only [Stmt.walk, Stmt.occurrences]
      exact ((resolvesTo_declarationEvents _ _ _ _).tells h.follows).pass
        (binds_declaring _ _ _ _ _).tells
  | .function t name params result p body, expected, ahead, outer, φ, n, here,
      around, h => by
      have hown : Tells (if ahead then ⟨φ, n, []⟩ else
          declaringFunction t name params result body φ n : Walk).events [] := by
        cases ahead with
        | true => exact tells_nil
        | false => exact (binds_declaringFunction _ _ _ _ _ _ _).tells
      simp only [Stmt.walk, Stmt.occurrences, Walk.events_andThen]
      refine hown.skip (Tells.closed (Tells.skip (Binds.tells ?_) ?_) config _)
      · exact binds_append.mpr
          ⟨binds_declaringParams _ _ _ _ _ _, binds_hoisting _ _ _ _⟩
      · rw [Stmt.frame_reached (p := p)]
        exact Stmt.tells_walkAll config body
          (shows_opening t.id params body _ _) h
  | .assignment t target value, expected, ahead, outer, φ, n, here, around, h =>
      (resolvesTo_assignmentEvents _ _ _).tells h.follows
  | .block t p ss, expected, ahead, outer, φ, n, here, around, h => by
      simp only [Stmt.walk, Stmt.occurrences]
      refine Tells.closed (Tells.skip (binds_hoisting _ _ _ _).tells ?_) config _
      exact Stmt.tells_walkAll config ss (shows_opening t.id [] ss n n) h
  | .ifElse t c a none, expected, ahead, outer, φ, n, here, around, h => by
      simp only [Stmt.walk, Stmt.occurrences]
      refine ((resolvesTo_conditionEvents _ _ c).tells h.follows).append ?_
      exact tells_walkBranch h fun h => Stmt.tells_walk config a h
  | .ifElse t c a (some b), expected, ahead, outer, φ, n, here, around, h => by
      simp only [Stmt.walk, Stmt.occurrences, List.append_assoc]
      refine ((resolvesTo_conditionEvents _ _ c).tells h.follows).append
        (Tells.append ?_ ?_)
      · exact tells_walkBranch h fun h => Stmt.tells_walk config a h
      · rw [frame_walkBranch]
        exact tells_walkBranch h fun h => Stmt.tells_walk config b h
  | .while t c b, expected, ahead, outer, φ, n, here, around, h => by
      simp only [Stmt.walk, Stmt.occurrences]
      refine ((resolvesTo_conditionEvents _ _ c).tells h.follows).append ?_
      exact tells_walkBranch h fun h => Stmt.tells_walk config b h
  | .ret t value, expected, ahead, outer, φ, n, here, around, h =>
      (resolvesTo_returningEvents _ _ _).tells h.follows
  | .expr t e, expected, ahead, outer, φ, n, here, around, h =>
      (e.resolvesTo_events _).tells h.follows

theorem Stmt.tells_walkAll (config : Config) : (ss : List Stmt) →
    ∀ {expected : Option Ty} {earlier : List String} {outer : Env} {φ : Frame}
    {n : SymbolId} {here : Level Site} {around : List (Level Site)},
    Shows Declared.site φ earlier here → RealisesAll Declared.site outer around →
    Tells (Stmt.walkAll config ss expected earlier outer φ n).events
      (Stmt.occurrencesAll here around ss)
  | [], expected, earlier, outer, φ, n, here, around, h, hΓ => tells_nil
  | s :: ss, expected, earlier, outer, φ, n, here, around, h, hΓ => by
      simp only [Stmt.walkAll, Stmt.occurrencesAll]
      refine Tells.append ?_ ?_
      · exact Stmt.tells_walk config s ((h.own s n).cons hΓ)
      · exact Stmt.tells_walkAll config ss (h.walk config s expected outer n) hΓ

end

/-- The account of a program resolves its identifiers as the scoping rule
says. -/
theorem Program.tells_account (config : Config) (p : Program) :
    Tells (p.account config) p.occurrences :=
  Tells.skip (binds_hoisting _ _ _ _).tells
    (Stmt.tells_walkAll config p.body (shows_opening 0 [] p.body 0 0)
      fun _ => rfl)

end TreeCheck
