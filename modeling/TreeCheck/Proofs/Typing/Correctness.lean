/-
A program is analyzed without errors if and only if it is well-formed.

The walk of a list is followed statement by statement. Its frame tracks
the level of the scope as long as the statements are well-formed and
bind new names; where one is not, both sides of the equivalence fail. A
function declared ahead is entered with its signature in force, so that
its annotations are valid has to be known before the list is walked.
-/
import TreeCheck.Proofs.Run.Failure
import TreeCheck.Proofs.Run.Statements
import TreeCheck.Proofs.Typing.Scopes

namespace TreeCheck

open Analysis

variable {φ : Frame} {earlier : List String} {L : Level TypeInfo} {outer : Env}
  {Γ : Scopes}

-- ============================================================== steps

/-- A function that has been passed is in force, whether it was declared
ahead or stands behind a variable of its name. -/
theorem Tracks.function (h : Tracks φ earlier L) {t : Tag} {name : String}
    {params : List Param} {result : Option TypeName} {p : Position}
    {body : List Stmt}
    (hann : (Stmt.function t name params result p body).Annotated) (n : SymbolId) :
    let s := Stmt.function t name params result p body
    Shows Declared.typeInfo (s.own (s.isAhead earlier) φ n) earlier
        (L.add ⟨name, .function, .func (Signature.of params result body).params
          (Signature.of params result body).ret, false⟩)
      ∧ (s.own (s.isAhead earlier) φ n).Fit := by
  intro s
  by_cases hmem : name ∈ earlier
  · have hahead : s.isAhead earlier = false := by simp [s, Stmt.isAhead, hmem]
    rw [hahead]
    constructor
    · exact h.shows.add_behind
        ⟨⟨⟨name, .function, _, t.position, false⟩, n⟩, .stmt t.id⟩
        rfl hmem
    · exact List.forall_mem_cons.mpr ⟨fit_function hann, h.fit⟩
  · have hahead : s.isAhead earlier = true := by simp [s, Stmt.isAhead, hmem]
    rw [hahead]
    exact ⟨h.shows.add_ahead _ rfl hmem, h.fit⟩

/-- A statement is entered with the scope as it is seen from inside. -/
theorem Tracks.inside (h : Tracks φ earlier L) (hΓ : Models outer Γ) {s : Stmt}
    (hann : s.Annotated) (n : SymbolId) :
    Models (s.own (s.isAhead earlier) φ n :: outer)
      (L.inside Stmt.typedDecl? s :: Γ) := by
  cases s with
  | function t name params result p body =>
      obtain ⟨hshows, hfit⟩ := h.function hann n
      rw [Level.inside, Stmt.typedDecl?_of_annotated hann]
      exact hΓ.cons hshows.find hfit
  | declaration | assignment | block | ifElse | «while» | ret | expr =>
      exact hΓ.cons h.shows.find h.fit

/-- A well-formed statement that binds a new name leaves a frame that
tracks the scope behind it. -/
theorem StmtOk.tracks {ret : Option Ty} {L' : Level TypeInfo} {s : Stmt}
    (hs : StmtOk ret Γ L s L') (config : Config) (h : Tracks φ earlier L)
    (hΓ : Models outer Γ)
    (hfree : ∀ x ∈ s.boundHere? (s.isAhead earlier), x ∉ φ.names) (n : SymbolId) :
    Tracks (s.walk config ret (s.isAhead earlier) outer φ n).frame
      (s.variablesAfter earlier) L' := by
  have hnodup :
      (s.walk config ret (s.isAhead earlier) outer φ n).frame.names.Nodup := by
    rw [Stmt.names_walk]
    cases hbound : s.boundHere? (s.isAhead earlier) with
    | none => exact h.nodup
    | some x => exact List.nodup_cons.mpr ⟨hfree x hbound, h.nodup⟩
  cases hs with
  | «variable» htype =>
      rename_i t name ann init m ty
      have hgives := (hΓ.cons h.shows.find h.fit).gives
      have hfirst := htype.firstOrder hgives
      obtain ⟨-, rfl⟩ := (variableType_iff hgives t.id name).mp htype
      exact ⟨h.shows.add_variable _ rfl,
        List.forall_mem_cons.mpr ⟨⟨hfirst, nofun⟩, h.fit⟩, hnodup⟩
  | function hsig _ =>
      obtain ⟨-, rfl⟩ := (Signature.of?_eq_some 0).mp hsig
      rw [Stmt.frame_walk rfl] at hnodup ⊢
      obtain ⟨hshows, hfit⟩ := h.function ⟨_, hsig⟩ n
      exact ⟨hshows, hfit, hnodup⟩
  | assignment | block | ifThen | ifElse | «while» | ret | bareRet | expr =>
      rw [Stmt.frame_walk rfl]
      exact h

theorem nodup_append_cons {x : String} {as bs : List String} :
    (as ++ x :: bs).Nodup ↔ x ∉ as ∧ (x :: as ++ bs).Nodup := by
  rw [List.perm_middle.nodup_iff, List.cons_append]
  refine (and_iff_right_of_imp fun h => ?_).symm
  exact fun hmem => (List.nodup_cons.mp h).1 (List.mem_append_left _ hmem)

theorem nodup_bound {o : Option String} {as bs : List String} :
    (as ++ (o.toList ++ bs)).Nodup
      ↔ (∀ x ∈ o, x ∉ as) ∧ (o.toList ++ as ++ bs).Nodup := by
  cases o with
  | none => simp
  | some x =>
      rw [Option.toList_some, List.singleton_append, nodup_append_cons]
      simp

-- =========================================================== branches

theorem nodup_declared_single (a : Stmt) :
    ([a].filterMap Stmt.declaredName?).Nodup := by
  cases h : a.declaredName? with
  | none =>
      rw [List.filterMap_cons_none h]
      exact List.nodup_nil
  | some x =>
      rw [List.filterMap_cons_some h]
      exact List.nodup_cons.mpr ⟨List.not_mem_nil, List.nodup_nil⟩

theorem scopeOk_single {ret : Option Ty} {a : Stmt} :
    ScopeOk ret Γ [] [a] ↔ ∃ L', StmtOk ret Γ (.entered [] [a]) a L' := by
  constructor
  · intro h
    cases h with
    | scope _ hok =>
        cases hok with
        | cons ha _ => exact ⟨_, ha⟩
  · intro h
    obtain ⟨L', ha⟩ := h
    exact .scope (nodup_declared_single a) (.cons ha .nil)

/-- A branch without braces is entered with nothing bound. -/
theorem Models.branch {Γe : Env} (hΓ : Models Γe Γ) {a : Stmt}
    (hann : a.Annotated) (n : SymbolId) :
    Models (a.own false [] n :: Γe)
      ((Level.entered [] [a]).inside Stmt.typedDecl? a :: Γ) := by
  have hahead : ∀ s ∈ Stmt.functionsAhead [] [a], s.Annotated := by
    intro s hs
    rw [List.mem_singleton.mp (Stmt.mem_of_ahead hs).1]
    exact hann
  have hbound : (Stmt.boundAhead [] [a]).Nodup :=
    (List.nodup_append.mp ((Stmt.perm_bound [] [a]).nodup_iff.mpr
      (nodup_declared_single a))).1
  have htracks := tracks_opened 0 [] n n nofun hahead hbound
  -- A function is ahead in its list, and declared ahead it is what the branch has.
  have hframe : a.own (a.isAhead []) (hoisting [] [a] [] n).frame n
      = a.own false [] n := by
    cases a <;> rfl
  have hinside := htracks.inside hΓ hann n
  rw [← hframe]
  exact hinside

/-- A branch is a scope of one statement, also where it brings its own. -/
theorem clean_walkBranch (config : Config) {a : Stmt} {ret : Option Ty}
    (n : SymbolId) (hΓ : Models (φ :: outer) Γ)
    (ha : ∀ {outer φ n L Γ},
      (a.Annotated → Models (a.own false φ n :: outer)
        (L.inside Stmt.typedDecl? a :: Γ)) →
      (Clean (a.walk config ret false outer φ n).events
        ↔ (∃ L', StmtOk ret Γ L a L') ∧ ∀ x ∈ a.boundHere? false, x ∉ φ.names)) :
    Clean (walkBranch config a (a.walk config ret false) outer φ n).events
      ↔ ScopeOk ret Γ [] [a] := by
  rw [scopeOk_single, walkBranch]
  cases a with
  | block t p ss =>
      have hempty : Models (φ :: outer) (.entered [] [.block t p ss] :: Γ) := by
        refine ⟨fun x => ?_, hΓ.fit⟩
        rw [findLevel_cons]
        exact hΓ.finds x
      have hblock := ha (n := n) fun _ => hempty
      rw [and_iff_left nofun] at hblock
      exact hblock
  | declaration | function | assignment | ifElse | «while» | ret | expr =>
      have hbranch := ha (φ := []) (n := n) fun hann => hΓ.branch hann n
      exact clean_closed.trans
        (hbranch.trans (and_iff_left fun _ _ => List.not_mem_nil))

-- ========================================================= statements

mutual

/-- A statement is walked cleanly if it is well-formed and the name it
binds is new. -/
theorem Stmt.clean_walk (config : Config) : (s : Stmt) → ∀ {expected : Option Ty}
    {ahead : Bool} {outer : Env} {φ : Frame} {n : SymbolId} {L : Level TypeInfo}
    {Γ : Scopes},
    (∀ r, expected = some r → r.FirstOrder) → (ahead = true → s.Annotated) →
    (s.Annotated → Models (s.own ahead φ n :: outer)
      (L.inside Stmt.typedDecl? s :: Γ)) →
    (Clean (s.walk config expected ahead outer φ n).events
      ↔ (∃ L', StmtOk expected Γ L s L') ∧ ∀ x ∈ s.boundHere? ahead, x ∉ φ.names)
  | .declaration t name ann init m, expected, ahead, outer, φ, n, L, Γ, hret,
      hahead, h => by
      have hgives := (h trivial).gives
      simp only [Stmt.walk, declaringVariable, Walk.events_after]
      rw [clean_append, clean_declaring, Frame.find_eq_none]
      refine and_congr ?_ (by simp [Stmt.boundHere?])
      constructor
      · intro hclean
        exact ⟨_, .variable
          ((variableType_iff hgives t.id name).mpr ⟨hclean, rfl⟩)⟩
      · intro hok
        obtain ⟨L', hok⟩ := hok
        cases hok with
        | «variable» htype =>
            exact ((variableType_iff hgives t.id name).mp htype).1
  | .function t name params result p body, expected, ahead, outer, φ, n, L, Γ,
      hret, hahead, h => by
      by_cases hann : (Stmt.function t name params result p body).Annotated
      · have hsig := hann.signature
        have hfirst := Signature.firstOrder_of? hsig
        have hΓ := h hann
        rw [Level.inside, Stmt.typedDecl?_of_annotated hann] at hΓ
        have hscope (m : SymbolId) := clean_scope config t.id params m
          (fun p hp => (hfirst.1 p.type (List.mem_map_of_mem hp)).firstOrder)
          fun hL hann => Stmt.clean_walkAll config body
            (fun r hr => Option.some.inj hr ▸ hfirst.2.firstOrder) hL hΓ hann
        simp only [Stmt.walk, Walk.events_andThen]
        rw [clean_append, clean_reached (p := p), and_iff_right fun _ => hann,
          Stmt.frame_reached (p := p), clean_closed, and_comm]
        refine and_congr_left fun _ => (hscope _).trans ?_
        constructor
        · intro hbody
          exact ⟨_, .function hsig hbody⟩
        · intro hok
          obtain ⟨L', hok⟩ := hok
          cases hok with
          | function hsig' hbody =>
              obtain rfl := Option.some.inj (hsig.symm.trans hsig')
              exact hbody
      · refine iff_of_false ?_ ?_
        · intro hclean
          simp only [Stmt.walk, Walk.events_andThen, clean_append] at hclean
          have hreached := (clean_reached (p := p)).mp hclean.1
          cases ahead with
          | true => exact hann (hahead rfl)
          | false => exact hann (hreached.1 rfl)
        · intro hok
          obtain ⟨⟨L', hok⟩, -⟩ := hok
          cases hok with
          | function hsig _ => exact hann ⟨_, hsig⟩
  | .assignment t target value, expected, ahead, outer, φ, n, L, Γ, hret,
      hahead, h => by
      have hΓ : Models (φ :: outer) (L :: Γ) := h trivial
      rw [assignment_iff hΓ.gives, and_iff_left nofun]
      rfl
  | .block t p ss, expected, ahead, outer, φ, n, L, Γ, hret, hahead, h => by
      have hscope :
          Clean (Stmt.walk config (.block t p ss) expected ahead outer φ n).events
            ↔ ScopeOk expected (L :: Γ) [] ss := by
        simp only [Stmt.walk]
        rw [clean_closed]
        exact clean_scope config 0 [] n nofun fun hL hann =>
          Stmt.clean_walkAll config ss hret hL (h trivial) hann
      rw [hscope, and_iff_left nofun]
      constructor
      · intro hok
        exact ⟨L, .block hok⟩
      · intro hok
        obtain ⟨L', hok⟩ := hok
        cases hok with
        | block hok => exact hok
  | .ifElse t c a none, expected, ahead, outer, φ, n, L, Γ, hret, hahead, h => by
      have hΓ : Models (φ :: outer) (L :: Γ) := h trivial
      have hthen := clean_walkBranch config n hΓ fun ha =>
        Stmt.clean_walk config a hret nofun ha
      simp only [Stmt.walk, Walk.events_after]
      rw [clean_append, clean_conditionEvents hΓ.gives, hthen]
      refine Iff.trans ?_ (and_iff_left nofun).symm
      constructor
      · intro hok
        obtain ⟨⟨ty, hc, hbool⟩, ha⟩ := hok
        exact ⟨L, .ifThen hc hbool ha⟩
      · intro hok
        obtain ⟨L', hok⟩ := hok
        cases hok with
        | ifThen hc hbool ha => exact ⟨⟨_, hc, hbool⟩, ha⟩
  | .ifElse t c a (some b), expected, ahead, outer, φ, n, L, Γ, hret, hahead,
      h => by
      have hΓ : Models (φ :: outer) (L :: Γ) := h trivial
      have hthen (n : SymbolId) := clean_walkBranch config n hΓ fun ha =>
        Stmt.clean_walk config a hret nofun ha
      have helse (n : SymbolId) := clean_walkBranch config n hΓ fun hb =>
        Stmt.clean_walk config b hret nofun hb
      simp only [Stmt.walk, Walk.events_after, Walk.events_andThen]
      rw [clean_append, clean_append, clean_conditionEvents hΓ.gives,
        frame_walkBranch, hthen, helse]
      refine Iff.trans ?_ (and_iff_left nofun).symm
      constructor
      · intro hok
        obtain ⟨⟨ty, hc, hbool⟩, ha, hb⟩ := hok
        exact ⟨L, .ifElse hc hbool ha hb⟩
      · intro hok
        obtain ⟨L', hok⟩ := hok
        cases hok with
        | ifElse hc hbool ha hb => exact ⟨⟨_, hc, hbool⟩, ha, hb⟩
  | .while t c b, expected, ahead, outer, φ, n, L, Γ, hret, hahead, h => by
      have hΓ : Models (φ :: outer) (L :: Γ) := h trivial
      have hbody := clean_walkBranch config n hΓ fun hb =>
        Stmt.clean_walk config b hret nofun hb
      simp only [Stmt.walk, Walk.events_after]
      rw [clean_append, clean_conditionEvents hΓ.gives, hbody]
      refine Iff.trans ?_ (and_iff_left nofun).symm
      constructor
      · intro hok
        obtain ⟨⟨ty, hc, hbool⟩, hb⟩ := hok
        exact ⟨L, .while hc hbool hb⟩
      · intro hok
        obtain ⟨L', hok⟩ := hok
        cases hok with
        | «while» hc hbool hb => exact ⟨⟨_, hc, hbool⟩, hb⟩
  | .ret t value, expected, ahead, outer, φ, n, L, Γ, hret, hahead, h => by
      have hΓ : Models (φ :: outer) (L :: Γ) := h trivial
      rw [return_iff hΓ.gives hret, and_iff_left nofun]
      rfl
  | .expr t e, expected, ahead, outer, φ, n, L, Γ, hret, hahead, h => by
      rw [and_iff_left nofun]
      constructor
      · intro hclean
        exact ⟨L, .expr ((e.hasType_iff (h trivial).gives _).mpr ⟨hclean, rfl⟩)⟩
      · intro hok
        obtain ⟨L', hok⟩ := hok
        cases hok with
        | expr htype => exact ((e.hasType_iff (h trivial).gives _).mp htype).1

theorem Stmt.clean_walkAll (config : Config) :
    (ss : List Stmt) → ∀ {expected : Option Ty} {earlier : List String}
    {outer : Env} {φ : Frame} {n : SymbolId} {L : Level TypeInfo} {Γ : Scopes},
    (∀ r, expected = some r → r.FirstOrder) → Tracks φ earlier L →
    Models outer Γ →
    (∀ s ∈ Stmt.functionsAhead earlier ss, s.Annotated) →
    (Clean (Stmt.walkAll config ss expected earlier outer φ n).events
      ↔ StmtsOk expected Γ L ss ∧ (φ.names ++ Stmt.boundInPlace earlier ss).Nodup)
  | [], expected, earlier, outer, φ, n, L, Γ, hret, h, hΓ, hann => by
      rw [Stmt.boundInPlace, List.append_nil]
      exact iff_of_true clean_nil ⟨.nil, h.nodup⟩
  | s :: ss, expected, earlier, outer, φ, n, L, Γ, hret, h, hΓ, hann => by
      rw [Stmt.functionsAhead] at hann
      have hs : s.isAhead earlier = true → s.Annotated := by
        intro hahead
        rw [hahead] at hann
        exact hann s List.mem_cons_self
      have hhead :
          Clean (s.walk config expected (s.isAhead earlier) outer φ n).events
            ↔ (∃ L', StmtOk expected Γ L s L')
              ∧ ∀ x ∈ s.boundHere? (s.isAhead earlier), x ∉ φ.names :=
        Stmt.clean_walk config s hret hs fun hs => h.inside hΓ hs n
      have htail {L' : Level TypeInfo} (hok : StmtOk expected Γ L s L')
          (hfree : ∀ x ∈ s.boundHere? (s.isAhead earlier), x ∉ φ.names)
          {m : SymbolId} :
          Clean (Stmt.walkAll config ss expected (s.variablesAfter earlier) outer
              (s.walk config expected (s.isAhead earlier) outer φ n).frame m).events
            ↔ StmtsOk expected Γ L' ss
              ∧ ((s.boundHere? (s.isAhead earlier)).toList ++ φ.names
                ++ Stmt.boundInPlace (s.variablesAfter earlier) ss).Nodup := by
        have hnext := Stmt.clean_walkAll config ss (n := m) hret
          (hok.tracks config h hΓ hfree n) hΓ
          fun s' hs' => hann s' (List.mem_append_right _ hs')
        rwa [Stmt.names_walk] at hnext
      rw [Stmt.walkAll, Walk.events_andThen, clean_append, Stmt.boundInPlace,
        nodup_bound]
      constructor
      · intro hclean
        obtain ⟨⟨L', hok⟩, hfree⟩ := hhead.mp hclean.1
        obtain ⟨hrest, hnodup⟩ := (htail hok hfree).mp hclean.2
        exact ⟨.cons hok hrest, hfree, hnodup⟩
      · intro hok
        obtain ⟨hok, hfree, hnodup⟩ := hok
        cases hok with
        | cons hok hrest =>
            exact ⟨hhead.mpr ⟨⟨_, hok⟩, hfree⟩,
              (htail hok hfree).mpr ⟨hrest, hnodup⟩⟩

end

-- =========================================================== programs

theorem Program.clean_account_iff (config : Config) (p : Program) :
    Clean (p.account config) ↔ p.WellFormed :=
  clean_scope config 0 [] 0 nofun fun hL hann =>
    Stmt.clean_walkAll config p.body nofun hL ⟨fun _ => rfl, nofun⟩ hann

/-- Algorithmic checking is declarative well-formedness. An analysis that
completes on a program whose nodes have distinct identities reports no
error if and only if the program is well-formed. -/
theorem Program.no_errors_iff_wellFormed {config : Config} {p : Program}
    {a : Analysis} (hids : p.ids.Nodup) (h : p.analyze config = .ok a) :
    (∀ d ∈ a.diagnostics, d.severity ≠ .error) ↔ p.WellFormed := by
  rw [analysis_eq_account hids h, no_errors_replay_iff]
  exact p.clean_account_iff config

/-- A function that doubles an `int`, and a call of it. -/
def Program.doubling : Program :=
  ⟨[.function ⟨0, ⟨1, 1⟩⟩ "twice" [⟨"x", some ⟨"int", ⟨1, 13⟩⟩, ⟨1, 10⟩⟩]
      none ⟨1, 18⟩
      [.ret ⟨1, ⟨2, 3⟩⟩ (some (.binary ⟨2, ⟨2, 10⟩⟩ .add
        (.identifier ⟨3, ⟨2, 10⟩⟩ "x") (.identifier ⟨4, ⟨2, 14⟩⟩ "x")))],
    .expr ⟨5, ⟨3, 1⟩⟩ (.call ⟨6, ⟨3, 1⟩⟩ (.identifier ⟨7, ⟨3, 1⟩⟩ "twice")
      [.literal ⟨8, ⟨3, 7⟩⟩ (.int 2)])],
    .start⟩

/-- It is well-formed: the result of the function is not annotated, so any
value may be returned. -/
theorem Program.no_errors_doubling :
    doubling.ids.Nodup ∧ ∃ a, doubling.analyze {} = .ok a
      ∧ ∀ d ∈ a.diagnostics, d.severity ≠ .error := by
  have hids : doubling.ids.Nodup := by decide
  obtain ⟨a, ha⟩ : ∃ a, doubling.analyze {} = .ok a :=
    analyze_ok (by decide) (by decide)
  refine ⟨hids, a, ha, (no_errors_iff_wellFormed hids ha).mpr ?_⟩
  refine .scope (by decide) (.cons (.function
    (show _ = some ⟨[.int], .unknown⟩ from rfl) (.scope (by decide) ?body))
    (.cons (.expr (show HasType _ _ .unknown from ?call)) .nil))
  case body =>
    refine .cons (.ret (show HasType _ _ .int from ?sum) .unknownTarget) .nil
    exact .binary (.identifier rfl) (.identifier rfl) (.arithmetic rfl .int)
  case call =>
    refine .call (.identifier
      (d := ⟨"twice", .function, .func [.int] .unknown, false⟩) ?_)
      (.cons .literal .nil) (.cons .refl .nil)
    rfl

end TreeCheck
