/-
The ways down into a program, from scene to scene.

There is one lemma for each rule by which a run goes from a point to the
next. It gives the next scene in terms of the one before and of the
source, so that what is known about the events before and after is known
at once at the next point.
-/
import TreeCheck.Proofs.Points.Scene

namespace TreeCheck

open Analysis

-- ============================================================= next walks

/-- A function that was declared ahead is passed over, another is declared. -/
abbrev ownWalk (ahead : Bool) (t : Tag) (name : String) (params : List Param)
    (result : Option TypeName) (body : List Stmt) (φ : Frame) (n : SymbolId) : Walk :=
  if ahead then ⟨φ, n, []⟩ else declaringFunction t name params result body φ n

/-- The scope of a function is opened: its parameters are bound, and the
functions of its body are declared ahead. -/
abbrev openingWalk (t : Tag) (params : List Param) (body : List Stmt)
    (n : SymbolId) : Walk :=
  (declaringParams t.id 0 params (params.map (·.type)) [] n).andThen
    (hoisting [] body)

theorem confined_openingParams (t : Tag) (params : List Param) (outer : Env)
    (n : SymbolId) :
    (declaringParams t.id 0 params (params.map (·.type)) [] n).Confined outer [] n :=
  composed_declaringParams (s := .function t "" params none t.position [])
    (composes_confined {}) trivial outer [] n

theorem confined_openingWalk (t : Tag) (params : List Param) (body : List Stmt)
    (outer : Env) (n : SymbolId) :
    (openingWalk t params body n).Confined outer [] n :=
  (confined_openingParams t params outer n).andThen (confined_hoisting _ _ _ _ _)

/-- The walk of an `else` that may be absent. -/
def elseWalk (config : Config) (b : Option Stmt) (expected : Option Ty) (outer : Env)
    (φ : Frame) (n : SymbolId) : Walk :=
  b.elim ⟨φ, n, []⟩ fun b =>
    walkBranch config b (b.walk config expected false) outer φ n

theorem confined_elseWalk (config : Config) (b : Option Stmt) (expected : Option Ty)
    (outer : Env) (φ : Frame) (n : SymbolId) :
    (elseWalk config b expected outer φ n).Confined outer φ n := by
  cases b with
  | none => exact .same outer φ n
  | some b => exact confined_walkBranch config b expected outer φ n

/-- An `if` is walked alike with an `else` and without. -/
theorem Stmt.walk_ifElse (config : Config) (t : Tag) (c : Expr) (a : Stmt)
    (b : Option Stmt) (expected : Option Ty) (ahead : Bool) (outer : Env) (φ : Frame)
    (n : SymbolId) :
    Stmt.walk config (.ifElse t c a b) expected ahead outer φ n
      = ((walkBranch config a (a.walk config expected false) outer φ n).andThen
          (elseWalk config b expected outer)).after
        (conditionEvents (Env.find (φ :: outer)) t.id .ifElse c) := by
  cases b with
  | none =>
      simp only [Stmt.walk, elseWalk, Option.elim, Walk.andThen, Walk.after,
        List.append_nil]
  | some b => rfl

/-- A bare branch is walked like a list of its own, where it is not declared
ahead. -/
theorem Stmt.walkAll_bare (config : Config) {stmt : Stmt} {earlier : List String}
    (expected : Option Ty) (outer : Env) (n : SymbolId)
    (h : stmt.isAhead earlier = false) :
    Walk.andThen ⟨[], n, []⟩ (Stmt.walkAll config [stmt] expected earlier outer)
      = stmt.walk config expected false outer [] n := by
  simp only [Walk.andThen, Stmt.walkAll, h, List.append_nil, List.nil_append]

/-- Behind a variable of its own name a statement is not declared ahead. -/
theorem Stmt.exists_isAhead_eq_false (stmt : Stmt) :
    ∃ earlier, stmt.isAhead earlier = false := by
  cases stmt with
  | function t name params result q body => exact ⟨[name], by simp [Stmt.isAhead]⟩
  | declaration | assignment | block | ifElse | «while» | ret | expr =>
      exact ⟨[], rfl⟩

namespace Scene

-- ============================================================ next scenes

/-- The scene of the first statement of a list. -/
def head (S : Scene) (config : Config) (expected : Option Ty) (earlier : List String)
    (stmt : Stmt) (ss : List Stmt) : Scene :=
  let w := stmt.walk config expected (stmt.isAhead earlier) S.outer S.frame S.next
  S.ahead (Stmt.walkAll config ss expected (stmt.variablesAfter earlier) S.outer
    w.frame w.next).events

/-- The scene behind the first statement of a list. -/
def tail (S : Scene) (config : Config) (expected : Option Ty) (earlier : List String)
    (stmt : Stmt) : Scene :=
  S.past (stmt.walk config expected (stmt.isAhead earlier) S.outer S.frame S.next)

/-- The scene of the statements of a scope that has been opened by a walk. -/
def opened (S : Scene) (config : Config) (o : Walk) (expected : Option Ty)
    (earlier : List String) (ss : List Stmt) : Scene :=
  (S.within config (o.andThen
    (Stmt.walkAll config ss expected earlier S.env))).past o

/-- The scene of the scope of a block. -/
def atBlock (S : Scene) (config : Config) (expected : Option Ty) (ss : List Stmt) :
    Scene :=
  S.within config ((hoisting [] ss [] S.next).andThen
    (Stmt.walkAll config ss expected [] S.env))

/-- The scene behind a function that has been declared. -/
def atOwn (S : Scene) (ahead : Bool) (t : Tag) (name : String) (params : List Param)
    (result : Option TypeName) (body : List Stmt) : Scene :=
  S.past (ownWalk ahead t name params result body S.frame S.next)

/-- The scene of the scope of a function that has been declared. -/
def atBody (S : Scene) (config : Config) (t : Tag) (params : List Param)
    (ret : Ty) (body : List Stmt) : Scene :=
  (S.within config ((openingWalk t params body S.next).andThen
    (Stmt.walkAll config body (some ret) [] S.env))).past
      (declaringParams t.id 0 params (params.map (·.type)) [] S.next)

/-- The scene behind a condition. -/
def behind (S : Scene) (t : Tag) (construct : Construct) (c : Expr) : Scene :=
  S.consulted (conditionEvents S.env.find t.id construct c)

/-- The scene of a branch before an `else` that may be absent. -/
def beforeElse (S : Scene) (config : Config) (expected : Option Ty) (a : Stmt)
    (b : Option Stmt) : Scene :=
  let w := walkBranch config a (a.walk config expected false) S.outer S.frame S.next
  S.ahead (elseWalk config b expected S.outer w.frame w.next).events

/-- The scene of an `else`. -/
def atElse (S : Scene) (config : Config) (expected : Option Ty) (a : Stmt) : Scene :=
  S.past (walkBranch config a (a.walk config expected false) S.outer S.frame S.next)

/-- A run has opened the scope of a region by a walk. Before it did, the walk of
the whole region was ahead; now that of its statements is. -/
structure AtRegion (config : Config) (p : Program) (S : Scene) (ctx : Context)
    (s : State) (o : Walk) (earlier : List String) (ss : List Stmt) : Prop where
  around : ∃ s₀ σ ids, S.Holds config p s₀ σ ids
    ((o.andThen (Stmt.walkAll config ss ctx.expected earlier S.env)).closed config
      S.frame)
  list : (S.opened config o ctx.expected earlier ss).AtList config p ctx s earlier ss

section

variable {config : Config} {p : Program} {S : Scene} {ctx inner : Context}
  {s s₁ s₂ s₃ s₄ : State} {σ : Signatures} {ids : List NodeId}

-- ================================================================= program

/-- The scene at the start of a program. -/
def start : Scene := ⟨[], [], 0, [], []⟩

theorem atScope_start (hids : p.ids.Nodup) :
    start.AtScope config p { config } (State.entered {}) p.body := by
  refine ⟨rfl, {}, ⟨Mirrors.start.enter, p.nodup_functionIds hids, (List.append_nil _).symm, rfl, ?_,
    nofun⟩, fun _ _ => Std.TreeMap.getElem?_emptyc⟩
  intro ψ hψ
  rw [List.mem_singleton.mp hψ]
  exact nofun

-- ================================================================== lists

theorem AtScope.list {ss : List Stmt} (h : S.AtScope config p ctx s ss)
    (hhoist : Completes (hoist [] ss) s () s₁) :
    (S.past (hoisting [] ss S.frame S.next)).AtList config p ctx s₁ [] ss := by
  obtain ⟨hconfig, σ, hholds, hnone⟩ := h
  have hreach := reaches_hoist hholds.mirrors hhoist
  refine ⟨hconfig, _, hholds.past hreach rfl ?_ (List.Sublist.refl _), ?_⟩
  · exact confined_hoisting _ _ _ _ _
  · exact awaitsAll_hoistedSignatures hholds.nodup hnone

theorem AtList.head {earlier : List String} {stmt : Stmt} {ss : List Stmt}
    (h : S.AtList config p ctx s earlier (stmt :: ss)) :
    (S.head config ctx.expected earlier stmt ss).AtStmt config p ctx s
      (stmt.isAhead earlier) stmt := by
  obtain ⟨hconfig, σ, hholds, hawaits⟩ := h
  refine ⟨hconfig, σ, hholds.first ?_ ?_, hawaits.1⟩
  · exact Stmt.confined_walkAll _ _ _ _ _ _ _
  · exact List.sublist_append_left _ _

theorem AtList.tail {earlier : List String} {stmt : Stmt} {ss : List Stmt}
    (h : S.AtList config p ctx s earlier (stmt :: ss))
    (hchecked : Completes (checkStmt ctx stmt) s () s₁) :
    (S.tail config ctx.expected earlier stmt).AtList config p ctx s₁
      (stmt.variablesAfter earlier) ss := by
  obtain ⟨rfl, σ, hholds, hawaits⟩ := h
  simp only [Stmt.walkAll, Stmt.functionIdsAll] at hholds
  obtain ⟨hown, -, hdisjoint⟩ := List.nodup_append.mp hholds.nodup
  have hreach := reaches_checkStmt stmt hholds.mirrors hchecked
  have hfollows := Stmt.course_eq_walk ctx.config stmt ctx.expected S.outer S.frame
    S.next hown hawaits.1
  refine ⟨rfl, _, hholds.past hreach hfollows.walk ?_ ?_, ?_⟩
  · exact Stmt.confined_walk _ _ _ _ _ _ _
  · exact List.sublist_append_right _ _
  · refine hawaits.2.congr fun id hid => hfollows.kept id fun hmem => ?_
    exact hdisjoint id hmem id hid rfl

-- ================================================================= scopes

theorem AtStmt.blockScope {ahead : Bool} {t : Tag} {q : Position} {ss : List Stmt}
    (h : S.AtStmt config p ctx s ahead (.block t q ss))
    (hdescend : Completes (ctx.descend t.position) s inner s₁) :
    (S.atBlock config ctx.expected ss).AtScope config p inner s₁.entered ss := by
  obtain ⟨hconfig, σ, hholds, hawaits⟩ := h
  obtain ⟨rfl, rfl⟩ := completes_descend hdescend
  simp only [Stmt.walk, Stmt.functionIds] at hholds
  exact ⟨hconfig, σ, hholds.within, hawaits⟩

theorem AtStmt.block {ahead : Bool} {t : Tag} {q : Position} {ss : List Stmt}
    (h : S.AtStmt config p ctx s ahead (.block t q ss))
    (hdescend : Completes (ctx.descend t.position) s inner s₁)
    (hhoist : Completes (hoist [] ss) s₁.entered () s₂) :
    S.AtRegion config p inner s₂ (hoisting [] ss [] S.next) [] ss := by
  have hscope := h.blockScope hdescend
  obtain ⟨hconfig, σ, hholds, hawaits⟩ := h
  obtain ⟨rfl, rfl⟩ := completes_descend hdescend
  exact ⟨⟨_, _, _, hholds⟩, hscope.list hhoist⟩

theorem AtStmt.own {ahead : Bool} {t : Tag} {name : String}
    {params : List Param} {result : Option TypeName} {q : Position}
    {body : List Stmt} {sig : Signature}
    (h : S.AtStmt config p ctx s ahead (.function t name params result q body))
    (hdescend : Completes (ctx.descend t.position) s inner s₁)
    (hsig : Completes (signatureOf t name params result body) s₁ sig s₂) :
    sig = Signature.of params result body ∧ inner.config = config
      ∧ ∃ σ, (S.atOwn ahead t name params result body).Holds config p s₂ σ
          (Stmt.functionIdsAll body)
          (((openingWalk t params body
            (S.atOwn ahead t name params result body).next).andThen
              (Stmt.walkAll config body (some sig.ret) []
                (S.atOwn ahead t name params result body).env)).closed config
                  (S.atOwn ahead t name params result body).frame)
        ∧ ∀ id ∈ Stmt.functionIdsAll body, σ[id]? = none := by
  obtain ⟨hconfig, σ, hholds, hown, hbody⟩ := h
  obtain ⟨rfl, rfl⟩ := completes_descend hdescend
  obtain ⟨rfl, hreached⟩ := reaches_signatureOf hholds.mirrors hsig
  have hkept : σ[t.id]?.getD (Signature.of params result body)
      = Signature.of params result body := by
    rw [hown]
    cases ahead <;> rfl
  simp only [Stmt.walk, Stmt.functionIds] at hholds
  have hfollows := follows_reachingFunction name S.frame S.next hown
  have hconfined : (ownWalk ahead t name params result body S.frame S.next).Confined
      S.outer S.frame S.next := by
    cases ahead with
    | true => exact .same _ _ _
    | false =>
        exact composed_declaringFunction (q := q) (composes_confined config) trivial _ _ _
  rw [hkept]
  refine ⟨rfl, hconfig, _, hholds.past hreached hfollows.walk hconfined
    (List.sublist_cons_self _ _), fun id hid => ?_⟩
  have hne : id ∉ [t.id] := fun hmem =>
    (List.nodup_cons.mp hholds.nodup).1 (List.mem_singleton.mp hmem ▸ hid)
  exact (hfollows.kept id hne).trans (hbody id hid)

theorem AtStmt.functionScope {ahead : Bool} {t : Tag} {name : String}
    {params : List Param} {result : Option TypeName} {q : Position}
    {body : List Stmt} {sig : Signature}
    (h : S.AtStmt config p ctx s ahead (.function t name params result q body))
    (hdescend : Completes (ctx.descend t.position) s inner s₁)
    (hsig : Completes (signatureOf t name params result body) s₁ sig s₂)
    (hparams : Completes (declareParams params sig.params) s₂.entered () s₃) :
    ((S.atOwn ahead t name params result body).atBody config t params sig.ret
      body).AtScope config p (inner.returning sig.ret) s₃ body := by
  obtain ⟨rfl, hconfig, σ, hholds, hnone⟩ := h.own hdescend hsig
  generalize S.atOwn ahead t name params result body = T at hholds
  have hwithin := hholds.within
  rw [openingWalk, Walk.andThen_assoc] at hwithin
  have hreach := reaches_declareParams t.id 0 hwithin.mirrors hparams
  rw [atBody, openingWalk, Walk.andThen_assoc]
  refine ⟨hconfig, _, hwithin.past hreach rfl ?_ (List.Sublist.refl _), hnone⟩
  exact confined_openingParams _ _ _ _

theorem AtStmt.function {ahead : Bool} {t : Tag} {name : String}
    {params : List Param} {result : Option TypeName} {q : Position}
    {body : List Stmt} {sig : Signature}
    (h : S.AtStmt config p ctx s ahead (.function t name params result q body))
    (hdescend : Completes (ctx.descend t.position) s inner s₁)
    (hsig : Completes (signatureOf t name params result body) s₁ sig s₂)
    (hparams : Completes (declareParams params sig.params) s₂.entered () s₃)
    (hhoist : Completes (hoist [] body) s₃ () s₄) :
    sig = Signature.of params result body
      ∧ (S.atOwn ahead t name params result body).AtRegion
        config p (inner.returning sig.ret) s₄
        (openingWalk t params body
          (S.atOwn ahead t name params result body).next) [] body := by
  have hscope := h.functionScope hdescend hsig hparams
  obtain ⟨hsignature, -, σ, hholds, -⟩ := h.own hdescend hsig
  refine ⟨hsignature, ⟨_, _, _, hholds⟩, ?_⟩
  rw [opened, openingWalk, past_andThen]
  exact hscope.list hhoist

-- =============================================================== branches

theorem exists_reaches_branch {branch : Stmt} {outer : Env} {φ : Frame} {n : SymbolId}
    (hm : Mirrors s (φ :: outer) n σ) (hids : branch.functionIds.Nodup)
    (hnone : ∀ id ∈ branch.functionIds, σ[id]? = none)
    (hrun : Completes (inBranch ctx.config branch (checkStmt ctx branch)) s () s₁) :
    ∃ c : Course, Reaches s outer φ n c s₁
      ∧ c.Follows (walkBranch ctx.config branch
          (branch.walk ctx.config ctx.expected false) outer φ n) σ branch.functionIds := by
  refine ⟨_, reaches_inBranch hm hrun fun hm hrun => reaches_checkStmt branch hm hrun, ?_⟩
  refine follows_courseOfBranch ctx.config branch outer φ n fun outer φ n => ?_
  exact Stmt.course_eq_walk ctx.config branch ctx.expected outer φ n hids
    (Stmt.awaits_of_none hnone)

theorem AtStmt.thenBranch {ahead : Bool} {t : Tag} {c : Expr} {a : Stmt}
    {b : Option Stmt} (h : S.AtStmt config p ctx s ahead (.ifElse t c a b))
    (hdescend : Completes (ctx.descend t.position) s inner s₁)
    (hcondition : Completes (checkCondition inner .ifElse c) s₁ () s₂) :
    ((S.behind t .ifElse c).beforeElse config ctx.expected a b).AtBranch config p
      inner s₂ a := by
  obtain ⟨hconfig, σ, hholds, hawaits⟩ := h
  obtain ⟨rfl, rfl⟩ := completes_descend hdescend
  obtain rfl := completes_checkCondition hholds.mirrors.resolves t.id hcondition
  rw [Stmt.walk_ifElse] at hholds
  have hconsulted := hholds.consulted (consults_conditionEvents _ _ _)
  have hids : a.functionIds.Sublist (Stmt.functionIds (.ifElse t c a b)) := by
    cases b with
    | none => exact List.Sublist.refl _
    | some b => exact List.sublist_append_left _ _
  refine ⟨hconfig, σ, hconsulted.first ?_ hids, fun id hid => ?_⟩
  · exact confined_elseWalk _ _ _ _ _ _
  · exact hawaits id (hids.mem hid)

theorem AtStmt.elseBranch {ahead : Bool} {t : Tag} {c : Expr} {a b : Stmt}
    (h : S.AtStmt config p ctx s ahead (.ifElse t c a (some b)))
    (hdescend : Completes (ctx.descend t.position) s inner s₁)
    (hcondition : Completes (checkCondition inner .ifElse c) s₁ () s₂)
    (hpassed : Completes (inBranch ctx.config a (checkStmt inner a)) s₂ () s₃) :
    ((S.behind t .ifElse c).atElse config ctx.expected a).AtBranch config p inner s₃
      b := by
  obtain ⟨rfl, σ, hholds, hawaits⟩ := h
  obtain ⟨rfl, rfl⟩ := completes_descend hdescend
  obtain rfl := completes_checkCondition hholds.mirrors.resolves t.id hcondition
  simp only [Stmt.walk, Stmt.functionIds] at hholds
  have hconsulted := hholds.consulted (consults_conditionEvents _ _ _)
  obtain ⟨ha, -, hdisjoint⟩ := List.nodup_append.mp hholds.nodup
  obtain ⟨c, hreach, hfollows⟩ := exists_reaches_branch hconsulted.mirrors ha
    (fun id hid => hawaits id (List.mem_append_left _ hid)) hpassed
  refine ⟨rfl, _, hconsulted.past hreach hfollows.walk ?_ ?_, fun id hid => ?_⟩
  · exact confined_walkBranch _ _ _ _ _ _
  · exact List.sublist_append_right _ _
  · refine (hfollows.kept id fun hmem => hdisjoint id hmem id hid rfl).trans ?_
    exact hawaits id (List.mem_append_right _ hid)

theorem AtStmt.loop {ahead : Bool} {t : Tag} {c : Expr} {b : Stmt}
    (h : S.AtStmt config p ctx s ahead (.while t c b))
    (hdescend : Completes (ctx.descend t.position) s inner s₁)
    (hcondition : Completes (checkCondition inner .while c) s₁ () s₂) :
    (S.behind t .while c).AtBranch config p inner s₂ b := by
  obtain ⟨hconfig, σ, hholds, hawaits⟩ := h
  obtain ⟨rfl, rfl⟩ := completes_descend hdescend
  obtain rfl := completes_checkCondition hholds.mirrors.resolves t.id hcondition
  simp only [Stmt.walk, Stmt.functionIds] at hholds
  exact ⟨hconfig, σ, hholds.consulted (consults_conditionEvents _ _ _), hawaits⟩

theorem AtBranch.braced {stmt : Stmt} (h : S.AtBranch config p ctx s stmt)
    (hblock : stmt.isBlock = true) : S.AtStmt config p ctx s false stmt := by
  obtain ⟨hconfig, σ, hholds, hnone⟩ := h
  rw [walkBranch, if_pos hblock] at hholds
  exact ⟨hconfig, σ, hholds, Stmt.awaits_of_none hnone⟩

theorem AtBranch.alone {stmt : Stmt} (h : S.AtBranch config p ctx s stmt)
    (hblock : stmt.isBlock = false) :
    (S.within config (stmt.walk config ctx.expected false S.env [] S.next)).AtStmt config
      p ctx s.entered false stmt := by
  obtain ⟨hconfig, σ, hholds, hnone⟩ := h
  rw [walkBranch, if_neg (Bool.eq_false_iff.mp hblock)] at hholds
  exact ⟨hconfig, σ, hholds.within, Stmt.awaits_of_none hnone⟩

theorem AtBranch.bare {stmt : Stmt} {earlier : List String}
    (h : S.AtBranch config p ctx s stmt) (hblock : stmt.isBlock = false)
    (hahead : stmt.isAhead earlier = false) :
    S.AtRegion config p ctx s.entered ⟨[], S.next, []⟩ earlier [stmt] := by
  obtain ⟨hconfig, σ, hholds, hnone⟩ := h
  rw [walkBranch, if_neg (Bool.eq_false_iff.mp hblock),
    ← Stmt.walkAll_bare config ctx.expected S.env S.next hahead] at hholds
  have hwithin := hholds.within
  refine ⟨⟨_, _, _, hholds⟩, hconfig, _,
    hwithin.past (.events hwithin.mirrors consults_nil) rfl (.same _ _ _) ?_, ?_⟩
  · rw [Stmt.functionIdsAll, Stmt.functionIdsAll, List.append_nil]
  · refine ⟨?_, trivial⟩
    rw [hahead]
    exact Stmt.awaits_of_none hnone

-- ================================================================== whole

/-- A list that has been checked has done its walk. -/
theorem AtList.checked {earlier : List String} {ss : List Stmt}
    (h : S.AtList config p ctx s earlier ss)
    (hchecked : Completes (checkStmts ctx ss) s () s₁) :
    s₁.log = replay {} (S.before
      ++ (Stmt.walkAll config ss ctx.expected earlier S.outer S.frame S.next).events) := by
  obtain ⟨rfl, σ, hholds, hawaits⟩ := h
  have hreach := reaches_checkStmts ss hholds.mirrors hchecked
  have hfollows := Stmt.courseAll_eq_walkAll ctx.config ss ctx.expected S.outer S.frame
    S.next hholds.nodup hawaits
  rw [hreach.done, hholds.done, ← replay_append, hfollows.walk]

theorem AtScope.checked {ss : List Stmt} (h : S.AtScope config p ctx s ss)
    (hhoist : Completes (hoist [] ss) s () s₁)
    (hchecked : Completes (checkStmts ctx ss) s₁ () s₂) :
    s₂.log = replay {} (S.before ++ ((hoisting [] ss S.frame S.next).andThen
      (Stmt.walkAll config ss ctx.expected [] S.outer)).events) := by
  rw [(h.list hhoist).checked hchecked, Walk.events_andThen, ← List.append_assoc]
  rfl

theorem AtBranch.checked {stmt : Stmt} (h : S.AtBranch config p ctx s stmt)
    (hrun : Completes (inBranch ctx.config stmt (checkStmt ctx stmt)) s () s₁) :
    s₁.log = replay {} (S.before ++ (walkBranch config stmt
      (stmt.walk config ctx.expected false) S.outer S.frame S.next).events) := by
  obtain ⟨rfl, σ, hholds, hnone⟩ := h
  obtain ⟨c, hreach, hfollows⟩ :=
    exists_reaches_branch hholds.mirrors hholds.nodup hnone hrun
  rw [hreach.done, hholds.done, ← replay_append, hfollows.walk]

namespace AtRegion

variable {o : Walk} {earlier : List String} {ss : List Stmt}

theorem checked (h : S.AtRegion config p ctx s o earlier ss)
    (hchecked : Completes (checkStmts ctx ss) s () s₁) :
    s₁.log = replay {} (S.before
      ++ (o.andThen (Stmt.walkAll config ss ctx.expected earlier S.env)).events) := by
  rw [h.list.checked hchecked, Walk.events_andThen, ← List.append_assoc]
  rfl

/-- The account of a program, cut where a scope is opened and where it is
left. -/
theorem account (h : S.AtRegion config p ctx s o earlier ss) :
    let w := o.andThen (Stmt.walkAll config ss ctx.expected earlier S.env)
    p.account config
      = S.before ++ (w.events ++ (leavingEvents config w ++ S.after)) := by
  obtain ⟨s₀, σ, ids, hholds⟩ := h.around
  simp only [hholds.account, Walk.closed, List.append_assoc]

/-- What is bound in a scope can be read inside only. -/
theorem read_iff (h : S.AtRegion config p ctx s o earlier ss)
    (ho : o.Confined S.env [] S.next) {d : Declared}
    (hd : d ∈ (o.andThen (Stmt.walkAll config ss ctx.expected earlier
      S.env)).events.filterMap Event.bound?) :
    .read d.id ∈ p.account config
      ↔ .read d.id
        ∈ (o.andThen (Stmt.walkAll config ss ctx.expected earlier S.env)).events := by
  obtain ⟨s₀, σ, ids, hholds⟩ := h.around
  have haccount := h.account
  have hw := ho.andThen (Stmt.confined_walkAll config ss ctx.expected earlier S.env
    o.frame o.next)
  generalize o.andThen (Stmt.walkAll config ss ctx.expected earlier S.env) = w
    at hd hholds haccount hw
  obtain ⟨hle, hlt⟩ := hw.bound d hd
  have hbefore : .read d.id ∉ S.before := by
    intro hread
    have hused : d.id ∈ s₀.log.used := by
      rw [hholds.done]
      exact mem_used_replay.mpr (.inr hread)
    exact absurd (hholds.mirrors.used d.id hused) (Nat.not_lt.mpr hle)
  have hleaving : .read d.id ∉ leavingEvents config w := by
    intro hread
    obtain ⟨node, f, hf⟩ := reports_leavingEvents config w _ hread
    cases hf
  have hafter : .read d.id ∉ S.after := by
    intro hread
    rcases hholds.later d.id hread with ⟨ψ, hψ, e, he, hid⟩ | hnew
    · have hold := hholds.mirrors.below ψ hψ e he
      exact absurd hid (Nat.ne_of_lt (Nat.lt_of_lt_of_le hold hle))
    · exact absurd hlt (Nat.not_lt.mpr hnew)
  rw [haccount, List.mem_append, List.mem_append, List.mem_append]
  simp only [hbefore, hleaving, hafter, false_or, or_false]

end AtRegion

end

end Scene

end TreeCheck
