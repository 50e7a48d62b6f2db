/-
Two runs side by side.

Two programs that differ in the content of one slot are followed down to
it. At every point on the way the scenes of the two runs are twins: what
is before them is alike, what is behind them is alike, and so are the
frames in force. A statement hands on to the statements behind it only
the frame that it leaves, and with a slot filled in one way or another it
leaves the same, as its own declaration is all that it binds there.
-/
import TreeCheck.Proofs.Modularity.Entering
import TreeCheck.Proofs.Scoping.Frames

namespace TreeCheck

open Analysis

-- ============================================================ exchanging

section

variable {x y : List Stmt}

theorem Signature.of_congr (params : List Param) (result : Option TypeName)
    (h : Stmt.anyReturnsValue x = Stmt.anyReturnsValue y) :
    Signature.of params result x = Signature.of params result y := by
  rw [Signature.of, Signature.of, h]

theorem declaringFunction_congr (t : Tag) (name : String) (params : List Param)
    (result : Option TypeName) (h : Stmt.anyReturnsValue x = Stmt.anyReturnsValue y) :
    declaringFunction t name params result x
      = declaringFunction t name params result y := by
  funext φ n
  rw [declaringFunction, declaringFunction, Signature.of_congr params result h]

end

section

variable {slot : Slot} {x y : slot.Content}

theorem Slot.isAhead_fill (slot : Slot) (x y : slot.Content) (earlier : List String) :
    (slot.fill x).isAhead earlier = (slot.fill y).isAhead earlier := by
  obtain (t | t) | (t | t | t) := slot <;> rfl

theorem Slot.variablesAfter_fill (slot : Slot) (x : slot.Content)
    (earlier : List String) : (slot.fill x).variablesAfter earlier = earlier := by
  obtain (t | t) | (t | t | t) := slot <;> rfl

theorem Slot.isBlock_fill (slot : Slot) (x y : slot.Content) :
    (slot.fill x).isBlock = (slot.fill y).isBlock := by
  obtain (t | t) | (t | t | t) := slot <;> rfl

theorem Slot.isVariable_fill (slot : Slot) (x : slot.Content) :
    (slot.fill x).isVariable = false := by
  obtain (t | t) | (t | t | t) := slot <;> rfl

theorem Slot.expected_congr (expected : Option Ty)
    (h : Stmt.anyReturnsValue (slot.stmts x) = Stmt.anyReturnsValue (slot.stmts y)) :
    slot.expected expected x = slot.expected expected y := by
  obtain (t | ⟨t, name, params, result, q⟩) | (t | t | t) := slot
  · rfl
  · exact congrArg (fun sig => some sig.ret) (Signature.of_congr params result h)
  · rfl
  · rfl
  · rfl

/-- What is declared ahead of a list does not depend on a content in it, but for
whether that returns a value. -/
theorem hoisting_congr (before behind : List Stmt)
    (h : Stmt.anyReturnsValue (slot.stmts x) = Stmt.anyReturnsValue (slot.stmts y))
    (earlier : List String) :
    hoisting earlier (before ++ slot.fill x :: behind)
      = hoisting earlier (before ++ slot.fill y :: behind) := by
  induction before generalizing earlier with
  | nil =>
      obtain (t | ⟨t, name, params, result, q⟩) | (t | t | t) := slot
      · rfl
      · have h : Stmt.anyReturnsValue x = Stmt.anyReturnsValue y := h
        funext φ n
        show (if name ∈ earlier then _ else
            (declaringFunction t name params result x φ n).andThen _) = _
        rw [declaringFunction_congr t name params result h]
        rfl
      · rfl
      · rfl
      · rfl
  | cons s before ih =>
      funext φ n
      cases s with
      | function t name params result q body =>
          simp only [List.cons_append, hoisting, ih earlier]
      | declaration t name ann init m => exact congrFun (congrFun (ih _) φ) n
      | assignment | block | ifElse | «while» | ret | expr =>
          exact congrFun (congrFun (ih _) φ) n

end

-- ================================================================= twins

/-- Scenes of two runs that have done alike, have alike around them, and have
alike to do afterwards. -/
structure Scene.Twin (K : List NodeId) (S S' : Scene) : Prop where
  outer : Env.Alike K S.outer S'.outer
  frame : Frame.Alike K S.frame S'.frame
  before : EventsAlike K S.before S'.before
  after : EventsAlike K S.after S'.after

namespace Scene.Twin

variable {K : List NodeId} {S S' : Scene} {w w' : Walk} {es es' : List Event}
  {config : Config}

theorem env (h : S.Twin K S') : Env.Alike K S.env S'.env :=
  List.Forall₂.cons h.frame h.outer

theorem past (h : S.Twin K S') (hw : w.Alike K w') : (S.past w).Twin K (S'.past w') :=
  ⟨h.outer, hw.frame, h.before.append hw.events, h.after⟩

theorem ahead (h : S.Twin K S') (hes : EventsAlike K es es') :
    (S.ahead es).Twin K (S'.ahead es') :=
  ⟨h.outer, h.frame, h.before, hes.append h.after⟩

theorem consulted (h : S.Twin K S') (hes : EventsAlike K es es') :
    (S.consulted es).Twin K (S'.consulted es') :=
  ⟨h.outer, h.frame, h.before.append hes, h.after⟩

/-- Where a scope is opened, only the warnings when it is left are added to what
is to be done. -/
theorem within (h : S.Twin K S') (w w' : Walk) :
    (S.within config w).Twin K (S'.within config w') where
  outer := h.env
  frame := .nil
  before := h.before
  after := by
    refine (eventsAlike_of_told ?_ ?_).append h.after
    · exact (reports_leavingEvents config w).resolved
    · rw [told_leavingEvents, told_leavingEvents]

/-- A walk of one source from twins. -/
theorem walk {f : Env → Frame → SymbolId → Walk} (h : S.Twin K S')
    (hf : AlikeWalks K f) :
    (f S.outer S.frame S.next).Alike K (f S'.outer S'.frame S'.next) :=
  hf _ _ _ _ _ _ h.outer h.frame

end Scene.Twin

-- ================================================================= walks

/-- All statements of a list, at any depth, are among those that may declare. -/
def Stmt.DeclareIn (K : List NodeId) (ss : List Stmt) : Prop :=
  ∀ l ∈ Stmt.labels ss, l.1 ∈ K

section

variable {config : Config} {K : List NodeId} {ss ts : List Stmt} {s : Stmt}

theorem Stmt.DeclareIn.stmts (h : Stmt.DeclareIn K ss) :
    ∀ s ∈ (Stmt.outlines 0 .body ss).filterMap (·.node.stmt?), s.id ∈ K :=
  fun _ hs => h _ (List.mem_map_of_mem hs)

theorem Stmt.DeclareIn.stmt (h : Stmt.DeclareIn K [s]) :
    ∀ s' ∈ (s.outline 0 .body).filterMap (·.node.stmt?), s'.id ∈ K := by
  have hstmts := h.stmts
  rwa [Stmt.outlines, Stmt.outlines, List.append_nil] at hstmts

theorem Stmt.declareIn_cons :
    Stmt.DeclareIn K (s :: ss) ↔ Stmt.DeclareIn K [s] ∧ Stmt.DeclareIn K ss := by
  rw [Stmt.DeclareIn, Stmt.labels_cons, List.forall_mem_append]
  rfl

theorem Stmt.alike_walk (h : Stmt.DeclareIn K [s]) (config : Config)
    (expected : Option Ty) (ahead : Bool) :
    AlikeWalks K fun outer φ n => s.walk config expected ahead outer φ n :=
  Stmt.composed_walk (composes_alike config K) s h.stmt

theorem Stmt.alike_walkAll (h : Stmt.DeclareIn K ss) (config : Config)
    (expected : Option Ty) (earlier : List String) :
    AlikeWalks K fun outer φ n => Stmt.walkAll config ss expected earlier outer φ n :=
  Stmt.composed_walkAll (composes_alike config K) ss h.stmts

theorem alike_hoisting (h : ∀ s ∈ ss, s.id ∈ K) (earlier : List String) :
    AlikeWalks K fun _ φ n => hoisting earlier ss φ n :=
  composed_hoisting (composes_alike {} K) h

theorem alike_walkBranch (h : Stmt.DeclareIn K [s]) (config : Config)
    (expected : Option Ty) :
    AlikeWalks K fun outer φ n =>
      walkBranch config s (s.walk config expected false) outer φ n :=
  composed_walkBranch (composes_alike config K) (Stmt.alike_walk h config expected false)

theorem alike_elseWalk {b : Option Stmt} (h : Stmt.DeclareIn K b.toList)
    (config : Config) (expected : Option Ty) :
    AlikeWalks K fun outer φ n => elseWalk config b expected outer φ n := by
  cases b with
  | none => exact (composes_alike config K).same
  | some b => exact alike_walkBranch h config expected

theorem alike_openingParams {t : Tag} (ht : t.id ∈ K) (params : List Param) :
    AlikeWalks K fun _ φ n =>
      declaringParams t.id 0 params (params.map (·.type)) φ n :=
  composed_declaringParams (s := .function t "" params none t.position [])
    (composes_alike {} K) ht

end

section

variable {K : List NodeId} {φ φ' : Frame} {config : Config}

/-- A function is declared alike with one body or another. -/
theorem alike_ownWalk {x y : List Stmt} {t : Tag} (name : String)
    (params : List Param) (result : Option TypeName) (ht : t.id ∈ K)
    (h : Stmt.anyReturnsValue x = Stmt.anyReturnsValue y) (hφ : Frame.Alike K φ φ')
    (ahead : Bool) (n n' : SymbolId) :
    (ownWalk ahead t name params result x φ n).Alike K
      (ownWalk ahead t name params result y φ' n') := by
  cases ahead with
  | true => exact ⟨hφ, .nil⟩
  | false =>
      have halike : AlikeWalks K fun _ φ n =>
          declaringFunction t name params result y φ n :=
        composed_declaringFunction (q := t.position) (composes_alike {} K) ht
      show (declaringFunction t name params result x φ n).Alike K
        (declaringFunction t name params result y φ' n')
      rw [declaringFunction_congr t name params result h]
      exact halike [] [] φ φ' n n' .nil hφ

variable {slot : Slot} {x y : slot.Content}

/-- With one content or another, a statement binds alike in the scope around. -/
theorem Slot.alike_own (hid : (slot.fill x).id ∈ K)
    (h : Stmt.anyReturnsValue (slot.stmts x) = Stmt.anyReturnsValue (slot.stmts y))
    (hφ : Frame.Alike K φ φ') (ahead : Bool) (n n' : SymbolId) :
    Frame.Alike K ((slot.fill x).own ahead φ n) ((slot.fill y).own ahead φ' n') := by
  obtain (t | ⟨t, name, params, result, q⟩) | (t | t | t) := slot
  · exact hφ
  · have hown := (alike_ownWalk name params result hid h hφ ahead n n').frame
    rw [Stmt.frame_reached (p := q), Stmt.frame_reached (p := q)] at hown
    exact hown
  · exact hφ
  · exact hφ
  · exact hφ

end

-- ================================================================= steps

namespace Scene.Twin

variable {K : List NodeId} {S S' : Scene} {config : Config} {slot : Slot}
  {x y : slot.Content}

theorem head {ss : List Stmt} (h : S.Twin K S') (hid : (slot.fill x).id ∈ K)
    (hreturns : Stmt.anyReturnsValue (slot.stmts x) = Stmt.anyReturnsValue (slot.stmts y))
    (hss : Stmt.DeclareIn K ss) (expected : Option Ty) (earlier : List String) :
    (S.head config expected earlier (slot.fill x) ss).Twin K
      (S'.head config expected earlier (slot.fill y) ss) := by
  refine h.ahead ?_
  have hframe := slot.alike_own hid hreturns h.frame ((slot.fill x).isAhead earlier)
    S.next S'.next
  simp only [Stmt.frame_walk (slot.isVariable_fill _), slot.variablesAfter_fill,
    ← slot.isAhead_fill x y]
  exact (Stmt.alike_walkAll hss config expected earlier _ _ _ _ _ _ h.outer hframe).events

theorem behind (h : S.Twin K S') (t : Tag) (construct : Construct) (c : Expr) :
    (S.behind t construct c).Twin K (S'.behind t construct c) := by
  refine h.consulted ?_
  cases construct with
  | ifElse => exact Stmt.alike_consulting (s := .ifElse t c (.expr t c) none) h.env none
  | «while» => exact Stmt.alike_consulting (s := .while t c (.expr t c)) h.env none

/-- The contents of the slot of a statement begin as twins if the statements
do. -/
theorem enter (h : S.Twin K S') (houtside : ∀ l ∈ slot.outside, l.1 ∈ K)
    (hreturns : Stmt.anyReturnsValue (slot.stmts x) = Stmt.anyReturnsValue (slot.stmts y))
    (expected : Option Ty) (ahead : Bool) :
    (S.enter config expected ahead slot x).Twin K
      (S'.enter config expected ahead slot y) := by
  obtain (t | ⟨t, name, params, result, q⟩) | (⟨t, c, b⟩ | ⟨t, c, a⟩ | ⟨t, c⟩) := slot
  · exact h.within _ _
  · have ht : t.id ∈ K := houtside _ List.mem_cons_self
    have hown := h.past (alike_ownWalk name params result ht hreturns h.frame ahead
      S.next S'.next)
    exact (hown.within _ _).past (alike_openingParams ht params _ _ _ _ _ _ hown.env .nil)
  · have hb : Stmt.DeclareIn K b.toList := (List.forall_mem_cons.mp houtside).2
    refine (h.behind t .ifElse c).ahead ?_
    rw [frame_walkBranch, frame_walkBranch]
    exact (alike_elseWalk hb config expected _ _ _ _ _ _ h.outer h.frame).events
  · have ha : Stmt.DeclareIn K [a] := (List.forall_mem_cons.mp houtside).2
    have hbehind := h.behind t .ifElse c
    exact hbehind.past (hbehind.walk (alike_walkBranch ha config expected))
  · exact h.behind t .while c

end Scene.Twin

-- ============================================================== two runs

/-- A run is about to check a statement, and completes the check. -/
structure Scene.Runs (config : Config) (p : Program) (S : Scene) (ctx : Context)
    (s : State) (ahead : Bool) (stmt : Stmt) : Prop where
  reached : p.At config (.stmt stmt) ctx s
  scene : S.AtStmt config p ctx s ahead stmt
  completes : ∃ t, Completes (checkStmt ctx stmt) s () t

/-- A run is about to check statements, and completes the checks. -/
structure Scene.RunsAll (config : Config) (p : Program) (S : Scene) (ctx : Context)
    (s : State) (earlier : List String) (ss : List Stmt) : Prop where
  reached : p.At config (.list ss) ctx s
  scene : S.AtList config p ctx s earlier ss
  completes : ∃ t, Completes (checkStmts ctx ss) s () t

/-- A run is about to check the content of a slot, and completes the check. -/
structure Scene.RunsContent (config : Config) (p : Program) (S : Scene) (ctx : Context)
    (s : State) (slot : Slot) (x : slot.Content) : Prop where
  opened : p.Opens config slot x ctx s
  scene : S.AtContent config p ctx s slot x
  completes : ∃ t, Completes (slot.check ctx x) s () t

namespace Scene

variable {config : Config} {p : Program} {S : Scene} {ctx : Context} {s : State}

theorem Runs.enters {ahead : Bool} {slot : Slot} {x : slot.Content}
    (h : S.Runs config p ctx s ahead (slot.fill x)) :
    ∃ inner s₁, (S.enter config ctx.expected ahead slot x).RunsContent config p inner s₁
        slot x
      ∧ inner.expected = slot.expected ctx.expected x := by
  obtain ⟨t, hchecked⟩ := h.completes
  obtain ⟨inner, s₁, t₁, hopens, hcontent, hexpected, hscene⟩ :=
    h.scene.enters h.reached hchecked
  exact ⟨inner, s₁, ⟨hopens, hscene, t₁, hcontent⟩, hexpected⟩

theorem RunsAll.head {earlier : List String} {stmt : Stmt} {ss : List Stmt}
    (h : S.RunsAll config p ctx s earlier (stmt :: ss)) :
    (S.head config ctx.expected earlier stmt ss).Runs config p ctx s
      (stmt.isAhead earlier) stmt := by
  obtain ⟨t, hchecked⟩ := h.completes
  obtain ⟨_, s₁, hfirst, -⟩ := completes_bind.mp hchecked
  exact ⟨h.reached.head, h.scene.head, s₁, hfirst⟩

theorem RunsAll.tail {earlier : List String} {stmt : Stmt} {ss : List Stmt}
    (h : S.RunsAll config p ctx s earlier (stmt :: ss)) :
    ∃ s₁, (S.tail config ctx.expected earlier stmt).RunsAll config p ctx s₁
      (stmt.variablesAfter earlier) ss := by
  obtain ⟨t, hchecked⟩ := h.completes
  obtain ⟨_, s₁, hfirst, hrest⟩ := completes_bind.mp hchecked
  exact ⟨s₁, h.reached.tail hfirst, h.scene.tail hfirst, t, hrest⟩

theorem RunsContent.list {b : Body} {ss : List Stmt}
    (h : S.RunsContent config p ctx s (.body b) ss) :
    ∃ s₁, (S.past (hoisting [] ss S.frame S.next)).RunsAll config p ctx s₁ [] ss := by
  obtain ⟨t, hchecked⟩ := h.completes
  obtain ⟨_, s₁, hhoist, hstmts⟩ := completes_bind.mp hchecked
  exact ⟨s₁, h.opened.atList hhoist, AtScope.list h.scene hhoist, t, hstmts⟩

theorem RunsContent.braced {b : Branch} {stmt : Stmt}
    (h : S.RunsContent config p ctx s (.branch b) stmt) (hblock : stmt.isBlock = true) :
    S.Runs config p ctx s false stmt := by
  obtain ⟨t, hchecked⟩ := h.completes
  rw [Slot.check, inBranch, if_pos hblock] at hchecked
  exact ⟨h.opened.atBranch.braced hblock, AtBranch.braced h.scene hblock, t, hchecked⟩

theorem RunsContent.bare {b : Branch} {stmt : Stmt}
    (h : S.RunsContent config p ctx s (.branch b) stmt) (hblock : stmt.isBlock = false) :
    (S.within config (stmt.walk config ctx.expected false S.env [] S.next)).Runs config p
      ctx s.entered false stmt := by
  obtain ⟨t, hchecked⟩ := h.completes
  rw [Slot.check, inBranch, if_neg (Bool.eq_false_iff.mp hblock)] at hchecked
  obtain ⟨t₁, hbody, -⟩ := completes_inScope hchecked
  exact ⟨(h.opened.atBranch.bare hblock).list.head, AtBranch.alone h.scene hblock, t₁,
    hbody⟩

end Scene

/-- Two runs come to statements in scenes that are twins. -/
def Stmt.Meet (config : Config) (K : List NodeId) (p p' : Program) (X Y : Stmt) : Prop :=
  ∃ S S' ctx ctx' s s' ahead, Scene.Runs config p S ctx s ahead X
    ∧ Scene.Runs config p' S' ctx' s' ahead Y ∧ S.Twin K S'
    ∧ ctx.expected = ctx'.expected

/-- Two runs come to contents of a slot in scenes that are twins. -/
def Slot.Meet (config : Config) (K : List NodeId) (p p' : Program) (slot : Slot)
    (x y : slot.Content) : Prop :=
  ∃ S S' ctx ctx' s s', Scene.RunsContent config p S ctx s slot x
    ∧ Scene.RunsContent config p' S' ctx' s' slot y ∧ S.Twin K S'
    ∧ ctx.expected = ctx'.expected

section

variable {config : Config} {K : List NodeId} {p p' : Program} {slot : Slot}
  {x y : slot.Content}

theorem Stmt.Meet.enters (h : Stmt.Meet config K p p' (slot.fill x) (slot.fill y))
    (houtside : ∀ l ∈ slot.outside, l.1 ∈ K)
    (hreturns : Stmt.anyReturnsValue (slot.stmts x) = Stmt.anyReturnsValue (slot.stmts y)) :
    slot.Meet config K p p' x y := by
  obtain ⟨S, S', ctx, ctx', s, s', ahead, hruns, hruns', htwin, hexpected⟩ := h
  obtain ⟨inner, s₁, hcontent, hinner⟩ := hruns.enters
  obtain ⟨inner', s₁', hcontent', hinner'⟩ := hruns'.enters
  rw [← hexpected] at hcontent' hinner'
  refine ⟨_, _, inner, inner', s₁, s₁', hcontent, hcontent', ?_, ?_⟩
  · exact htwin.enter houtside hreturns ctx.expected ahead
  · rw [hinner, hinner', slot.expected_congr ctx.expected hreturns]

/-- Declared ahead of two lists that differ in a content is the same. -/
theorem alike_hoisting_among {before behind : List Stmt} (hid : (slot.fill x).id ∈ K)
    (haround : Stmt.DeclareIn K (before ++ behind))
    (hreturns : Stmt.anyReturnsValue (slot.stmts x) = Stmt.anyReturnsValue (slot.stmts y))
    {S S' : Scene} (htwin : S.Twin K S') :
    (hoisting [] (before ++ slot.fill x :: behind) S.frame S.next).Alike K
      (hoisting [] (before ++ slot.fill y :: behind) S'.frame S'.next) := by
  have hstmts := List.forall_mem_append.mp (forall_mem_of_outlines haround.stmts)
  have hids : ∀ s ∈ before ++ slot.fill x :: behind, s.id ∈ K :=
    List.forall_mem_append.mpr ⟨hstmts.1, List.forall_mem_cons.mpr ⟨hid, hstmts.2⟩⟩
  rw [← hoisting_congr before behind hreturns]
  exact htwin.walk (alike_hoisting hids [])

/-- Two runs through lists that differ in the content of the slot of one
statement come to this statement as twins. -/
theorem meet_among {before behind : List Stmt} {S S' : Scene} {ctx ctx' : Context}
    {s s' : State} {earlier : List String}
    (h : S.RunsAll config p ctx s earlier (before ++ slot.fill x :: behind))
    (h' : S'.RunsAll config p' ctx' s' earlier (before ++ slot.fill y :: behind))
    (htwin : S.Twin K S') (hexpected : ctx.expected = ctx'.expected)
    (hid : (slot.fill x).id ∈ K) (haround : Stmt.DeclareIn K (before ++ behind))
    (hreturns : Stmt.anyReturnsValue (slot.stmts x) = Stmt.anyReturnsValue (slot.stmts y)) :
    Stmt.Meet config K p p' (slot.fill x) (slot.fill y) := by
  induction before generalizing S S' s s' earlier with
  | nil =>
      have hruns' := h'.head
      rw [← hexpected, slot.isAhead_fill y x] at hruns'
      exact ⟨_, _, ctx, ctx', s, s', _, h.head, hruns',
        htwin.head hid hreturns haround ctx.expected earlier, hexpected⟩
  | cons stmt before ih =>
      obtain ⟨hstmt, hrest⟩ := Stmt.declareIn_cons.mp haround
      obtain ⟨s₁, htail⟩ := h.tail
      obtain ⟨s₁', htail'⟩ := h'.tail
      rw [← hexpected] at htail'
      refine ih htail htail' ?_ hrest
      exact htwin.past (htwin.walk (Stmt.alike_walk hstmt config ctx.expected _))

theorem Slot.Meet.among {b : Body} {before behind : List Stmt}
    (h : Slot.Meet config K p p' (.body b) (before ++ slot.fill x :: behind)
      (before ++ slot.fill y :: behind))
    (hid : (slot.fill x).id ∈ K) (haround : Stmt.DeclareIn K (before ++ behind))
    (hreturns : Stmt.anyReturnsValue (slot.stmts x) = Stmt.anyReturnsValue (slot.stmts y)) :
    Stmt.Meet config K p p' (slot.fill x) (slot.fill y) := by
  obtain ⟨S, S', ctx, ctx', s, s', hruns, hruns', htwin, hexpected⟩ := h
  obtain ⟨s₁, hlist⟩ := hruns.list
  obtain ⟨s₁', hlist'⟩ := hruns'.list
  exact meet_among hlist hlist' (htwin.past (alike_hoisting_among hid haround hreturns htwin))
    hexpected hid haround hreturns

theorem Slot.Meet.branch {b : Branch}
    (h : Slot.Meet config K p p' (.branch b) (slot.fill x) (slot.fill y)) :
    Stmt.Meet config K p p' (slot.fill x) (slot.fill y) := by
  obtain ⟨S, S', ctx, ctx', s, s', hruns, hruns', htwin, hexpected⟩ := h
  cases hblock : (slot.fill x).isBlock with
  | true =>
      have hblock' := (slot.isBlock_fill y x).trans hblock
      exact ⟨S, S', ctx, ctx', s, s', false, hruns.braced hblock, hruns'.braced hblock',
        htwin, hexpected⟩
  | false =>
      have hblock' := (slot.isBlock_fill y x).trans hblock
      exact ⟨_, _, ctx, ctx', _, _, false, hruns.bare hblock, hruns'.bare hblock',
        htwin.within _ _, hexpected⟩

/-- The statement of a slot is not part of its content. -/
theorem Slot.id_mem (slot : Slot) (x : slot.Content)
    (houtside : ∀ l ∈ slot.outside, l.1 ∈ K) : (slot.fill x).id ∈ K := by
  obtain (t | t) | (t | t | t) := slot <;> exact houtside _ List.mem_cons_self

theorem Scene.exists_runsAll_start {a : Analysis} (hids : p.ids.Nodup)
    (h : p.analyze config = .ok a) :
    ∃ s, (Scene.start.past (hoisting [] p.body [] 0)).RunsAll config p { config } s []
      p.body := by
  obtain ⟨s, hrun, -⟩ := Program.covers_of_analyze h
  obtain ⟨t, hbody, -⟩ := completes_inScope hrun
  obtain ⟨_, s₁, hhoist, hstmts⟩ := completes_bind.mp hbody
  exact ⟨s₁, (Program.At.program hhoist).list, (Scene.atScope_start hids).list hhoist, t,
    hstmts⟩

/-- Two programs that differ in the content of one slot: their runs come to the
statement of the slot as twins. -/
theorem Way.meet {a a' : Analysis} (w : Way) : ∀ {slot : Slot} {x y : slot.Content},
    (w.fill (slot.fill x)).ids.Nodup → (w.fill (slot.fill y)).ids.Nodup →
    (w.fill (slot.fill x)).analyze config = .ok a →
    (w.fill (slot.fill y)).analyze config = .ok a' →
    (∀ l ∈ w.around slot, l.1 ∈ K) →
    Stmt.anyReturnsValue (slot.stmts x) = Stmt.anyReturnsValue (slot.stmts y) →
    Stmt.Meet config K (w.fill (slot.fill x)) (w.fill (slot.fill y)) (slot.fill x)
      (slot.fill y) := by
  induction w with
  | top before behind q =>
      intro slot x y hids hids' h h' haround hreturns
      obtain ⟨hbeside, houtside⟩ := List.forall_mem_append.mp haround
      have hid := slot.id_mem x houtside
      have hstart : Scene.start.Twin K Scene.start := ⟨.nil, .nil, .nil, .nil⟩
      obtain ⟨s, hruns⟩ := Scene.exists_runsAll_start hids h
      obtain ⟨s', hruns'⟩ := Scene.exists_runsAll_start hids' h'
      exact meet_among hruns hruns'
        (hstart.past (alike_hoisting_among hid hbeside hreturns hstart)) rfl hid hbeside
        hreturns
  | body w b before behind ih =>
      intro slot x y hids hids' h h' haround hreturns
      obtain ⟨hway, houtside⟩ := List.forall_mem_append.mp haround
      obtain ⟨hway, hlist⟩ := List.forall_mem_append.mp hway
      obtain ⟨hbody, hbeside⟩ := List.forall_mem_append.mp hlist
      have hlists := Stmt.anyReturnsValue_among_congr before behind
        (slot.returnsValue_fill_congr hreturns)
      have hmeet := @ih (.body b) (before ++ slot.fill x :: behind)
        (before ++ slot.fill y :: behind) hids hids' h h'
        (List.forall_mem_append.mpr ⟨hway, hbody⟩) hlists
      exact (hmeet.enters hbody hlists).among (slot.id_mem x houtside) hbeside hreturns
  | branch w b ih =>
      intro slot x y hids hids' h h' haround hreturns
      obtain ⟨hway, houtside⟩ := List.forall_mem_append.mp haround
      have hbranch := (List.forall_mem_append.mp hway).2
      have hbranches : Stmt.anyReturnsValue [slot.fill x]
          = Stmt.anyReturnsValue [slot.fill y] :=
        Stmt.anyReturnsValue_among_congr [] [] (slot.returnsValue_fill_congr hreturns)
      have hmeet := @ih (.branch b) (slot.fill x) (slot.fill y) hids hids' h h' hway
        hbranches
      exact (hmeet.enters hbranch hbranches).branch

end

end TreeCheck
