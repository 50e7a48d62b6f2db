/-
The duplicates that an account reports.

Binding a name is the only step that reports a duplicate. So along the
walk of a scope the duplicates of a name are told by the declarations of
the name, in the order in which they are bound, and by the scopes
inside. `Redeclares` says that of a part of a walk, and is closed under
sequence: a later part finds the last declaration of the part before it.
-/
import TreeCheck.Proofs.Account.Clean
import TreeCheck.Proofs.Duplicates.Source
import TreeCheck.Proofs.Scoping.Frames
import TreeCheck.Proofs.Visits.Plain

namespace TreeCheck

open Analysis

/-- The duplicate of a name that an event reports. -/
def Event.duplicate? (x : String) (e : Event) : Option Finding :=
  e.finding?.filter (·.cause = .duplicate x)

-- ======================================================== no duplicates

/-- Events that report no duplicate. -/
def Single (es : List Event) : Prop := ∀ e ∈ es, ∀ x, e.duplicate? x = none

section

variable {es : List Event}

theorem single_nil : Single [] := nofun

theorem Single.duplicates (h : Single es) (x : String) :
    es.filterMap (Event.duplicate? x) = [] :=
  List.filterMap_eq_nil_iff.mpr fun e he => h e he x

theorem duplicate?_found {node : NodeId} {f : Finding} {x : String}
    (h : f.cause ≠ .duplicate x) : Event.duplicate? x (.found node f) = none := by
  rw [Event.duplicate?, Event.finding?, Option.filter_some, if_neg]
  rwa [decide_eq_true_eq]

/-- What reports nothing about a whole scope reports no duplicate. -/
theorem Plain.single (h : Plain es) : Single es := by
  intro e he x
  cases e with
  | typed | resolved | read | bound => rfl
  | found node f =>
      refine duplicate?_found fun hc => ?_
      have hplain := h node f he
      rw [hc] at hplain
      cases hplain

theorem single_leavingEvents (config : Config) (w : Walk) :
    Single (leavingEvents config w) := by
  intro e he x
  obtain ⟨node, f, rfl, hkind⟩ := exists_unused_of_leavingEvents he
  refine duplicate?_found fun hc => ?_
  rw [hc] at hkind
  cases hkind

end

-- =========================================================== duplicates

/-- Where a bound symbol comes from. -/
def Declared.place (d : Declared) : Place := ⟨d.site, d.position⟩

/-- What a frame has bound, the latest first. -/
def Frame.placed (φ : Frame) : List (Decl Place) := φ.map (·.decl Declared.place)

/-- The declaration that a frame has for a name. -/
def Frame.last (φ : Frame) (x : String) : Option (Decl Place) :=
  φ.placed.find? (·.name == x)

theorem Frame.last_eq (φ : Frame) (x : String) :
    φ.last x = (φ.find x).map (·.decl Declared.place) :=
  (find_decls Declared.place φ x).symm

theorem Single.duplicates_after {es : List Event} (h : Single es) (w : Walk)
    (x : String) :
    (w.after es).events.filterMap (Event.duplicate? x)
      = w.events.filterMap (Event.duplicate? x) := by
  rw [Walk.events_after, List.filterMap_append, h.duplicates x, List.nil_append]

/-- Leaving a scope reports no duplicate. -/
theorem duplicates_closed (config : Config) (φ : Frame) (w : Walk) (x : String) :
    (w.closed config φ).events.filterMap (Event.duplicate? x)
      = w.events.filterMap (Event.duplicate? x) := by
  show List.filterMap _ (w.events ++ leavingEvents config w) = _
  rw [List.filterMap_append, (single_leavingEvents config w).duplicates x,
    List.append_nil]

/-- A part of a walk binds some declarations, one after the other, and reports
their duplicates and those of the regions inside. The duplicates in one
region are reported in the order of its declarations. -/
structure Redeclares (φ : Frame) (ds : List (Decl Place)) (rs : List Region)
    (w : Walk) : Prop where
  frame : w.frame.placed = ds.reverse ++ φ.placed
  duplicates : ∀ x, (w.events.filterMap (Event.duplicate? x)).Perm
    (redeclaring x (φ.last x) (ds.filter (·.name == x))
      ++ rs.flatMap (Region.duplicates x))
  own : ∀ x, (redeclaring x (φ.last x) (ds.filter (·.name == x))).Sublist
    (w.events.filterMap (Event.duplicate? x))
  inside : ∀ r ∈ rs, ∀ x, (r.duplicates x).Sublist
    (w.events.filterMap (Event.duplicate? x))

namespace Redeclares

variable {φ : Frame} {ds ds' : List (Decl Place)} {rs rs' : List Region} {w : Walk}
  {es : List Event}

/-- Behind a part of a walk the last declaration counts. -/
theorem last (h : Redeclares φ ds rs w) (x : String) :
    w.frame.last x = (ds.filter (·.name == x)).getLast?.or (φ.last x) := by
  rw [Frame.last, h.frame, List.find?_append, ← List.head?_filter,
    List.filter_reverse, List.head?_reverse, Frame.last]

theorem andThen {f : Frame → SymbolId → Walk} (h : Redeclares φ ds rs w)
    (h' : Redeclares w.frame ds' rs' (f w.frame w.next)) :
    Redeclares φ (ds ++ ds') (rs ++ rs') (w.andThen f) where
  frame := by
    rw [Walk.frame_andThen, h'.frame, h.frame, List.reverse_append,
      List.append_assoc]
  duplicates := by
    intro x
    have hsecond := h'.duplicates x
    rw [h.last x] at hsecond
    rw [Walk.events_andThen, List.filterMap_append, List.filter_append,
      redeclaring_append, List.flatMap_append]
    exact ((h.duplicates x).append hsecond).trans (perm_append_append _ _ _ _)
  own := by
    intro x
    have hsecond := h'.own x
    rw [h.last x] at hsecond
    rw [Walk.events_andThen, List.filterMap_append, List.filter_append,
      redeclaring_append]
    exact (h.own x).append hsecond
  inside := by
    intro r hr x
    rw [Walk.events_andThen, List.filterMap_append]
    rcases List.mem_append.mp hr with hr | hr
    · exact (h.inside r hr x).trans (List.sublist_append_left _ _)
    · exact (h'.inside r hr x).trans (List.sublist_append_right _ _)

theorem after (h : Redeclares φ ds rs w) (hes : Single es) :
    Redeclares φ ds rs (w.after es) where
  frame := h.frame
  duplicates := by
    intro x
    rw [hes.duplicates_after]
    exact h.duplicates x
  own := by
    intro x
    rw [hes.duplicates_after]
    exact h.own x
  inside := by
    intro r hr x
    rw [hes.duplicates_after]
    exact h.inside r hr x

/-- A part of a walk without a region in it. -/
theorem plain (hframe : w.frame.placed = ds.reverse ++ φ.placed)
    (hevents : ∀ x, w.events.filterMap (Event.duplicate? x)
      = redeclaring x (φ.last x) (ds.filter (·.name == x))) :
    Redeclares φ ds [] w where
  frame := hframe
  duplicates := by
    intro x
    rw [hevents x, List.flatMap_nil, List.append_nil]
  own := fun x => hevents x ▸ List.Sublist.refl _
  inside := nofun

theorem single (φ : Frame) (n : SymbolId) (hes : Single es) :
    Redeclares φ [] [] ⟨φ, n, es⟩ := by
  refine .plain rfl fun x => ?_
  rw [List.filter_nil, redeclaring_nil]
  exact hes.duplicates x

/-- The scope of a region is left: its declarations are gone, its duplicates
stay. -/
theorem closed {r : Region} (h : Redeclares [] ds rs w)
    (hr : ∀ x, ds.filter (·.name == x) = r.named x) (config : Config) (φ : Frame) :
    Redeclares φ [] (r :: rs) (w.closed config φ) where
  frame := rfl
  duplicates := by
    intro x
    have hinner := h.duplicates x
    rw [show Frame.last [] x = none from rfl, hr, redeclaring_none] at hinner
    rw [duplicates_closed, List.filter_nil, redeclaring_nil]
    exact hinner
  own := by
    intro x
    rw [List.filter_nil, redeclaring_nil]
    exact List.nil_sublist _
  inside := by
    refine List.forall_mem_cons.mpr ⟨fun x => ?_, fun r hr x => ?_⟩
    · have hinner := h.own x
      rw [show Frame.last [] x = none from rfl, hr, redeclaring_none] at hinner
      rw [duplicates_closed]
      exact hinner
    · rw [duplicates_closed]
      exact h.inside r hr x

end Redeclares

-- ============================================================ declaring

theorem duplicates_declaring (node : NodeId) (site : Site) (b : Binding) (φ : Frame)
    (n : SymbolId) (x : String) :
    (declaring node site b φ n).events.filterMap (Event.duplicate? x)
      = redeclaring x (φ.last x)
          ([⟨b.name, b.kind, ⟨site, b.position⟩⟩].filter (·.name == x)) := by
  show (duplicateEvents node b _ ++ [_]).filterMap (Event.duplicate? x) = _
  rw [φ.last_eq]
  by_cases hx : b.name = x
  · subst hx
    have hnamed : [(⟨b.name, b.kind, ⟨site, b.position⟩⟩ : Decl Place)].filter
        (·.name == b.name) = [⟨b.name, b.kind, ⟨site, b.position⟩⟩] :=
      List.filter_cons_of_pos (beq_self_eq_true b.name)
    rw [hnamed]
    cases φ.find b.name with
    | none => rfl
    | some previous =>
        have hfound : Event.duplicate? b.name (.found node
            ⟨.duplicate b.name, b.position, some previous.position⟩)
              = some ⟨.duplicate b.name, b.position, some previous.position⟩ := by
          simp [Event.duplicate?]
        rw [duplicateEvents, List.singleton_append, List.filterMap_cons, hfound]
        rfl
  · have hnamed : [(⟨b.name, b.kind, ⟨site, b.position⟩⟩ : Decl Place)].filter
        (·.name == x) = [] := by simp [hx]
    have hother : (duplicateEvents node b (φ.find b.name)).filterMap
        (Event.duplicate? x) = [] := by
      cases φ.find b.name with
      | none => rfl
      | some previous =>
          refine List.filterMap_eq_nil_iff.mpr (List.forall_mem_singleton.mpr ?_)
          exact duplicate?_found fun h => hx (Cause.duplicate.inj h)
    rw [hnamed, List.filterMap_append, hother, redeclaring_nil]
    rfl

theorem redeclares_declaring (node : NodeId) (site : Site) (b : Binding) (φ : Frame)
    (n : SymbolId) :
    Redeclares φ [⟨b.name, b.kind, ⟨site, b.position⟩⟩] []
      (declaring node site b φ n) :=
  .plain rfl (duplicates_declaring node site b φ n)

theorem redeclares_declaringFunction (t : Tag) (name : String)
    (params : List Param) (result : Option TypeName) (body : List Stmt) (φ : Frame)
    (n : SymbolId) :
    Redeclares φ [⟨name, .function, ⟨.stmt t.id, t.position⟩⟩] []
      (declaringFunction t name params result body φ n) :=
  (redeclares_declaring t.id (.stmt t.id)
    ⟨name, .function, .func (Signature.of params result body).params
      (Signature.of params result body).ret, t.position, false⟩ φ n).after
    (plain_signatureEvents _ _ _).single

theorem redeclares_declaringVariable (ρ : Lookup) (t : Tag) (name : String)
    (ann : Option TypeName) (init : Option Expr) (m : Bool) (φ : Frame)
    (n : SymbolId) :
    Redeclares φ [⟨name, .variable, ⟨.stmt t.id, t.position⟩⟩] []
      (declaringVariable ρ t name ann init m φ n) := by
  have hbound := redeclares_declaring t.id (.stmt t.id)
    ⟨name, .variable, variableTypeOf (ann.map fun a => a.valueType)
      (init.map fun e => e.typeIn ρ), t.position, m⟩ φ n
  exact hbound.after (plain_declarationEvents t.id name ann init).single

theorem redeclares_hoisting (earlier : List String) (ss : List Stmt) (φ : Frame)
    (n : SymbolId) :
    Redeclares φ (placedAhead earlier ss) [] (hoisting earlier ss φ n) := by
  induction ss generalizing earlier φ n with
  | nil => exact .single φ n single_nil
  | cons s ss ih =>
      rw [placedAhead_cons]
      cases s with
      | function t name params result p body =>
          unfold hoisting
          by_cases hmem : name ∈ earlier
          · simp only [hmem, if_true, Stmt.isAhead, Stmt.variablesAfter, not_true,
              decide_false, Bool.false_eq_true, if_false, List.nil_append]
            exact ih earlier φ n
          · simp only [hmem, if_false, Stmt.isAhead, Stmt.variablesAfter,
              not_false_eq_true, decide_true, if_true]
            have hfirst := redeclares_declaringFunction t name params result body φ n
            exact hfirst.andThen (ih earlier _ _)
      | declaration | assignment | block | ifElse | «while» | ret | expr =>
          exact ih _ φ n

theorem redeclares_declaringParams (function : NodeId) (i : Nat) (ps : List Param)
    (φ : Frame) (n : SymbolId) :
    Redeclares φ (placedParams function i ps) []
      (declaringParams function i ps (ps.map (·.type)) φ n) := by
  induction ps generalizing i φ n with
  | nil => exact .single φ n single_nil
  | cons p ps ih =>
      have hfirst := redeclares_declaring function (.param function i)
        ⟨p.name, .parameter, p.type, p.position, true⟩ φ n
      exact hfirst.andThen (ih (i + 1) _ _)

-- =========================================================== statements

/-- The region of a bare branch has what the branch declares where it stands. -/
theorem Stmt.named_bare (s : Stmt) (x : String) :
    (s.placedBehind false).filter (·.name == x)
      = Region.named { stmts := [s] } x := by
  cases s <;> rfl

theorem redeclares_walkBranch {branch : Stmt} {walk : Env → Frame → SymbolId → Walk}
    (config : Config) (outer : Env) (φ : Frame) (n : SymbolId)
    (h : ∀ outer φ n, Redeclares φ (branch.placedBehind false) branch.regions
      (walk outer φ n)) :
    Redeclares φ [] (regionsOfBranch branch branch.regions)
      (walkBranch config branch walk outer φ n) := by
  unfold walkBranch regionsOfBranch
  split
  case isTrue hblock =>
    -- A block declares nothing where it stands.
    have hplaced : branch.placedBehind false = [] := by
      cases branch with
      | block => rfl
      | declaration | function | assignment | ifElse | «while» | ret | expr =>
          cases hblock
    rw [← hplaced]
    exact h outer φ n
  case isFalse =>
    exact (h (φ :: outer) [] n).closed branch.named_bare config φ

/-- The declarations of a list, with those of its functions that are declared
ahead in front, are name by name those of its region. -/
theorem named_region (params : List (Decl Place)) (ss : List Stmt) (x : String) :
    (params ++ placedAhead [] ss ++ Stmt.placedBehindAll [] ss).filter (·.name == x)
      = (Region.mk params ss).named x := by
  rw [List.append_assoc, List.filter_append, List.filter_append,
    named_ahead_append_behind, Region.named, Region.declarations, List.filter_append]

mutual

/-- The walk of a statement reports the duplicates of the regions in it, and
those of what it declares where it stands. -/
theorem Stmt.redeclares_walk (config : Config) : (s : Stmt) →
    ∀ (expected : Option Ty) (ahead : Bool) (outer : Env) (φ : Frame)
      (n : SymbolId),
    Redeclares φ (s.placedBehind ahead) s.regions
      (s.walk config expected ahead outer φ n)
  | .declaration t name ann init m, expected, ahead, outer, φ, n =>
      redeclares_declaringVariable _ t name ann init m φ n
  | .function t name params result p body, expected, ahead, outer, φ, n => by
      have hown : Redeclares φ
          (Stmt.placedBehind ahead (.function t name params result p body)) []
          (if ahead then ⟨φ, n, []⟩
            else declaringFunction t name params result body φ n) := by
        cases ahead with
        | true => exact .single φ n single_nil
        | false => exact redeclares_declaringFunction _ _ _ _ _ _ _
      have hinside (φ : Frame) (n : SymbolId) : Redeclares φ []
          (⟨placedParams t.id 0 params, body⟩ :: Stmt.regionsAll body)
          ((((declaringParams t.id 0 params (params.map (·.type)) [] n).andThen
            (hoisting [] body)).andThen
              (Stmt.walkAll config body (some (Signature.of params result body).ret)
                [] (φ :: outer))).closed config φ) :=
        Redeclares.closed
          (((redeclares_declaringParams t.id 0 params [] n).andThen
            (redeclares_hoisting [] body _ _)).andThen
              (Stmt.redeclares_walkAll config body _ [] (φ :: outer) _ _))
          (named_region _ _) config φ
      simp only [Stmt.walk, Stmt.regions]
      rw [← List.append_nil (Stmt.placedBehind ahead _)]
      exact hown.andThen (hinside _ _)
  | .assignment t target value, expected, ahead, outer, φ, n =>
      .single φ n (plain_assignmentEvents _ _ _).single
  | .block t p ss, expected, ahead, outer, φ, n =>
      Redeclares.closed
        ((redeclares_hoisting [] ss [] n).andThen
          (Stmt.redeclares_walkAll config ss expected [] (φ :: outer) _ _))
        (named_region [] ss) config φ
  | .ifElse t c a none, expected, ahead, outer, φ, n => by
      simp only [Stmt.walk, Stmt.regions]
      exact (redeclares_walkBranch config outer φ n fun outer φ n =>
        Stmt.redeclares_walk config a expected false outer φ n).after
          (plain_conditionEvents _ _ _).single
  | .ifElse t c a (some b), expected, ahead, outer, φ, n => by
      simp only [Stmt.walk, Stmt.regions]
      have ha := redeclares_walkBranch config outer φ n
        fun outer φ n => Stmt.redeclares_walk config a expected false outer φ n
      refine (ha.andThen (redeclares_walkBranch config outer _ _ ?_)).after
        (plain_conditionEvents _ _ _).single
      exact fun outer φ n => Stmt.redeclares_walk config b expected false outer φ n
  | .while t c b, expected, ahead, outer, φ, n => by
      simp only [Stmt.walk, Stmt.regions]
      exact (redeclares_walkBranch config outer φ n fun outer φ n =>
        Stmt.redeclares_walk config b expected false outer φ n).after
          (plain_conditionEvents _ _ _).single
  | .ret t value, expected, ahead, outer, φ, n =>
      .single φ n (plain_returningEvents _ _ _).single
  | .expr t e, expected, ahead, outer, φ, n => .single φ n e.plain_events.single

theorem Stmt.redeclares_walkAll (config : Config) : (ss : List Stmt) →
    ∀ (expected : Option Ty) (earlier : List String) (outer : Env) (φ : Frame)
      (n : SymbolId),
    Redeclares φ (Stmt.placedBehindAll earlier ss) (Stmt.regionsAll ss)
      (Stmt.walkAll config ss expected earlier outer φ n)
  | [], expected, earlier, outer, φ, n => .single φ n single_nil
  | s :: ss, expected, earlier, outer, φ, n => by
      simp only [Stmt.walkAll, Stmt.placedBehindAll, Stmt.regionsAll]
      exact (Stmt.redeclares_walk config s _ _ _ _ _).andThen
        (Stmt.redeclares_walkAll config ss _ _ _ _ _)

end

section

variable (config : Config) (p : Program)

theorem Program.redeclares_body :
    Redeclares [] (placedAhead [] p.body ++ Stmt.placedBehindAll [] p.body)
      (Stmt.regionsAll p.body)
      ((hoisting [] p.body [] 0).andThen (Stmt.walkAll config p.body none [] [])) :=
  (redeclares_hoisting [] p.body [] 0).andThen
    (Stmt.redeclares_walkAll config p.body none [] [] _ _)

/-- The global scope is a region among the others, though nothing is around
it. -/
theorem Program.redeclaring_body (x : String) :
    redeclaring x (Frame.last [] x)
        ((placedAhead [] p.body ++ Stmt.placedBehindAll [] p.body).filter
          (·.name == x))
      = Region.duplicates x { stmts := p.body } := by
  have hnamed := named_region [] p.body x
  rw [List.nil_append] at hnamed
  rw [hnamed, show Frame.last [] x = none from rfl, redeclaring_none]
  rfl

/-- The duplicates of a name in the account of a program are those of its
regions. -/
theorem Program.perm_duplicates (x : String) :
    ((p.account config).filterMap (Event.duplicate? x)).Perm
      (p.regions.flatMap (Region.duplicates x)) := by
  have hall := (p.redeclares_body config).duplicates x
  rw [p.redeclaring_body x] at hall
  exact hall

/-- The account reports the duplicates in a region in the order of its
declarations. -/
theorem Program.sublist_duplicates {r : Region} (hr : r ∈ p.regions) (x : String) :
    (r.duplicates x).Sublist ((p.account config).filterMap (Event.duplicate? x)) := by
  rcases List.mem_cons.mp hr with rfl | hr
  · have hall := (p.redeclares_body config).own x
    rw [p.redeclaring_body x] at hall
    exact hall
  · exact (p.redeclares_body config).inside r hr x

end

end TreeCheck
