/-
Where identities are distinct, the course of a program is its walk.

What a walk knows by the place of a function, a course must find in the
signatures: a function that was declared ahead has its own signature
there, and any other has none yet. `Awaits` says so of a statement and
`AwaitsAll` of a list. Declaring the functions of a list ahead brings it
about, and a statement can disturb it only at the identities of its own
functions, which no other statement has.
-/
import TreeCheck.Proofs.Account.Course
import TreeCheck.Syntax.Outline

namespace TreeCheck

-- ========================================================== identities

mutual

/-- The identities of the functions of a statement. -/
def Stmt.functionIds : Stmt → List NodeId
  | .function t _ _ _ _ body => t.id :: Stmt.functionIdsAll body
  | .block _ _ ss => Stmt.functionIdsAll ss
  | .ifElse _ _ a none => a.functionIds
  | .ifElse _ _ a (some b) => a.functionIds ++ b.functionIds
  | .while _ _ b => b.functionIds
  | .declaration _ _ _ _ _ | .assignment _ _ _ | .ret _ _ | .expr _ _ => []
termination_by structural s => s

/-- The identities of the functions of a list of statements. -/
def Stmt.functionIdsAll : List Stmt → List NodeId
  | [] => []
  | s :: ss => s.functionIds ++ Stmt.functionIdsAll ss
termination_by structural ss => ss

end

mutual

theorem Stmt.functionIds_sublist (d : Nat) (r : Role) : (s : Stmt) →
    s.functionIds.Sublist ((s.outline d r).map (·.node.id))
  | .declaration _ _ _ _ _ | .assignment _ _ _ | .ret _ _ | .expr _ _ =>
      List.nil_sublist _
  | .function t name params result p body => by
      simp only [Stmt.functionIds, Stmt.outline, List.map_cons]
      exact (Stmt.functionIdsAll_sublist _ _ body).cons_cons _
  | .block t p ss => by
      simp only [Stmt.functionIds, Stmt.outline, List.map_cons]
      exact (Stmt.functionIdsAll_sublist _ _ ss).cons _
  | .ifElse t c a none => by
      simp only [Stmt.functionIds, Stmt.outline, List.map_cons, List.map_append]
      exact ((Stmt.functionIds_sublist _ _ a).trans
        (List.sublist_append_right ..)).cons _
  | .ifElse t c a (some b) => by
      simp only [Stmt.functionIds, Stmt.outline, List.map_cons, List.map_append]
      refine List.Sublist.cons _
        (List.Sublist.append ?_ (Stmt.functionIds_sublist _ _ b))
      exact (Stmt.functionIds_sublist _ _ a).trans (List.sublist_append_right ..)
  | .while t c b => by
      simp only [Stmt.functionIds, Stmt.outline, List.map_cons, List.map_append]
      exact ((Stmt.functionIds_sublist _ _ b).trans
        (List.sublist_append_right ..)).cons _

theorem Stmt.functionIdsAll_sublist (d : Nat) (r : Role) : (ss : List Stmt) →
    (Stmt.functionIdsAll ss).Sublist ((Stmt.outlines d r ss).map (·.node.id))
  | [] => List.nil_sublist _
  | s :: ss => by
      simp only [Stmt.functionIdsAll, Stmt.outlines, List.map_append]
      exact (Stmt.functionIds_sublist d r s).append
        (Stmt.functionIdsAll_sublist d r ss)

end

-- =========================================================== awaiting

section

variable {σ σ' : Signatures} {earlier : List String}

/-- The signatures are as the place of a statement tells: its own
function is known if it was declared ahead, and no other is. -/
def Stmt.Awaits (σ : Signatures) (ahead : Bool) : Stmt → Prop
  | .function t _ params result _ body =>
    σ[t.id]? = (if ahead then some (Signature.of params result body) else none)
      ∧ ∀ id ∈ Stmt.functionIdsAll body, σ[id]? = none
  | s => ∀ id ∈ s.functionIds, σ[id]? = none

/-- The signatures are as the places in a list tell, where variables of
some names stand before it. -/
def Stmt.AwaitsAll (σ : Signatures) : List String → List Stmt → Prop
  | _, [] => True
  | earlier, s :: ss =>
    s.Awaits σ (s.isAhead earlier) ∧ AwaitsAll σ (s.variablesAfter earlier) ss

/-- Only the identities of a statement's own functions matter. -/
theorem Stmt.Awaits.congr {s : Stmt} {ahead : Bool}
    (hσ : ∀ id ∈ s.functionIds, σ'[id]? = σ[id]?) (h : s.Awaits σ ahead) :
    s.Awaits σ' ahead := by
  cases s with
  | function t name params result p body =>
      rw [Stmt.functionIds] at hσ
      refine ⟨(hσ _ List.mem_cons_self).trans h.1, fun id hid => ?_⟩
      exact (hσ id (List.mem_cons_of_mem _ hid)).trans (h.2 id hid)
  | declaration | assignment | block | ifElse | «while» | ret | expr =>
      exact fun id hid => (hσ id hid).trans (h id hid)

theorem Stmt.AwaitsAll.congr {ss : List Stmt}
    (hσ : ∀ id ∈ Stmt.functionIdsAll ss, σ'[id]? = σ[id]?)
    (h : AwaitsAll σ earlier ss) :
    AwaitsAll σ' earlier ss := by
  induction ss generalizing earlier with
  | nil => exact trivial
  | cons s ss ih =>
      rw [Stmt.functionIdsAll] at hσ
      exact ⟨h.1.congr fun id hid => hσ id (List.mem_append_left _ hid),
        ih (fun id hid => hσ id (List.mem_append_right _ hid)) h.2⟩

/-- A statement none of whose functions is known awaits to be reached. -/
theorem Stmt.awaits_of_none {s : Stmt} (h : ∀ id ∈ s.functionIds, σ[id]? = none) :
    s.Awaits σ false := by
  cases s with
  | function t name params result p body =>
      rw [Stmt.functionIds] at h
      exact ⟨h _ List.mem_cons_self,
        fun id hid => h id (List.mem_cons_of_mem _ hid)⟩
  | declaration | assignment | block | ifElse | «while» | ret | expr => exact h

theorem Stmt.getElem?_signed {s : Stmt} {id : NodeId} (h : id ∉ s.functionIds) :
    (s.signed σ)[id]? = σ[id]? := by
  cases s with
  | function t name params result p body =>
      rw [Stmt.functionIds] at h
      have hne : t.id ≠ id := fun heq => h (heq ▸ List.mem_cons_self)
      rw [Stmt.signed, Std.TreeMap.getElem?_insert,
        if_neg (fun heq => hne (Std.LawfulEqCmp.eq_of_compare heq))]
  | declaration | assignment | block | ifElse | «while» | ret | expr => rfl

/-- Declaring functions ahead keeps no other signatures than theirs. -/
theorem getElem?_hoistedSignatures {ss : List Stmt} {id : NodeId}
    (h : id ∉ Stmt.functionIdsAll ss) :
    (hoistedSignatures earlier ss σ)[id]? = σ[id]? := by
  induction ss generalizing earlier σ with
  | nil => rfl
  | cons s ss ih =>
      rw [Stmt.functionIdsAll, List.mem_append, not_or] at h
      rw [hoistedSignatures, ih h.2]
      split
      · exact Stmt.getElem?_signed h.1
      · rfl

theorem Stmt.awaits_signed {s : Stmt} (hids : s.functionIds.Nodup)
    (h : ∀ id ∈ s.functionIds, σ[id]? = none) :
    s.Awaits (if s.isAhead earlier then s.signed σ else σ)
      (s.isAhead earlier) := by
  cases hahead : s.isAhead earlier with
  | false => exact s.awaits_of_none h
  | true =>
      cases s with
      | function t name params result p body =>
          rw [Stmt.functionIds] at hids h
          refine ⟨?_, fun id hid => ?_⟩
          · simp [Stmt.signed]
          · have hne : t.id ≠ id :=
              fun heq => (List.nodup_cons.mp hids).1 (heq ▸ hid)
            simp only [if_true, Stmt.signed]
            rw [Std.TreeMap.getElem?_insert,
              if_neg (fun heq => hne (Std.LawfulEqCmp.eq_of_compare heq))]
            exact h id (List.mem_cons_of_mem _ hid)
      | declaration | assignment | block | ifElse | «while» | ret | expr =>
          cases hahead

/-- Once the functions of a list are declared ahead, its statements can be
reached. -/
theorem awaitsAll_hoistedSignatures {ss : List Stmt}
    (hids : (Stmt.functionIdsAll ss).Nodup)
    (h : ∀ id ∈ Stmt.functionIdsAll ss, σ[id]? = none) :
    Stmt.AwaitsAll (hoistedSignatures earlier ss σ) earlier ss := by
  induction ss generalizing earlier σ with
  | nil => exact trivial
  | cons s ss ih =>
      rw [Stmt.functionIdsAll] at hids h
      obtain ⟨hown, hrest, hdisjoint⟩ := List.nodup_append.mp hids
      have hnew : ∀ id ∈ s.functionIds, id ∉ Stmt.functionIdsAll ss :=
        fun id hid hmem => hdisjoint id hid id hmem rfl
      refine ⟨?_, ih hrest fun id hid => ?_⟩
      · have hawaits : s.Awaits (if s.isAhead earlier then s.signed σ else σ)
            (s.isAhead earlier) :=
          Stmt.awaits_signed hown fun id hid => h id (List.mem_append_left _ hid)
        refine hawaits.congr fun id hid => ?_
        rw [hoistedSignatures]
        exact getElem?_hoistedSignatures (hnew id hid)
      · have hnot : id ∉ s.functionIds := fun hmem => hnew id hmem hid
        split
        · rw [Stmt.getElem?_signed hnot]
          exact h id (List.mem_append_right _ hid)
        · exact h id (List.mem_append_right _ hid)

end

-- =========================================================== following

/-- A course is a walk, and keeps new signatures under some identities
only. -/
structure Course.Follows (c : Course) (w : Walk) (σ : Signatures)
    (ids : List NodeId) : Prop where
  walk : c.toWalk = w
  kept : ∀ id, id ∉ ids → c.signatures[id]? = σ[id]?

namespace Course.Follows

variable {c : Course} {w : Walk} {σ : Signatures} {ids ids' : List NodeId}

theorem same (w : Walk) (σ : Signatures) (ids : List NodeId) :
    Follows ⟨w, σ⟩ w σ ids :=
  ⟨rfl, fun _ _ => rfl⟩

theorem andThen {f : Frame → SymbolId → Signatures → Course}
    {g : Frame → SymbolId → Walk} (h : c.Follows w σ ids)
    (hf : (f w.frame w.next c.signatures).Follows (g w.frame w.next)
      c.signatures ids') :
    (c.andThen f).Follows (w.andThen g) σ (ids ++ ids') := by
  obtain ⟨rfl, hkept⟩ := h
  refine ⟨?_, fun id hid => ?_⟩
  · show Walk.andThen c.toWalk (fun φ n => (f φ n c.signatures).toWalk) = _
    simp only [Walk.andThen]
    rw [hf.walk]
  · rw [List.mem_append, not_or] at hid
    exact (hf.kept id hid.2).trans (hkept id hid.1)

theorem after (h : c.Follows w σ ids) (es : List Event) :
    (c.after es).Follows (w.after es) σ ids :=
  ⟨congrArg (Walk.after es) h.walk, h.kept⟩

theorem closed (h : c.Follows w σ ids) (config : Config) (φ : Frame) :
    (c.closed config φ).Follows (w.closed config φ) σ ids :=
  ⟨congrArg (Walk.closed config φ) h.walk, h.kept⟩

theorem mono (h : c.Follows w σ ids) (hids : ∀ id ∈ ids, id ∈ ids') :
    c.Follows w σ ids' :=
  ⟨h.walk, fun id hid => h.kept id fun hmem => hid (hids id hmem)⟩

end Course.Follows

section

variable {σ : Signatures}

theorem follows_hoistingCourse (σ : Signatures) (ss : List Stmt) (φ : Frame)
    (n : SymbolId) :
    (hoistingCourse ss φ n σ).Follows (hoisting [] ss φ n) σ
      (Stmt.functionIdsAll ss) :=
  ⟨rfl, fun _ hid => getElem?_hoistedSignatures hid⟩

/-- A function that is reached has been declared or is declared now, as
its place tells. -/
theorem follows_reachingFunction {t : Tag} {params : List Param}
    {result : Option TypeName} {body : List Stmt} {ahead : Bool} (name : String)
    (φ : Frame) (n : SymbolId)
    (h : σ[t.id]?
      = if ahead then some (Signature.of params result body) else none) :
    (reachingFunction t name params result body φ n σ).Follows
      (if ahead then ⟨φ, n, []⟩
        else declaringFunction t name params result body φ n) σ [t.id] := by
  unfold reachingFunction
  cases ahead with
  | true =>
      have hmem : t.id ∈ σ := by
        rw [Std.TreeMap.mem_iff_isSome_getElem?, h]
        rfl
      rw [if_pos hmem]
      exact .same _ _ _
  | false =>
      have hmem : t.id ∉ σ := by
        rw [Std.TreeMap.mem_iff_isSome_getElem?, h]
        exact nofun
      rw [if_neg hmem]
      refine ⟨rfl, fun id hid => ?_⟩
      have hne : ¬ compare t.id id = .eq := fun heq =>
        hid (List.mem_singleton.mpr (Std.LawfulEqCmp.eq_of_compare heq).symm)
      rw [Std.TreeMap.getElem?_insert, if_neg hne]

theorem follows_courseOfBranch
    {course : Env → Frame → SymbolId → Signatures → Course}
    {walk : Env → Frame → SymbolId → Walk} {ids : List NodeId} (config : Config)
    (branch : Stmt) (outer : Env) (φ : Frame) (n : SymbolId)
    (h : ∀ outer φ n, (course outer φ n σ).Follows (walk outer φ n) σ ids) :
    (courseOfBranch config branch course outer φ n σ).Follows
      (walkBranch config branch walk outer φ n) σ ids := by
  unfold courseOfBranch walkBranch
  split
  · exact h outer φ n
  · exact (h (φ :: outer) [] n).closed config φ

/-- A function that can be reached has its own signature, or none yet. -/
theorem Stmt.Awaits.signature {t : Tag} {name : String} {params : List Param}
    {result : Option TypeName} {p : Position} {body : List Stmt} {ahead : Bool}
    (h : Stmt.Awaits σ ahead (.function t name params result p body)) :
    σ[t.id]?.getD (Signature.of params result body)
      = Signature.of params result body := by
  rw [h.1]
  cases ahead <;> rfl

/-- Once a function has been reached and the functions of its body are
declared ahead, the statements of the body can be reached. -/
theorem Stmt.Awaits.body {t : Tag} {name : String} {params : List Param}
    {result : Option TypeName} {p : Position} {body : List Stmt} {ahead : Bool}
    (h : Stmt.Awaits σ ahead (.function t name params result p body))
    (hids : (t.id :: Stmt.functionIdsAll body).Nodup) (φ : Frame) (n : SymbolId) :
    Stmt.AwaitsAll (hoistedSignatures [] body
      (reachingFunction t name params result body φ n σ).signatures) [] body := by
  obtain ⟨hown, hbody⟩ := h
  obtain ⟨hnot, hids⟩ := List.nodup_cons.mp hids
  refine awaitsAll_hoistedSignatures hids fun id hid => ?_
  have hne : id ∉ [t.id] := fun hmem => hnot (List.mem_singleton.mp hmem ▸ hid)
  exact ((follows_reachingFunction name φ n hown).kept id hne).trans (hbody id hid)

mutual

/-- The course of a statement that can be reached is its walk. -/
theorem Stmt.course_eq_walk (config : Config) : (s : Stmt) → ∀ {ahead : Bool}
    {σ : Signatures} (expected : Option Ty) (outer : Env) (φ : Frame)
    (n : SymbolId),
    s.functionIds.Nodup → s.Awaits σ ahead →
    (s.course config expected outer φ n σ).Follows
      (s.walk config expected ahead outer φ n) σ s.functionIds
  | .declaration _ _ _ _ _, ahead, σ, expected, outer, φ, n, _, _ => .same _ _ _
  | .assignment _ _ _, ahead, σ, expected, outer, φ, n, _, _ => .same _ _ _
  | .ret _ _, ahead, σ, expected, outer, φ, n, _, _ => .same _ _ _
  | .expr _ _, ahead, σ, expected, outer, φ, n, _, _ => .same _ _ _
  | .function t name params result p body, ahead, σ, expected, outer, φ, n,
      hids, h => by
      rw [Stmt.functionIds] at hids
      have hreach := follows_reachingFunction name φ n h.1
      have hbody := h.body hids φ n
      simp only [Stmt.course, Stmt.walk, Stmt.functionIds, h.signature]
      refine hreach.andThen (Course.Follows.closed ?_ config _)
      have hids := (List.nodup_cons.mp hids).2
      have hparams := Course.Follows.same
        (declaringParams t.id 0 params (Signature.of params result body).params []
          (reachingFunction t name params result body φ n σ).next)
        (reachingFunction t name params result body φ n σ).signatures []
      have hhoist := hparams.andThen (follows_hoistingCourse _ body _ _)
      have hall := hhoist.andThen (Stmt.courseAll_eq_walkAll config body
        (some (Signature.of params result body).ret)
        ((reachingFunction t name params result body φ n σ).frame :: outer) _ _
        hids hbody)
      rw [hreach.walk] at hall
      exact hall.mono (by simp)
  | .block t p ss, ahead, σ, expected, outer, φ, n, hids, h => by
      simp only [Stmt.course, Stmt.walk, Stmt.functionIds]
      refine Course.Follows.closed ?_ config φ
      have hhoist := follows_hoistingCourse σ ss [] n
      have hall := hhoist.andThen (Stmt.courseAll_eq_walkAll config ss expected
        (φ :: outer) _ _ hids (awaitsAll_hoistedSignatures hids h))
      exact hall.mono (by simp)
  | .ifElse t c a none, ahead, σ, expected, outer, φ, n, hids, h => by
      rw [Stmt.functionIds] at hids
      simp only [Stmt.course, Stmt.walk, Stmt.functionIds]
      have hbranch := follows_courseOfBranch config a outer φ n fun outer φ n =>
        Stmt.course_eq_walk config a expected outer φ n hids (Stmt.awaits_of_none h)
      exact hbranch.after _
  | .ifElse t c a (some b), ahead, σ, expected, outer, φ, n, hids, h => by
      rw [Stmt.functionIds] at hids
      obtain ⟨ha, hb, hdisjoint⟩ := List.nodup_append.mp hids
      simp only [Stmt.course, Stmt.walk, Stmt.functionIds]
      have hthen := follows_courseOfBranch config a outer φ n
        fun outer φ n => Stmt.course_eq_walk config a expected outer φ n ha
          (Stmt.awaits_of_none fun id hid => h id (List.mem_append_left _ hid))
      refine (hthen.andThen
        (follows_courseOfBranch config b outer _ _ fun outer φ n => ?_)).after _
      refine Stmt.course_eq_walk config b expected outer φ n hb
        (Stmt.awaits_of_none ?_)
      intro id hid
      rw [hthen.kept id fun hmem => hdisjoint id hmem id hid rfl]
      exact h id (List.mem_append_right _ hid)
  | .while t c b, ahead, σ, expected, outer, φ, n, hids, h => by
      rw [Stmt.functionIds] at hids
      simp only [Stmt.course, Stmt.walk, Stmt.functionIds]
      have hbranch := follows_courseOfBranch config b outer φ n fun outer φ n =>
        Stmt.course_eq_walk config b expected outer φ n hids (Stmt.awaits_of_none h)
      exact hbranch.after _

theorem Stmt.courseAll_eq_walkAll (config : Config) : (ss : List Stmt) →
    ∀ {earlier : List String} {σ : Signatures} (expected : Option Ty)
    (outer : Env) (φ : Frame) (n : SymbolId),
    (Stmt.functionIdsAll ss).Nodup → Stmt.AwaitsAll σ earlier ss →
    (Stmt.courseAll config ss expected outer φ n σ).Follows
      (Stmt.walkAll config ss expected earlier outer φ n) σ
      (Stmt.functionIdsAll ss)
  | [], earlier, σ, expected, outer, φ, n, _, _ => .same _ _ _
  | s :: ss, earlier, σ, expected, outer, φ, n, hids, h => by
      rw [Stmt.functionIdsAll] at hids
      obtain ⟨hs, hss, hdisjoint⟩ := List.nodup_append.mp hids
      simp only [Stmt.courseAll, Stmt.walkAll, Stmt.functionIdsAll]
      have hfirst := Stmt.course_eq_walk config s expected outer φ n hs h.1
      refine hfirst.andThen
        (Stmt.courseAll_eq_walkAll config ss expected outer _ _ hss ?_)
      refine h.2.congr fun id hid => hfirst.kept id fun hmem => ?_
      exact hdisjoint id hmem id hid rfl

end

/-- The second branch of a statement can be reached behind the first: what
the first keeps is under identities of its own functions. -/
theorem Stmt.awaits_secondBranch (config : Config) {a b : Stmt}
    (hids : (a.functionIds ++ b.functionIds).Nodup)
    (h : ∀ id ∈ a.functionIds ++ b.functionIds, σ[id]? = none) (expected : Option Ty)
    (outer : Env) (φ : Frame) (n : SymbolId) :
    b.Awaits (courseOfBranch config a (Stmt.course config a expected) outer φ n
      σ).signatures false := by
  obtain ⟨ha, -, hdisjoint⟩ := List.nodup_append.mp hids
  have hthen := follows_courseOfBranch config a outer φ n
    fun outer φ n => Stmt.course_eq_walk config a expected outer φ n ha
      (Stmt.awaits_of_none fun id hid => h id (List.mem_append_left _ hid))
  refine Stmt.awaits_of_none fun id hid => ?_
  rw [hthen.kept id fun hmem => hdisjoint id hmem id hid rfl]
  exact h id (List.mem_append_right _ hid)

/-- The rest of a list can be reached behind its first statement. -/
theorem Stmt.AwaitsAll.tail {earlier : List String} {s : Stmt} {ss : List Stmt}
    (h : Stmt.AwaitsAll σ earlier (s :: ss))
    (hids : (s.functionIds ++ Stmt.functionIdsAll ss).Nodup) (config : Config)
    (expected : Option Ty) (outer : Env) (φ : Frame) (n : SymbolId) :
    Stmt.AwaitsAll (s.course config expected outer φ n σ).signatures
      (s.variablesAfter earlier) ss := by
  obtain ⟨hs, -, hdisjoint⟩ := List.nodup_append.mp hids
  have hfirst := Stmt.course_eq_walk config s expected outer φ n hs h.1
  refine h.2.congr fun id hid => hfirst.kept id fun hmem => ?_
  exact hdisjoint id hmem id hid rfl

end

section

variable {p : Program}

theorem Program.nodup_functionIds (h : p.ids.Nodup) :
    (Stmt.functionIdsAll p.body).Nodup :=
  h.sublist (Stmt.functionIdsAll_sublist 0 .body p.body)

/-- Once the functions of a program are declared ahead, its statements can
be reached. -/
theorem Program.awaitsAll_body (h : p.ids.Nodup) :
    Stmt.AwaitsAll (hoistedSignatures [] p.body {}) [] p.body :=
  awaitsAll_hoistedSignatures (p.nodup_functionIds h)
    fun _ _ => Std.TreeMap.getElem?_emptyc

/-- Where the nodes of a program have distinct identities, its course is
the walk of its global scope. -/
theorem Program.toWalk_course (config : Config) (h : p.ids.Nodup) :
    (p.course config).toWalk = (hoisting [] p.body [] 0).andThen
      (Stmt.walkAll config p.body none [] []) := by
  have hhoist := follows_hoistingCourse {} p.body [] 0
  have hall := hhoist.andThen
    (Stmt.courseAll_eq_walkAll config p.body none [] _ _ (p.nodup_functionIds h)
      (awaitsAll_body h))
  exact hall.walk

/-- Where the nodes of a program have distinct identities, its course is
its account. -/
theorem Program.course_eq_account (config : Config) (h : p.ids.Nodup) :
    (p.course config).events = p.account config :=
  congrArg Walk.events (toWalk_course config h)

end

end TreeCheck
