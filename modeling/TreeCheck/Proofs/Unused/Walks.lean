/-
Every walk reports the unused names of its regions.

The induction follows the walk. Names are bound and expressions looked
up without a word about unused names; each scope that is left has its
say, and the region it belongs to is one of those in the source.
-/
import TreeCheck.Proofs.Points.Descent
import TreeCheck.Proofs.Unused.Warnings

namespace TreeCheck

open Analysis

section

variable {config : Config} {reads : Site → Bool} {outer : Env} {φ : Frame}
  {n : SymbolId}

theorem warns_declaringFunction (t : Tag) (name : String) (params : List Param)
    (result : Option TypeName) (body : List Stmt) :
    Warns reads outer φ n [] (declaringFunction t name params result body φ n) :=
  (Warns.declaring _ _ _).after (reports_signatureEvents _ _ _).consults
    (plain_signatureEvents _ _ _)

theorem warns_hoisting (earlier : List String) (ss : List Stmt) :
    Warns reads outer φ n [] (hoisting earlier ss φ n) := by
  induction ss generalizing earlier φ n with
  | nil => exact .same outer φ n
  | cons s ss ih =>
      cases s with
      | function t name params result p body =>
          unfold hoisting
          split
          · exact ih earlier
          · exact (warns_declaringFunction _ _ _ _ _).andThen (ih _)
      | declaration | assignment | block | ifElse | «while» | ret | expr => exact ih _

theorem warns_declaringParams (function : NodeId) (i : Nat) (ps : List Param)
    (tys : List Ty) : Warns reads outer φ n [] (declaringParams function i ps tys φ n) := by
  induction ps generalizing i tys φ n with
  | nil => exact .same outer φ n
  | cons p ps ih =>
      cases tys with
      | nil => exact .same outer φ n
      | cons ty tys => exact (Warns.declaring _ _ _).andThen (ih _ _)

theorem warns_walkBranch {branch : Stmt} {expected : Option Ty}
    (hwarn : config.warnUnused = true)
    (h : ∀ outer φ n, Warns reads outer φ n branch.regions
      (branch.walk config expected false outer φ n)) :
    Warns reads outer φ n (regionsOfBranch branch branch.regions)
      (walkBranch config branch (branch.walk config expected false) outer φ n) := by
  unfold walkBranch regionsOfBranch
  split
  · exact h outer φ n
  · have hinner := Stmt.redeclares_walk config branch expected false (φ :: outer) [] n
    refine (h (φ :: outer) [] n).closed hwarn ?_ (order_bare branch)
    exact hinner.frame.trans (List.append_nil _)

/-- The scope of a region with parameters is opened, walked and left. -/
theorem Warns.region {o : Walk} {ss : List Stmt} {expected : Option Ty}
    (params : List (Decl Place)) (hwarn : config.warnUnused = true)
    (ho : Warns reads (φ :: outer) [] n [] o)
    (hopened : Redeclares [] (params ++ placedAhead [] ss) [] o)
    (h : Warns reads (φ :: outer) o.frame o.next (Stmt.regionsAll ss)
      (Stmt.walkAll config ss expected [] (φ :: outer) o.frame o.next)) :
    Warns reads outer φ n (⟨params, ss⟩ :: Stmt.regionsAll ss)
      ((o.andThen (Stmt.walkAll config ss expected [] (φ :: outer))).closed config
        φ) := by
  have hwalk := Stmt.redeclares_walkAll config ss expected [] (φ :: outer) o.frame
    o.next
  refine (ho.andThen h).closed hwarn ?_ (order_region params ss)
  exact (hopened.andThen hwalk).frame.trans (List.append_nil _)

mutual

/-- The walk of a statement reports the unused names of the regions in it. -/
theorem Stmt.warns_walk (hwarn : config.warnUnused = true) : (s : Stmt) →
    ∀ (expected : Option Ty) (ahead : Bool) (outer : Env) (φ : Frame)
      (n : SymbolId),
    Warns reads outer φ n s.regions (s.walk config expected ahead outer φ n)
  | .declaration t name ann init m, expected, ahead, outer, φ, n =>
      (Warns.declaring _ _ _).after (consults_declarationEvents t.id name ann init)
        (plain_declarationEvents t.id name ann init)
  | .function t name params result p body, expected, ahead, outer, φ, n => by
      have hown : Warns reads outer φ n []
          (ownWalk ahead t name params result body φ n) := by
        cases ahead with
        | true => exact .same outer φ n
        | false => exact warns_declaringFunction _ _ _ _ _
      have hopening (n : SymbolId) := (redeclares_declaringParams t.id 0 params [] n).andThen
        (redeclares_hoisting [] body _ _)
      simp only [Stmt.walk, Stmt.regions]
      refine hown.andThen (Warns.region _ hwarn ?_ (hopening _) ?_)
      · exact (warns_declaringParams _ _ _ _).andThen (warns_hoisting _ _)
      · exact Stmt.warns_walkAll hwarn body _ [] _ _ _
  | .assignment t target value, expected, ahead, outer, φ, n =>
      .consults (consults_assignmentEvents _ _ _) (plain_assignmentEvents _ _ _)
  | .block t p ss, expected, ahead, outer, φ, n => by
      simp only [Stmt.walk, Stmt.regions]
      refine Warns.region [] hwarn (warns_hoisting _ _)
        (redeclares_hoisting [] ss [] n) ?_
      exact Stmt.warns_walkAll hwarn ss _ [] _ _ _
  | .ifElse t c a none, expected, ahead, outer, φ, n => by
      simp only [Stmt.walk, Stmt.regions]
      refine Warns.after ?_ (consults_conditionEvents _ _ _) (plain_conditionEvents _ _ _)
      exact warns_walkBranch hwarn fun outer φ n =>
        Stmt.warns_walk hwarn a expected false outer φ n
  | .ifElse t c a (some b), expected, ahead, outer, φ, n => by
      simp only [Stmt.walk, Stmt.regions]
      refine Warns.after (Warns.andThen ?_ ?_) (consults_conditionEvents _ _ _)
        (plain_conditionEvents _ _ _)
      · exact warns_walkBranch hwarn fun outer φ n =>
          Stmt.warns_walk hwarn a expected false outer φ n
      · exact warns_walkBranch hwarn fun outer φ n =>
          Stmt.warns_walk hwarn b expected false outer φ n
  | .while t c b, expected, ahead, outer, φ, n => by
      simp only [Stmt.walk, Stmt.regions]
      refine Warns.after ?_ (consults_conditionEvents _ _ _) (plain_conditionEvents _ _ _)
      exact warns_walkBranch hwarn fun outer φ n =>
        Stmt.warns_walk hwarn b expected false outer φ n
  | .ret t value, expected, ahead, outer, φ, n =>
      .consults (consults_returningEvents _ _ _) (plain_returningEvents _ _ _)
  | .expr t e, expected, ahead, outer, φ, n =>
      .consults (e.consults_events _) e.plain_events

theorem Stmt.warns_walkAll (hwarn : config.warnUnused = true) : (ss : List Stmt) →
    ∀ (expected : Option Ty) (earlier : List String) (outer : Env) (φ : Frame)
      (n : SymbolId),
    Warns reads outer φ n (Stmt.regionsAll ss)
      (Stmt.walkAll config ss expected earlier outer φ n)
  | [], expected, earlier, outer, φ, n => .same outer φ n
  | s :: ss, expected, earlier, outer, φ, n => by
      simp only [Stmt.walkAll, Stmt.regionsAll]
      exact (Stmt.warns_walk hwarn s _ _ _ _ _).andThen
        (Stmt.warns_walkAll hwarn ss _ _ _ _ _)

end

end

end TreeCheck
