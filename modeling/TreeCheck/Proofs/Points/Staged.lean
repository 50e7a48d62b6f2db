/-
The scenes of a run, one for each point that it comes by.

Where a run is at a point, its state is what the events before have made
of it, and what is left to do is a part of the account of the program
(`Program.At.staged`). At a region the frame holds what has been
declared ahead. The order in which the declarations of a region are
bound agrees with the source name by name, and on the variables and
parameters as a whole (`Region.Order`), so that once the statements of
the region are checked, the frame tells the last declaration of each
name.
-/
import TreeCheck.Proofs.Duplicates.Walks
import TreeCheck.Proofs.Points.Descent

namespace TreeCheck

open Analysis

-- ================================================================ order

/-- An order of the declarations of a region that agrees with the source on the
declarations of each name, and on all that are no functions. -/
structure Region.Order (r : Region) (ds : List (Decl Place)) : Prop where
  named : ∀ x, ds.filter (·.name == x) = r.named x
  values : ds.filter (·.kind ≠ .function) = r.declarations.filter (·.kind ≠ .function)

theorem values_placedAhead (earlier : List String) (ss : List Stmt) :
    (placedAhead earlier ss).filter (·.kind ≠ .function) = [] := by
  induction ss generalizing earlier with
  | nil => rfl
  | cons s ss ih =>
      rw [placedAhead_cons, List.filter_append, ih, List.append_nil]
      cases s with
      | function => split <;> rfl
      | declaration | assignment | block | ifElse | «while» | ret | expr => rfl

theorem values_placedBehindAll (earlier : List String) (ss : List Stmt) :
    (Stmt.placedBehindAll earlier ss).filter (·.kind ≠ .function)
      = (ss.filterMap Stmt.placed).filter (·.kind ≠ .function) := by
  induction ss generalizing earlier with
  | nil => rfl
  | cons s ss ih =>
      rw [Stmt.placedBehindAll, List.filter_append, ih]
      cases s with
      | function t name params result p body =>
          cases Stmt.isAhead earlier (.function t name params result p body) <;> rfl
      | declaration | assignment | block | ifElse | «while» | ret | expr => rfl

/-- The order in which the declarations of a scope are bound: parameters, then
functions that are declared ahead, then all others in their place. -/
theorem order_region (params : List (Decl Place)) (ss : List Stmt) :
    (Region.mk params ss).Order
      (params ++ placedAhead [] ss ++ Stmt.placedBehindAll [] ss) where
  named := named_region params ss
  values := by
    rw [List.filter_append, List.filter_append, values_placedAhead, List.append_nil,
      values_placedBehindAll, ← List.filter_append, Region.declarations]

/-- A bare branch is a region with what it declares where it stands. -/
theorem order_bare (s : Stmt) : Region.Order { stmts := [s] } (s.placedBehind false) where
  named := s.named_bare
  values := by cases s <;> rfl

/-- A frame that holds the declarations of a region in such an order tells the
last one of each name. -/
theorem Region.Order.last {r : Region} {ds : List (Decl Place)} {φ : Frame}
    (h : r.Order ds) (hplaced : φ.placed = ds.reverse) (x : String) :
    φ.last x = (r.named x).getLast? := by
  rw [Frame.last, hplaced, ← List.head?_filter, List.filter_reverse, List.head?_reverse,
    h.named]

/-- Once its statements are walked, a frame holds what was bound in front of them
and what they bind. -/
theorem Stmt.placed_walkAll (config : Config) (ss : List Stmt) (expected : Option Ty)
    (earlier : List String) (outer : Env) {φ : Frame} (n : SymbolId)
    {ds : List (Decl Place)} (h : φ.placed = ds.reverse) :
    (Stmt.walkAll config ss expected earlier outer φ n).frame.placed
      = (ds ++ Stmt.placedBehindAll earlier ss).reverse := by
  rw [(Stmt.redeclares_walkAll config ss expected earlier outer φ n).frame, h,
    List.reverse_append]

-- =============================================================== staging

/-- A point of a run, with a scene. At a region the frame holds what is bound in
front of the statements. A region that is not the global scope has been
opened by a walk. -/
def Point.Staged (config : Config) (p : Program) (ctx : Context) (s : State) :
    Point → Prop
  | .region r => ∃ S earlier ds, Scene.AtList config p S ctx s earlier r.stmts
      ∧ S.frame.placed = ds.reverse
      ∧ r.Order (ds ++ Stmt.placedBehindAll earlier r.stmts)
      ∧ (r = { stmts := p.body } ∨ ∃ T o,
        Scene.AtRegion config p T ctx s o earlier r.stmts
        ∧ o.Confined T.env [] T.next ∧ o.frame = S.frame)
  | .list ss => ∃ S earlier, Scene.AtList config p S ctx s earlier ss
  | .stmt node => ∃ S ahead, Scene.AtStmt config p S ctx s ahead node
  | .branch node => ∃ S, Scene.AtBranch config p S ctx s node

section

variable {config : Config} {p : Program} {ctx : Context} {s : State}

/-- A region that a walk has opened is staged. -/
theorem Scene.AtRegion.staged {T : Scene} {o : Walk} {earlier : List String}
    {r : Region} {ds : List (Decl Place)} (h : T.AtRegion config p ctx s o earlier r.stmts)
    (ho : o.Confined T.env [] T.next) (hopened : Redeclares [] ds [] o)
    (horder : r.Order (ds ++ Stmt.placedBehindAll earlier r.stmts)) :
    (Point.region r).Staged config p ctx s :=
  ⟨_, earlier, ds, h.list, hopened.frame.trans (List.append_nil _), horder,
    .inr ⟨T, o, h, ho, rfl⟩⟩

/-- A run has a scene at every point that it comes by. -/
theorem Program.At.staged {q : Point} (hids : p.ids.Nodup)
    (h : p.At config q ctx s) : q.Staged config p ctx s := by
  induction h with
  | program hhoist =>
      refine ⟨_, _, _, (Scene.atScope_start hids).list hhoist, ?_, order_region [] p.body,
        .inl rfl⟩
      exact (redeclares_hoisting [] p.body [] 0).frame.trans (List.append_nil _)
  | list _ ih =>
      obtain ⟨S, earlier, -, hlist, -⟩ := ih
      exact ⟨S, earlier, hlist⟩
  | head _ ih =>
      obtain ⟨S, earlier, hlist⟩ := ih
      exact ⟨_, _, hlist.head⟩
  | tail _ hchecked ih =>
      obtain ⟨S, earlier, hlist⟩ := ih
      exact ⟨_, _, hlist.tail hchecked⟩
  | function _ hdescend hsig hparams hhoist ih =>
      obtain ⟨S, ahead, hstmt⟩ := ih
      obtain ⟨rfl, hregion⟩ := hstmt.function hdescend hsig hparams hhoist
      refine hregion.staged (confined_openingWalk _ _ _ _ _) ?_ (order_region _ _)
      exact (redeclares_declaringParams _ 0 _ [] _).andThen
        (redeclares_hoisting [] _ _ _)
  | block _ hdescend hhoist ih =>
      obtain ⟨S, ahead, hstmt⟩ := ih
      have hregion := hstmt.block hdescend hhoist
      exact hregion.staged (confined_hoisting _ _ _ _ _) (redeclares_hoisting [] _ [] _)
        (order_region [] _)
  | thenBranch _ hdescend hcondition ih =>
      obtain ⟨S, ahead, hstmt⟩ := ih
      exact ⟨_, hstmt.thenBranch hdescend hcondition⟩
  | elseBranch _ hdescend hcondition hpassed ih =>
      obtain ⟨S, ahead, hstmt⟩ := ih
      exact ⟨_, hstmt.elseBranch hdescend hcondition hpassed⟩
  | loop _ hdescend hcondition ih =>
      obtain ⟨S, ahead, hstmt⟩ := ih
      exact ⟨_, hstmt.loop hdescend hcondition⟩
  | braced _ hblock ih =>
      obtain ⟨S, hbranch⟩ := ih
      exact ⟨_, _, hbranch.braced hblock⟩
  | @bare stmt _ _ _ hblock ih =>
      obtain ⟨S, hbranch⟩ := ih
      obtain ⟨earlier, hearlier⟩ := stmt.exists_isAhead_eq_false
      have hregion := hbranch.bare hblock hearlier
      refine hregion.staged (.same _ _ _) (.single [] _ single_nil) ?_
      rw [Stmt.placedBehindAll, hearlier, Stmt.placedBehindAll, List.append_nil]
      exact order_bare stmt

/-- At a point of a run some scene holds. -/
theorem Program.At.exists_holds {q : Point} (hids : p.ids.Nodup)
    (h : p.At config q ctx s) : ∃ S σ ids w, Scene.Holds config p S s σ ids w := by
  have hstaged := h.staged hids
  cases q with
  | region r =>
      obtain ⟨S, _, _, ⟨-, σ, hholds, -⟩, -⟩ := hstaged
      exact ⟨S, σ, _, _, hholds⟩
  | list ss =>
      obtain ⟨S, _, -, σ, hholds, -⟩ := hstaged
      exact ⟨S, σ, _, _, hholds⟩
  | stmt stmt =>
      obtain ⟨S, _, -, σ, hholds, -⟩ := hstaged
      exact ⟨S, σ, _, _, hholds⟩
  | branch stmt =>
      obtain ⟨S, -, σ, hholds, -⟩ := hstaged
      exact ⟨S, σ, _, _, hholds⟩

end

end TreeCheck
