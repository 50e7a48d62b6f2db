/-
Symbols are numbered in the order of their declarations.

The order is that of `Stmt.sites`, read off the source. A walk that
starts with some next number binds the declarations of its part under
that number and the following ones, so the k-th declaration of a program
is the symbol k. As no two declarations have one place, a symbol can be
told by its place.
-/
import TreeCheck.Proofs.Account.Binding
import TreeCheck.Proofs.Scoping.Frames
import TreeCheck.Proofs.Scoping.Occurrences

namespace TreeCheck

open Analysis

/-- A walk binds declarations of some places under consecutive numbers. -/
structure Numbers (n : SymbolId) (sites : List Site) (w : Walk) : Prop where
  next : w.next = n + sites.length
  bound : (w.events.filterMap Event.bound?).map (fun d => (d.site, d.id))
    = sites.zipIdx n

namespace Numbers

variable {n : SymbolId} {sites sites' : List Site} {w : Walk} {es : List Event}

theorem andThen {f : Frame → SymbolId → Walk} (h : Numbers n sites w)
    (h' : Numbers w.next sites' (f w.frame w.next)) :
    Numbers n (sites ++ sites') (w.andThen f) where
  next := by
    rw [Walk.next_andThen, h'.next, h.next, List.length_append, Nat.add_assoc]
  bound := by
    rw [Walk.events_andThen, List.filterMap_append, List.map_append, h.bound,
      h'.bound, h.next, List.zipIdx_append]

theorem after (h : Numbers n sites w) (hes : Looks es) :
    Numbers n sites (w.after es) where
  next := h.next
  bound := by
    rw [Walk.events_after, List.filterMap_append, hes, List.nil_append]
    exact h.bound

theorem closed (h : Numbers n sites w) (config : Config) (φ : Frame) :
    Numbers n sites (w.closed config φ) where
  next := h.next
  bound := by
    show (List.filterMap _ (w.events ++ leavingEvents config w)).map _ = _
    rw [List.filterMap_append, (reports_leavingEvents config w).bound,
      List.append_nil]
    exact h.bound

theorem looks (φ : Frame) (n : SymbolId) (hes : Looks es) :
    Numbers n [] ⟨φ, n, es⟩ where
  next := rfl
  bound := by
    show (es.filterMap Event.bound?).map _ = _
    rw [hes]
    rfl

end Numbers

-- ========================================================= declaring

theorem numbers_declaring (node : NodeId) (site : Site) (b : Binding) (φ : Frame)
    (n : SymbolId) : Numbers n [site] (declaring node site b φ n) where
  next := rfl
  bound := by
    show (List.filterMap _ (duplicateEvents node b _ ++ [_])).map _ = _
    rw [List.filterMap_append, (reports_duplicateEvents _ _ _).bound]
    rfl

theorem numbers_declaringFunction (t : Tag) (name : String) (params : List Param)
    (result : Option TypeName) (body : List Stmt) (φ : Frame) (n : SymbolId) :
    Numbers n [.stmt t.id] (declaringFunction t name params result body φ n) :=
  (numbers_declaring _ _ _ _ _).after (reports_signatureEvents _ _ _).looks

theorem numbers_hoisting (earlier : List String) (ss : List Stmt) (φ : Frame)
    (n : SymbolId) :
    Numbers n (sitesAhead earlier ss) (hoisting earlier ss φ n) := by
  induction ss generalizing earlier φ n with
  | nil => exact .looks φ n rfl
  | cons s ss ih =>
      cases s with
      | function t name params result p body =>
          unfold hoisting sitesAhead Stmt.functionsAhead
          by_cases hmem : name ∈ earlier
          · simp only [hmem, if_true, Stmt.isAhead, Stmt.variablesAfter, not_true,
              decide_false, Bool.false_eq_true, if_false, List.nil_append]
            exact ih earlier φ n
          · simp only [hmem, if_false, Stmt.isAhead, Stmt.variablesAfter,
              not_false_eq_true, decide_true, if_true, List.map_append]
            have hfirst := numbers_declaringFunction t name params result body φ n
            exact hfirst.andThen (ih earlier _ _)
      | declaration | assignment | block | ifElse | «while» | ret | expr =>
          exact ih _ φ n

theorem numbers_declaringParams (function : NodeId) (i : Nat) (ps : List Param)
    (φ : Frame) (n : SymbolId) :
    Numbers n ((paramDecls function i ps).map (·.info))
      (declaringParams function i ps (ps.map (·.type)) φ n) := by
  induction ps generalizing i φ n with
  | nil => exact .looks φ n rfl
  | cons p ps ih => exact (numbers_declaring _ _ _ _ _).andThen (ih (i + 1) _ _)

theorem numbers_walkBranch {sites : List Site}
    {walk : Env → Frame → SymbolId → Walk} (config : Config) (branch : Stmt)
    (outer : Env) (φ : Frame) (n : SymbolId)
    (h : ∀ outer φ n, Numbers n sites (walk outer φ n)) :
    Numbers n sites (walkBranch config branch walk outer φ n) := by
  unfold walkBranch
  split
  · exact h outer φ n
  · exact (h (φ :: outer) [] n).closed config φ

mutual

theorem Stmt.numbers_walk (config : Config) :
    (s : Stmt) → ∀ (expected : Option Ty)
    (ahead : Bool) (outer : Env) (φ : Frame) (n : SymbolId),
    Numbers n (s.sites ahead) (s.walk config expected ahead outer φ n)
  | .declaration t name ann init m, expected, ahead, outer, φ, n =>
      (numbers_declaring _ _ _ _ _).after (consults_declarationEvents _ _ _ _).looks
  | .function t name params result p body, expected, ahead, outer, φ, n => by
      have hown : Numbers n (if ahead then [] else [.stmt t.id])
          (if ahead then ⟨φ, n, []⟩
            else declaringFunction t name params result body φ n) := by
        cases ahead with
        | true => exact .looks φ n rfl
        | false => exact numbers_declaringFunction _ _ _ _ _ _ _
      simp only [Stmt.walk, Stmt.sites, List.append_assoc]
      refine hown.andThen (Numbers.closed ?_ config _)
      rw [← List.append_assoc]
      exact ((numbers_declaringParams _ _ _ _ _).andThen
        (numbers_hoisting _ _ _ _)).andThen
        (Stmt.numbers_walkAll config body _ _ _ _ _)
  | .assignment t target value, expected, ahead, outer, φ, n =>
      .looks φ n (consults_assignmentEvents _ _ _).looks
  | .block t p ss, expected, ahead, outer, φ, n => by
      simp only [Stmt.walk, Stmt.sites]
      exact ((numbers_hoisting _ _ _ _).andThen
        (Stmt.numbers_walkAll config ss _ _ _ _ _)).closed config φ
  | .ifElse t c a none, expected, ahead, outer, φ, n => by
      simp only [Stmt.walk, Stmt.sites]
      exact (numbers_walkBranch config _ outer φ n fun outer φ n =>
        Stmt.numbers_walk config a expected false outer φ n).after
          (consults_conditionEvents _ _ _).looks
  | .ifElse t c a (some b), expected, ahead, outer, φ, n => by
      simp only [Stmt.walk, Stmt.sites]
      have ha := numbers_walkBranch config a outer φ n
        fun outer φ n => Stmt.numbers_walk config a expected false outer φ n
      refine (ha.andThen (numbers_walkBranch config b outer _ _ ?_)).after
        (consults_conditionEvents _ _ _).looks
      exact fun outer φ n => Stmt.numbers_walk config b expected false outer φ n
  | .while t c b, expected, ahead, outer, φ, n => by
      simp only [Stmt.walk, Stmt.sites]
      exact (numbers_walkBranch config _ outer φ n fun outer φ n =>
        Stmt.numbers_walk config b expected false outer φ n).after
          (consults_conditionEvents _ _ _).looks
  | .ret t value, expected, ahead, outer, φ, n =>
      .looks φ n (consults_returningEvents _ _ _).looks
  | .expr t e, expected, ahead, outer, φ, n => .looks φ n (e.consults_events _).looks

theorem Stmt.numbers_walkAll (config : Config) : (ss : List Stmt) →
    ∀ (expected : Option Ty) (earlier : List String) (outer : Env) (φ : Frame)
    (n : SymbolId),
    Numbers n (Stmt.sitesAll earlier ss)
      (Stmt.walkAll config ss expected earlier outer φ n)
  | [], expected, earlier, outer, φ, n => .looks φ n rfl
  | s :: ss, expected, earlier, outer, φ, n => by
      simp only [Stmt.walkAll, Stmt.sitesAll]
      exact (Stmt.numbers_walk config s _ _ _ _ _).andThen
        (Stmt.numbers_walkAll config ss _ _ _ _ _)

end

/-- The k-th declaration of a program is bound under the number k. -/
theorem Program.numbers_account (config : Config) (p : Program) :
    ((p.account config).filterMap Event.bound?).map (fun d => (d.site, d.id))
      = p.declarations.zipIdx :=
  ((numbers_hoisting _ _ _ _).andThen
    (Stmt.numbers_walkAll config p.body _ _ _ _ _)).bound

/-- A number leads to the place of what is bound under it. -/
theorem Program.declarations_of_bound {config : Config} {p : Program} {d : Declared}
    (hd : d ∈ (p.account config).filterMap Event.bound?) :
    p.declarations[d.id]? = some d.site := by
  have hmem : (d.site, d.id) ∈ p.declarations.zipIdx := by
    rw [← p.numbers_account config]
    exact List.mem_map_of_mem hd
  exact List.mem_zipIdx_iff_getElem?.mp hmem

-- ============================================================= places

/-- Places that are distinct and belong to some statements. -/
structure Placed (sites : List Site) (ids : List NodeId) : Prop where
  nodup : sites.Nodup
  mem : ∀ site ∈ sites, site.node ∈ ids

namespace Placed

variable {sites sites' : List Site} {ids ids' : List NodeId}

theorem nil (ids : List NodeId) : Placed [] ids := ⟨.nil, nofun⟩

theorem perm (h : Placed sites ids) (hperm : sites.Perm sites') :
    Placed sites' ids :=
  ⟨hperm.nodup_iff.mp h.nodup, fun site hs => h.mem site (hperm.mem_iff.mpr hs)⟩

theorem mono (h : Placed sites ids) (hids : ∀ id ∈ ids, id ∈ ids') :
    Placed sites ids' :=
  ⟨h.nodup, fun site hs => hids _ (h.mem site hs)⟩

theorem append (h : Placed sites ids) (h' : Placed sites' ids')
    (hids : (ids ++ ids').Nodup) : Placed (sites ++ sites') (ids ++ ids') where
  nodup := by
    refine List.nodup_append.mpr ⟨h.nodup, h'.nodup, ?_⟩
    intro site hs _ hs' heq
    subst heq
    exact (List.nodup_append.mp hids).2.2 _ (h.mem site hs) _ (h'.mem site hs')
      rfl
  mem := by
    intro site hs
    rcases List.mem_append.mp hs with hs | hs
    · exact List.mem_append_left _ (h.mem site hs)
    · exact List.mem_append_right _ (h'.mem site hs)

/-- A function and its parameters. -/
theorem function (id : NodeId) (params : List Param) :
    Placed (.stmt id :: (paramDecls id 0 params).map (·.info)) [id] where
  nodup := by
    refine List.nodup_cons.mpr ⟨?_, ?_⟩
    · simp [paramDecls]
    · have hmap : (paramDecls id 0 params).map (·.info)
          = (List.range' 0 params.length).map (Site.param id) := by
        rw [← List.zipIdx_map_snd 0 params, paramDecls, List.map_map,
          List.map_map]
        rfl
      rw [hmap]
      refine List.Pairwise.map _ ?_ List.nodup_range'
      intro i j hne heq
      injection heq with _ hij
      exact hne hij
  mem := by
    intro site hs
    rcases List.mem_cons.mp hs with rfl | hs
    · exact List.mem_cons_self
    · simp only [paramDecls, List.map_map, List.mem_map] at hs
      obtain ⟨p, -, rfl⟩ := hs
      exact List.mem_cons_self

end Placed

/-- In whatever order a list declares, it declares what its statements
declare. -/
theorem perm_sites (earlier : List String) (ss : List Stmt) :
    (sitesAhead earlier ss ++ Stmt.sitesAll earlier ss).Perm
      (ss.flatMap (Stmt.sites false)) := by
  induction ss generalizing earlier with
  | nil => exact .nil
  | cons s ss ih =>
      have hown : (if s.isAhead earlier then [Site.stmt s.id] else [])
          ++ s.sites (s.isAhead earlier) = s.sites false := by
        cases s with
        | function t name params result p body =>
            cases Stmt.isAhead earlier (.function t name params result p body) <;>
              rfl
        | declaration | assignment | block | ifElse | «while» | ret | expr => rfl
      have hahead : sitesAhead earlier (s :: ss)
          = (if s.isAhead earlier then [Site.stmt s.id] else [])
            ++ sitesAhead (s.variablesAfter earlier) ss := by
        unfold sitesAhead
        rw [Stmt.functionsAhead, List.map_append]
        split <;> rfl
      rw [hahead, Stmt.sitesAll, List.flatMap_cons, ← hown]
      simp only [List.append_assoc]
      refine List.Perm.append_left _ (List.Perm.trans ?_
        ((ih (s.variablesAfter earlier)).append_left _))
      rw [← List.append_assoc, ← List.append_assoc]
      exact List.perm_append_comm.append_right _

mutual

theorem Stmt.placed_sites (d : Nat) (r : Role) : (s : Stmt) →
    ((s.outline d r).map (·.node.id)).Nodup →
    Placed (s.sites false) ((s.outline d r).map (·.node.id))
  | .declaration t name ann init m, _ => by
      simp only [Stmt.outline, List.map_cons, Stmt.sites]
      refine ⟨by simp, fun site hs => ?_⟩
      rw [List.mem_singleton.mp hs]
      exact List.mem_cons_self
  | .assignment _ _ _, _ => .nil _
  | .ret _ _, _ => .nil _
  | .expr _ _, _ => .nil _
  | .function t name params result p body, h => by
      simp only [Stmt.outline, List.map_cons] at h ⊢
      have hbody := Stmt.placed_sitesAll (d + 1) .body body
        (List.nodup_cons.mp h).2
      have hall := (Placed.function t.id params).append hbody h
      refine hall.perm ?_
      simp only [Stmt.sites, Bool.false_eq_true, if_false, List.append_assoc]
      exact ((perm_sites [] body).symm.append_left _).cons _
  | .block t p ss, h => by
      simp only [Stmt.outline, List.map_cons] at h ⊢
      have hss := Stmt.placed_sitesAll (d + 1) .stmt ss (List.nodup_cons.mp h).2
      exact (hss.perm (perm_sites [] ss).symm).mono fun _ =>
        List.mem_cons_of_mem _
  | .ifElse t c a none, h => by
      simp only [Stmt.outline, List.map_cons, List.map_append] at h ⊢
      have ha := (List.nodup_append.mp (List.nodup_cons.mp h).2).2.1
      refine (Stmt.placed_sites (d + 1) .thenBranch a ha).mono fun id hid => ?_
      exact List.mem_cons_of_mem _ (List.mem_append_right _ hid)
  | .ifElse t c a (some b), h => by
      simp only [Stmt.outline, List.map_cons, List.map_append,
        List.append_assoc] at h ⊢
      have hab := (List.nodup_append.mp (List.nodup_cons.mp h).2).2.1
      obtain ⟨ha, hb, -⟩ := List.nodup_append.mp hab
      refine ((Stmt.placed_sites (d + 1) .thenBranch a ha).append
        (Stmt.placed_sites (d + 1) .elseBranch b hb) hab).mono fun id hid => ?_
      exact List.mem_cons_of_mem _ (List.mem_append_right _ hid)
  | .while t c b, h => by
      simp only [Stmt.outline, List.map_cons, List.map_append] at h ⊢
      have hb := (List.nodup_append.mp (List.nodup_cons.mp h).2).2.1
      refine (Stmt.placed_sites (d + 1) .body b hb).mono fun id hid => ?_
      exact List.mem_cons_of_mem _ (List.mem_append_right _ hid)

theorem Stmt.placed_sitesAll (d : Nat) (r : Role) : (ss : List Stmt) →
    ((Stmt.outlines d r ss).map (·.node.id)).Nodup →
    Placed (ss.flatMap (Stmt.sites false))
      ((Stmt.outlines d r ss).map (·.node.id))
  | [], _ => .nil _
  | s :: ss, h => by
      simp only [Stmt.outlines, List.map_append] at h ⊢
      obtain ⟨hs, hss, -⟩ := List.nodup_append.mp h
      rw [List.flatMap_cons]
      exact (Stmt.placed_sites d r s hs).append
        (Stmt.placed_sitesAll d r ss hss) h

end

/-- The declarations of a program have distinct places. -/
theorem Program.nodup_declarations {p : Program} (h : p.ids.Nodup) :
    p.declarations.Nodup :=
  ((Stmt.placed_sitesAll 0 .body p.body h).perm (perm_sites [] p.body).symm).nodup

end TreeCheck
