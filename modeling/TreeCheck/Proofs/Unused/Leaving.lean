/-
What is said when a scope is left.

A run that comes by a region other than the global scope has opened a
scope for it. Where it leaves the scope, everything reported inside has
been reported, and the unused names of the region come next.
-/
import TreeCheck.Proofs.Unused.Walks

namespace TreeCheck

open Analysis

-- ============================================================== regions

/-- How many statements there are in a list, at any depth. -/
def Stmt.countAll (ss : List Stmt) : Nat :=
  ((Stmt.outlines 0 .body ss).filterMap (·.node.stmt?)).length

theorem Stmt.countAll_eq (d : Nat) (r : Role) (ss : List Stmt) :
    ((Stmt.outlines d r ss).filterMap (·.node.stmt?)).length = Stmt.countAll ss := by
  rw [Stmt.stmts_outlines_eq d 0 r .body, Stmt.countAll]

theorem Stmt.countAll_singleton (d : Nat) (r : Role) (s : Stmt) :
    Stmt.countAll [s] = ((s.outline d r).filterMap (·.node.stmt?)).length := by
  rw [← Stmt.countAll_eq d r, Stmt.outlines, Stmt.outlines, List.append_nil]

theorem countAll_regionsOfBranch {branch : Stmt} {k : Nat}
    (hk : Stmt.countAll [branch] < k)
    (h : ∀ r ∈ branch.regions, Stmt.countAll r.stmts < Stmt.countAll [branch]) :
    ∀ r ∈ regionsOfBranch branch branch.regions, Stmt.countAll r.stmts < k := by
  have hinner : ∀ r ∈ branch.regions, Stmt.countAll r.stmts < k :=
    fun r hr => Nat.lt_trans (h r hr) hk
  unfold regionsOfBranch
  split
  · exact hinner
  · exact List.forall_mem_cons.mpr ⟨hk, hinner⟩

mutual

/-- A region in a statement has fewer statements than the statement with all
those in it. -/
theorem Stmt.countAll_regions : (s : Stmt) →
    ∀ r ∈ s.regions, Stmt.countAll r.stmts < Stmt.countAll [s]
  | .declaration _ _ _ _ _ => nofun
  | .assignment _ _ _ => nofun
  | .ret _ _ => nofun
  | .expr _ _ => nofun
  | .function t name params result p body => by
      have hcount : Stmt.countAll [.function t name params result p body]
          = Stmt.countAll body + 1 := by
        rw [Stmt.countAll_singleton 0 .body, Stmt.outline, Outline.stmts_cons,
          List.length_cons, Stmt.countAll_eq]
      rw [hcount, Stmt.regions]
      refine List.forall_mem_cons.mpr ⟨Nat.lt_succ_self _, fun r hr => ?_⟩
      exact Nat.lt_succ_of_lt (Stmt.countAll_regionsAll body r hr)
  | .block t p ss => by
      have hcount : Stmt.countAll [.block t p ss] = Stmt.countAll ss + 1 := by
        rw [Stmt.countAll_singleton 0 .body, Stmt.outline, Outline.stmts_cons,
          List.length_cons, Stmt.countAll_eq]
      rw [hcount, Stmt.regions]
      refine List.forall_mem_cons.mpr ⟨Nat.lt_succ_self _, fun r hr => ?_⟩
      exact Nat.lt_succ_of_lt (Stmt.countAll_regionsAll ss r hr)
  | .ifElse t c a none => by
      have hcount : Stmt.countAll [.ifElse t c a none] = Stmt.countAll [a] + 1 := by
        rw [Stmt.countAll_singleton 0 .body, Stmt.outline, Outline.stmts_cons,
          List.filterMap_append, Expr.stmts_outline, List.nil_append,
          List.length_cons, ← Stmt.countAll_singleton]
      rw [hcount, Stmt.regions]
      exact countAll_regionsOfBranch (Nat.lt_succ_self _) (Stmt.countAll_regions a)
  | .ifElse t c a (some b) => by
      have hcount : Stmt.countAll [.ifElse t c a (some b)]
          = Stmt.countAll [a] + Stmt.countAll [b] + 1 := by
        rw [Stmt.countAll_singleton 0 .body, Stmt.outline, Outline.stmts_cons,
          List.filterMap_append, List.filterMap_append, Expr.stmts_outline,
          List.nil_append, List.length_cons, List.length_append,
          ← Stmt.countAll_singleton, ← Stmt.countAll_singleton]
      rw [hcount, Stmt.regions]
      refine List.forall_mem_append.mpr ⟨?_, ?_⟩
      · refine countAll_regionsOfBranch ?_ (Stmt.countAll_regions a)
        omega
      · refine countAll_regionsOfBranch ?_ (Stmt.countAll_regions b)
        omega
  | .while t c b => by
      have hcount : Stmt.countAll [.while t c b] = Stmt.countAll [b] + 1 := by
        rw [Stmt.countAll_singleton 0 .body, Stmt.outline, Outline.stmts_cons,
          List.filterMap_append, Expr.stmts_outline, List.nil_append,
          List.length_cons, ← Stmt.countAll_singleton]
      rw [hcount, Stmt.regions]
      exact countAll_regionsOfBranch (Nat.lt_succ_self _) (Stmt.countAll_regions b)

theorem Stmt.countAll_regionsAll : (ss : List Stmt) →
    ∀ r ∈ Stmt.regionsAll ss, Stmt.countAll r.stmts < Stmt.countAll ss
  | [] => nofun
  | s :: ss => by
      have hcount : Stmt.countAll (s :: ss) = Stmt.countAll [s] + Stmt.countAll ss := by
        rw [Stmt.countAll_singleton 0 .body, Stmt.countAll, Stmt.outlines,
          List.filterMap_append, List.length_append, Stmt.countAll]
      rw [hcount, Stmt.regionsAll]
      refine List.forall_mem_append.mpr ⟨fun r hr => ?_, fun r hr => ?_⟩
      · exact Nat.lt_add_right _ (Stmt.countAll_regions s r hr)
      · exact Nat.lt_add_left _ (Stmt.countAll_regionsAll ss r hr)

end

/-- No region in a program is its global scope. -/
theorem Program.ne_body_of_mem_tail {p : Program} {r : Region}
    (hr : r ∈ p.regions.tail) : r ≠ { stmts := p.body } := by
  intro heq
  have hlt := Stmt.countAll_regionsAll p.body r hr
  rw [heq] at hlt
  exact Nat.lt_irrefl _ hlt

-- =============================================================== leaving

section

variable {config : Config} {p : Program}

/-- What an account binds has distinct places. -/
theorem Program.nodup_sites (hids : p.ids.Nodup) (config : Config) :
    (((p.account config).filterMap Event.bound?).map (·.site)).Nodup := by
  have hsites := congrArg (List.map Prod.fst) (p.numbers_account config)
  rw [List.map_map, List.zipIdx_map_fst] at hsites
  have hmap : ((p.account config).filterMap Event.bound?).map (·.site)
      = p.declarations := hsites
  rw [hmap]
  exact nodup_declarations hids

/-- What is said when the scope of a region is left is what is unused in it. -/
theorem Scene.AtRegion.findings_leaving {S : Scene} {ctx : Context} {s : State}
    {o : Walk} {earlier : List String} {r : Region} {ds : List (Decl Place)}
    {a : Analysis} (hregion : S.AtRegion config p ctx s o earlier r.stmts)
    (hwarn : config.warnUnused = true) (hids : p.ids.Nodup)
    (h : p.analyze config = .ok a) (ho : o.Confined S.env [] S.next)
    (hplaced : o.frame.placed = ds.reverse)
    (horder : r.Order (ds ++ Stmt.placedBehindAll earlier r.stmts)) :
    (leavingEvents config (o.andThen (Stmt.walkAll config r.stmts ctx.expected earlier
        S.env))).filterMap Event.finding?
      = (r.unused (p.reads a)).map unusedFinding := by
  have haccount := hregion.account
  have hread (d : Declared) := hregion.read_iff ho (d := d)
  have hconfined := ho.andThen (Stmt.confined_walkAll config r.stmts ctx.expected
    earlier S.env o.frame o.next)
  have hleft : (o.andThen (Stmt.walkAll config r.stmts ctx.expected earlier
      S.env)).frame.placed = (ds ++ Stmt.placedBehindAll earlier r.stmts).reverse :=
    Stmt.placed_walkAll config r.stmts ctx.expected earlier S.env o.next hplaced
  generalize o.andThen (Stmt.walkAll config r.stmts ctx.expected earlier S.env) = w
    at haccount hread hconfined hleft
  have hbound : (w.events.filterMap Event.bound?).Sublist
      ((p.account config).filterMap Event.bound?) := by
    rw [haccount, List.filterMap_append, List.filterMap_append]
    exact (List.sublist_append_left _ _).trans (List.sublist_append_right _ _)
  have hsites : ((w.events.filterMap Event.bound?).map (·.site)).Nodup :=
    (Program.nodup_sites hids config).sublist (hbound.map _)
  refine findings_leavingEvents hwarn hleft horder
    (hconfined.nodup_frame hsites) fun d hd => ?_
  have hd := hconfined.bound_of_mem_frame hd
  rw [← hread d hd, Program.reads_site hids h (hbound.mem hd)]

/-- Where a scope is left, its unused names are the next that is found. -/
theorem Program.Leaves.warns {r : Region} {t : State} {a : Analysis}
    (hwarn : config.warnUnused = true) (hids : p.ids.Nodup)
    (h : p.analyze config = .ok a) (hr : r ∈ p.regions.tail)
    (hleaves : p.Leaves config r t) :
    (t.findings.toList ++ r.warnings (p.reads a)) <+: a.findings := by
  obtain ⟨ctx, s, hat, hchecked⟩ := hleaves
  obtain ⟨S', earlier, ds, -, hplaced, horder, hglobal | ⟨S, o, hregion, ho, hframe⟩⟩ :=
    hat.staged hids
  · exact absurd hglobal (ne_body_of_mem_tail hr)
  rw [← hframe] at hplaced
  have haccount := hregion.account
  have hdone := hregion.checked hchecked
  have hleft := hregion.findings_leaving hwarn hids h ho hplaced horder
  generalize o.andThen (Stmt.walkAll config r.stmts ctx.expected earlier S.env) = w
    at haccount hdone hleft
  have hfindings : t.findings.toList
      = (S.before ++ w.events).filterMap Event.finding? := by
    show t.log.findings.toList = _
    rw [hdone, toList_findings_replay]
    rfl
  have hall : a.findings = (S.before ++ w.events).filterMap Event.finding?
      ++ ((r.unused (p.reads a)).map unusedFinding
        ++ S.after.filterMap Event.finding?) := by
    rw [findings_eq_account hids h, haccount, ← List.append_assoc,
      List.filterMap_append, List.filterMap_append, List.filterMap_append, hleft]
  refine ⟨S.after.filterMap Event.finding?, ?_⟩
  rw [hfindings, hall, Region.warnings, List.append_assoc]

end

end TreeCheck
