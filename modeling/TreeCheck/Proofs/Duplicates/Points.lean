/-
The points that a run of an analysis comes by.

A run goes down the source: from a region that it has opened to its
statements, one after the other, and from a statement to the regions in
it. `Program.At` says in which context and in which state it is at a
point. There is one rule for each way down, which asks for the steps of
the analysis that lead there to have completed; the scope of a region is
left where its statements have been checked (`Program.Leaves`).

A completed run comes by every region of its program, and leaves it
(`Program.exists_leaves`).
-/
import TreeCheck.Proofs.Duplicates.Source
import TreeCheck.Proofs.Run.Failure
import TreeCheck.Proofs.Run.Scopes

namespace TreeCheck

open Analysis

/-- The state after a scope has been opened. -/
abbrev Analysis.State.entered (s : State) : State := { s with table := s.table.enter.2 }

/-- A point of a program. -/
inductive Point where
  /-- The first statement of a region, whose scope has been opened. -/
  | region (r : Region)
  /-- Statements that are left of a list. -/
  | list (ss : List Stmt)
  | stmt (s : Stmt)
  | branch (s : Stmt)

/-- The run of a program is at a point, in a context and a state. -/
inductive Program.At (config : Config) (p : Program) : Point → Context → State → Prop
  | program {s : State} (hoisted : Completes (hoist [] p.body) (State.entered {}) () s) :
      At config p (.region { stmts := p.body }) { config } s
  | list {r : Region} {ctx : Context} {s : State} (h : At config p (.region r) ctx s) :
      At config p (.list r.stmts) ctx s
  | head {stmt : Stmt} {ss : List Stmt} {ctx : Context} {s : State}
      (h : At config p (.list (stmt :: ss)) ctx s) : At config p (.stmt stmt) ctx s
  | tail {stmt : Stmt} {ss : List Stmt} {ctx : Context} {s s' : State}
      (h : At config p (.list (stmt :: ss)) ctx s)
      (checked : Completes (checkStmt ctx stmt) s () s') :
      At config p (.list ss) ctx s'
  | function {t : Tag} {name : String} {params : List Param}
      {result : Option TypeName} {q : Position} {body : List Stmt}
      {ctx inner : Context} {sig : Signature} {s s₁ s₂ s₃ s₄ : State}
      (h : At config p (.stmt (.function t name params result q body)) ctx s)
      (descended : Completes (ctx.descend t.position) s inner s₁)
      (signed : Completes (signatureOf t name params result body) s₁ sig s₂)
      (bound : Completes (declareParams params sig.params) s₂.entered () s₃)
      (hoisted : Completes (hoist [] body) s₃ () s₄) :
      At config p (.region ⟨placedParams t.id 0 params, body⟩)
        (inner.returning sig.ret) s₄
  | block {t : Tag} {q : Position} {ss : List Stmt} {ctx inner : Context}
      {s s₁ s₂ : State} (h : At config p (.stmt (.block t q ss)) ctx s)
      (descended : Completes (ctx.descend t.position) s inner s₁)
      (hoisted : Completes (hoist [] ss) s₁.entered () s₂) :
      At config p (.region { stmts := ss }) inner s₂
  | thenBranch {t : Tag} {c : Expr} {a : Stmt} {b : Option Stmt}
      {ctx inner : Context} {s s₁ s₂ : State}
      (h : At config p (.stmt (.ifElse t c a b)) ctx s)
      (descended : Completes (ctx.descend t.position) s inner s₁)
      (checked : Completes (checkCondition inner .ifElse c) s₁ () s₂) :
      At config p (.branch a) inner s₂
  | elseBranch {t : Tag} {c : Expr} {a b : Stmt} {ctx inner : Context}
      {s s₁ s₂ s₃ : State} (h : At config p (.stmt (.ifElse t c a (some b))) ctx s)
      (descended : Completes (ctx.descend t.position) s inner s₁)
      (checked : Completes (checkCondition inner .ifElse c) s₁ () s₂)
      (passed : Completes (inBranch ctx.config a (checkStmt inner a)) s₂ () s₃) :
      At config p (.branch b) inner s₃
  | loop {t : Tag} {c : Expr} {b : Stmt} {ctx inner : Context} {s s₁ s₂ : State}
      (h : At config p (.stmt (.while t c b)) ctx s)
      (descended : Completes (ctx.descend t.position) s inner s₁)
      (checked : Completes (checkCondition inner .while c) s₁ () s₂) :
      At config p (.branch b) inner s₂
  | braced {stmt : Stmt} {ctx : Context} {s : State}
      (h : At config p (.branch stmt) ctx s) (hblock : stmt.isBlock = true) :
      At config p (.stmt stmt) ctx s
  | bare {stmt : Stmt} {ctx : Context} {s : State}
      (h : At config p (.branch stmt) ctx s) (hblock : stmt.isBlock = false) :
      At config p (.region { stmts := [stmt] }) ctx s.entered

/-- The run of a program leaves the scope of a region in a state. -/
def Program.Leaves (config : Config) (p : Program) (r : Region) (t : State) : Prop :=
  ∃ ctx s, p.At config (.region r) ctx s ∧ Completes (checkStmts ctx r.stmts) s () t

-- ============================================================= coverage

section

variable {config : Config} {p : Program}

/-- A region that has been opened and checked is left. -/
theorem exists_leaves_of_checked {r : Region} {ctx : Context} {s t : State}
    (h : p.At config (.region r) ctx s)
    (hchecked : Completes (checkStmts ctx r.stmts) s () t) :
    ∃ t, p.Leaves config r t := ⟨t, ctx, s, h, hchecked⟩

theorem completes_checkStmts_singleton {stmt : Stmt} {ctx : Context} {s t : State}
    (h : Completes (checkStmt ctx stmt) s () t) :
    Completes (checkStmts ctx [stmt]) s () t :=
  completes_bind.mpr ⟨(), t, h, completes_pure.mpr ⟨rfl, rfl⟩⟩

theorem exists_leaves_branch {branch : Stmt} {ctx : Context} {s t : State}
    (h : p.At config (.branch branch) ctx s) {around : Config}
    (hrun : Completes (inBranch around branch (checkStmt ctx branch)) s () t)
    (hinner : ∀ {s t}, p.At config (.stmt branch) ctx s →
      Completes (checkStmt ctx branch) s () t →
      ∀ r ∈ branch.regions, ∃ t, p.Leaves config r t) :
    ∀ r ∈ regionsOfBranch branch branch.regions, ∃ t, p.Leaves config r t := by
  unfold inBranch at hrun
  unfold regionsOfBranch
  cases hblock : branch.isBlock with
  | true =>
      rw [if_pos hblock] at hrun
      rw [if_pos rfl]
      exact hinner (.braced h hblock) hrun
  | false =>
      rw [if_neg (Bool.eq_false_iff.mp hblock)] at hrun
      rw [if_neg Bool.false_ne_true]
      obtain ⟨t, hbody, -⟩ := completes_inScope hrun
      have hregion := h.bare hblock
      refine List.forall_mem_cons.mpr ⟨?_, hinner hregion.list.head hbody⟩
      exact exists_leaves_of_checked hregion (completes_checkStmts_singleton hbody)

mutual

/-- A run that has checked a statement has left the regions in it. -/
theorem Stmt.exists_leaves : (stmt : Stmt) → ∀ {ctx : Context} {s t : State},
    p.At config (.stmt stmt) ctx s → Completes (checkStmt ctx stmt) s () t →
    ∀ r ∈ stmt.regions, ∃ t, p.Leaves config r t
  | .declaration t name ann init m, ctx, s, s', h, hrun => nofun
  | .assignment t target value, ctx, s, s', h, hrun => nofun
  | .ret t value, ctx, s, s', h, hrun => nofun
  | .expr t e, ctx, s, s', h, hrun => nofun
  | .function t name params result p body, ctx, s, s', h, hrun => by
      simp only [checkStmt, completes_bind] at hrun
      obtain ⟨inner, s₁, hdescend, sig, s₂, hsig, hscope⟩ := hrun
      obtain ⟨t₁, hbody, -⟩ := completes_inScope hscope
      simp only [completes_bind] at hbody
      obtain ⟨_, s₃, hparams, _, s₄, hhoist, hstmts⟩ := hbody
      have hregion := h.function hdescend hsig hparams hhoist
      refine List.forall_mem_cons.mpr ⟨exists_leaves_of_checked hregion hstmts, ?_⟩
      exact Stmt.exists_leavesAll body hregion.list hstmts
  | .block t p ss, ctx, s, s', h, hrun => by
      simp only [checkStmt, completes_bind] at hrun
      obtain ⟨inner, s₁, hdescend, hscope⟩ := hrun
      obtain ⟨t₁, hbody, -⟩ := completes_inScope hscope
      obtain ⟨_, s₂, hhoist, hstmts⟩ := completes_bind.mp hbody
      have hregion := h.block hdescend hhoist
      refine List.forall_mem_cons.mpr ⟨exists_leaves_of_checked hregion hstmts, ?_⟩
      exact Stmt.exists_leavesAll ss hregion.list hstmts
  | .ifElse t c a none, ctx, s, s', h, hrun => by
      simp only [checkStmt, completes_bind] at hrun
      obtain ⟨inner, s₁, hdescend, _, s₂, hc, ha⟩ := hrun
      exact exists_leaves_branch (h.thenBranch hdescend hc) ha
        fun h hrun => Stmt.exists_leaves a h hrun
  | .ifElse t c a (some b), ctx, s, s', h, hrun => by
      simp only [checkStmt, completes_bind] at hrun
      obtain ⟨inner, s₁, hdescend, _, s₂, hc, _, s₃, ha, hb⟩ := hrun
      refine List.forall_mem_append.mpr ⟨?_, ?_⟩
      · exact exists_leaves_branch (h.thenBranch hdescend hc) ha
          fun h hrun => Stmt.exists_leaves a h hrun
      · exact exists_leaves_branch (h.elseBranch hdescend hc ha) hb
          fun h hrun => Stmt.exists_leaves b h hrun
  | .while t c b, ctx, s, s', h, hrun => by
      simp only [checkStmt, completes_bind] at hrun
      obtain ⟨inner, s₁, hdescend, _, s₂, hc, hb⟩ := hrun
      exact exists_leaves_branch (h.loop hdescend hc) hb
        fun h hrun => Stmt.exists_leaves b h hrun

theorem Stmt.exists_leavesAll : (ss : List Stmt) → ∀ {ctx : Context} {s t : State},
    p.At config (.list ss) ctx s → Completes (checkStmts ctx ss) s () t →
    ∀ r ∈ Stmt.regionsAll ss, ∃ t, p.Leaves config r t
  | [], ctx, s, t, h, hrun => nofun
  | stmt :: ss, ctx, s, t, h, hrun => by
      obtain ⟨_, s₁, hfirst, hrest⟩ := completes_bind.mp hrun
      refine List.forall_mem_append.mpr ⟨Stmt.exists_leaves stmt h.head hfirst, ?_⟩
      exact Stmt.exists_leavesAll ss (h.tail hfirst) hrest

end

/-- A completed run leaves every region of its program. -/
theorem Program.exists_leaves {a : Analysis} (h : p.analyze config = .ok a) :
    ∀ r ∈ p.regions, ∃ t, p.Leaves config r t := by
  obtain ⟨s, hrun, -⟩ := covers_of_analyze h
  obtain ⟨t, hbody, -⟩ := completes_inScope hrun
  obtain ⟨_, s₁, hhoist, hstmts⟩ := completes_bind.mp hbody
  have hregion : p.At config (.region { stmts := p.body }) { config } s₁ :=
    .program hhoist
  refine List.forall_mem_cons.mpr ⟨exists_leaves_of_checked hregion hstmts, ?_⟩
  exact Stmt.exists_leavesAll p.body hregion.list hstmts

end

end TreeCheck
