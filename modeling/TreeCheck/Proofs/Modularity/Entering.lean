/-
A run at the content of a slot.

A run that checks a statement comes to the content of its slot: it has
opened the scope of a block or of a function, or has come to a branch.
Before it lies what is checked of the statement ahead of the content,
and behind it what is left. The walk of the content is in between, and
records and resolves nothing but the content's own expressions.
-/
import TreeCheck.Proofs.Modularity.Alike
import TreeCheck.Proofs.Modularity.Source
import TreeCheck.Proofs.Points.Descent

namespace TreeCheck

open Analysis

-- ================================================================== runs

/-- The run of a program has come to the content of a slot, in a context and in
a state. -/
inductive Program.Opens (config : Config) (p : Program) :
    (slot : Slot) → slot.Content → Context → State → Prop
  | block {t : Tag} {q : Position} {ss : List Stmt} {ctx inner : Context}
      {s s₁ : State} (h : p.At config (.stmt (.block t q ss)) ctx s)
      (descended : Completes (ctx.descend t.position) s inner s₁) :
      Opens config p (.body (.block t q)) ss inner s₁.entered
  | function {t : Tag} {name : String} {params : List Param}
      {result : Option TypeName} {q : Position} {body : List Stmt}
      {ctx inner : Context} {sig : Signature} {s s₁ s₂ s₃ : State}
      (h : p.At config (.stmt (.function t name params result q body)) ctx s)
      (descended : Completes (ctx.descend t.position) s inner s₁)
      (signed : Completes (signatureOf t name params result body) s₁ sig s₂)
      (bound : Completes (declareParams params sig.params) s₂.entered () s₃) :
      Opens config p (.body (.function t name params result q)) body
        (inner.returning sig.ret) s₃
  | thenBranch {t : Tag} {c : Expr} {a : Stmt} {b : Option Stmt}
      {ctx inner : Context} {s s₁ s₂ : State}
      (h : p.At config (.stmt (.ifElse t c a b)) ctx s)
      (descended : Completes (ctx.descend t.position) s inner s₁)
      (checked : Completes (checkCondition inner .ifElse c) s₁ () s₂) :
      Opens config p (.branch (.thenBranch t c b)) a inner s₂
  | elseBranch {t : Tag} {c : Expr} {a b : Stmt} {ctx inner : Context}
      {s s₁ s₂ s₃ : State} (h : p.At config (.stmt (.ifElse t c a (some b))) ctx s)
      (descended : Completes (ctx.descend t.position) s inner s₁)
      (checked : Completes (checkCondition inner .ifElse c) s₁ () s₂)
      (passed : Completes (inBranch ctx.config a (checkStmt inner a)) s₂ () s₃) :
      Opens config p (.branch (.elseBranch t c a)) b inner s₃
  | loop {t : Tag} {c : Expr} {b : Stmt} {ctx inner : Context} {s s₁ s₂ : State}
      (h : p.At config (.stmt (.while t c b)) ctx s)
      (descended : Completes (ctx.descend t.position) s inner s₁)
      (checked : Completes (checkCondition inner .while c) s₁ () s₂) :
      Opens config p (.branch (.loop t c)) b inner s₂

/-- What the analysis does about the content of a slot. -/
def Slot.check (inner : Context) : (slot : Slot) → slot.Content → Check Unit
  | .body _, ss => do
    hoist [] ss
    checkStmts inner ss
  | .branch _, s => inBranch inner.config s (checkStmt inner s)

/-- The walk of the content of a slot. -/
def Slot.walk (config : Config) (expected : Option Ty) (outer : Env) (φ : Frame)
    (n : SymbolId) : (slot : Slot) → slot.Content → Walk
  | .body _, ss =>
    (hoisting [] ss φ n).andThen (Stmt.walkAll config ss expected [] outer)
  | .branch _, s => walkBranch config s (s.walk config expected false) outer φ n

/-- The result type that a `return` in the content of a slot has to meet. -/
def Slot.expected (expected : Option Ty) : (slot : Slot) → slot.Content → Option Ty
  | .body (.function _ _ params result _), ss =>
    some (Signature.of params result ss).ret
  | .body (.block _ _), _ => expected
  | .branch _, _ => expected

section

variable {config : Config} {p : Program} {inner : Context} {s s₁ : State}

theorem Program.Opens.atList {b : Body} {ss : List Stmt}
    (h : p.Opens config (.body b) ss inner s)
    (hhoist : Completes (hoist [] ss) s () s₁) : p.At config (.list ss) inner s₁ := by
  cases h with
  | block h hdescend => exact (h.block hdescend hhoist).list
  | function h hdescend hsig hparams =>
      exact (h.function hdescend hsig hparams hhoist).list

theorem Program.Opens.atBranch {b : Branch} {stmt : Stmt}
    (h : p.Opens config (.branch b) stmt inner s) :
    p.At config (.branch stmt) inner s := by
  cases h with
  | thenBranch h hdescend hcondition => exact h.thenBranch hdescend hcondition
  | elseBranch h hdescend hcondition hpassed =>
      exact h.elseBranch hdescend hcondition hpassed
  | loop h hdescend hcondition => exact h.loop hdescend hcondition

end

-- ================================================================ scenes

/-- The scene of the content of the slot of a statement. -/
def Scene.enter (S : Scene) (config : Config) (expected : Option Ty) (ahead : Bool) :
    (slot : Slot) → slot.Content → Scene
  | .body (.block _ _), ss => S.atBlock config expected ss
  | .body (.function t name params result _), body =>
    (S.atOwn ahead t name params result body).atBody config t params
      (Signature.of params result body).ret body
  | .branch (.thenBranch t c b), a => (S.behind t .ifElse c).beforeElse config expected a b
  | .branch (.elseBranch t c a), _ => (S.behind t .ifElse c).atElse config expected a
  | .branch (.loop t c), _ => S.behind t .while c

/-- A run is about to check the content of a slot. -/
def Scene.AtContent (config : Config) (p : Program) (S : Scene) (ctx : Context)
    (s : State) : (slot : Slot) → slot.Content → Prop
  | .body _, ss => S.AtScope config p ctx s ss
  | .branch _, stmt => S.AtBranch config p ctx s stmt

section

variable {config : Config} {p : Program} {S : Scene} {ctx : Context} {s t : State}

/-- A run that checks a statement comes to the content of its slot. -/
theorem Scene.AtStmt.enters {slot : Slot} {x : slot.Content} {ahead : Bool}
    (h : S.AtStmt config p ctx s ahead (slot.fill x))
    (hat : p.At config (.stmt (slot.fill x)) ctx s)
    (hchecked : Completes (checkStmt ctx (slot.fill x)) s () t) :
    ∃ inner s₁ t₁, p.Opens config slot x inner s₁
      ∧ Completes (slot.check inner x) s₁ () t₁
      ∧ inner.expected = slot.expected ctx.expected x
      ∧ (S.enter config ctx.expected ahead slot x).AtContent config p inner s₁ slot x := by
  cases slot with
  | body b =>
      cases b with
      | block t q =>
          simp only [Slot.fill, Body.fill, checkStmt, completes_bind] at hchecked
          obtain ⟨inner, s₁, hdescend, hscope⟩ := hchecked
          obtain ⟨t₁, hbody, -⟩ := completes_inScope hscope
          have hexpected : inner.expected = ctx.expected := by
            rw [(completes_descend hdescend).1]
          exact ⟨inner, _, t₁, .block hat hdescend, hbody, hexpected,
            h.blockScope hdescend⟩
      | function t name params result q =>
          simp only [Slot.fill, Body.fill, checkStmt, completes_bind] at hchecked
          obtain ⟨inner, s₁, hdescend, sig, s₂, hsig, hscope⟩ := hchecked
          obtain ⟨t₁, hbody, -⟩ := completes_inScope hscope
          obtain ⟨_, s₃, hparams, hrest⟩ := completes_bind.mp hbody
          obtain rfl := (h.own hdescend hsig).1
          exact ⟨_, s₃, t₁, .function hat hdescend hsig hparams, hrest, rfl,
            h.functionScope hdescend hsig hparams⟩
  | branch b =>
      cases b with
      | thenBranch t c b =>
          obtain ⟨inner, s₁, t₁, s₂, hdescend, hcondition, hbranch⟩ :
              ∃ inner s₁ t₁ s₂, Completes (ctx.descend t.position) s inner s₁
                ∧ Completes (checkCondition inner .ifElse c) s₁ () s₂
                ∧ Completes (inBranch ctx.config x (checkStmt inner x)) s₂ () t₁ := by
            cases b with
            | none =>
                simp only [Slot.fill, Branch.fill, checkStmt, completes_bind] at hchecked
                obtain ⟨inner, s₁, hdescend, _, s₂, hcondition, hbranch⟩ := hchecked
                exact ⟨inner, s₁, _, s₂, hdescend, hcondition, hbranch⟩
            | some b =>
                simp only [Slot.fill, Branch.fill, checkStmt, completes_bind] at hchecked
                obtain ⟨inner, s₁, hdescend, _, s₂, hcondition, _, t₁, hbranch, -⟩ :=
                  hchecked
                exact ⟨inner, s₁, t₁, s₂, hdescend, hcondition, hbranch⟩
          have hscene := h.thenBranch hdescend hcondition
          have hopens := Program.Opens.thenBranch hat hdescend hcondition
          obtain ⟨rfl, rfl⟩ := completes_descend hdescend
          exact ⟨_, s₂, t₁, hopens, hbranch, rfl, hscene⟩
      | elseBranch t c a =>
          simp only [Slot.fill, Branch.fill, checkStmt, completes_bind] at hchecked
          obtain ⟨inner, s₁, hdescend, _, s₂, hcondition, _, s₃, hpassed, hbranch⟩ :=
            hchecked
          have hscene := h.elseBranch hdescend hcondition hpassed
          have hopens := Program.Opens.elseBranch hat hdescend hcondition hpassed
          obtain ⟨rfl, rfl⟩ := completes_descend hdescend
          exact ⟨_, s₃, _, hopens, hbranch, rfl, hscene⟩
      | loop t c =>
          simp only [Slot.fill, Branch.fill, checkStmt, completes_bind] at hchecked
          obtain ⟨inner, s₁, hdescend, _, s₂, hcondition, hbranch⟩ := hchecked
          have hscene := h.loop hdescend hcondition
          have hopens := Program.Opens.loop hat hdescend hcondition
          obtain ⟨rfl, rfl⟩ := completes_descend hdescend
          exact ⟨_, s₂, _, hopens, hbranch, rfl, hscene⟩

end

namespace Scene.AtContent

variable {config : Config} {p : Program} {S : Scene} {ctx : Context} {s t : State}
  {slot : Slot} {x : slot.Content}

/-- The account of a program is cut before and behind the content of a slot, and
the run has done what is before. -/
theorem holds (h : S.AtContent config p ctx s slot x) :
    ∃ σ ids, S.Holds config p s σ ids
      (slot.walk config ctx.expected S.outer S.frame S.next x) := by
  cases slot with
  | body b =>
      obtain ⟨-, σ, hholds, -⟩ := h
      exact ⟨σ, _, hholds⟩
  | branch b =>
      obtain ⟨-, σ, hholds, -⟩ := h
      exact ⟨σ, _, hholds⟩

/-- Checking the content of a slot does its walk. -/
theorem checked (h : S.AtContent config p ctx s slot x)
    (hchecked : Completes (slot.check ctx x) s () t) :
    t.log = replay {} (S.before
      ++ (slot.walk config ctx.expected S.outer S.frame S.next x).events) := by
  cases slot with
  | body b =>
      obtain ⟨_, s₁, hhoist, hstmts⟩ := completes_bind.mp hchecked
      exact Scene.AtScope.checked h hhoist hstmts
  | branch b => exact Scene.AtBranch.checked h hchecked

end Scene.AtContent

/-- The walk of a content records and resolves its own expressions only. -/
theorem Slot.within_walk (config : Config) (expected : Option Ty) (outer : Env)
    (φ : Frame) (n : SymbolId) (slot : Slot) (x : slot.Content) :
    Within (slot.ids x) (slot.walk config expected outer φ n x).events := by
  have hids : ∀ s ∈ (Stmt.outlines 0 .body (slot.stmts x)).filterMap (·.node.stmt?),
      ∀ e ∈ s.exprs, e.id ∈ slot.ids x := by
    intro s hs e he
    refine (Stmt.perm_idsAll _).mem_iff.mpr (List.mem_flatMap.mpr ⟨s.label, ?_, ?_⟩)
    · exact List.mem_map_of_mem hs
    · exact List.mem_cons_of_mem _ (List.mem_map_of_mem he)
  have hcomposes := composes_within config (slot.ids x)
  cases slot with
  | body b =>
      exact (composed_hoisting hcomposes (forall_mem_of_outlines hids) outer φ n).append
        (Stmt.composed_walkAll hcomposes x hids outer _ _)
  | branch b =>
      rw [Slot.stmts, Stmt.outlines, Stmt.outlines, List.append_nil] at hids
      exact composed_walkBranch hcomposes (Stmt.composed_walk hcomposes x hids) outer φ n

end TreeCheck
