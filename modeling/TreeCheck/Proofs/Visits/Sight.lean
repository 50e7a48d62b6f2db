/-
What a run sees at its visits.

The visits of a course tell the names in force as a lookup; the run
itself has them in its table. Where a run comes by a statement, its
table mirrors the environment of the course, so it resolves every name
as the visit has it (`Program.sees_visits`). A symbol that an
identifier is resolved to is therefore one that stands in an open scope
of the run, under the name of the identifier (`Program.Holds`), and its
number tells it from all others (`Program.Holds.eq_of_id`).
-/
import TreeCheck.Proofs.Duplicates.Bound
import TreeCheck.Proofs.Visits.Recorded

namespace TreeCheck

open Analysis

-- =============================================================== seeing

/-- The run of a program comes by the statement of a visit, and resolves
names as the visit has them in force. -/
def Program.Sees (config : Config) (p : Program) (v : Visit) : Prop :=
  ∃ ctx s, p.At config (.stmt v.stmt) ctx s ∧ Resolves s v.names

section

variable {config : Config} {p : Program}

theorem sees_visitsOfBranch {around : Config} {branch : Stmt} {ctx : Context}
    {s t : State} {outer : Env} {φ : Frame} {n : SymbolId} {σ : Signatures}
    {visits : Env → Frame → SymbolId → Signatures → List Visit}
    (h : p.At config (.branch branch) ctx s) (hm : Mirrors s (φ :: outer) n σ)
    (hrun : Completes (inBranch around branch (checkStmt ctx branch)) s () t)
    (hinner : ∀ {s t outer φ n σ}, p.At config (.stmt branch) ctx s →
      Completes (checkStmt ctx branch) s () t → Mirrors s (φ :: outer) n σ →
      ∀ v ∈ visits outer φ n σ, p.Sees config v) :
    ∀ v ∈ visitsOfBranch branch visits outer φ n σ, p.Sees config v := by
  unfold inBranch at hrun
  unfold visitsOfBranch
  cases hblock : branch.isBlock with
  | true =>
      rw [if_pos hblock] at hrun
      rw [if_pos rfl]
      exact hinner (h.braced hblock) hrun hm
  | false =>
      rw [if_neg (Bool.eq_false_iff.mp hblock)] at hrun
      rw [if_neg Bool.false_ne_true]
      obtain ⟨t, hbody, -⟩ := completes_inScope hrun
      exact hinner (h.bare hblock).list.head hbody hm.enter

mutual

/-- A run that checks a statement sees what its course visits there. -/
theorem Stmt.sees_visits : (stmt : Stmt) → ∀ {ctx : Context} {s t : State}
    {outer : Env} {φ : Frame} {n : SymbolId} {σ : Signatures},
    p.At config (.stmt stmt) ctx s → Completes (checkStmt ctx stmt) s () t →
    Mirrors s (φ :: outer) n σ →
    ∀ v ∈ stmt.visits ctx.config ctx.expected outer φ n σ, p.Sees config v
  | .declaration t name ann init m, ctx, s, s', outer, φ, n, σ, h, hrun, hm =>
      List.forall_mem_singleton.mpr ⟨ctx, s, h, hm.resolves⟩
  | .assignment t target value, ctx, s, s', outer, φ, n, σ, h, hrun, hm =>
      List.forall_mem_singleton.mpr ⟨ctx, s, h, hm.resolves⟩
  | .ret t value, ctx, s, s', outer, φ, n, σ, h, hrun, hm =>
      List.forall_mem_singleton.mpr ⟨ctx, s, h, hm.resolves⟩
  | .expr t e, ctx, s, s', outer, φ, n, σ, h, hrun, hm =>
      List.forall_mem_singleton.mpr ⟨ctx, s, h, hm.resolves⟩
  | .function t name params result q body, ctx, s, s', outer, φ, n, σ, h, hrun,
      hm => by
      simp only [checkStmt, completes_bind] at hrun
      obtain ⟨inner, s₁, hdescend, sig, s₂, hsig, hscope⟩ := hrun
      obtain ⟨t₁, hbody, -⟩ := completes_inScope hscope
      simp only [completes_bind] at hbody
      obtain ⟨_, s₃, hparams, _, s₄, hhoist, hstmts⟩ := hbody
      have hregion := h.function hdescend hsig hparams hhoist
      obtain ⟨rfl, rfl⟩ := completes_descend hdescend
      obtain ⟨rfl, hreached⟩ := reaches_signatureOf hm hsig
      have hp := reaches_declareParams t.id 0 hreached.mirrors.enter hparams
      have hh := reaches_hoist hp.mirrors hhoist
      have hinside := Stmt.sees_visitsAll body hregion.list hstmts hh.mirrors
      simp only [Stmt.visits]
      exact List.forall_mem_cons.mpr ⟨⟨ctx, _, h, hm.resolves⟩, hinside⟩
  | .block t q ss, ctx, s, s', outer, φ, n, σ, h, hrun, hm => by
      simp only [checkStmt, completes_bind] at hrun
      obtain ⟨inner, s₁, hdescend, hscope⟩ := hrun
      obtain ⟨t₁, hbody, -⟩ := completes_inScope hscope
      obtain ⟨_, s₂, hhoist, hstmts⟩ := completes_bind.mp hbody
      have hregion := h.block hdescend hhoist
      obtain ⟨rfl, rfl⟩ := completes_descend hdescend
      have hh := reaches_hoist hm.enter hhoist
      have hinside := Stmt.sees_visitsAll ss hregion.list hstmts hh.mirrors
      simp only [Stmt.visits]
      exact List.forall_mem_cons.mpr ⟨⟨ctx, _, h, hm.resolves⟩, hinside⟩
  | .ifElse t c a none, ctx, s, s', outer, φ, n, σ, h, hrun, hm => by
      simp only [checkStmt, completes_bind] at hrun
      obtain ⟨inner, s₁, hdescend, _, s₂, hc, ha⟩ := hrun
      have hbranch := h.thenBranch hdescend hc
      obtain ⟨rfl, rfl⟩ := completes_descend hdescend
      obtain rfl := completes_checkCondition hm.resolves t.id hc
      have hconsulted := hm.replay (consults_conditionEvents t.id .ifElse c)
      have hinside := sees_visitsOfBranch hbranch hconsulted ha
        fun h hrun hm => Stmt.sees_visits a h hrun hm
      simp only [Stmt.visits]
      exact List.forall_mem_cons.mpr ⟨⟨ctx, _, h, hm.resolves⟩, hinside⟩
  | .ifElse t c a (some b), ctx, s, s', outer, φ, n, σ, h, hrun, hm => by
      simp only [checkStmt, completes_bind] at hrun
      obtain ⟨inner, s₁, hdescend, _, s₂, hc, _, s₃, ha, hb⟩ := hrun
      have hthen := h.thenBranch hdescend hc
      have helse := h.elseBranch hdescend hc ha
      obtain ⟨rfl, rfl⟩ := completes_descend hdescend
      obtain rfl := completes_checkCondition hm.resolves t.id hc
      have hconsulted := hm.replay (consults_conditionEvents t.id .ifElse c)
      have hpassed := reaches_inBranch hconsulted ha
        fun hm hrun => reaches_checkStmt a hm hrun
      have hthen := sees_visitsOfBranch hthen hconsulted ha
        fun h hrun hm => Stmt.sees_visits a h hrun hm
      have helse := sees_visitsOfBranch helse hpassed.mirrors hb
        fun h hrun hm => Stmt.sees_visits b h hrun hm
      simp only [Stmt.visits]
      refine List.forall_mem_cons.mpr ⟨⟨ctx, _, h, hm.resolves⟩, ?_⟩
      exact List.forall_mem_append.mpr ⟨hthen, helse⟩
  | .while t c b, ctx, s, s', outer, φ, n, σ, h, hrun, hm => by
      simp only [checkStmt, completes_bind] at hrun
      obtain ⟨inner, s₁, hdescend, _, s₂, hc, hb⟩ := hrun
      have hbranch := h.loop hdescend hc
      obtain ⟨rfl, rfl⟩ := completes_descend hdescend
      obtain rfl := completes_checkCondition hm.resolves t.id hc
      have hconsulted := hm.replay (consults_conditionEvents t.id .while c)
      have hinside := sees_visitsOfBranch hbranch hconsulted hb
        fun h hrun hm => Stmt.sees_visits b h hrun hm
      simp only [Stmt.visits]
      exact List.forall_mem_cons.mpr ⟨⟨ctx, _, h, hm.resolves⟩, hinside⟩

theorem Stmt.sees_visitsAll : (ss : List Stmt) → ∀ {ctx : Context} {s t : State}
    {outer : Env} {φ : Frame} {n : SymbolId} {σ : Signatures},
    p.At config (.list ss) ctx s → Completes (checkStmts ctx ss) s () t →
    Mirrors s (φ :: outer) n σ →
    ∀ v ∈ Stmt.visitsAll ctx.config ss ctx.expected outer φ n σ, p.Sees config v
  | [], ctx, s, s', outer, φ, n, σ, h, hrun, hm => nofun
  | stmt :: ss, ctx, s, s', outer, φ, n, σ, h, hrun, hm => by
      obtain ⟨_, s₁, hfirst, hrest⟩ := completes_bind.mp hrun
      have hreach := reaches_checkStmt stmt hm hfirst
      simp only [Stmt.visitsAll]
      refine List.forall_mem_append.mpr ⟨?_, ?_⟩
      · exact Stmt.sees_visits stmt h.head hfirst hm
      · exact Stmt.sees_visitsAll ss (h.tail hfirst) hrest hreach.mirrors

end

/-- A completed run sees every visit of its course. -/
theorem Program.sees_visits {a : Analysis} (h : p.analyze config = .ok a) :
    ∀ v ∈ p.visits config, p.Sees config v := by
  obtain ⟨s, hrun, -⟩ := covers_of_analyze h
  obtain ⟨t, hbody, -⟩ := completes_inScope hrun
  obtain ⟨_, s₁, hhoist, hstmts⟩ := completes_bind.mp hbody
  have hregion : p.At config (.region { stmts := p.body }) { config } s₁ :=
    .program hhoist
  have hh := reaches_hoist Mirrors.start.enter hhoist
  exact Stmt.sees_visitsAll p.body hregion.list hstmts hh.mirrors

end

-- ============================================================== holding

/-- At some point of the run of a program a symbol stands in an open scope,
under its own name. -/
def Program.Holds (config : Config) (p : Program) (sym : Symbol) : Prop :=
  ∃ q ctx s, p.At config q ctx s
    ∧ ∃ scope ∈ s.table.scopes, scope.find? sym.name = some sym

section

variable {config : Config} {p : Program}

/-- At a point of a run the table mirrors what the account has bound. -/
theorem Program.At.mirrors {q : Point} {ctx : Context} {s : State}
    (hids : p.ids.Nodup) (h : p.At config q ctx s) :
    ∃ Γ n σ, Mirrors s Γ n σ ∧ ∀ φ ∈ Γ, ∀ d ∈ φ, p.Declares config d := by
  obtain ⟨S, σ, ids, w, hholds⟩ := h.exists_holds hids
  exact ⟨S.env, S.next, σ, hholds.mirrors, hholds.declares⟩

/-- What a run holds, its account has bound. -/
theorem Program.Holds.declares {sym : Symbol} (hids : p.ids.Nodup)
    (h : p.Holds config sym) : ∃ d, p.Declares config d ∧ d.toSymbol = sym := by
  obtain ⟨q, ctx, s, hat, scope, hscope, hfind⟩ := h
  obtain ⟨Γ, n, σ, hm, hdeclares⟩ := hat.mirrors hids
  have hmem : scope.find? ∈ Γ.map Frame.symbol := by
    rw [← hm.scopes]
    exact List.mem_map_of_mem hscope
  obtain ⟨φ, hφ, hsymbol⟩ := List.mem_map.mp hmem
  rw [← hsymbol, Frame.symbol] at hfind
  obtain ⟨d, hd, rfl⟩ := Option.map_eq_some_iff.mp hfind
  exact ⟨d, hdeclares φ hφ d (Frame.mem_of_find hd), rfl⟩

/-- No two bindings of an account have one number. -/
theorem Program.Declares.eq_of_id {d d' : Declared} (h : p.Declares config d)
    (h' : p.Declares config d') (hid : d.id = d'.id) : d = d' := by
  have hnumbers := congrArg (List.map Prod.snd) (p.numbers_account config)
  rw [List.map_map, List.zipIdx_map_snd] at hnumbers
  have hnodup : (((p.account config).filterMap Event.bound?).map
      fun d => d.id).Nodup := hnumbers ▸ List.nodup_range'
  exact List.inj_on_of_nodup_map hnodup h h' hid

/-- The number of a symbol tells it from all others that the run holds. -/
theorem Program.Holds.eq_of_id {sym sym' : Symbol} (hids : p.ids.Nodup)
    (h : p.Holds config sym) (h' : p.Holds config sym') (hid : sym.id = sym'.id) :
    sym = sym' := by
  obtain ⟨d, hd, rfl⟩ := h.declares hids
  obtain ⟨d', hd', rfl⟩ := h'.declares hids
  rw [hd.eq_of_id hd' hid]

/-- What a name is looked up as at a visit, the run holds under the name. -/
theorem Program.Sees.holds {v : Visit} {x : String} {d : Declared}
    (hids : p.ids.Nodup) (h : p.Sees config v) (hx : v.names x = some d) :
    d.name = x ∧ p.Holds config d.toSymbol := by
  obtain ⟨ctx, s, hat, hresolves⟩ := h
  obtain ⟨Γ, n, σ, hm, -⟩ := hat.mirrors hids
  have hfound : s.table.resolve x = some d.toSymbol := by
    rw [hresolves x, hx]
    rfl
  have hname : d.name = x := by
    have hmirrored := hm.resolves x
    rw [hfound] at hmirrored
    obtain ⟨d', hd', hsymbol⟩ := Option.map_eq_some_iff.mp hmirrored.symm
    obtain ⟨φ, -, hfind⟩ := List.exists_of_findSome?_eq_some hd'
    rw [← hsymbol]
    exact Frame.name_of_find hfind
  obtain ⟨scope, hscope, hfind⟩ := List.exists_of_findSome?_eq_some hfound
  rw [← hname] at hfind
  exact ⟨hname, _, ctx, s, hat, scope, hscope, hfind⟩

end

end TreeCheck
