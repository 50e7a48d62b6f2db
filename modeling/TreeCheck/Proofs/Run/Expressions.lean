/-
A completed run on an expression is the replay of its account.

The hypothesis is always the same: the table of the state resolves names
as the account looks them up. Nothing that happens in an expression
changes the table, so the hypothesis passes from part to part.
-/
import TreeCheck.Proofs.Run.Steps
import TreeCheck.Proofs.Account.Expressions

namespace TreeCheck.Analysis

variable {s s' : State} {ρ : Lookup}

/-- The table of a state resolves names in a given way. -/
def Resolves (s : State) (ρ : Lookup) : Prop :=
  ∀ x, s.table.resolve x = (ρ x).map (·.toSymbol)

theorem Resolves.replay (h : Resolves s ρ) (es : List Event) :
    Resolves (replay s es) ρ := by
  intro x
  rw [replay_table]
  exact h x

-- ======================================================== single steps

theorem completes_descend {ctx inner : Context} {p : Position}
    (h : Completes (ctx.descend p) s inner s') :
    inner = { ctx with depth := ctx.depth + 1 } ∧ s' = s := by
  rw [Completes, run_descend] at h
  split at h
  · injection h with h
    injection h with hinner hs
    exact ⟨hinner.symm, hs.symm⟩
  · cases h

theorem completes_record {id : NodeId} {ty a : Ty}
    (h : Completes (record id ty) s a s') :
    a = ty ∧ s' = replay s [.typed id ty] := by
  rw [Completes, run_record] at h
  split at h
  · cases h
  · injection h with h
    injection h with ha hs
    exact ⟨ha.symm, hs.symm⟩

theorem completes_require {ok : Bool} {c : Cause} {p : Position} {u : Unit}
    (node : NodeId) (h : Completes (require ok c p) s u s') :
    s' = replay s (complaint ok node c p) := by
  rw [Completes, run_require] at h
  cases ok with
  | true =>
      injection h with h
      injection h with _ hs
      exact hs.symm
  | false =>
      injection h with h
      injection h with _ hs
      exact hs.symm

theorem completes_orError {r : Option Ty} {c : Cause} {p : Position} {a : Ty}
    (node : NodeId) (h : Completes (orError r c p) s a s') :
    a = r.getD .error ∧ s' = replay s (complaint r.isSome node c p) := by
  rw [Completes, run_orError] at h
  injection h with h
  injection h with ha hs
  refine ⟨ha.symm, ?_⟩
  cases r <;> exact hs.symm

theorem completes_report {c : Cause} {p : Position} {r : Option Position}
    {u : Unit} (node : NodeId) (h : Completes (report c p r) s u s') :
    s' = replay s [.found node ⟨c, p, r⟩] := by
  rw [Completes, run_report] at h
  injection h with h
  injection h with _ hs
  exact hs.symm

theorem completes_resolve {t : Tag} {x : String} {a : Option Symbol}
    (hρ : Resolves s ρ) (h : Completes (resolve t x) s a s') :
    a = (ρ x).map (·.toSymbol)
      ∧ s' = replay s (match ρ x with
          | some d => [.resolved t.id d]
          | none => [.found t.id ⟨.undefined x, t.position, none⟩]) := by
  rw [Completes, run_resolve, hρ x] at h
  injection h with h
  injection h with ha hs
  refine ⟨ha.symm, ?_⟩
  cases hx : ρ x with
  | none =>
      rw [hx] at hs
      exact hs.symm
  | some d =>
      rw [hx] at hs
      exact hs.symm

theorem completes_readName {t : Tag} {x : String} {a : Ty}
    (hρ : Resolves s ρ) (h : Completes (readName t x) s a s') :
    a = (Expr.identifier t x).typeIn ρ
      ∧ s' = replay s (Expr.nameEvents ρ t x) := by
  obtain ⟨sym, s₁, hres, h⟩ := completes_bind.mp h
  obtain ⟨rfl, rfl⟩ := completes_resolve hρ hres
  unfold Expr.nameEvents Expr.typeIn
  cases hx : ρ x with
  | none =>
      rw [hx] at h
      exact completes_pure.mp h
  | some d =>
      rw [hx] at h
      obtain ⟨_, s₂, hread, h⟩ := completes_bind.mp h
      obtain ⟨rfl, rfl⟩ := completes_pure.mp h
      rw [Completes, run_markUsed] at hread
      injection hread with hread
      injection hread with _ hs
      exact ⟨rfl, hs.symm⟩

-- =============================================================== calls

theorem completes_checkArguments {callee : Option String} {i : Nat} {ps : List Ty}
    {args : List Expr} {u : Unit} (node : NodeId)
    (h : Completes (checkArguments callee i ps args (args.map (·.typeIn ρ))) s u
      s') :
    s' = replay s (Expr.argumentEvents ρ node callee i ps args) := by
  induction ps generalizing s i args with
  | nil => exact (completes_pure.mp h).2
  | cons p ps ih =>
      cases args with
      | nil => exact (completes_pure.mp h).2
      | cons arg args =>
          obtain ⟨_, s₁, hfirst, hrest⟩ := completes_bind.mp h
          rw [Expr.argumentEvents, replay_append,
            ← completes_require node hfirst]
          exact ih hrest

theorem completes_calleeDeclaration {callee : Expr} {r : Option Position}
    (hρ : Resolves s ρ) (h : Completes (calleeDeclaration callee) s r s') :
    r = (callee.name?.bind ρ).map (·.position) ∧ s' = s := by
  obtain ⟨t, s₁, hget, h⟩ := completes_bind.mp h
  cases hget
  obtain ⟨rfl, rfl⟩ := completes_pure.mp h
  refine ⟨?_, rfl⟩
  cases callee.name? with
  | none => rfl
  | some x =>
      show (s'.table.resolve x).bind (fun sym => some sym.position) = _
      rw [hρ x]
      cases hx : ρ x <;> simp [hx]

theorem completes_callType {t : Tag} {callee : Expr} {args : List Expr}
    {f ty : Ty} (hρ : Resolves s ρ)
    (h : Completes (callType t.position callee args (args.map (·.typeIn ρ)) f) s
      ty s') :
    ty = f.result ∧ s' = replay s (Expr.callEvents ρ t callee args f) := by
  cases f with
  | func params ret =>
      simp only [callType] at h
      simp only [Expr.callEvents]
      split at h
      case isTrue hlength =>
          rw [if_pos hlength]
          simp only [completes_bind, completes_pure] at h
          obtain ⟨_, s₁, hargs, rfl, rfl⟩ := h
          exact ⟨rfl, completes_checkArguments t.id hargs⟩
      case isFalse hlength =>
          rw [if_neg hlength]
          simp only [completes_bind, completes_pure] at h
          obtain ⟨r, s₁, hdecl, _, s₂, hreport, rfl, rfl⟩ := h
          obtain ⟨rfl, rfl⟩ := completes_calleeDeclaration hρ hdecl
          exact ⟨rfl, completes_report t.id hreport⟩
  | error | unknown => exact completes_pure.mp h
  | int | float | bool | string | void =>
      simp only [callType, completes_bind, completes_pure] at h
      obtain ⟨_, s₁, hreport, rfl, rfl⟩ := h
      exact ⟨rfl, completes_report t.id hreport⟩

-- ========================================================= expressions

mutual

/-- Typing an expression, if it completes, gives the type that the
account has for it and does what the account says. -/
theorem completes_typeOf (ρ : Lookup) : (e : Expr) → ∀ {ctx : Context}
    {s s' : State} {ty : Ty}, Resolves s ρ → Completes (typeOf ctx e) s ty s' →
    ty = e.typeIn ρ ∧ s' = replay s (e.events ρ)
  | .literal t v, ctx, s, s', ty, hρ, h => by
      simp only [typeOf, completes_bind] at h
      obtain ⟨_, s₁, hdescend, h⟩ := h
      obtain ⟨rfl, rfl⟩ := completes_descend hdescend
      exact completes_record h
  | .identifier t x, ctx, s, s', ty, hρ, h => by
      simp only [typeOf, completes_bind] at h
      obtain ⟨_, s₁, hdescend, a, s₂, hread, h⟩ := h
      obtain ⟨rfl, rfl⟩ := completes_descend hdescend
      obtain ⟨rfl, rfl⟩ := completes_readName hρ hread
      obtain ⟨rfl, rfl⟩ := completes_record h
      simp only [Expr.events, replay_append, and_self]
  | .binary t op l r, ctx, s, s', ty, hρ, h => by
      simp only [typeOf, completes_bind] at h
      obtain ⟨_, s₁, hdescend, a, s₂, hl, b, s₃, hr, c, s₄, hop, h⟩ := h
      obtain ⟨rfl, rfl⟩ := completes_descend hdescend
      obtain ⟨rfl, rfl⟩ := completes_typeOf ρ l hρ hl
      obtain ⟨rfl, rfl⟩ := completes_typeOf ρ r (hρ.replay _) hr
      obtain ⟨rfl, rfl⟩ := completes_orError t.id hop
      obtain ⟨rfl, rfl⟩ := completes_record h
      simp only [Expr.events, Expr.typeIn, replay_append, and_self]
  | .unary t op e, ctx, s, s', ty, hρ, h => by
      simp only [typeOf, completes_bind] at h
      obtain ⟨_, s₁, hdescend, a, s₂, he, c, s₃, hop, h⟩ := h
      obtain ⟨rfl, rfl⟩ := completes_descend hdescend
      obtain ⟨rfl, rfl⟩ := completes_typeOf ρ e hρ he
      obtain ⟨rfl, rfl⟩ := completes_orError t.id hop
      obtain ⟨rfl, rfl⟩ := completes_record h
      simp only [Expr.events, Expr.typeIn, replay_append, and_self]
  | .call t f args, ctx, s, s', ty, hρ, h => by
      simp only [typeOf, completes_bind] at h
      obtain ⟨_, s₁, hdescend, a, s₂, hf, b, s₃, hargs, c, s₄, hcall, h⟩ := h
      obtain ⟨rfl, rfl⟩ := completes_descend hdescend
      obtain ⟨rfl, rfl⟩ := completes_typeOf ρ f hρ hf
      obtain ⟨rfl, rfl⟩ := completes_typesOf ρ args (hρ.replay _) hargs
      obtain ⟨rfl, rfl⟩ := completes_callType ((hρ.replay _).replay _) hcall
      obtain ⟨rfl, rfl⟩ := completes_record h
      simp only [Expr.events, Expr.typeIn, replay_append, and_self]

theorem completes_typesOf (ρ : Lookup) : (es : List Expr) → ∀ {ctx : Context}
    {s s' : State} {tys : List Ty}, Resolves s ρ →
    Completes (typesOf ctx es) s tys s' →
    tys = es.map (·.typeIn ρ) ∧ s' = replay s (Expr.eventsAll ρ es)
  | [], ctx, s, s', tys, hρ, h => completes_pure.mp h
  | e :: es, ctx, s, s', tys, hρ, h => by
      simp only [typesOf, completes_bind, completes_pure] at h
      obtain ⟨a, s₁, he, b, s₂, hes, rfl, rfl⟩ := h
      obtain ⟨rfl, rfl⟩ := completes_typeOf ρ e hρ he
      obtain ⟨rfl, rfl⟩ := completes_typesOf ρ es (hρ.replay _) hes
      simp only [Expr.eventsAll, replay_append, List.map_cons, and_self]

end

theorem completes_typeOf? {ctx : Context} {e : Option Expr} {ty : Option Ty}
    (hρ : Resolves s ρ) (h : Completes (typeOf? ctx e) s ty s') :
    ty = e.map (·.typeIn ρ) ∧ s' = replay s (Expr.events? ρ e) := by
  cases e with
  | none => exact completes_pure.mp h
  | some e =>
      obtain ⟨a, s₁, he, h⟩ := completes_bind.mp h
      obtain ⟨rfl, rfl⟩ := completes_typeOf ρ e hρ he
      exact completes_pure.mp h

end TreeCheck.Analysis
