/-
The nesting limit lets a program pass or refuses it, and does nothing else.

`Gated` compares a run under some limit with the run of the same step under
a greater one: it is refused as too deep, or it is that run, with the same
ending and the same state. A node is the only place where the limit is
looked at (`gated_descend`); a step that never goes down to a node is
the same under any limit, and a sequence is gated if its parts are. So no
state is looked at but in the few rules, and the walk is one induction
over the tree.
-/
import TreeCheck.Proofs.Run.Steps

namespace TreeCheck

namespace Analysis

section

variable {α β : Type} {limit : Nat} {m m' : Check α} {f f' : α → Check β}

/-- From any state, a step is refused as too deep or does what another one does. -/
def Gated (limit : Nat) (m m' : Check α) : Prop :=
  ∀ s : State, (∃ q, m.run s = .error (.tooDeep limit q)) ∨ m.run s = m'.run s

theorem gated_refl (limit : Nat) (m : Check α) : Gated limit m m := fun _ => .inr rfl

theorem gated_bind (h : Gated limit m m') (hf : ∀ a, Gated limit (f a) (f' a)) :
    Gated limit (m >>= f) (m' >>= f') := by
  intro s
  rw [StateT.run_bind, StateT.run_bind]
  rcases h s with ⟨q, hdeep⟩ | hsame
  · exact .inl ⟨q, by rw [hdeep]; rfl⟩
  rw [← hsame]
  cases hrun : m.run s with
  | error e => exact .inr rfl
  | ok r => exact hf r.1 r.2

/-- A gated step before the same continuation. -/
theorem gated_before (h : Gated limit m m') (f : α → Check β) :
    Gated limit (m >>= f) (m' >>= f) :=
  gated_bind h fun a => gated_refl limit (f a)

/-- The same step before gated continuations. -/
theorem gated_after (m : Check α) (hf : ∀ a, Gated limit (f a) (f' a)) :
    Gated limit (m >>= f) (m >>= f') :=
  gated_bind (gated_refl limit m) hf

end

-- ======================================================== single steps

variable {limit limit' : Nat} {warns : Bool} {d : Nat} {x : Option Ty}

/-- A node that one limit admits a greater one admits, too. -/
theorem gated_descend (hle : limit ≤ limit') (p : Position) {α : Type}
    {f f' : Context → Check α}
    (hf : Gated limit (f ⟨⟨warns, limit⟩, d + 1, x⟩) (f' ⟨⟨warns, limit'⟩, d + 1, x⟩)) :
    Gated limit (Context.descend ⟨⟨warns, limit⟩, d, x⟩ p >>= f)
      (Context.descend ⟨⟨warns, limit'⟩, d, x⟩ p >>= f') := by
  intro s
  rw [StateT.run_bind, StateT.run_bind, run_descend, run_descend]
  by_cases hd : d < limit
  · have hd' : d < limit' := Nat.lt_of_lt_of_le hd hle
    rw [if_pos hd, if_pos hd']
    exact hf s
  · rw [if_neg hd]
    exact .inl ⟨p, rfl⟩

/-- Scopes are opened and left under any limit alike. -/
theorem gated_inScope {body body' : Check Unit} (h : Gated limit body body') :
    Gated limit (inScope ⟨warns, limit⟩ body) (inScope ⟨warns, limit'⟩ body') := by
  intro s
  rw [run_inScope, run_inScope]
  rcases h { s with table := s.table.enter.2 } with ⟨q, hdeep⟩ | hsame
  · exact .inl ⟨q, by rw [hdeep]; rfl⟩
  · exact .inr (by rw [hsame]; rfl)

theorem gated_inBranch (branch : Stmt) {body body' : Check Unit} (h : Gated limit body body') :
    Gated limit (inBranch ⟨warns, limit⟩ branch body)
      (inBranch ⟨warns, limit'⟩ branch body') := by
  unfold inBranch
  cases branch.isBlock with
  | true => exact h
  | false => exact gated_inScope h

-- ========================================================= expressions

mutual

theorem gated_typeOf (hle : limit ≤ limit') (d : Nat) (x : Option Ty) : (e : Expr) →
    Gated limit (typeOf ⟨⟨warns, limit⟩, d, x⟩ e) (typeOf ⟨⟨warns, limit'⟩, d, x⟩ e)
  | .literal t _ => gated_descend hle t.position (gated_refl limit _)
  | .identifier t _ => gated_descend hle t.position (gated_refl limit _)
  | .binary t _ l r => by
      refine gated_descend hle t.position ?_
      refine gated_bind (gated_typeOf hle (d + 1) x l) fun _ => ?_
      exact gated_before (gated_typeOf hle (d + 1) x r) _
  | .unary t _ e => by
      refine gated_descend hle t.position ?_
      exact gated_before (gated_typeOf hle (d + 1) x e) _
  | .call t f args => by
      refine gated_descend hle t.position ?_
      refine gated_bind (gated_typeOf hle (d + 1) x f) fun _ => ?_
      exact gated_before (gated_typesOf hle (d + 1) x args) _

theorem gated_typesOf (hle : limit ≤ limit') (d : Nat) (x : Option Ty) : (es : List Expr) →
    Gated limit (typesOf ⟨⟨warns, limit⟩, d, x⟩ es) (typesOf ⟨⟨warns, limit'⟩, d, x⟩ es)
  | [] => gated_refl limit _
  | e :: es => by
      refine gated_bind (gated_typeOf hle d x e) fun _ => ?_
      exact gated_before (gated_typesOf hle d x es) _

end

theorem gated_typeOf? (hle : limit ≤ limit') (d : Nat) (x : Option Ty) (e : Option Expr) :
    Gated limit (typeOf? ⟨⟨warns, limit⟩, d, x⟩ e) (typeOf? ⟨⟨warns, limit'⟩, d, x⟩ e) := by
  cases e with
  | none => exact gated_refl limit _
  | some e => exact gated_before (gated_typeOf hle d x e) _

-- ========================================================== statements

/-- A bare target is resolved and recorded without going down to it, under any limit. -/
theorem gated_checkAssignment (hle : limit ≤ limit') (d : Nat) (x : Option Ty)
    (target value : Expr) :
    Gated limit (checkAssignment ⟨⟨warns, limit⟩, d, x⟩ target value)
      (checkAssignment ⟨⟨warns, limit'⟩, d, x⟩ target value) := by
  have hvalue : Gated limit (typeOf ⟨⟨warns, limit⟩, d, x⟩ value)
      (typeOf ⟨⟨warns, limit'⟩, d, x⟩ value) := gated_typeOf hle d x value
  cases target with
  | identifier t name =>
      refine gated_after (resolve t name) fun sym => ?_
      refine gated_after (record t.id (symbolType sym)) fun _ => ?_
      exact gated_before hvalue _
  | literal | binary | unary | call =>
      refine gated_bind (gated_typeOf hle d x _) fun _ => ?_
      exact gated_before hvalue _

theorem gated_checkCondition (hle : limit ≤ limit') (d : Nat) (x : Option Ty) (c : Construct)
    (e : Expr) :
    Gated limit (checkCondition ⟨⟨warns, limit⟩, d, x⟩ c e)
      (checkCondition ⟨⟨warns, limit'⟩, d, x⟩ c e) :=
  gated_before (gated_typeOf hle d x e) _

mutual

theorem gated_checkStmt (hle : limit ≤ limit') (d : Nat) (x : Option Ty) : (s : Stmt) →
    Gated limit (checkStmt ⟨⟨warns, limit⟩, d, x⟩ s) (checkStmt ⟨⟨warns, limit'⟩, d, x⟩ s)
  | .declaration t _ _ init _ => by
      refine gated_descend hle t.position ?_
      refine gated_after _ fun _ => ?_
      exact gated_before (gated_typeOf? hle (d + 1) x init) _
  | .function t name params result _ body => by
      refine gated_descend hle t.position ?_
      refine gated_after (signatureOf t name params result body) fun sig => ?_
      refine gated_inScope ?_
      refine gated_after (declareParams params sig.params) fun _ => ?_
      refine gated_after (hoist [] body) fun _ => ?_
      exact gated_checkStmts hle (d + 1) (some sig.ret) body
  | .assignment t target value => by
      refine gated_descend hle t.position ?_
      exact gated_checkAssignment hle (d + 1) x target value
  | .block t _ ss => by
      refine gated_descend hle t.position ?_
      refine gated_inScope ?_
      refine gated_after (hoist [] ss) fun _ => ?_
      exact gated_checkStmts hle (d + 1) x ss
  | .ifElse t c a none => by
      refine gated_descend hle t.position ?_
      refine gated_bind (gated_checkCondition hle (d + 1) x .ifElse c) fun _ => ?_
      exact gated_inBranch a (gated_checkStmt hle (d + 1) x a)
  | .ifElse t c a (some b) => by
      refine gated_descend hle t.position ?_
      refine gated_bind (gated_checkCondition hle (d + 1) x .ifElse c) fun _ => ?_
      refine gated_bind (gated_inBranch a (gated_checkStmt hle (d + 1) x a)) fun _ => ?_
      exact gated_inBranch b (gated_checkStmt hle (d + 1) x b)
  | .while t c b => by
      refine gated_descend hle t.position ?_
      refine gated_bind (gated_checkCondition hle (d + 1) x .while c) fun _ => ?_
      exact gated_inBranch b (gated_checkStmt hle (d + 1) x b)
  | .ret t value => by
      refine gated_descend hle t.position ?_
      exact gated_before (gated_typeOf? hle (d + 1) x value) _
  | .expr t e => by
      refine gated_descend hle t.position ?_
      exact gated_before (gated_typeOf hle (d + 1) x e) _

theorem gated_checkStmts (hle : limit ≤ limit') (d : Nat) (x : Option Ty) : (ss : List Stmt) →
    Gated limit (checkStmts ⟨⟨warns, limit⟩, d, x⟩ ss)
      (checkStmts ⟨⟨warns, limit'⟩, d, x⟩ ss)
  | [] => gated_refl limit _
  | s :: ss => by
      refine gated_bind (gated_checkStmt hle d x s) fun _ => ?_
      exact gated_checkStmts hle d x ss

end

theorem gated_checkProgram (warns : Bool) (hle : limit ≤ limit') (p : Program) :
    Gated limit (checkProgram ⟨warns, limit⟩ p) (checkProgram ⟨warns, limit'⟩ p) := by
  refine gated_inScope ?_
  refine gated_after (hoist [] p.body) fun _ => ?_
  exact gated_checkStmts hle 0 none p.body

end Analysis

open Analysis

-- ============================================================ programs

/-- Under the lower of two limits, an analysis is refused as too deep or ends as it
does under the greater one. -/
theorem Program.analyze_gated (p : Program) (warns : Bool) {limit limit' : Nat}
    (hle : limit ≤ limit') :
    (∃ q, p.analyze ⟨warns, limit⟩ = .error (.tooDeep limit q))
      ∨ p.analyze ⟨warns, limit⟩ = p.analyze ⟨warns, limit'⟩ := by
  unfold analyze
  rcases gated_checkProgram warns hle p {} with ⟨q, hdeep⟩ | hsame
  · exact .inl ⟨q, by rw [hdeep]⟩
  · exact .inr (by rw [hsame])

/-- What completes under a limit completes under every greater one, with the same
findings, types and resolutions. And where a greater limit lets the analysis
come to an identity that was recorded before, it fails under the lower one
as well: there, too, or at a node that is too deep. -/
theorem Program.limit_only_gates (p : Program) (warns : Bool) {limit limit' : Nat}
    (hle : limit ≤ limit') :
    (∀ a, p.analyze ⟨warns, limit⟩ = .ok a → p.analyze ⟨warns, limit'⟩ = .ok a)
      ∧ ∀ id, p.analyze ⟨warns, limit'⟩ = .error (.repeatedNode id) →
          ∃ e, p.analyze ⟨warns, limit⟩ = .error e
            ∧ (e = .repeatedNode id ∨ ∃ q, e = .tooDeep limit q) := by
  refine ⟨fun a ha => ?_, fun id hid => ?_⟩
  · rcases p.analyze_gated warns hle with ⟨q, hdeep⟩ | hsame
    · rw [ha] at hdeep
      cases hdeep
    · rw [← hsame, ha]
  · rcases p.analyze_gated warns hle with ⟨q, hdeep⟩ | hsame
    · exact ⟨_, hdeep, .inr ⟨q, rfl⟩⟩
    · exact ⟨_, hsame.trans hid, .inl rfl⟩

/-- The negation of a name that nothing binds, three levels deep. -/
def Program.negatedName : Program :=
  ⟨[.expr ⟨0, ⟨1, 1⟩⟩ (.unary ⟨1, ⟨1, 1⟩⟩ .neg (.identifier ⟨2, ⟨1, 2⟩⟩ "x"))], .start⟩

/-- A constant, and one level further down another with its identity. -/
def Program.sharedConstant : Program :=
  ⟨[.expr ⟨0, ⟨1, 1⟩⟩ (.literal ⟨1, ⟨1, 1⟩⟩ (.int 7)),
    .expr ⟨2, ⟨2, 1⟩⟩ (.unary ⟨3, ⟨2, 1⟩⟩ .neg (.literal ⟨1, ⟨2, 2⟩⟩ (.int 7)))], .start⟩

/-- With a level to spare the same name is reported. With a level too few the constant
is refused before its identity is met again. -/
theorem Program.limit_only_gates_atLimit :
    3 ≤ 512 ∧ 2 ≤ 3
      ∧ (∃ a, negatedName.analyze ⟨true, 3⟩ = .ok a
        ∧ a.findings.map (·.cause) = [.undefined "x"]
        ∧ negatedName.analyze ⟨true, 512⟩ = .ok a)
      ∧ sharedConstant.analyze ⟨true, 3⟩ = .error (.repeatedNode 1)
      ∧ sharedConstant.analyze ⟨true, 2⟩ = .error (.tooDeep 2 ⟨2, 2⟩)
      ∧ ∃ e, sharedConstant.analyze ⟨true, 2⟩ = .error e
        ∧ (e = .repeatedNode 1 ∨ ∃ q, e = .tooDeep 2 q) := by
  have hspare : 3 ≤ 512 := by decide
  have hshort : 2 ≤ 3 := by decide
  have hrepeated : sharedConstant.analyze ⟨true, 3⟩ = .error (.repeatedNode 1) := rfl
  exact ⟨hspare, hshort,
    ⟨_, rfl, rfl, (negatedName.limit_only_gates true hspare).1 _ rfl⟩,
    hrepeated, rfl, (sharedConstant.limit_only_gates true hshort).2 1 hrepeated⟩

end TreeCheck
