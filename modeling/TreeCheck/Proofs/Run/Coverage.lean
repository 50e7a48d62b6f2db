/-
What a step covers of a tree, and how it can fail.

`Walks limit m visits ids` describes a step from the outside: which
nodes it checks for their depth, in order, and under which identities
it records a type. If the step completes, then every visited node was
shallow enough and every identity was new; the open scopes are the same
ones as before. If it fails, then either at the first visited node that
is too deep, or at an identity that was recorded before or comes twice.
Nothing else can go wrong, provided a scope is open.

Sequences append their visits and their identities (`walks_bind`), and
a scope around a step changes neither (`ends_inScope`). From there on
no lemma looks at a state again.
-/
import TreeCheck.Proofs.Run.Steps
import TreeCheck.Syntax.Outline

namespace TreeCheck.Analysis

variable {α β : Type} {limit : Nat} {vs ws : Outline} {ids js : List NodeId}
  {s s' s'' : State}

-- ============================================================ endings

/-- What is true of a step that completed: the same scopes are open, all
visited nodes were shallow enough, and exactly the given identities were
recorded, each for the first time. -/
structure Covers (limit : Nat) (visits : Outline) (ids : List NodeId)
    (s s' : State) : Prop where
  serials : s'.table.scopes.map (·.serial) = s.table.scopes.map (·.serial)
  shallow : ∀ n ∈ visits, n.depth < limit
  nodup : ids.Nodup
  fresh : ∀ id ∈ ids, id ∉ s.types
  types : ∀ id, id ∈ s'.types ↔ id ∈ s.types ∨ id ∈ ids

/-- How a step can fail: at the first visited node that is too deep, at
an identity that has a type already, or at one that comes twice. -/
inductive Faults (limit : Nat) (visits : Outline) (ids : List NodeId)
    (s : State) : AnalysisError → Prop where
  | deep {n} (first : visits.find? (fun n => limit ≤ n.depth) = some n) :
      Faults limit visits ids s (.tooDeep limit n.node.position)
  | seen {id} (mem : id ∈ ids) (old : id ∈ s.types) :
      Faults limit visits ids s (.repeatedNode id)
  | twice {id} (count : 2 ≤ ids.count id) :
      Faults limit visits ids s (.repeatedNode id)

/-- Either ending of a step, seen from the state it began in. -/
def Ends (limit : Nat) (visits : Outline) (ids : List NodeId) (s : State) :
    Except AnalysisError (α × State) → Prop
  | .ok (_, s') => Covers limit visits ids s s'
  | .error e => Faults limit visits ids s e

/-- A step that, run where a scope is open, checks the depth of the given
nodes and records the given identities. -/
def Walks (limit : Nat) (m : Check α) (visits : Outline)
    (ids : List NodeId) : Prop :=
  ∀ s : State, s.table.scopes ≠ [] → Ends limit visits ids s (m.run s)

theorem Covers.open (h : Covers limit vs ids s s')
    (hs : s.table.scopes ≠ []) : s'.table.scopes ≠ [] := by
  intro h'
  have hmap := h.serials
  rw [h', List.map_nil] at hmap
  exact hs (List.map_eq_nil_iff.mp hmap.symm)

theorem Covers.trans (h : Covers limit vs ids s s')
    (h' : Covers limit ws js s' s'') :
    Covers limit (vs ++ ws) (ids ++ js) s s'' where
  serials := h'.serials.trans h.serials
  shallow n hn := (List.mem_append.mp hn).elim (h.shallow n) (h'.shallow n)
  nodup := by
    refine List.nodup_append.mpr ⟨h.nodup, h'.nodup, ?_⟩
    intro id hid _ hjd heq
    subst heq
    exact h'.fresh id hjd ((h.types id).mpr (.inr hid))
  fresh id hid := by
    rcases List.mem_append.mp hid with hid | hid
    · exact h.fresh id hid
    · exact fun hold => h'.fresh id hid ((h.types id).mpr (.inl hold))
  types id := by
    rw [h'.types, h.types, List.mem_append, or_assoc]

/-- A failure of the first part is a failure of the sequence. -/
theorem Faults.before {e : AnalysisError} (h : Faults limit vs ids s e) :
    Faults limit (vs ++ ws) (ids ++ js) s e := by
  cases h with
  | deep first =>
      refine .deep ?_
      rw [List.find?_append, first]
      rfl
  | seen mem old => exact .seen (List.mem_append_left _ mem) old
  | twice count =>
      refine .twice ?_
      rw [List.count_append]
      omega

/-- A failure after a completed first part is a failure of the sequence:
what the first part visited was shallow, and an identity it recorded is
one of the sequence's own. -/
theorem Faults.after {e : AnalysisError} (h : Covers limit vs ids s s')
    (h' : Faults limit ws js s' e) :
    Faults limit (vs ++ ws) (ids ++ js) s e := by
  cases h' with
  | deep first =>
      refine .deep ?_
      have hvs : vs.find? (fun n => limit ≤ n.depth) = none := by
        rw [List.find?_eq_none]
        intro n hn
        have := h.shallow n hn
        simp only [decide_eq_true_eq]
        omega
      rw [List.find?_append, hvs, first]
      rfl
  | @seen id mem old =>
      rcases (h.types id).mp old with old | earlier
      · exact .seen (List.mem_append_right _ mem) old
      · refine .twice ?_
        have := List.count_pos_iff.mpr earlier
        have := List.count_pos_iff.mpr mem
        rw [List.count_append]
        omega
  | twice count =>
      refine .twice ?_
      rw [List.count_append]
      omega

/-- The order in which identities are recorded does not matter. -/
theorem Ends.perm {r : Except AnalysisError (α × State)}
    (h : Ends limit vs ids s r) (hp : ids.Perm js) : Ends limit vs js s r := by
  match r, h with
  | .ok (_, s'), h =>
      exact ⟨h.serials, h.shallow, hp.nodup_iff.mp h.nodup,
        fun id hid => h.fresh id (hp.mem_iff.mpr hid),
        fun id => by rw [h.types, hp.mem_iff]⟩
  | .error _, .deep first => exact .deep first
  | .error _, .seen mem old => exact .seen (hp.mem_iff.mp mem) old
  | .error _, .twice count => exact .twice (hp.count_eq _ ▸ count)

theorem Walks.perm {m : Check α} (h : Walks limit m vs ids)
    (hp : ids.Perm js) : Walks limit m vs js :=
  fun s hs => (h s hs).perm hp

-- ========================================================== sequences

theorem walks_pure (a : α) : Walks limit (pure a) [] [] :=
  fun _ _ => ⟨rfl, by simp, .nil, by simp, by simp⟩

/-- A sequence visits and records what its parts do, in order. -/
theorem walks_bind {m : Check α} {f : α → Check β}
    (hm : Walks limit m vs ids) (hf : ∀ a, Walks limit (f a) ws js) :
    Walks limit (m >>= f) (vs ++ ws) (ids ++ js) := by
  intro s hs
  have h := hm s hs
  rw [StateT.run_bind]
  match hr : m.run s with
  | .error e =>
      rw [hr] at h
      exact Faults.before h
  | .ok (a, t) =>
      rw [hr] at h
      have h' := hf a t (Covers.open h hs)
      show Ends limit (vs ++ ws) (ids ++ js) s ((f a).run t)
      match hr' : (f a).run t with
      | .error e =>
          rw [hr'] at h'
          exact Faults.after h h'
      | .ok (b, u) =>
          rw [hr'] at h'
          exact Covers.trans h h'

/-- A step that visits and records nothing adds nothing in front. -/
theorem walks_then {m : Check α} {f : α → Check β}
    (hm : Walks limit m [] []) (hf : ∀ a, Walks limit (f a) ws js) :
    Walks limit (m >>= f) ws js :=
  walks_bind hm hf

/-- Going down at a node is a visit of it; the parts are walked one
level further in. -/
theorem walks_descend {ctx : Context} {f : Context → Check β}
    {n : Outline.Entry} (hdepth : n.depth = ctx.depth)
    (hf : Walks ctx.config.maxDepth (f { ctx with depth := ctx.depth + 1 })
      ws js) :
    Walks ctx.config.maxDepth (ctx.descend n.node.position >>= f)
      (n :: ws) js := by
  intro s hs
  rw [StateT.run_bind, run_descend]
  by_cases hlt : ctx.depth < ctx.config.maxDepth
  · rw [if_pos hlt]
    have h := hf s hs
    have hn : Covers ctx.config.maxDepth [n] [] s s :=
      ⟨rfl, by simpa [hdepth] using hlt, .nil, by simp, by simp⟩
    show Ends _ ([n] ++ ws) ([] ++ js) s
      ((f { ctx with depth := ctx.depth + 1 }).run s)
    match hr : (f { ctx with depth := ctx.depth + 1 }).run s with
    | .error e =>
        rw [hr] at h
        exact Faults.after hn h
    | .ok (b, u) =>
        rw [hr] at h
        exact Covers.trans hn h
  · rw [if_neg hlt]
    refine Faults.deep ?_
    rw [List.find?_cons_of_pos]
    simp only [decide_eq_true_eq]
    omega

-- ======================================================== single steps

/-- A step that completes, keeps the open scopes and records nothing. -/
theorem walks_of_run {m : Check α} (h : ∀ s : State, s.table.scopes ≠ [] →
    ∃ a t, m.run s = .ok (a, t) ∧ t.types = s.types
      ∧ t.table.scopes.map (·.serial) = s.table.scopes.map (·.serial)) :
    Walks limit m [] [] := by
  intro s hs
  obtain ⟨a, t, hrun, htypes, hserials⟩ := h s hs
  rw [hrun]
  exact ⟨hserials, by simp, .nil, by simp, by simp [htypes]⟩

theorem walks_get : Walks limit get [] [] :=
  walks_of_run fun s _ => ⟨s, s, rfl, rfl, rfl⟩

theorem walks_report (c : Cause) (p : Position) (r : Option Position) :
    Walks limit (report c p r) [] [] :=
  walks_of_run fun _ _ => ⟨_, _, run_report c p r, rfl, rfl⟩

theorem walks_require (ok : Bool) (c : Cause) (p : Position) :
    Walks limit (require ok c p) [] [] := by
  cases ok with
  | true => exact walks_pure ()
  | false => exact walks_report c p none

theorem walks_orError (r : Option Ty) (c : Cause) (p : Position) :
    Walks limit (orError r c p) [] [] := by
  cases r with
  | some ty => exact walks_pure ty
  | none => exact walks_then (walks_report c p none) fun _ => walks_pure _

theorem walks_markUsed (sym : Symbol) : Walks limit (markUsed sym) [] [] :=
  walks_of_run fun _ _ => ⟨_, _, run_markUsed sym, rfl, rfl⟩

theorem walks_resolve (t : Tag) (name : String) :
    Walks limit (resolve t name) [] [] := by
  refine walks_of_run fun s _ => ⟨_, _, run_resolve t name, ?_, ?_⟩
  · cases s.table.resolve name <;> rfl
  · cases s.table.resolve name <;> rfl

theorem walks_record (id : NodeId) (ty : Ty) :
    Walks limit (record id ty) [] [id] := by
  intro s _
  rw [run_record]
  split
  case isTrue h => exact .seen (by simp) h
  case isFalse h =>
      refine ⟨rfl, by simp, by simp, by simpa using h, fun id' => ?_⟩
      rw [Std.TreeMap.mem_insert, List.mem_singleton,
        Std.LawfulEqCmp.compare_eq_iff_eq, eq_comm, or_comm]

/-- Inside an open scope binding a name cannot fail: a duplicate shadows
the declaration before it. -/
theorem walks_declare (b : Binding) : Walks limit (declare b) [] [] := by
  refine walks_of_run fun s hs => ?_
  obtain ⟨top, outer, hscopes⟩ := List.exists_cons_of_ne_nil hs
  refine ⟨_, _, run_declare b hscopes, rfl, ?_⟩
  rw [hscopes]
  rfl

-- ============================================================== scopes

/-- A list of scopes with one serial in front has one scope in front. -/
private theorem cons_of_serials {scopes : List Scope} {serial : Nat}
    {serials : List Nat} (h : scopes.map (·.serial) = serial :: serials) :
    ∃ top outer, scopes = top :: outer ∧ top.serial = serial
      ∧ outer.map (·.serial) = serials := by
  obtain ⟨top, outer, rfl, htop, houter⟩ := List.map_eq_cons_iff.mp h
  exact ⟨top, outer, rfl, htop, houter⟩

/-- A scope around a step changes neither what it covers nor how it can
fail, and none has to be open outside: the step leaves the scopes as it
found them, so the handle fits when the scope is left. -/
theorem ends_inScope {body : Check Unit} (config : Config)
    (h : Walks limit body vs ids) (s : State) :
    Ends limit vs ids s ((inScope config body).run s) := by
  rw [run_inScope]
  have hbody := h { s with table := s.table.enter.2 } (List.cons_ne_nil _ _)
  match hr : body.run { s with table := s.table.enter.2 } with
  | .error e =>
      rw [hr] at hbody
      show Faults limit vs ids s e
      cases hbody with
      | deep first => exact .deep first
      | seen mem old => exact .seen mem old
      | twice count => exact .twice count
  | .ok ((), t) =>
      rw [hr] at hbody
      obtain ⟨top, outer, hscopes, hserial, houter⟩ :=
        cons_of_serials (Covers.serials hbody)
      have hlength : outer.length = s.table.depth := by
        simpa [SymbolTable.depth] using congrArg List.length houter
      show Ends limit vs ids s ((leave config ⟨s.table.depth + 1, _⟩).run t)
      rw [← hlength, run_leave config _ hscopes hserial]
      exact ⟨houter, hbody.shallow, hbody.nodup, hbody.fresh, hbody.types⟩

theorem walks_inScope {body : Check Unit} (config : Config)
    (h : Walks limit body vs ids) : Walks limit (inScope config body) vs ids :=
  fun s _ => ends_inScope config h s

end TreeCheck.Analysis
