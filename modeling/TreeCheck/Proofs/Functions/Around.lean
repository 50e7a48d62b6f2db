/-
The innermost function around a statement.

`FunctionDef.Innermost` says what it is without a walk: a function that
encloses the statement and that every other function around the
statement encloses. `Stmt.within` finds it by handing the nearest
function down to the children, and does so for all statements at once.

A course hands down a result type instead. It is that of the function
that `within` hands down, at every visit (`Program.expecting_visits`): a
function is entered with the signature kept under its identity, which is
its own where identities are distinct, and behind the function the
result type from before is in force again, since it was never replaced
but only passed down.
-/
import TreeCheck.Proofs.Functions.Source

namespace TreeCheck

open Analysis

-- ============================================================ innermost

/-- Of some functions, the innermost around a statement; none if none of
them encloses it. -/
def FunctionDef.Innermost (fs : List FunctionDef) (s : Stmt) :
    Option FunctionDef → Prop
  | none => ∀ f ∈ fs, ¬ f.Encloses s
  | some f => f ∈ fs ∧ f.Encloses s
      ∧ ∀ g ∈ fs, g.Encloses s → g = f ∨ g.Encloses f.stmt

mutual

/-- The statements in a statement, each with the nearest function around
it; one that is around the whole statement is given. -/
def Stmt.within (around : Option FunctionDef) :
    Stmt → List (Stmt × Option FunctionDef)
  | .function t name params result q body =>
    (.function t name params result q body, around)
      :: Stmt.withinAll (some ⟨t, name, params, result, q, body⟩) body
  | .block t q ss => (.block t q ss, around) :: Stmt.withinAll around ss
  | .ifElse t c a none => (.ifElse t c a none, around) :: a.within around
  | .ifElse t c a (some b) =>
    (.ifElse t c a (some b), around) :: (a.within around ++ b.within around)
  | .while t c b => (.while t c b, around) :: b.within around
  | .declaration t name ann init m => [(.declaration t name ann init m, around)]
  | .assignment t target value => [(.assignment t target value, around)]
  | .ret t value => [(.ret t value, around)]
  | .expr t e => [(.expr t e, around)]
termination_by structural s => s

/-- The statements in a list, each with the nearest function around it. -/
def Stmt.withinAll (around : Option FunctionDef) :
    List Stmt → List (Stmt × Option FunctionDef)
  | [] => []
  | s :: ss => s.within around ++ Stmt.withinAll around ss
termination_by structural ss => ss

end

/-- The statements of a program, each with the nearest function around
it. -/
def Program.within (p : Program) : List (Stmt × Option FunctionDef) :=
  Stmt.withinAll none p.body

/-- The innermost function around a statement of a program. -/
def Program.functionAround (p : Program) (s : Stmt) : Option FunctionDef :=
  (p.within.find? (·.1.id == s.id)).bind (·.2)

theorem Stmt.withinAll_eq_flatMap (around : Option FunctionDef) (ss : List Stmt) :
    Stmt.withinAll around ss = ss.flatMap (Stmt.within around) := by
  induction ss with
  | nil => rfl
  | cons s ss ih => rw [Stmt.withinAll, ih, List.flatMap_cons]

/-- A statement hands itself down to its children if it is a function, and
otherwise what it was handed. -/
theorem Stmt.within_eq_cons (around : Option FunctionDef) (s : Stmt) :
    s.within around
      = (s, around) :: s.children.flatMap (Stmt.within (s.function?.or around)) := by
  cases s with
  | function t name params result q body =>
      rw [within, withinAll_eq_flatMap]
      rfl
  | block t q ss =>
      rw [within, withinAll_eq_flatMap]
      rfl
  | ifElse t c a b =>
      cases b with
      | none =>
          rw [within, children, List.flatMap_singleton]
          rfl
      | some b =>
          rw [within, children, List.flatMap_cons, List.flatMap_singleton]
          rfl
  | «while» t c b =>
      rw [within, children, List.flatMap_singleton]
      rfl
  | declaration | assignment | ret | expr => rfl

theorem Stmt.map_fst_within (around : Option FunctionDef) (s : Stmt) :
    (s.within around).map Prod.fst = s.inner := by
  induction s using Stmt.childrenRec generalizing around with
  | step s ih =>
      rw [within_eq_cons, inner_eq_cons, List.map_cons, List.map_flatMap]
      exact congrArg _ (List.flatMap_congr fun c hc => ih c hc _)

theorem Program.map_fst_within (p : Program) : p.within.map Prod.fst = p.stmts := by
  rw [within, Stmt.withinAll_eq_flatMap, stmts_eq_flatMap, List.map_flatMap]
  exact List.flatMap_congr fun s _ => s.map_fst_within none

section

variable {s c x : Stmt} {ss : List Stmt} {around g : Option FunctionDef}

theorem Stmt.mem_inner_of_within (h : (x, g) ∈ s.within around) : x ∈ s.inner := by
  rw [← s.map_fst_within around]
  exact List.mem_map_of_mem h

/-- Where identities are distinct, the functions of the other statements of
a list are not around what stands in one of them. -/
theorem FunctionDef.Innermost.flatMap
    (hids : ((ss.flatMap Stmt.inner).map Stmt.id).Nodup) (hc : c ∈ ss)
    (hx : x ∈ c.inner) (h : Innermost c.functions x g) :
    Innermost (ss.flatMap Stmt.functions) x g := by
  have hown {f : FunctionDef} (hf : f ∈ ss.flatMap Stmt.functions)
      (hencloses : f.Encloses x) : f ∈ c.functions := by
    obtain ⟨c', hc', hf⟩ := List.mem_flatMap.mp hf
    rwa [hencloses.not_elsewhere hids hc hc' hx hf] at hf
  cases g with
  | none => exact fun f hf hencloses => h f (hown hf hencloses) hencloses
  | some f =>
      obtain ⟨hf, hencloses, hrest⟩ := h
      refine ⟨List.mem_flatMap.mpr ⟨c, hc, hf⟩, hencloses, fun g hg hg' => ?_⟩
      exact hrest g (hown hg hg') hg'

/-- A function is around what stands in its children, outside of every
function among them. -/
theorem FunctionDef.Innermost.enter (hc : c ∈ s.children) (hx : x ∈ c.inner)
    (h : Innermost (s.children.flatMap Stmt.functions) x g) :
    Innermost s.functions x (g.or s.function?) := by
  rw [Stmt.functions_eq_append]
  cases hs : s.function? with
  | none =>
      rw [Option.or_none]
      exact h
  | some f₀ =>
      obtain rfl := Stmt.function?_eq_some.mp hs
      have hmem : f₀ ∈ (some f₀).toList ++ f₀.stmt.children.flatMap Stmt.functions :=
        List.mem_cons_self
      cases g with
      | none =>
          refine ⟨hmem, FunctionDef.encloses_iff.mpr ⟨c, hc, hx⟩, fun g hg hg' => ?_⟩
          rcases List.mem_append.mp hg with hg | hg
          · exact .inl (List.mem_singleton.mp hg)
          · exact absurd hg' (h g hg)
      | some f =>
          obtain ⟨hf, hencloses, hrest⟩ := h
          refine ⟨List.mem_append_right _ hf, hencloses, fun g hg hg' => ?_⟩
          rcases List.mem_append.mp hg with hg | hg
          · obtain ⟨c', hc', hf⟩ := List.mem_flatMap.mp hf
            rw [List.mem_singleton.mp hg]
            exact .inr (FunctionDef.encloses_iff.mpr ⟨c', hc', Stmt.mem_functions.mp hf⟩)
          · exact hrest g hg hg'

/-- What is handed down to a statement is the innermost function around it,
or what was given if no function in the whole is around it. -/
theorem Stmt.innermost_within (hids : (s.inner.map Stmt.id).Nodup)
    (h : (x, g) ∈ s.within around) :
    ∃ g₀, g = g₀.or around ∧ FunctionDef.Innermost s.functions x g₀ := by
  induction s using Stmt.childrenRec generalizing around with
  | step s ih =>
      rw [within_eq_cons] at h
      rcases List.mem_cons.mp h with heq | h
      · obtain ⟨rfl, rfl⟩ := Prod.mk.inj heq
        exact ⟨none, rfl, fun f hf hencloses => hencloses.ne_self hids hf rfl⟩
      · obtain ⟨c, hc, h⟩ := List.mem_flatMap.mp h
        have hx := mem_inner_of_within h
        have hchildren : ((s.children.flatMap Stmt.inner).map Stmt.id).Nodup := by
          rw [inner_eq_cons, List.map_cons] at hids
          exact (List.nodup_cons.mp hids).2
        have hchild : (c.inner.map Stmt.id).Nodup := by
          rw [List.map_flatMap, List.nodup_flatMap] at hchildren
          exact hchildren.1 c hc
        obtain ⟨g₀, rfl, hinnermost⟩ := ih c hc hchild h
        refine ⟨g₀.or s.function?, (Option.or_assoc).symm, ?_⟩
        exact (hinnermost.flatMap hchildren hc hx).enter hc hx

end

section

variable {p : Program} {s : Stmt} {g : Option FunctionDef}

theorem Program.innermost_within (hids : p.ids.Nodup) (h : (s, g) ∈ p.within) :
    FunctionDef.Innermost p.functions s g := by
  have hstmts := p.nodup_stmtIds hids
  rw [stmts_eq_flatMap] at hstmts
  rw [within, Stmt.withinAll_eq_flatMap] at h
  obtain ⟨c, hc, h⟩ := List.mem_flatMap.mp h
  have hchild : (c.inner.map Stmt.id).Nodup := by
    rw [List.map_flatMap, List.nodup_flatMap] at hstmts
    exact hstmts.1 c hc
  obtain ⟨g₀, rfl, hinnermost⟩ := Stmt.innermost_within hchild h
  rw [functions_eq_flatMap, Option.or_none]
  exact hinnermost.flatMap hstmts hc (Stmt.mem_inner_of_within h)

/-- A statement is within its innermost function. -/
theorem Program.functionAround_of_within (hids : p.ids.Nodup) (h : (s, g) ∈ p.within) :
    p.functionAround s = g := by
  have hnodup : (p.within.map fun w => w.1.id).Nodup := by
    have hstmts := p.nodup_stmtIds hids
    rwa [← p.map_fst_within, List.map_map] at hstmts
  rw [functionAround]
  cases hfind : p.within.find? (·.1.id == s.id) with
  | none =>
      have hnone := List.find?_eq_none.mp hfind (s, g) h
      simp at hnone
  | some w =>
      have hid : w.1.id = s.id := by simpa using List.find?_some hfind
      rw [List.inj_on_of_nodup_map hnodup (List.mem_of_find?_eq_some hfind) h hid]
      rfl

/-- The function that is found around a statement is the innermost one. -/
theorem Program.innermost_functionAround (hids : p.ids.Nodup) (hs : s ∈ p.stmts) :
    FunctionDef.Innermost p.functions s (p.functionAround s) := by
  rw [← p.map_fst_within] at hs
  obtain ⟨⟨s, g⟩, hmem, rfl⟩ := List.mem_map.mp hs
  rw [functionAround_of_within hids hmem]
  exact innermost_within hids hmem

end

-- ============================================================== visits

/-- The result type that is in force inside a function, if there is one. -/
def FunctionDef.expected (around : Option FunctionDef) : Option Ty :=
  around.map (·.signature.ret)

/-- A visited statement and the result type in force there. -/
def Visit.expecting (v : Visit) : Stmt × Option Ty := (v.stmt, v.expected)

/-- A statement and the result type in force in the function around it. -/
def expectingWithin (w : Stmt × Option FunctionDef) : Stmt × Option Ty :=
  (w.1, FunctionDef.expected w.2)

section

variable {config : Config} {σ : Signatures}

theorem expecting_visitsOfBranch {branch : Stmt} {ws : List (Stmt × Option Ty)}
    {visits : Env → Frame → SymbolId → Signatures → List Visit}
    (h : ∀ outer φ n, (visits outer φ n σ).map Visit.expecting = ws) (outer : Env)
    (φ : Frame) (n : SymbolId) :
    (visitsOfBranch branch visits outer φ n σ).map Visit.expecting = ws := by
  unfold visitsOfBranch
  split
  · exact h outer φ n
  · exact h (φ :: outer) [] n

mutual

/-- Where a statement can be reached, the result type at each of its visits
is that of the nearest function around. -/
theorem Stmt.expecting_visits : (s : Stmt) → ∀ {ahead : Bool} {σ : Signatures}
    (around : Option FunctionDef) (outer : Env) (φ : Frame) (n : SymbolId),
    s.functionIds.Nodup → s.Awaits σ ahead →
    (s.visits config (FunctionDef.expected around) outer φ n σ).map Visit.expecting
      = (s.within around).map expectingWithin
  | .declaration _ _ _ _ _, ahead, σ, around, outer, φ, n, _, _ => rfl
  | .assignment _ _ _, ahead, σ, around, outer, φ, n, _, _ => rfl
  | .ret _ _, ahead, σ, around, outer, φ, n, _, _ => rfl
  | .expr _ _, ahead, σ, around, outer, φ, n, _, _ => rfl
  | .function t name params result q body, ahead, σ, around, outer, φ, n, hids, h => by
      rw [Stmt.functionIds] at hids
      simp only [Stmt.visits, Stmt.within, List.map_cons, h.signature]
      refine congrArg _ ?_
      exact Stmt.expecting_visitsAll body (some ⟨t, name, params, result, q, body⟩) _ _ _
        (List.nodup_cons.mp hids).2 (h.body hids φ n)
  | .block t q ss, ahead, σ, around, outer, φ, n, hids, h => by
      simp only [Stmt.visits, Stmt.within, List.map_cons]
      refine congrArg _ ?_
      exact Stmt.expecting_visitsAll ss around _ _ _ hids
        (awaitsAll_hoistedSignatures hids h)
  | .ifElse t c a none, ahead, σ, around, outer, φ, n, hids, h => by
      rw [Stmt.functionIds] at hids
      simp only [Stmt.visits, Stmt.within, List.map_cons]
      refine congrArg _ (expecting_visitsOfBranch (fun outer φ n => ?_) outer φ n)
      exact Stmt.expecting_visits a around outer φ n hids (Stmt.awaits_of_none h)
  | .ifElse t c a (some b), ahead, σ, around, outer, φ, n, hids, h => by
      rw [Stmt.functionIds] at hids
      obtain ⟨ha, hb, -⟩ := List.nodup_append.mp hids
      have hawaits := Stmt.awaits_of_none fun id hid => h id (List.mem_append_left _ hid)
      have hbehind := Stmt.awaits_secondBranch config hids h (FunctionDef.expected around)
        outer φ n
      have hthen := fun outer φ n =>
        Stmt.expecting_visits a around outer φ n ha hawaits
      have helse := fun outer φ n =>
        Stmt.expecting_visits b around outer φ n hb hbehind
      simp only [Stmt.visits, Stmt.within, List.map_cons, List.map_append]
      rw [expecting_visitsOfBranch hthen, expecting_visitsOfBranch helse]
      rfl
  | .while t c b, ahead, σ, around, outer, φ, n, hids, h => by
      rw [Stmt.functionIds] at hids
      simp only [Stmt.visits, Stmt.within, List.map_cons]
      refine congrArg _ (expecting_visitsOfBranch (fun outer φ n => ?_) outer φ n)
      exact Stmt.expecting_visits b around outer φ n hids (Stmt.awaits_of_none h)

theorem Stmt.expecting_visitsAll : (ss : List Stmt) →
    ∀ {earlier : List String} {σ : Signatures} (around : Option FunctionDef)
    (outer : Env) (φ : Frame) (n : SymbolId),
    (Stmt.functionIdsAll ss).Nodup → Stmt.AwaitsAll σ earlier ss →
    (Stmt.visitsAll config ss (FunctionDef.expected around) outer φ n σ).map
        Visit.expecting
      = (Stmt.withinAll around ss).map expectingWithin
  | [], earlier, σ, around, outer, φ, n, _, _ => rfl
  | s :: ss, earlier, σ, around, outer, φ, n, hids, h => by
      rw [Stmt.functionIdsAll] at hids
      obtain ⟨hs, hss, -⟩ := List.nodup_append.mp hids
      have hpassed := h.tail hids config (FunctionDef.expected around) outer φ n
      rw [Stmt.visitsAll, Stmt.withinAll, List.map_append, List.map_append,
        Stmt.expecting_visits s around outer φ n hs h.1,
        Stmt.expecting_visitsAll ss around outer _ _ hss hpassed]

end

end

/-- Where the nodes of a program have distinct identities, the result type
in force at a visit is that of the innermost function around the
statement. -/
theorem Program.expecting_visits {p : Program} (config : Config) (hids : p.ids.Nodup) :
    (p.visits config).map Visit.expecting = p.within.map expectingWithin := by
  exact Stmt.expecting_visitsAll p.body none _ _ _ (p.nodup_functionIds hids)
    (awaitsAll_body hids)

end TreeCheck
