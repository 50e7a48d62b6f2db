/-
A run at a point, between what it has done and what it has left to do.

A `Scene` is a cut through the account of a program: the frames in
force, the next number, the events before and the events after. It holds
of a state and of the walk that comes next if the account is the three
parts in a row and the state is what the events before have made of it.
What is left to do can still read the symbols around, and symbols that
are yet to be bound, but none that a closed scope has taken away.

Each way down into a program cuts a scene into the next one. The next
scene is given as a function of the one before, so that two runs can be
followed side by side.
-/
import TreeCheck.Proofs.Account.Composition
import TreeCheck.Proofs.Duplicates.Points
import TreeCheck.Proofs.Run.Statements

namespace TreeCheck

open Analysis

/-- A cut through the account of a program. -/
structure Scene where
  outer : Env
  frame : Frame
  next : SymbolId
  before : List Event
  after : List Event

namespace Scene

/-- The frames in force. -/
abbrev env (S : Scene) : Env := S.frame :: S.outer

/-- A walk has been done. -/
def past (S : Scene) (w : Walk) : Scene :=
  { S with frame := w.frame, next := w.next, before := S.before ++ w.events }

theorem past_andThen (S : Scene) (w : Walk) (f : Frame → SymbolId → Walk) :
    S.past (w.andThen f) = (S.past w).past (f w.frame w.next) := by
  simp only [past, Walk.andThen, List.append_assoc]

/-- More is left to do first. -/
def ahead (S : Scene) (es : List Event) : Scene := { S with after := es ++ S.after }

/-- Names have been looked up. -/
def consulted (S : Scene) (es : List Event) : Scene :=
  { S with before := S.before ++ es }

/-- A scope has been opened for a walk. -/
def within (S : Scene) (config : Config) (w : Walk) : Scene where
  outer := S.env
  frame := []
  next := S.next
  before := S.before
  after := leavingEvents config w ++ S.after

/-- A scene holds of a state and of the walk that comes next. The functions
that the walk is about have distinct identities. -/
structure Holds (config : Config) (p : Program) (S : Scene) (s : State)
    (σ : Signatures) (ids : List NodeId) (w : Walk) : Prop where
  mirrors : Mirrors s S.env S.next σ
  nodup : ids.Nodup
  account : p.account config = S.before ++ (w.events ++ S.after)
  done : s.log = replay {} S.before
  known : ∀ ψ ∈ S.env, ∀ d ∈ ψ, d ∈ S.before.filterMap Event.bound?
  later : ∀ k, .read k ∈ S.after →
    (∃ ψ ∈ w.frame :: S.outer, ∃ d ∈ ψ, d.id = k) ∨ w.next ≤ k

-- ============================================================== cutting

namespace Holds

variable {config : Config} {p : Program} {S : Scene} {s s' : State}
  {σ : Signatures} {ids ids' : List NodeId} {w : Walk}
  {f : Frame → SymbolId → Walk}

/-- The run has done a walk, and goes on. -/
theorem past {c : Course} (h : S.Holds config p s σ ids (w.andThen f))
    (hreach : Reaches s S.outer S.frame S.next c s') (hwalk : c.toWalk = w)
    (hw : w.Confined S.outer S.frame S.next) (hids : ids'.Sublist ids) :
    (S.past w).Holds config p s' c.signatures ids' (f w.frame w.next) where
  mirrors := by
    subst hwalk
    exact hreach.mirrors
  nodup := h.nodup.sublist hids
  account := by
    rw [h.account, Walk.events_andThen, Scene.past]
    simp only [List.append_assoc]
  done := by
    subst hwalk
    rw [Scene.past, replay_append, ← h.done]
    exact hreach.done
  known := by
    intro ψ hψ d hd
    show d ∈ (S.before ++ w.events).filterMap Event.bound?
    rw [List.filterMap_append, List.mem_append]
    rcases List.mem_cons.mp hψ with rfl | hψ
    · obtain ⟨new, hnew, hsublist⟩ := hw.frame
      have hmem : d ∈ new ++ S.frame := hnew ▸ hd
      rcases List.mem_append.mp hmem with hd | hd
      · exact .inr (hsublist.mem (List.mem_reverse.mpr hd))
      · exact .inl (h.known S.frame List.mem_cons_self d hd)
    · exact .inl (h.known ψ (List.mem_cons_of_mem _ hψ) d hd)
  later := h.later

/-- The run is about to do the first of two walks. -/
theorem first (h : S.Holds config p s σ ids (w.andThen f))
    (hf : (f w.frame w.next).Confined S.outer w.frame w.next)
    (hids : ids'.Sublist ids) :
    (S.ahead (f w.frame w.next).events).Holds config p s σ ids' w where
  mirrors := h.mirrors
  nodup := h.nodup.sublist hids
  account := by
    rw [h.account, Walk.events_andThen, Scene.ahead]
    simp only [List.append_assoc]
  done := h.done
  known := h.known
  later := by
    intro k hk
    rcases List.mem_append.mp hk with hk | hk
    · rcases hf.reads k hk with hfound | ⟨hnew, -⟩
      · exact .inl hfound
      · exact .inr hnew
    · rcases h.later k hk with ⟨ψ, hψ, d, hd, rfl⟩ | hnew
      · rcases List.mem_cons.mp hψ with rfl | hψ
        · rcases hf.mem_frame hd with hd | ⟨hnew, -⟩
          · exact .inl ⟨w.frame, List.mem_cons_self, d, hd, rfl⟩
          · exact .inr hnew
        · exact .inl ⟨ψ, List.mem_cons_of_mem _ hψ, d, hd, rfl⟩
      · exact .inr (Nat.le_trans hf.advances hnew)

/-- The run has opened a scope. Its names are out of reach for what comes
after it. -/
theorem within (h : S.Holds config p s σ ids (w.closed config S.frame)) :
    (S.within config w).Holds config p s.entered σ ids w where
  mirrors := h.mirrors.enter
  nodup := h.nodup
  account := by
    rw [h.account, Walk.closed, Scene.within]
    simp only [List.append_assoc]
  done := h.done
  known := List.forall_mem_cons.mpr ⟨nofun, h.known⟩
  later := by
    intro k hk
    rcases List.mem_append.mp hk with hk | hk
    · obtain ⟨node, g, hg⟩ := reports_leavingEvents config w _ hk
      cases hg
    · rcases h.later k hk with ⟨ψ, hψ, d, hd, rfl⟩ | hnew
      · exact .inl ⟨ψ, List.mem_cons_of_mem _ hψ, d, hd, rfl⟩
      · exact .inr hnew

/-- The run has looked names up. -/
theorem consulted {es : List Event} (h : S.Holds config p s σ ids (w.after es))
    (hes : Consults S.env.find es) :
    (S.consulted es).Holds config p (replay s es) σ ids w where
  mirrors := h.mirrors.replay hes
  nodup := h.nodup
  account := by
    rw [h.account, Walk.events_after, Scene.consulted]
    simp only [List.append_assoc]
  done := by
    rw [log_replay, h.done, Scene.consulted, replay_append]
  known := by
    intro ψ hψ d hd
    show d ∈ (S.before ++ es).filterMap Event.bound?
    rw [List.filterMap_append]
    exact List.mem_append_left _ (h.known ψ hψ d hd)
  later := h.later

end Holds

-- =============================================================== points

variable (config : Config) (p : Program) (S : Scene) (ctx : Context) (s : State)

/-- A run is about to check a statement. The flag says whether it is a function
that has been declared ahead. -/
def AtStmt (ahead : Bool) (stmt : Stmt) : Prop :=
  ctx.config = config ∧ ∃ σ,
    S.Holds config p s σ stmt.functionIds
      (stmt.walk config ctx.expected ahead S.outer S.frame S.next)
    ∧ stmt.Awaits σ ahead

/-- A run has opened the scope of a list, and is about to declare the functions
of the list ahead. -/
def AtScope (ss : List Stmt) : Prop :=
  ctx.config = config ∧ ∃ σ,
    S.Holds config p s σ (Stmt.functionIdsAll ss)
      ((hoisting [] ss S.frame S.next).andThen
        (Stmt.walkAll config ss ctx.expected [] S.outer))
    ∧ ∀ id ∈ Stmt.functionIdsAll ss, σ[id]? = none

/-- A run is about to check statements, behind variables of some names. -/
def AtList (earlier : List String) (ss : List Stmt) : Prop :=
  ctx.config = config ∧ ∃ σ,
    S.Holds config p s σ (Stmt.functionIdsAll ss)
      (Stmt.walkAll config ss ctx.expected earlier S.outer S.frame S.next)
    ∧ Stmt.AwaitsAll σ earlier ss

/-- A run is about to check a branch. -/
def AtBranch (stmt : Stmt) : Prop :=
  ctx.config = config ∧ ∃ σ,
    S.Holds config p s σ stmt.functionIds
      (walkBranch config stmt (stmt.walk config ctx.expected false) S.outer S.frame
        S.next)
    ∧ ∀ id ∈ stmt.functionIds, σ[id]? = none

end Scene

-- ========================================================= confinement

theorem Stmt.confined_walk (config : Config) (stmt : Stmt) (expected : Option Ty)
    (ahead : Bool) (outer : Env) (φ : Frame) (n : SymbolId) :
    (stmt.walk config expected ahead outer φ n).Confined outer φ n :=
  Stmt.composed_walk (composes_confined config) stmt (d := 0) (r := .stmt)
    (fun _ _ => trivial) outer φ n

theorem Stmt.confined_walkAll (config : Config) (ss : List Stmt)
    (expected : Option Ty) (earlier : List String) (outer : Env) (φ : Frame)
    (n : SymbolId) :
    (Stmt.walkAll config ss expected earlier outer φ n).Confined outer φ n :=
  Stmt.composed_walkAll (composes_confined config) ss (d := 0) (r := .stmt)
    (fun _ _ => trivial) outer φ n

theorem confined_hoisting (earlier : List String) (ss : List Stmt) (outer : Env)
    (φ : Frame) (n : SymbolId) :
    (hoisting earlier ss φ n).Confined outer φ n :=
  composed_hoisting (composes_confined {}) (fun _ _ => trivial) outer φ n

theorem confined_walkBranch (config : Config) (stmt : Stmt) (expected : Option Ty)
    (outer : Env) (φ : Frame) (n : SymbolId) :
    (walkBranch config stmt (stmt.walk config expected false) outer φ n).Confined
      outer φ n :=
  composed_walkBranch (composes_confined config)
    (stmt.confined_walk config expected false) outer φ n

end TreeCheck
