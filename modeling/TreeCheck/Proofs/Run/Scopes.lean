/-
How the state of a run mirrors an account of it.

The table keeps open scopes with numbers and handles; the account keeps
frames. `Mirrors` says that scope by scope both find the same symbols,
and that the numbers given so far are as they should be: they decrease
inside a frame, the next one is above them all, and only symbols that
have a number were read. The last point is why a scope can tell what was
read of it from its own events: what was read before it was opened has
a smaller number than what it binds.

`Reaches` is the result of a part of a run, and is closed under
sequence. The steps that touch scopes each get one lemma for it.
-/
import Mathlib.Data.List.Basic
import TreeCheck.Proofs.Account.Course
import TreeCheck.Proofs.Account.Reads
import TreeCheck.Proofs.Run.Expressions
import TreeCheck.Proofs.Scope.Order

namespace TreeCheck

/-- What a frame finds, without the place of the declaration. -/
def Frame.symbol (φ : Frame) (x : String) : Option Symbol :=
  (φ.find x).map (·.toSymbol)

namespace Analysis

variable {s s' s₁ s₂ : State} {φ : Frame} {Γ outer : Env} {n : SymbolId}
  {σ : Signatures} {es : List Event} {c : Course}

-- ============================================================= mirrors

/-- A state mirrors an environment, a next number and signatures. -/
structure Mirrors (s : State) (Γ : Env) (n : SymbolId)
    (σ : Signatures) : Prop where
  scopes : s.table.scopes.map Scope.find? = Γ.map Frame.symbol
  next : s.table.nextId = n
  signatures : s.signatures = σ
  ordered : ∀ φ ∈ Γ, φ.Pairwise (·.id > ·.id)
  below : ∀ φ ∈ Γ, ∀ d ∈ φ, d.id < n
  used : ∀ k ∈ s.used, k < n

namespace Mirrors

/-- An analysis starts with no scope open. -/
theorem start : Mirrors {} [] 0 {} where
  scopes := rfl
  next := rfl
  signatures := rfl
  ordered := nofun
  below := nofun
  used := fun _ hk => absurd hk Std.TreeSet.not_mem_emptyc

theorem resolves (h : Mirrors s Γ n σ) : Resolves s Γ.find := by
  intro x
  have htable : s.table.resolve x
      = (s.table.scopes.map Scope.find?).findSome? (· x) := by
    rw [List.findSome?_map]
    rfl
  rw [htable, h.scopes, List.findSome?_map, Env.find, List.map_findSome?]
  rfl

theorem findsBelow (h : Mirrors s Γ n σ) : FindsBelow n Γ.find := by
  intro x d hx
  obtain ⟨φ, hφ, hfind⟩ := List.exists_of_findSome?_eq_some hx
  exact h.below φ hφ d (Frame.mem_of_find hfind)

/-- Events leave a state mirroring what it mirrors if they only look up
what is there. -/
theorem replay (h : Mirrors s Γ n σ) (hes : Consults Γ.find es) :
    Mirrors (replay s es) Γ n σ where
  scopes := by rw [replay_table]; exact h.scopes
  next := by rw [replay_table]; exact h.next
  signatures := by rw [replay_signatures]; exact h.signatures
  ordered := h.ordered
  below := h.below
  used := by
    intro k hk
    rcases mem_used_replay.mp hk with hk | hk
    · exact h.used k hk
    · exact hes.readsBelow h.findsBelow k hk

/-- A scope is opened: nothing is bound in it yet. -/
theorem enter (h : Mirrors s Γ n σ) :
    Mirrors { s with table := s.table.enter.2 } ([] :: Γ) n σ where
  scopes := by
    show Scope.find? _ :: s.table.scopes.map Scope.find? = _
    rw [h.scopes, List.map_cons]
    congr 1
  next := h.next
  signatures := h.signatures
  ordered := by
    intro φ hφ
    rcases List.mem_cons.mp hφ with rfl | hφ
    · exact .nil
    · exact h.ordered φ hφ
  below := by
    intro φ hφ
    rcases List.mem_cons.mp hφ with rfl | hφ
    · exact nofun
    · exact h.below φ hφ
  used := h.used

theorem scopes_cons (h : Mirrors s (φ :: outer) n σ) :
    ∃ top rest, s.table.scopes = top :: rest ∧ top.find? = φ.symbol
      ∧ rest.map Scope.find? = outer.map Frame.symbol := by
  have hscopes := h.scopes
  rw [List.map_cons, List.map_eq_cons_iff] at hscopes
  obtain ⟨top, rest, hs, htop, hrest⟩ := hscopes
  exact ⟨top, rest, hs, htop, hrest⟩

end Mirrors

-- ============================================================= reaching

/-- From a state that mirrors a frame inside others, a part of a run goes
to a state that mirrors what a course comes to, and does what the
course says. What it binds gets new numbers. -/
structure Reaches (s : State) (outer : Env) (φ : Frame) (n : SymbolId)
    (c : Course) (s' : State) : Prop where
  mirrors : Mirrors s' (c.frame :: outer) c.next c.signatures
  done : s'.log = replay s.log c.events
  advances : n ≤ c.next
  new : ∀ d ∈ c.frame, d ∈ φ ∨ n ≤ d.id

namespace Reaches

theorem events (h : Mirrors s (φ :: outer) n σ)
    (hes : Consults (Env.find (φ :: outer)) es) :
    Reaches s outer φ n ⟨⟨φ, n, es⟩, σ⟩ (replay s es) where
  mirrors := h.replay hes
  done := log_replay s es
  advances := Nat.le_refl n
  new := fun _ hd => .inl hd

theorem andThen {f : Frame → SymbolId → Signatures → Course}
    (h₁ : Reaches s outer φ n c s₁)
    (h₂ : Reaches s₁ outer c.frame c.next (f c.frame c.next c.signatures) s₂) :
    Reaches s outer φ n (c.andThen f) s₂ where
  mirrors := h₂.mirrors
  done := by
    show s₂.log = replay s.log (c.events ++ _)
    rw [replay_append, ← h₁.done]
    exact h₂.done
  advances := Nat.le_trans h₁.advances h₂.advances
  new := by
    intro d hd
    rcases h₂.new d hd with hd | hd
    · exact h₁.new d hd
    · exact .inr (Nat.le_trans h₁.advances hd)

theorem after (h : Reaches (replay s es) outer φ n c s') :
    Reaches s outer φ n (c.after es) s' where
  mirrors := h.mirrors
  done := by
    show s'.log = replay s.log (es ++ c.events)
    rw [replay_append, ← log_replay]
    exact h.done
  advances := h.advances
  new := h.new

end Reaches

-- ============================================================ binding

/-- Binding a name, duplicate or not, puts a new symbol in front of the
innermost frame. -/
theorem reaches_declare {b : Binding} {u : Unit} (node : NodeId) (site : Site)
    (h : Mirrors s (φ :: outer) n σ) (hrun : Completes (declare b) s u s') :
    Reaches s outer φ n ⟨declaring node site b φ n, σ⟩ s' := by
  obtain ⟨top, rest, hs, htop, hrest⟩ := h.scopes_cons
  rw [Completes, run_declare b hs, h.next, htop] at hrun
  injection hrun with hrun
  injection hrun with _ hs'
  subst hs'
  refine ⟨⟨?scopes, rfl, h.signatures, ?ordered, ?below, ?used⟩, ?done,
    Nat.le_succ n, ?new⟩
  case scopes =>
      show (top.bind ⟨b, n⟩).find? :: rest.map Scope.find?
        = Frame.symbol (⟨⟨b, n⟩, site⟩ :: φ) :: outer.map Frame.symbol
      rw [hrest]
      congr 1
      funext x
      rw [Scope.find?_bind, htop, Frame.symbol, Frame.symbol, Frame.find_cons]
      show (if b.name = x then _ else _)
          = Option.map _ (if b.name = x then _ else _)
      split <;> rfl
  case ordered =>
      intro ψ hψ
      rcases List.mem_cons.mp hψ with rfl | hψ
      · refine .cons ?_ (h.ordered φ List.mem_cons_self)
        intro d hd
        exact h.below φ List.mem_cons_self d hd
      · exact h.ordered ψ (List.mem_cons_of_mem _ hψ)
  case below =>
      intro ψ hψ d hd
      have hold {ψ : Frame} (hψ : ψ ∈ φ :: outer) (hd : d ∈ ψ) : d.id < n + 1 :=
        Nat.lt_succ_of_lt (h.below ψ hψ d hd)
      rcases List.mem_cons.mp hψ with rfl | hψ
      · rcases List.mem_cons.mp hd with rfl | hd
        · exact Nat.lt_succ_self n
        · exact hold List.mem_cons_self hd
      · exact hold (List.mem_cons_of_mem _ hψ) hd
  case used =>
      intro k hk
      exact Nat.lt_succ_of_lt (h.used k hk)
  case done =>
      show _ = replay s.log (duplicateEvents node b (φ.find b.name) ++ [_])
      rw [Frame.symbol]
      cases φ.find b.name <;> rfl
  case new =>
      intro d hd
      rcases List.mem_cons.mp hd with rfl | hd
      · exact .inr (Nat.le_refl n)
      · exact .inl hd

theorem reaches_declareParams {ps : List Param} {tys : List Ty} {u : Unit}
    (function : NodeId) (i : Nat) (h : Mirrors s (φ :: outer) n σ)
    (hrun : Completes (declareParams ps tys) s u s') :
    Reaches s outer φ n ⟨declaringParams function i ps tys φ n, σ⟩ s' := by
  induction ps generalizing s φ n i tys with
  | nil =>
      obtain ⟨rfl, rfl⟩ := completes_pure.mp hrun
      exact .events h consults_nil
  | cons p ps ih =>
      cases tys with
      | nil =>
          obtain ⟨rfl, rfl⟩ := completes_pure.mp hrun
          exact .events h consults_nil
      | cons ty tys =>
          obtain ⟨_, s₁, hfirst, hrest⟩ := completes_bind.mp hrun
          have hbound := reaches_declare function (.param function i) h hfirst
          exact hbound.andThen
            (f := fun φ n σ => ⟨declaringParams function (i + 1) ps tys φ n, σ⟩)
            (ih (i + 1) hbound.mirrors hrest)

-- ============================================================= scopes

/-- What is reported when a scope is left is what its course says: the
scope hands out its current symbols in order, and of these exactly those
are used that are read in its own events. -/
theorem unused_of_reaches (config : Config) {top : Scope}
    (hs : ∀ k ∈ s.used, k < n) (hbody : Reaches s Γ [] n c s')
    (htop : top.find? = c.frame.symbol) :
    (if config.warnUnused then top.inOrder.filterMap (unused? s'.used) else [])
      = (leavingEvents config c.toWalk).filterMap Event.finding? := by
  unfold leavingEvents
  split
  case isFalse => rfl
  case isTrue =>
      have hframe : c.frame ∈ c.frame :: Γ := List.mem_cons_self
      rw [Scope.inOrder_eq (fun x => congrFun htop x)
        (hbody.mirrors.ordered _ hframe), List.filterMap_map,
        List.filterMap_filterMap]
      refine List.filterMap_congr fun d hd => ?_
      have hmem := c.frame.current_sublist.mem (List.mem_reverse.mp hd)
      have hused : d.id ∈ s'.used ↔ d.id ∈ (replay {} c.events).used := by
        have hnew : n ≤ d.id := by
          rcases hbody.new d hmem with hnil | hnew
          · cases hnil
          · exact hnew
        have hold : d.id ∉ s.used :=
          fun hk => absurd (hs d.id hk) (Nat.not_lt.mpr hnew)
        have hempty : d.id ∉ ({} : State).used := Std.TreeSet.not_mem_emptyc
        show d.id ∈ s'.log.used ↔ _
        rw [hbody.done, mem_used_replay, mem_used_replay]
        exact or_congr_left (iff_of_false hold hempty)
      have hsame : unused? s'.used d.toSymbol
          = unused? (replay {} c.events).used d.toSymbol := by
        simp only [unused?, Std.TreeSet.contains_iff_mem, hused]
      show unused? s'.used d.toSymbol = _
      rw [hsame]
      cases unused? (replay {} c.events).used d.toSymbol <;> rfl

/-- Leaving a scope, if it completes, takes the innermost one away and
reports what was unused in it. -/
theorem completes_leave {config : Config} {handle : ScopeHandle} {u : Unit}
    (hrun : Completes (leave config handle) s u s') :
    ∃ top rest, s.table.scopes = top :: rest
      ∧ s' = { s with
          table := { s.table with scopes := rest },
          findings := s.findings ++
            if config.warnUnused && !rest.isEmpty
            then top.inOrder.filterMap (unused? s.used) else [] } := by
  obtain ⟨depth, serial⟩ := handle
  cases hs : s.table.scopes with
  | nil =>
      simp only [Completes, leave, StateT.run_bind, StateT.run_get, pure_bind,
        SymbolTable.exit, SymbolTable.tryExit, hs] at hrun
      cases hrun
  | cons top rest =>
      refine ⟨top, rest, rfl, ?_⟩
      by_cases hhandle : top.serial = serial ∧ s.table.depth = depth
      · obtain ⟨hserial, rfl⟩ := hhandle
        have hdepth : s.table.depth = rest.length + 1 := by
          rw [SymbolTable.depth, hs, List.length_cons]
        rw [Completes, hdepth, run_leave config serial hs hserial] at hrun
        injection hrun with hrun
        injection hrun with _ hs'
        exact hs'.symm
      · simp only [Completes, leave, StateT.run_bind, StateT.run_get, pure_bind,
          SymbolTable.exit, SymbolTable.tryExit, hs, hhandle, if_false] at hrun
        cases hrun

theorem completes_inScope {config : Config} {body : Check Unit} {u : Unit}
    (hrun : Completes (inScope config body) s u s') :
    ∃ t, Completes body { s with table := s.table.enter.2 } () t
      ∧ Completes (leave config s.table.enter.1) t u s' := by
  rw [Completes, run_inScope] at hrun
  cases hbody : body.run { s with table := s.table.enter.2 } with
  | error e =>
      rw [hbody] at hrun
      cases hrun
  | ok r =>
      rw [hbody] at hrun
      exact ⟨r.2, hbody, hrun⟩

/-- A part of a run in a scope of its own does what the closed course
says, and leaves the frames around it as they were. -/
theorem reaches_inScope {config : Config} {body : Check Unit} {u : Unit}
    (h : Mirrors s (φ :: outer) n σ)
    (hrun : Completes (inScope config body) s u s')
    (hbody : ∀ {t t'}, Mirrors t ([] :: φ :: outer) n σ → Completes body t () t' →
      Reaches t (φ :: outer) [] n c t') :
    Reaches s outer φ n (c.closed config φ) s' := by
  obtain ⟨t, hinner, hleave⟩ := completes_inScope hrun
  have hreach := hbody h.enter hinner
  have hmirrors := hreach.mirrors
  obtain ⟨top, rest, ht, htop, hrest⟩ := hmirrors.scopes_cons
  obtain ⟨top', rest', ht', rfl⟩ := completes_leave hleave
  rw [ht] at ht'
  injection ht' with h₁ h₂
  subst h₁ h₂
  have hnonempty : rest.isEmpty = false := by
    cases rest with
    | nil => cases hrest
    | cons _ _ => rfl
  refine ⟨⟨hrest, hmirrors.next, hmirrors.signatures, ?ordered, ?below,
    hmirrors.used⟩,
    ?done, hreach.advances, fun d hd => .inl hd⟩
  case ordered => exact fun ψ hψ => hmirrors.ordered ψ (List.mem_cons_of_mem _ hψ)
  case below => exact fun ψ hψ => hmirrors.below ψ (List.mem_cons_of_mem _ hψ)
  case done =>
      have hunused := unused_of_reaches config h.enter.used hreach htop
      have hdone : t.log = replay s.log c.events := hreach.done
      rw [hnonempty, Bool.not_false, Bool.and_true, hunused]
      show State.log _ = replay s.log (c.events ++ leavingEvents config c.toWalk)
      rw [replay_append, ← hdone, (reports_leavingEvents config c.toWalk).replay]
      rfl

end Analysis

end TreeCheck
