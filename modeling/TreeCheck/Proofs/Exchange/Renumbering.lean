/-
Walks that number their symbols in another order.

How many symbols a walk binds does not depend on the names in force. So
if two ways to walk bind the same symbols in different orders, their
numbers differ by a renumbering that is known beforehand, relative to the
number that is next (`Renumbers`). Under it the two do the same: they
leave frames that bind each name to the same symbol, and their events
are the same but for the order. That includes the warnings when a scope
is left, which ask for the numbers of what was read, as a renumbering
does not confuse two symbols.

The relation is closed under all ways to put walks together, so every
statement is in it with itself (`Stmt.matching_walk`), and what replaces
a part by a matching one matches the whole.
-/
import TreeCheck.Proofs.Account.Renaming
import TreeCheck.Proofs.Scope.Order

namespace TreeCheck

open Analysis

-- =========================================================== renumbering

/-- Frames that bind each name to the same symbol, under another number. -/
def Frame.Renumbered (π : Nat → Nat) (φ φ' : Frame) : Prop :=
  ∀ x, φ'.find x = (φ.find x).map (Declared.rename π)

/-- Environments of such frames. -/
abbrev Env.Renumbered (π : Nat → Nat) : Env → Env → Prop :=
  List.Forall₂ (Frame.Renumbered π)

/-- Walks that do the same in some order, with symbols under other numbers. -/
structure Walk.Renumbered (π : Nat → Nat) (w w' : Walk) : Prop where
  frame : Frame.Renumbered π w.frame w'.frame
  events : (w.events.map (Event.rename π)).Perm w'.events

section

variable {π : Nat → Nat} {φ φ' : Frame} {Γ Γ' : Env} {w w' : Walk}

theorem Declared.rename_injective (hπ : Function.Injective π) :
    Function.Injective (Declared.rename π) := by
  rintro ⟨⟨b, k⟩, site⟩ ⟨⟨b', k'⟩, site'⟩ h
  simp only [Declared.rename, Declared.mk.injEq, Symbol.mk.injEq] at h
  obtain ⟨⟨rfl, hk⟩, rfl⟩ := h
  obtain rfl := hπ hk
  rfl

theorem Frame.renumbered_nil (π : Nat → Nat) : Frame.Renumbered π [] [] := fun _ => rfl

theorem Frame.Renumbered.cons (h : Frame.Renumbered π φ φ') (d : Declared) :
    Frame.Renumbered π (d :: φ) (d.rename π :: φ') := by
  intro x
  have hname : (d.rename π).name = d.name := rfl
  rw [Frame.find_cons, Frame.find_cons, hname, h x]
  split <;> rfl

theorem Env.Renumbered.find (h : Env.Renumbered π Γ Γ') :
    Env.find Γ' = Lookup.rename π (Env.find Γ) := by
  funext x
  show Env.find Γ' x = (Env.find Γ x).map (Declared.rename π)
  induction h with
  | nil => rfl
  | @cons φ φ' Γ Γ' hφ _ ih =>
    rw [Env.find_cons, Env.find_cons, hφ x, ih]
    cases φ.find x <;> rfl

/-- The numbers do not matter to what is reported about a name bound twice. -/
theorem Frame.Renumbered.duplicateEvents (h : Frame.Renumbered π φ φ') (node : NodeId)
    (b : Binding) :
    duplicateEvents node b (φ'.find b.name) = duplicateEvents node b (φ.find b.name) := by
  rw [h b.name]
  cases φ.find b.name <;> rfl

-- =============================================================== leaving

theorem Frame.nodup_current (φ : Frame) : φ.current.Nodup := by
  induction φ with
  | nil => exact List.nodup_nil
  | cons d φ ih =>
    rw [Frame.current, List.nodup_cons]
    refine ⟨?_, ih.filter _⟩
    intro hmem
    have hne := (List.mem_filter.mp hmem).2
    simp at hne

/-- The symbols that no later one hides are the same. -/
theorem Frame.Renumbered.perm_current (h : Frame.Renumbered π φ φ')
    (hπ : Function.Injective π) :
    (φ.current.map (Declared.rename π)).Perm φ'.current := by
  have hnodup := φ.nodup_current.map (Declared.rename_injective hπ)
  refine (List.perm_ext_iff_of_nodup hnodup φ'.nodup_current).mpr fun d' => ?_
  rw [List.mem_map, Frame.mem_current, h d'.name, Option.map_eq_some_iff]
  constructor
  · rintro ⟨d, hd, rfl⟩
    exact ⟨d, Frame.mem_current.mp hd, rfl⟩
  · rintro ⟨d, hd, rfl⟩
    have hname : d.name = (d.rename π).name := rfl
    exact ⟨d, Frame.mem_current.mpr (hname ▸ hd), rfl⟩

/-- A symbol is read by both, each under its own number. -/
theorem Walk.Renumbered.read_iff (h : w.Renumbered π w') (hπ : Function.Injective π)
    (k : Nat) : .read (π k) ∈ w'.events ↔ .read k ∈ w.events := by
  rw [← h.events.mem_iff, List.mem_map]
  constructor
  · rintro ⟨e, he, heq⟩
    cases e with
    | read j =>
      obtain rfl := hπ (Event.read.inj heq)
      exact he
    | typed | resolved | bound | found => cases heq
  · exact fun hk => ⟨_, hk, rfl⟩

/-- The same names are unused when a scope is left. -/
theorem Walk.Renumbered.perm_leavingEvents (h : w.Renumbered π w')
    (hπ : Function.Injective π) (config : Config) :
    (leavingEvents config w).Perm (leavingEvents config w') := by
  unfold leavingEvents
  split
  · have hused (k : Nat) : (replay {} w'.events).used.contains (π k)
        = (replay {} w.events).used.contains k := by
      rw [Bool.eq_iff_iff, Std.TreeSet.contains_iff_mem, Std.TreeSet.contains_iff_mem,
        mem_used_replay, mem_used_replay, h.read_iff hπ]
      simp
    have hunused : (fun d : Declared =>
          (unused? (replay {} w'.events).used d.toSymbol).map (Event.found d.site.node))
        ∘ Declared.rename π
        = fun d => (unused? (replay {} w.events).used d.toSymbol).map
          (Event.found d.site.node) := by
      funext d
      simp only [Function.comp_apply, unused?, Declared.rename, hused]
    have hcurrent := (h.frame.perm_current hπ).filterMap fun d =>
      (unused? (replay {} w'.events).used d.toSymbol).map (Event.found d.site.node)
    rw [List.filterMap_map, hunused] at hcurrent
    refine ((List.reverse_perm _).filterMap _).trans (hcurrent.trans ?_)
    exact ((List.reverse_perm _).filterMap _).symm
  · exact .refl _

end

-- =============================================================== binding

section

variable {π : Nat → Nat} {φ φ' : Frame}

theorem Frame.Renumbered.rename_declaring (h : Frame.Renumbered π φ φ') (node : NodeId)
    (site : Site) (b : Binding) (n : Nat) :
    (declaring node site b φ n).events.map (Event.rename π)
      = (declaring node site b φ' (π n)).events := by
  rw [TreeCheck.declaring, TreeCheck.declaring, List.map_append,
    (reports_duplicateEvents _ _ _).rename, h.duplicateEvents]
  rfl

/-- A name is bound by both. -/
theorem Frame.Renumbered.declaring (h : Frame.Renumbered π φ φ') (node : NodeId)
    (site : Site) (b : Binding) (n : Nat) :
    (declaring node site b φ n).Renumbered π (declaring node site b φ' (π n)) :=
  ⟨h.cons ⟨⟨b, n⟩, site⟩, .of_eq (h.rename_declaring node site b n)⟩

end

section

variable {d d' : Declared}

/-- The order of two bindings of different names cannot be seen. -/
theorem Frame.find_swap (h : d.name ≠ d'.name) (φ : Frame) (x : String) :
    Frame.find (d :: d' :: φ) x = Frame.find (d' :: d :: φ) x := by
  simp only [Frame.find_cons]
  by_cases hx : d.name = x
  · have hx' : ¬ d'.name = x := fun hx' => h (hx.trans hx'.symm)
    rw [if_pos hx, if_neg hx', if_pos hx]
  · rw [if_neg hx, if_neg hx]

/-- A binding reports nothing about a binding of another name. -/
theorem events_declaring_cons {b : Binding} (h : d.name ≠ b.name) (node : NodeId)
    (site : Site) (φ : Frame) (n : SymbolId) :
    (declaring node site b (d :: φ) n).events = (declaring node site b φ n).events := by
  rw [declaring, declaring, Frame.find_cons, if_neg h]

end

-- ================================================================= orders

/-- A renumbering of the numbers below a bound. -/
structure Shuffles (count : Nat) (τ : Nat → Nat) : Prop where
  bounded : ∀ i < count, τ i < count
  injective : ∀ i < count, ∀ j < count, τ i = τ j → i = j

/-- The first numbers are renumbered among themselves and moved, and so are the ones
that follow. -/
def inParts (count : Nat) (τ υ : Nat → Nat) (first second i : Nat) : Nat :=
  if i < count then first + τ i else second + υ (i - count)

section

variable {count more : Nat} {τ υ : Nat → Nat}

theorem Shuffles.id (count : Nat) : Shuffles count id :=
  ⟨fun _ hi => hi, fun _ _ _ _ h => h⟩

/-- The two parts stay in their order or change places. -/
theorem Shuffles.inParts (hτ : Shuffles count τ) (hυ : Shuffles more υ) {first second : Nat}
    (hplaces : first = 0 ∧ second = count ∨ first = more ∧ second = 0) :
    Shuffles (count + more) (inParts count τ υ first second) := by
  constructor
  · intro i hi
    unfold TreeCheck.inParts
    split
    · have := hτ.bounded i ‹_›
      omega
    · have := hυ.bounded (i - count) (by omega)
      omega
  · intro i hi j hj heq
    unfold TreeCheck.inParts at heq
    split at heq
    · have := hτ.bounded i ‹_›
      split at heq
      · exact hτ.injective i ‹_› j ‹_› (by omega)
      · have := hυ.bounded (j - count) (by omega)
        omega
    · have := hυ.bounded (i - count) (by omega)
      split at heq
      · have := hτ.bounded j ‹_›
        omega
      · have := hυ.injective (i - count) (by omega) (j - count) (by omega) (by omega)
        omega

/-- A renumbering below a bound is one of all numbers, the others as they are. -/
theorem Shuffles.injective_extended (h : Shuffles count τ) :
    Function.Injective fun i => if i < count then τ i else i := by
  intro i j heq
  dsimp only at heq
  split at heq
  · have := h.bounded i ‹_›
    split at heq
    · exact h.injective i ‹_› j ‹_› heq
    · omega
  · split at heq
    · have := h.bounded j ‹_›
      omega
    · exact heq

end

/-- Two ways to walk bind a number of symbols, in orders that are related by a
renumbering of the numbers below it: from frames that are the same up to
numbers they do the same up to numbers, if the numbers that they give are
related in this way. -/
structure Renumbers (count : Nat) (τ : Nat → Nat) (f f' : Env → Frame → SymbolId → Walk) :
    Prop where
  next : ∀ outer φ n, (f outer φ n).next = n + count
  next' : ∀ outer φ n, (f' outer φ n).next = n + count
  shuffles : Shuffles count τ
  renumbered : ∀ {π : Nat → Nat}, Function.Injective π →
    ∀ {outer outer' : Env} {φ φ' : Frame} {n n' : Nat}, Env.Renumbered π outer outer' →
    Frame.Renumbered π φ φ' → (∀ i < count, π (n + i) = n' + τ i) →
    (f outer φ n).Renumbered π (f' outer' φ' n')

/-- Two ways to walk that are the same up to the order in which they number. -/
def Matching (f f' : Env → Frame → SymbolId → Walk) : Prop := ∃ count τ, Renumbers count τ f f'

namespace Matching

variable {config : Config} {f f' g g' : Env → Frame → SymbolId → Walk} {es : List Event}

theorem same : Matching (fun _ φ n => ⟨φ, n, []⟩) fun _ φ n => ⟨φ, n, []⟩ := by
  refine ⟨0, id, fun _ _ _ => rfl, fun _ _ _ => rfl, .id 0, ?_⟩
  intro π hπ outer outer' φ φ' n n' hΓ hφ hnumbers
  exact ⟨hφ, .refl _⟩

theorem andThen (hf : Matching f f') (hg : Matching g g') :
    Matching (fun outer φ n => (f outer φ n).andThen (g outer))
      fun outer φ n => (f' outer φ n).andThen (g' outer) := by
  obtain ⟨count, τ, hf⟩ := hf
  obtain ⟨more, υ, hg⟩ := hg
  refine ⟨count + more, inParts count τ υ 0 count, ?_, ?_,
    hf.shuffles.inParts hg.shuffles (.inl ⟨rfl, rfl⟩), ?_⟩
  · intro outer φ n
    rw [Walk.next_andThen, hg.next, hf.next, Nat.add_assoc]
  · intro outer φ n
    rw [Walk.next_andThen, hg.next', hf.next', Nat.add_assoc]
  · intro π hπ outer outer' φ φ' n n' hΓ hφ hnumbers
    have hfirst : (f outer φ n).Renumbered π (f' outer' φ' n') := by
      refine hf.renumbered hπ hΓ hφ fun i hi => ?_
      rw [hnumbers i (by omega), inParts, if_pos hi, Nat.zero_add]
    have hsecond : (g outer (f outer φ n).frame (f outer φ n).next).Renumbered π
        (g' outer' (f' outer' φ' n').frame (f' outer' φ' n').next) := by
      refine hg.renumbered hπ hΓ hfirst.frame fun i hi => ?_
      have hnumber := hnumbers (count + i) (by omega)
      rw [inParts, if_neg (by omega), Nat.add_sub_cancel_left, ← Nat.add_assoc,
        ← Nat.add_assoc] at hnumber
      rw [hf.next, hf.next', hnumber]
    refine ⟨hsecond.frame, ?_⟩
    rw [Walk.events_andThen, List.map_append, Walk.events_andThen]
    exact hfirst.events.append hsecond.events

theorem closed (h : Matching f f') :
    Matching (fun outer φ n => (f (φ :: outer) [] n).closed config φ)
      fun outer φ n => (f' (φ :: outer) [] n).closed config φ := by
  obtain ⟨count, τ, h⟩ := h
  refine ⟨count, τ, fun outer φ n => h.next _ _ n, fun outer φ n => h.next' _ _ n, h.shuffles,
    ?_⟩
  intro π hπ outer outer' φ φ' n n' hΓ hφ hnumbers
  have hinner := h.renumbered hπ (List.Forall₂.cons hφ hΓ) (Frame.renumbered_nil π) hnumbers
  refine ⟨hφ, ?_⟩
  simp only [Walk.closed]
  rw [List.map_append, (reports_leavingEvents _ _).rename]
  exact hinner.events.append (hinner.perm_leavingEvents hπ config)

/-- Events before two walks, which depend on the names in force only. -/
theorem after (h : Matching f f') (es : Env → List Event)
    (hes : ∀ {π : Nat → Nat} {Γ Γ' : Env}, Env.Renumbered π Γ Γ' →
      (es Γ).map (Event.rename π) = es Γ') :
    Matching (fun outer φ n => (f outer φ n).after (es (φ :: outer)))
      fun outer φ n => (f' outer φ n).after (es (φ :: outer)) := by
  obtain ⟨count, τ, h⟩ := h
  refine ⟨count, τ, h.next, h.next', h.shuffles, ?_⟩
  intro π hπ outer outer' φ φ' n n' hΓ hφ hnumbers
  have hwalk := h.renumbered hπ hΓ hφ hnumbers
  refine ⟨hwalk.frame, ?_⟩
  rw [Walk.events_after, List.map_append, hes (List.Forall₂.cons hφ hΓ)]
  exact hwalk.events.append_left _

theorem consults (h : Matching f f') (s : Stmt) (expected : Option Ty) :
    Matching
      (fun outer φ n => (f outer φ n).after (s.consulting expected (Env.find (φ :: outer))))
      fun outer φ n =>
        (f' outer φ n).after (s.consulting expected (Env.find (φ :: outer))) := by
  refine h.after (fun Γ => s.consulting expected (Env.find Γ)) fun hΓ => ?_
  rw [s.rename_consulting, ← hΓ.find]

theorem declares (node : NodeId) (site : Site) (b : Binding) :
    Matching (fun _ φ n => declaring node site b φ n) fun _ φ n => declaring node site b φ n := by
  refine ⟨1, id, fun _ _ _ => rfl, fun _ _ _ => rfl, .id 1, ?_⟩
  intro π hπ outer outer' φ φ' n n' hΓ hφ hnumbers
  obtain rfl : π n = n' := hnumbers 0 Nat.one_pos
  exact hφ.declaring node site b n

theorem binds (t : Tag) (name : String) (ann : Option TypeName) (init : Option Expr)
    (m : Bool) :
    Matching
      (fun outer φ n => declaringVariable (Env.find (φ :: outer)) t name ann init m φ n)
      fun outer φ n => declaringVariable (Env.find (φ :: outer)) t name ann init m φ n := by
  refine ⟨1, id, fun _ _ _ => rfl, fun _ _ _ => rfl, .id 1, ?_⟩
  intro π hπ outer outer' φ φ' n n' hΓ hφ hnumbers
  obtain rfl : π n = n' := hnumbers 0 Nat.one_pos
  have henv : Env.Renumbered π (φ :: outer) (φ' :: outer') := List.Forall₂.cons hφ hΓ
  unfold declaringVariable
  rw [henv.find, Expr.map_typeIn_rename]
  have hbound := hφ.declaring t.id (.stmt t.id)
    ⟨name, .variable, variableTypeOf (ann.map (·.valueType))
      (init.map (·.typeIn (Env.find (φ :: outer)))), t.position, m⟩ n
  have hconsulted :=
    (Stmt.declaration t name ann init m).rename_consulting π (Env.find (φ :: outer)) none
  refine ⟨hbound.frame, ?_⟩
  rw [Walk.events_after, Walk.events_after, List.map_append]
  exact (List.Perm.of_eq hconsulted).append hbound.events

/-- Two ways to walk that leave the scope as it is can change places. -/
theorem exchange (hf : Matching f f') (hg : Matching g g')
    (hkeeps : ∀ h ∈ [f, f', g, g'], ∀ outer φ n, (h outer φ n).frame = φ) :
    Matching (fun outer φ n => (f outer φ n).andThen (g outer))
      fun outer φ n => (g' outer φ n).andThen (f' outer) := by
  obtain ⟨count, τ, hf⟩ := hf
  obtain ⟨more, υ, hg⟩ := hg
  simp only [List.forall_mem_cons] at hkeeps
  obtain ⟨hkeepf, hkeepf', hkeepg, hkeepg', -⟩ := hkeeps
  refine ⟨count + more, inParts count τ υ more 0, ?_, ?_,
    hf.shuffles.inParts hg.shuffles (.inr ⟨rfl, rfl⟩), ?_⟩
  · intro outer φ n
    rw [Walk.next_andThen, hg.next, hf.next, Nat.add_assoc]
  · intro outer φ n
    rw [Walk.next_andThen, hf.next', hg.next', Nat.add_right_comm, Nat.add_assoc]
  · intro π hπ outer outer' φ φ' n n' hΓ hφ hnumbers
    have hfirst : (f outer φ n).Renumbered π (f' outer' φ' (g' outer' φ' n').next) := by
      refine hf.renumbered hπ hΓ hφ fun i hi => ?_
      rw [hnumbers i (by omega), inParts, if_pos hi, hg.next', Nat.add_assoc]
    have hsecond : (g outer φ (f outer φ n).next).Renumbered π (g' outer' φ' n') := by
      refine hg.renumbered hπ hΓ hφ fun i hi => ?_
      have hnumber := hnumbers (count + i) (by omega)
      rw [inParts, if_neg (by omega), Nat.add_sub_cancel_left, ← Nat.add_assoc,
        Nat.zero_add] at hnumber
      rw [hf.next, hnumber]
    refine ⟨?_, ?_⟩
    · rw [Walk.frame_andThen, Walk.frame_andThen, hkeepf, hkeepg, hkeepg', hkeepf']
      exact hφ
    · rw [Walk.events_andThen, Walk.events_andThen, List.map_append, hkeepf, hkeepg']
      exact (hfirst.events.append hsecond.events).trans List.perm_append_comm

/-- Two bindings of different names can change places, with what is reported before
them. -/
theorem exchange_declaring (b b' : Binding) (hne : b.name ≠ b'.name) {es es' : List Event}
    (hes : Reports es) (hes' : Reports es') (node node' : NodeId) (site site' : Site) :
    Matching
      (fun _ φ n => ((declaring node site b φ n).after es).andThen fun φ n =>
        (declaring node' site' b' φ n).after es')
      fun _ φ n => ((declaring node' site' b' φ n).after es').andThen fun φ n =>
        (declaring node site b φ n).after es := by
  have hshuffles : Shuffles 2 fun i => 1 - i :=
    ⟨fun i hi => by omega, fun i hi j hj h => by omega⟩
  refine ⟨2, fun i => 1 - i, fun _ _ _ => rfl, fun _ _ _ => rfl, hshuffles, ?_⟩
  intro π hπ outer outer' φ φ' n n' hΓ hφ hnumbers
  have hfirst : π n = n' + 1 := hnumbers 0 (by omega)
  have hsecond : π (n + 1) = n' := hnumbers 1 (by omega)
  refine ⟨?_, ?_⟩
  · intro x
    have hframe := (hφ.cons ⟨⟨b, n⟩, site⟩).cons ⟨⟨b', n + 1⟩, site'⟩ x
    simp only [Declared.rename, hfirst, hsecond] at hframe
    exact (Frame.find_swap hne φ' x).trans hframe
  · simp only [Walk.events_andThen, Walk.events_after, Walk.frame_after, Walk.next_after,
      List.map_append, hes.rename, hes'.rename]
    have hevents := hφ.rename_declaring node site b n
    have hevents' := hφ.rename_declaring node' site' b' (n + 1)
    rw [hfirst] at hevents
    rw [hsecond] at hevents'
    have hpassed := events_declaring_cons (d := ⟨⟨b, n⟩, site⟩) hne node' site' φ (n + 1)
    have hpassed' := events_declaring_cons (d := ⟨⟨b', n'⟩, site'⟩) hne.symm node site φ' (n' + 1)
    show (es ++ (declaring node site b φ n).events.map _
      ++ (es' ++ (declaring node' site' b' (⟨⟨b, n⟩, site⟩ :: φ) (n + 1)).events.map _)).Perm
      (es' ++ (declaring node' site' b' φ' n').events
      ++ (es ++ (declaring node site b (⟨⟨b', n'⟩, site'⟩ :: φ') (n' + 1)).events))
    rw [hpassed, hpassed', hevents, hevents']
    exact List.perm_append_comm

end Matching

-- ================================================================= sources

/-- Every way to put walks together keeps to be matching. -/
theorem composes_matching (config : Config) :
    Composes config (fun _ => True) fun f => Matching f f where
  same := .same
  andThen := .andThen
  closed := .closed
  reports := fun hes h => h.after (fun _ => _) fun _ => hes.rename _
  consults := fun {_ s} expected _ h => h.consults s expected
  declares := fun {s site} b _ _ => .declares s.id site b
  binds := fun _ => .binds _ _ _ _ _

/-- A statement is walked the same up to numbers, whatever the numbers. -/
theorem Stmt.matching_walk (config : Config) (s : Stmt) (expected : Option Ty) (ahead : Bool) :
    Matching (fun outer φ n => s.walk config expected ahead outer φ n)
      fun outer φ n => s.walk config expected ahead outer φ n :=
  Stmt.composed_walk (d := 0) (r := .body) (composes_matching config) s fun _ _ => trivial

/-- Whole walks that match: one renumbering turns one into the other. -/
theorem Matching.exists_renumbering {f f' : Env → Frame → SymbolId → Walk}
    (h : Matching f f') : ∃ π : Nat → Nat, Function.Injective π
      ∧ (f [] [] 0).Renumbered π (f' [] [] 0) := by
  obtain ⟨count, τ, h⟩ := h
  have hinjective := h.shuffles.injective_extended
  refine ⟨_, hinjective, ?_⟩
  refine h.renumbered hinjective .nil (Frame.renumbered_nil _) fun i hi => ?_
  rw [Nat.zero_add, Nat.zero_add, if_pos hi]

end TreeCheck
