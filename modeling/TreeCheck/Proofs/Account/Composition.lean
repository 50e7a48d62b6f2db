/-
One induction over walks.

A walk is put together in few ways: names are bound, a statement looks
its expressions up, one part goes on from where another ended, and a
scope is left. A property that all of these keep holds of the walk of
every statement (`Stmt.composed_walk`), so the recursion over statements
need not be done again for each property. `Confined` is the first of
them: what a walk reads, it finds around itself or has bound itself.
-/
import TreeCheck.Proofs.Account.Binding
import TreeCheck.Proofs.Visits.Visit

namespace TreeCheck

open Analysis

/-- What a statement does about the expressions that stand directly in it. -/
def Stmt.consulting (expected : Option Ty) (ρ : Lookup) : Stmt → List Event
  | .declaration t name ann init _ => declarationEvents ρ t.id name ann init
  | .assignment t target value => assignmentEvents ρ t.id target value
  | .ifElse t c _ _ => conditionEvents ρ t.id .ifElse c
  | .while t c _ => conditionEvents ρ t.id .while c
  | .ret t value => returningEvents ρ t expected value
  | .expr _ e => e.events ρ
  | .function _ _ _ _ _ _ | .block _ _ _ => []

theorem Stmt.consults_consulting (s : Stmt) (expected : Option Ty) (ρ : Lookup) :
    Consults ρ (s.consulting expected ρ) := by
  cases s with
  | declaration t name ann init m => exact consults_declarationEvents t.id name ann init
  | assignment t target value => exact consults_assignmentEvents t.id target value
  | ifElse t c a b => exact consults_conditionEvents t.id .ifElse c
  | «while» t c b => exact consults_conditionEvents t.id .while c
  | ret t value => exact consults_returningEvents t expected value
  | expr t e => exact e.consults_events ρ
  | function | block => exact consults_nil

-- =========================================================== composition

/-- A property of walks, as functions of the frames around them, the frame they
start with and the next number, that all ways to put walks together keep.
Of the statements that bind or look up, another property is assumed. -/
structure Composes (config : Config) (G : Stmt → Prop)
    (Q : (Env → Frame → SymbolId → Walk) → Prop) : Prop where
  same : Q fun _ φ n => ⟨φ, n, []⟩
  andThen : ∀ {f g}, Q f → Q g → Q fun outer φ n => (f outer φ n).andThen (g outer)
  closed : ∀ {f}, Q f → Q fun outer φ n => (f (φ :: outer) [] n).closed config φ
  reports : ∀ {f es}, Reports es → Q f → Q fun outer φ n => (f outer φ n).after es
  consults : ∀ {f s} (expected : Option Ty), G s → Q f → Q fun outer φ n =>
    (f outer φ n).after (s.consulting expected (Env.find (φ :: outer)))
  declares : ∀ {s site} (b : Binding), G s → site.node = s.id →
    Q fun _ φ n => declaring s.id site b φ n
  binds : ∀ {t name ann init m}, G (.declaration t name ann init m) →
    Q fun outer φ n =>
      declaringVariable (Env.find (φ :: outer)) t name ann init m φ n

section

variable {config : Config} {G : Stmt → Prop}
  {Q : (Env → Frame → SymbolId → Walk) → Prop}

theorem Composes.consulting (h : Composes config G Q) {s : Stmt} (expected : Option Ty)
    (hs : G s) :
    Q fun outer φ n => ⟨φ, n, s.consulting expected (Env.find (φ :: outer))⟩ := by
  have hafter := h.consults expected hs h.same
  simp only [Walk.after, List.append_nil] at hafter
  exact hafter

theorem composed_declaringFunction (h : Composes config G Q) {t : Tag} {name : String}
    {params : List Param} {result : Option TypeName} {q : Position}
    {body : List Stmt} (hs : G (.function t name params result q body)) :
    Q fun _ φ n => declaringFunction t name params result body φ n :=
  h.reports (reports_signatureEvents t.id params result) (h.declares _ hs rfl)

theorem composed_hoisting (h : Composes config G Q) {earlier : List String}
    {ss : List Stmt} (hss : ∀ s ∈ ss, G s) :
    Q fun _ φ n => hoisting earlier ss φ n := by
  induction ss generalizing earlier with
  | nil => exact h.same
  | cons s ss ih =>
      rw [List.forall_mem_cons] at hss
      cases s with
      | function t name params result p body =>
          unfold hoisting
          by_cases hmem : name ∈ earlier
          · simp only [hmem, if_true]
            exact ih hss.2
          · simp only [hmem, if_false]
            exact h.andThen (composed_declaringFunction h hss.1) (ih hss.2)
      | declaration | assignment | block | ifElse | «while» | ret | expr =>
          exact ih hss.2

theorem composed_declaringParams (h : Composes config G Q) {s : Stmt} {i : Nat}
    {ps : List Param} {tys : List Ty} (hs : G s) :
    Q fun _ φ n => declaringParams s.id i ps tys φ n := by
  induction ps generalizing i tys with
  | nil => exact h.same
  | cons p ps ih =>
      cases tys with
      | nil => exact h.same
      | cons ty tys => exact h.andThen (h.declares _ hs rfl) ih

theorem composed_walkBranch (h : Composes config G Q) {branch : Stmt}
    {walk : Env → Frame → SymbolId → Walk} (hwalk : Q walk) :
    Q fun outer φ n => walkBranch config branch walk outer φ n := by
  unfold walkBranch
  cases branch.isBlock with
  | true => exact hwalk
  | false => exact h.closed hwalk

/-- The statements of an outline that begins with a statement. -/
theorem forall_stmts_cons {d : Nat} {r : Role} {s : Stmt} {o : Outline} :
    (∀ s' ∈ List.filterMap (·.node.stmt?) (⟨d, r, .stmt s⟩ :: o), G s')
      ↔ G s ∧ ∀ s' ∈ o.filterMap (·.node.stmt?), G s' := by
  rw [Outline.stmts_cons, List.forall_mem_cons]

theorem forall_stmts_append {o o' : Outline} :
    (∀ s' ∈ (o ++ o').filterMap (·.node.stmt?), G s')
      ↔ (∀ s' ∈ o.filterMap (·.node.stmt?), G s')
        ∧ ∀ s' ∈ o'.filterMap (·.node.stmt?), G s' := by
  rw [List.filterMap_append, List.forall_mem_append]

theorem forall_mem_of_outlines {d : Nat} {r : Role} {ss : List Stmt}
    (h : ∀ s' ∈ (Stmt.outlines d r ss).filterMap (·.node.stmt?), G s') :
    ∀ s ∈ ss, G s :=
  fun s hs => h s (Stmt.mem_stmts_outlines d r hs)

mutual

/-- A property that is kept holds of the walk of a statement, if what it
assumes holds of the statement and of those in it. -/
theorem Stmt.composed_walk (h : Composes config G Q) : (s : Stmt) →
    ∀ {d : Nat} {r : Role} {expected : Option Ty} {ahead : Bool},
    (∀ s' ∈ (s.outline d r).filterMap (·.node.stmt?), G s') →
    Q fun outer φ n => s.walk config expected ahead outer φ n
  | .declaration t name ann init m, d, r, expected, ahead, hs => by
      rw [Stmt.outline, forall_stmts_cons] at hs
      exact h.binds hs.1
  | .assignment t target value, d, r, expected, ahead, hs => by
      rw [Stmt.outline, forall_stmts_cons] at hs
      exact h.consulting expected hs.1
  | .ret t value, d, r, expected, ahead, hs => by
      rw [Stmt.outline, forall_stmts_cons] at hs
      exact h.consulting expected hs.1
  | .expr t e, d, r, expected, ahead, hs => by
      rw [Stmt.outline, forall_stmts_cons] at hs
      exact h.consulting expected hs.1
  | .function t name params result p body, d, r, expected, ahead, hs => by
      rw [Stmt.outline, forall_stmts_cons] at hs
      obtain ⟨hown, hbody⟩ := hs
      simp only [Stmt.walk]
      have hinner : Q fun outer φ n =>
          ((declaringParams t.id 0 params (Signature.of params result body).params φ
            n).andThen (hoisting [] body)).andThen
              (Stmt.walkAll config body (some (Signature.of params result body).ret)
                [] outer) :=
        h.andThen
          (h.andThen (composed_declaringParams h hown)
            (composed_hoisting h (forall_mem_of_outlines hbody)))
          (Stmt.composed_walkAll h body hbody)
      cases ahead with
      | true => exact h.andThen h.same (h.closed hinner)
      | false => exact h.andThen (composed_declaringFunction h hown) (h.closed hinner)
  | .block t p ss, d, r, expected, ahead, hs => by
      rw [Stmt.outline, forall_stmts_cons] at hs
      simp only [Stmt.walk]
      have hinner : Q fun outer φ n => (hoisting [] ss φ n).andThen
          (Stmt.walkAll config ss expected [] outer) :=
        h.andThen (composed_hoisting h (forall_mem_of_outlines hs.2))
          (Stmt.composed_walkAll h ss hs.2)
      exact h.closed hinner
  | .ifElse t c a none, d, r, expected, ahead, hs => by
      rw [Stmt.outline, forall_stmts_cons, forall_stmts_append] at hs
      simp only [Stmt.walk]
      refine h.consults (s := .ifElse t c a none) expected hs.1 ?_
      exact composed_walkBranch h (Stmt.composed_walk h a hs.2.2)
  | .ifElse t c a (some b), d, r, expected, ahead, hs => by
      rw [Stmt.outline, forall_stmts_cons, forall_stmts_append,
        forall_stmts_append] at hs
      obtain ⟨hown, ⟨-, ha⟩, hb⟩ := hs
      simp only [Stmt.walk]
      refine h.consults (s := .ifElse t c a (some b)) expected hown
        (h.andThen ?_ ?_)
      · exact composed_walkBranch h (Stmt.composed_walk h a ha)
      · exact composed_walkBranch h (Stmt.composed_walk h b hb)
  | .while t c b, d, r, expected, ahead, hs => by
      rw [Stmt.outline, forall_stmts_cons, forall_stmts_append] at hs
      simp only [Stmt.walk]
      refine h.consults (s := .while t c b) expected hs.1 ?_
      exact composed_walkBranch h (Stmt.composed_walk h b hs.2.2)

theorem Stmt.composed_walkAll (h : Composes config G Q) : (ss : List Stmt) →
    ∀ {d : Nat} {r : Role} {expected : Option Ty} {earlier : List String},
    (∀ s' ∈ (Stmt.outlines d r ss).filterMap (·.node.stmt?), G s') →
    Q fun outer φ n => Stmt.walkAll config ss expected earlier outer φ n
  | [], d, r, expected, earlier, hss => h.same
  | s :: ss, d, r, expected, earlier, hss => by
      rw [Stmt.outlines, forall_stmts_append] at hss
      simp only [Stmt.walkAll]
      exact h.andThen (Stmt.composed_walk h s hss.1) (Stmt.composed_walkAll h ss hss.2)

end

/-- A property that is kept holds of what a program binds and walks. -/
theorem Program.composed_body (h : Composes config G Q) {p : Program}
    (hp : ∀ s ∈ p.stmts, G s) :
    Q fun outer φ n => (hoisting [] p.body φ n).andThen
      (Stmt.walkAll config p.body none [] outer) :=
  h.andThen (composed_hoisting h (forall_mem_of_outlines hp))
    (Stmt.composed_walkAll h p.body hp)

end

-- ========================================================== confinement

/-- A walk binds new numbers, each in a frame of its own until that is left.
It leaves the frame it started with, and before that some of what it has
bound, the latest first; and it reads what is around it or what it has
bound. -/
structure Walk.Confined (outer : Env) (φ : Frame) (n : SymbolId) (w : Walk) :
    Prop where
  advances : n ≤ w.next
  bound : ∀ d ∈ w.events.filterMap Event.bound?, n ≤ d.id ∧ d.id < w.next
  frame : ∃ new : Frame, w.frame = new ++ φ
    ∧ new.reverse.Sublist (w.events.filterMap Event.bound?)
  reads : ∀ k, .read k ∈ w.events →
    (∃ ψ ∈ φ :: outer, ∃ d ∈ ψ, d.id = k) ∨ n ≤ k ∧ k < w.next

namespace Walk.Confined

variable {outer : Env} {φ : Frame} {n : SymbolId} {w : Walk}

/-- What is new in the frame that a walk leaves has a new number. -/
theorem mem_frame (h : w.Confined outer φ n) {d : Declared} (hd : d ∈ w.frame) :
    d ∈ φ ∨ n ≤ d.id ∧ d.id < w.next := by
  obtain ⟨new, hnew, hsublist⟩ := h.frame
  rw [hnew] at hd
  rcases List.mem_append.mp hd with hd | hd
  · exact .inr (h.bound d (hsublist.mem (List.mem_reverse.mpr hd)))
  · exact .inl hd

theorem same (outer : Env) (φ : Frame) (n : SymbolId) :
    Walk.Confined outer φ n ⟨φ, n, []⟩ where
  advances := Nat.le_refl n
  bound := nofun
  frame := ⟨[], rfl, List.nil_sublist _⟩
  reads := nofun

theorem andThen {f : Frame → SymbolId → Walk} (h : w.Confined outer φ n)
    (hf : (f w.frame w.next).Confined outer w.frame w.next) :
    (w.andThen f).Confined outer φ n where
  advances := Nat.le_trans h.advances hf.advances
  bound := by
    intro d hd
    rw [events_andThen, List.filterMap_append] at hd
    rcases List.mem_append.mp hd with hd | hd
    · have hnumber := h.bound d hd
      exact ⟨hnumber.1, Nat.lt_of_lt_of_le hnumber.2 hf.advances⟩
    · have hnumber := hf.bound d hd
      exact ⟨Nat.le_trans h.advances hnumber.1, hnumber.2⟩
  frame := by
    obtain ⟨new, hnew, hsublist⟩ := h.frame
    obtain ⟨new', hnew', hsublist'⟩ := hf.frame
    refine ⟨new' ++ new, ?_, ?_⟩
    · rw [frame_andThen, hnew', hnew, List.append_assoc]
    · rw [List.reverse_append, events_andThen, List.filterMap_append]
      exact hsublist.append hsublist'
  reads := by
    intro k hk
    rw [events_andThen] at hk
    rcases List.mem_append.mp hk with hk | hk
    · rcases h.reads k hk with hk | ⟨hle, hlt⟩
      · exact .inl hk
      · exact .inr ⟨hle, Nat.lt_of_lt_of_le hlt hf.advances⟩
    · rcases hf.reads k hk with ⟨ψ, hψ, d, hd, rfl⟩ | ⟨hle, hlt⟩
      · rcases List.mem_cons.mp hψ with rfl | hψ
        · rcases h.mem_frame hd with hd | ⟨hle, hlt⟩
          · exact .inl ⟨φ, List.mem_cons_self, d, hd, rfl⟩
          · exact .inr ⟨hle, Nat.lt_of_lt_of_le hlt hf.advances⟩
        · exact .inl ⟨ψ, List.mem_cons_of_mem _ hψ, d, hd, rfl⟩
      · exact .inr ⟨Nat.le_trans h.advances hle, hlt⟩

theorem after {es : List Event} (h : w.Confined outer φ n)
    (hes : Consults (Env.find (φ :: outer)) es) : (w.after es).Confined outer φ n where
  advances := h.advances
  bound := by
    rw [events_after, List.filterMap_append, hes.looks, List.nil_append]
    exact h.bound
  frame := by
    rw [events_after, List.filterMap_append, hes.looks, List.nil_append]
    exact h.frame
  reads := by
    intro k hk
    rw [events_after] at hk
    rcases List.mem_append.mp hk with hk | hk
    · obtain ⟨x, d, hx, rfl⟩ := hes _ hk
      obtain ⟨ψ, hψ, hfind⟩ := List.exists_of_findSome?_eq_some hx
      exact .inl ⟨ψ, hψ, d, Frame.mem_of_find hfind, rfl⟩
    · exact h.reads k hk

theorem closed (h : w.Confined (φ :: outer) [] n) (config : Config) :
    (w.closed config φ).Confined outer φ n where
  advances := h.advances
  bound := by
    show ∀ d ∈ (w.events ++ leavingEvents config w).filterMap _, _
    rw [List.filterMap_append, (reports_leavingEvents config w).bound,
      List.append_nil]
    exact h.bound
  frame := ⟨[], rfl, List.nil_sublist _⟩
  reads := by
    intro k hk
    rcases List.mem_append.mp hk with hk | hk
    · rcases h.reads k hk with ⟨ψ, hψ, d, hd, rfl⟩ | hnew
      · rcases List.mem_cons.mp hψ with rfl | hψ
        · cases hd
        · exact .inl ⟨ψ, hψ, d, hd, rfl⟩
      · exact .inr hnew
    · obtain ⟨node, f, hf⟩ := reports_leavingEvents config w _ hk
      cases hf

theorem declaring (outer : Env) (node : NodeId) (site : Site) (b : Binding)
    (φ : Frame) (n : SymbolId) :
    (declaring node site b φ n).Confined outer φ n := by
  have hbound := bound_declaring node site b φ n
  refine ⟨Nat.le_succ n, ?_, ⟨[⟨⟨b, n⟩, site⟩], rfl, ?_⟩, ?_⟩
  · rw [hbound]
    exact List.forall_mem_singleton.mpr ⟨Nat.le_refl n, Nat.lt_succ_self n⟩
  · rw [hbound]
    exact List.Sublist.refl _
  · intro k hk
    rcases binds_declaring node site b φ n _ hk with ⟨d, hd⟩ | ⟨node', f, hf⟩
    · cases hd
    · cases hf

end Walk.Confined

/-- All walks are confined. -/
theorem composes_confined (config : Config) :
    Composes config (fun _ => True) fun f =>
      ∀ outer φ n, (f outer φ n).Confined outer φ n where
  same := Walk.Confined.same
  andThen := fun h h' outer φ n => (h outer φ n).andThen (h' outer _ _)
  closed := fun h outer φ n => (h (φ :: outer) [] n).closed config
  reports := fun hes h outer φ n => (h outer φ n).after hes.consults
  consults := fun expected _ h outer φ n =>
    (h outer φ n).after (Stmt.consults_consulting _ expected _)
  declares := fun b _ _ outer φ n => .declaring outer _ _ b φ n
  binds := fun _ outer φ n =>
    (Walk.Confined.declaring outer _ _ _ φ n).after (consults_declarationEvents _ _ _ _)

end TreeCheck
