/-
What an account resolves.

Expressions resolve their identifiers, from left to right, each to what
its name is looked up as. So an account resolves identifiers only to
what its environment holds, and as frames grow by binding alone, only to
what the account itself has bound (`Program.resolved_bound`).
-/
import TreeCheck.Proofs.Account.Binding
import TreeCheck.Proofs.Scoping.Frames
import TreeCheck.Proofs.Scoping.Occurrences

namespace TreeCheck

open Analysis

/-- The resolutions of identifiers whose names are looked up. -/
def lookedUp (ρ : Lookup) (names : List (Tag × String)) : List (NodeId × Declared) :=
  names.filterMap fun (t, x) => (ρ x).map fun d => (t.id, d)

/-- Events resolve some identifiers. -/
def ResolvesTo (ρ : Lookup) (es : List Event)
    (names : List (Tag × String)) : Prop :=
  es.filterMap Event.resolved? = lookedUp ρ names

theorem Reports.resolvesTo {ρ : Lookup} {es : List Event} (h : Reports es) :
    ResolvesTo ρ es [] := h.resolved

namespace ResolvesTo

variable {ρ : Lookup} {es fs : List Event} {names more : List (Tag × String)}

theorem append (h : ResolvesTo ρ es names) (h' : ResolvesTo ρ fs more) :
    ResolvesTo ρ (es ++ fs) (names ++ more) := by
  rw [ResolvesTo, List.filterMap_append, h, h', lookedUp, lookedUp, lookedUp,
    List.filterMap_append]

/-- What only reports may stand behind. -/
theorem pass (h : ResolvesTo ρ es names) (h' : Reports fs) :
    ResolvesTo ρ (es ++ fs) names := by
  rw [ResolvesTo, List.filterMap_append, h'.resolved, List.append_nil]
  exact h

/-- What only reports may stand in front. -/
theorem skip (h : Reports es) (h' : ResolvesTo ρ fs names) :
    ResolvesTo ρ (es ++ fs) names := by
  rw [ResolvesTo, List.filterMap_append, h.resolved, List.nil_append]
  exact h'

theorem typed (h : ResolvesTo ρ es names) (id : NodeId) (ty : Ty) :
    ResolvesTo ρ (es ++ [.typed id ty]) names := by
  rw [ResolvesTo, List.filterMap_append, h]
  exact List.append_nil _

end ResolvesTo

variable {ρ : Lookup}

theorem resolvesTo_nameEvents (t : Tag) (x : String) :
    ResolvesTo ρ (Expr.nameEvents ρ t x) [(t, x)] := by
  unfold Expr.nameEvents
  cases hx : ρ x <;> simp [ResolvesTo, lookedUp, hx]

mutual

theorem Expr.resolvesTo_events (ρ : Lookup) : (e : Expr) →
    ResolvesTo ρ (e.events ρ) e.identifiers
  | .literal t v => rfl
  | .identifier t x => by
      simp only [Expr.events]
      exact (resolvesTo_nameEvents t x).typed _ _
  | .binary t op l r => by
      simp only [Expr.events, Expr.identifiers]
      refine ResolvesTo.typed (ResolvesTo.pass ?_ (reports_complaint _ _ _ _)) _ _
      exact (Expr.resolvesTo_events ρ l).append (Expr.resolvesTo_events ρ r)
  | .unary t op e => by
      simp only [Expr.events, Expr.identifiers]
      refine ResolvesTo.typed (ResolvesTo.pass ?_ (reports_complaint _ _ _ _)) _ _
      exact Expr.resolvesTo_events ρ e
  | .call t f args => by
      simp only [Expr.events, Expr.identifiers]
      refine ResolvesTo.typed (ResolvesTo.pass ?_ (reports_callEvents _ _ _ _))
        _ _
      exact (Expr.resolvesTo_events ρ f).append (Expr.resolvesTo_eventsAll ρ args)

theorem Expr.resolvesTo_eventsAll (ρ : Lookup) : (es : List Expr) →
    ResolvesTo ρ (Expr.eventsAll ρ es) (Expr.identifiersAll es)
  | [] => rfl
  | e :: es => by
      simp only [Expr.eventsAll, Expr.identifiersAll]
      exact (Expr.resolvesTo_events ρ e).append (Expr.resolvesTo_eventsAll ρ es)

end

theorem Expr.resolvesTo_events? (e : Option Expr) :
    ResolvesTo ρ (Expr.events? ρ e) (Expr.identifiers? e) := by
  cases e with
  | none => rfl
  | some e => exact e.resolvesTo_events ρ

theorem resolvesTo_declarationEvents (node : NodeId) (name : String)
    (ann : Option TypeName) (init : Option Expr) :
    ResolvesTo ρ (declarationEvents ρ node name ann init)
      (Expr.identifiers? init) := by
  refine (ResolvesTo.skip ?_ (Expr.resolvesTo_events? init)).pass
    (reports_initializerEvents _ _ _ _)
  cases ann with
  | none => exact reports_nil
  | some a => exact reports_valueEvents _ _ a

theorem resolvesTo_assignmentEvents (node : NodeId) (target value : Expr) :
    ResolvesTo ρ (assignmentEvents ρ node target value)
      (target.identifiers ++ value.identifiers) := by
  have hvalue := value.resolvesTo_events ρ
  cases target with
  | identifier t x =>
      -- The target is resolved without being read.
      simp only [assignmentEvents]
      cases hx : ρ x with
      | none =>
          refine ResolvesTo.append ?_ hvalue
          simp [ResolvesTo, lookedUp, Expr.identifiers, hx]
      | some d =>
          refine (ResolvesTo.append ?_ hvalue).pass
            (reports_storeEvents _ _ _ _ _ _)
          simp [ResolvesTo, lookedUp, Expr.identifiers, hx]
  | literal _ _ | binary _ _ _ _ | unary _ _ _ | call _ _ _ =>
      exact ((Expr.resolvesTo_events ρ _).append hvalue).pass (reports_found _ _)

theorem resolvesTo_conditionEvents (node : NodeId) (construct : Construct)
    (c : Expr) :
    ResolvesTo ρ (conditionEvents ρ node construct c) c.identifiers :=
  (c.resolvesTo_events ρ).pass (reports_complaint _ _ _ _)

theorem resolvesTo_returningEvents (t : Tag) (expected : Option Ty)
    (value : Option Expr) :
    ResolvesTo ρ (returningEvents ρ t expected value) (Expr.identifiers? value) :=
  (Expr.resolvesTo_events? value).pass (reports_returnEvents _ _ _ _)

-- ============================================================ bound

/-- Whatever holds of the symbols around and of those that a walk binds,
holds of the frame it leaves and of what it resolves. -/
def Walk.Carries (P : Declared → Prop) (outer : Env) (φ : Frame)
    (w : Walk) : Prop :=
  (∀ ψ ∈ φ :: outer, ∀ d ∈ ψ, P d) →
    (∀ d ∈ w.events.filterMap Event.bound?, P d) →
    (∀ d ∈ w.frame, P d) ∧ ∀ r ∈ w.events.filterMap Event.resolved?, P r.2

namespace Walk.Carries

variable {P : Declared → Prop} {outer : Env} {φ : Frame} {w : Walk}
  {es : List Event}

theorem andThen {f : Frame → SymbolId → Walk} (h : w.Carries P outer φ)
    (hf : (f w.frame w.next).Carries P outer w.frame) :
    (w.andThen f).Carries P outer φ := by
  intro hΓ hbound
  simp only [events_andThen, List.filterMap_append,
    List.forall_mem_append] at hbound ⊢
  obtain ⟨hframe, hresolved⟩ := h hΓ hbound.1
  have hΓ' : ∀ ψ ∈ w.frame :: outer, ∀ d ∈ ψ, P d := by
    intro ψ hψ
    rcases List.mem_cons.mp hψ with rfl | hψ
    · exact hframe
    · exact hΓ ψ (List.mem_cons_of_mem _ hψ)
  obtain ⟨hframe', hresolved'⟩ := hf hΓ' hbound.2
  exact ⟨hframe', hresolved, hresolved'⟩

theorem after {names : List (Tag × String)} (h : w.Carries P outer φ)
    (hes : ResolvesTo (Env.find (φ :: outer)) es names) :
    (w.after es).Carries P outer φ := by
  intro hΓ hbound
  simp only [events_after, List.filterMap_append,
    List.forall_mem_append] at hbound ⊢
  obtain ⟨hframe, hresolved⟩ := h hΓ hbound.2
  refine ⟨hframe, ?_, hresolved⟩
  rw [hes, lookedUp]
  intro r hr
  obtain ⟨⟨t, x⟩, -, hx⟩ := List.mem_filterMap.mp hr
  obtain ⟨d, hd, rfl⟩ := Option.map_eq_some_iff.mp hx
  obtain ⟨ψ, hψ, hfind⟩ := List.exists_of_findSome?_eq_some hd
  exact hΓ ψ hψ d (Frame.mem_of_find hfind)

theorem closed (h : w.Carries P (φ :: outer) []) (config : Config) :
    (w.closed config φ).Carries P outer φ := by
  intro hΓ hbound
  have hreports := reports_leavingEvents config w
  simp only [Walk.closed, List.filterMap_append, hreports.bound,
    hreports.resolved, List.append_nil] at hbound ⊢
  refine ⟨hΓ φ List.mem_cons_self, (h ?_ hbound).2⟩
  intro ψ hψ
  rcases List.mem_cons.mp hψ with rfl | hψ
  · exact nofun
  · exact hΓ ψ hψ

theorem same (n : SymbolId) : Walk.Carries P outer φ ⟨φ, n, []⟩ :=
  fun hΓ _ => ⟨hΓ φ List.mem_cons_self, nofun⟩

theorem resolving {names : List (Tag × String)} (n : SymbolId)
    (hes : ResolvesTo (Env.find (φ :: outer)) es names) :
    Walk.Carries P outer φ ⟨φ, n, es⟩ := by
  have hafter := (same (P := P) n).after hes
  rwa [Walk.after, List.append_nil] at hafter

end Walk.Carries

section

variable {P : Declared → Prop} {outer : Env}

theorem carries_declaring (node : NodeId) (site : Site) (b : Binding) (φ : Frame)
    (n : SymbolId) : (declaring node site b φ n).Carries P outer φ := by
  intro hΓ hbound
  rw [(binds_declaring node site b φ n).resolved]
  refine ⟨?_, nofun⟩
  intro d hd
  rcases List.mem_cons.mp hd with rfl | hd
  · refine hbound _ ?_
    show _ ∈ List.filterMap _ (duplicateEvents node b _ ++ [_])
    rw [List.filterMap_append]
    exact List.mem_append_right _ List.mem_cons_self
  · exact hΓ φ List.mem_cons_self d hd

theorem carries_declaringFunction (t : Tag) (name : String) (params : List Param)
    (result : Option TypeName) (body : List Stmt) (φ : Frame) (n : SymbolId) :
    (declaringFunction t name params result body φ n).Carries P outer φ :=
  (carries_declaring _ _ _ _ _).after
    (reports_signatureEvents t.id params result).resolvesTo

theorem carries_hoisting (earlier : List String) (ss : List Stmt) (φ : Frame)
    (n : SymbolId) : (hoisting earlier ss φ n).Carries P outer φ := by
  induction ss generalizing earlier φ n with
  | nil => exact .same n
  | cons s ss ih =>
      cases s with
      | function t name params result p body =>
          unfold hoisting
          split
          · exact ih earlier φ n
          · exact (carries_declaringFunction _ _ _ _ _ _ _).andThen (ih _ _ _)
      | declaration | assignment | block | ifElse | «while» | ret | expr =>
          exact ih _ φ n

theorem carries_declaringParams (function : NodeId) (i : Nat) (ps : List Param)
    (tys : List Ty) (φ : Frame) (n : SymbolId) :
    (declaringParams function i ps tys φ n).Carries P outer φ := by
  induction ps generalizing i tys φ n with
  | nil => exact .same n
  | cons p ps ih =>
      cases tys with
      | nil => exact .same n
      | cons ty tys => exact (carries_declaring _ _ _ _ _).andThen (ih _ _ _ _)

theorem carries_walkBranch {walk : Env → Frame → SymbolId → Walk}
    (config : Config) (branch : Stmt) (outer : Env) (φ : Frame) (n : SymbolId)
    (h : ∀ outer φ n, (walk outer φ n).Carries P outer φ) :
    (walkBranch config branch walk outer φ n).Carries P outer φ := by
  unfold walkBranch
  split
  · exact h outer φ n
  · exact (h (φ :: outer) [] n).closed config

end

mutual

theorem Stmt.carries_walk (P : Declared → Prop) (config : Config) : (s : Stmt) →
    ∀ (expected : Option Ty) (ahead : Bool) (outer : Env) (φ : Frame)
      (n : SymbolId),
    (s.walk config expected ahead outer φ n).Carries P outer φ
  | .declaration t name ann init m, expected, ahead, outer, φ, n =>
      (carries_declaring _ _ _ _ _).after (resolvesTo_declarationEvents _ _ _ _)
  | .function t name params result p body, expected, ahead, outer, φ, n => by
      simp only [Stmt.walk]
      refine Walk.Carries.andThen ?_ (Walk.Carries.closed ?_ config)
      · cases ahead with
        | true => exact .same n
        | false => exact carries_declaringFunction _ _ _ _ _ _ _
      · exact ((carries_declaringParams _ _ _ _ _ _).andThen
          (carries_hoisting _ _ _ _)).andThen
          (Stmt.carries_walkAll P config body _ _ _ _ _)
  | .assignment t target value, expected, ahead, outer, φ, n =>
      Walk.Carries.resolving n (resolvesTo_assignmentEvents t.id target value)
  | .block t p ss, expected, ahead, outer, φ, n => by
      simp only [Stmt.walk]
      exact ((carries_hoisting _ _ _ _).andThen
        (Stmt.carries_walkAll P config ss _ _ _ _ _)).closed config
  | .ifElse t c a none, expected, ahead, outer, φ, n => by
      simp only [Stmt.walk]
      exact (carries_walkBranch config a outer φ n fun outer φ n =>
        Stmt.carries_walk P config a _ _ outer φ n).after
          (resolvesTo_conditionEvents _ _ _)
  | .ifElse t c a (some b), expected, ahead, outer, φ, n => by
      simp only [Stmt.walk]
      have ha := carries_walkBranch config a outer φ n fun outer φ n =>
        Stmt.carries_walk P config a expected false outer φ n
      refine (ha.andThen ?_).after (resolvesTo_conditionEvents _ _ _)
      rw [frame_walkBranch]
      exact carries_walkBranch config b outer φ _ fun outer φ n =>
        Stmt.carries_walk P config b expected false outer φ n
  | .while t c b, expected, ahead, outer, φ, n => by
      simp only [Stmt.walk]
      exact (carries_walkBranch config b outer φ n fun outer φ n =>
        Stmt.carries_walk P config b _ _ outer φ n).after
          (resolvesTo_conditionEvents _ _ _)
  | .ret t value, expected, ahead, outer, φ, n =>
      Walk.Carries.resolving n (resolvesTo_returningEvents t expected value)
  | .expr t e, expected, ahead, outer, φ, n =>
      Walk.Carries.resolving n (e.resolvesTo_events _)

theorem Stmt.carries_walkAll (P : Declared → Prop) (config : Config) :
    (ss : List Stmt) → ∀ (expected : Option Ty) (earlier : List String)
    (outer : Env) (φ : Frame) (n : SymbolId),
    (Stmt.walkAll config ss expected earlier outer φ n).Carries P outer φ
  | [], expected, earlier, outer, φ, n => .same n
  | s :: ss, expected, earlier, outer, φ, n => by
      simp only [Stmt.walkAll]
      exact (Stmt.carries_walk P config s _ _ outer φ n).andThen
        (Stmt.carries_walkAll P config ss _ _ outer _ _)

end

/-- What an account resolves to, it has bound. -/
theorem Program.resolved_bound (config : Config) (p : Program) :
    ∀ r ∈ (p.account config).filterMap Event.resolved?,
      r.2 ∈ (p.account config).filterMap Event.bound? := by
  have hcarries : Walk.Carries (· ∈ (p.account config).filterMap Event.bound?)
    [] []
      ((hoisting [] p.body [] 0).andThen
        (Stmt.walkAll config p.body none [] [])) :=
    (carries_hoisting _ _ _ _).andThen
      (Stmt.carries_walkAll _ config p.body _ _ _ _ _)
  refine (hcarries ?_ fun _ hd => hd).2
  intro ψ hψ
  rw [List.mem_singleton.mp hψ]
  exact nofun

end TreeCheck
