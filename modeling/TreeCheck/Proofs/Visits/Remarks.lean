/-
What a course says, by visits.

A finding is about an expression, about a statement as a whole, or about
a binding. The events of a course fall apart accordingly: what is
remarked at its visits holds all that is said about expressions and
statements, and what is left are findings about bindings. Nothing here
asks for the identities of nodes to be distinct.
-/
import TreeCheck.Proofs.Visits.Visit

namespace TreeCheck

open Analysis

-- ============================================================ concerns

/-- What a finding can be about. -/
inductive Concern where
  | expression
  | statement
  | binding
deriving DecidableEq, Repr

/-- What a cause is about. Annotations of variables count as bindings, like
those of functions. -/
def Cause.concern : Cause → Concern
  | .undefined _ | .badOperands _ _ _ | .badOperand _ _ | .notCallable _
  | .wrongArity _ _ _ | .badArgument _ _ _ _ => .expression
  | .badInitializer _ _ _ | .voidInitializer _ | .notAVariable
  | .assignToFunction _ | .assignToImmutable _ | .badAssignment _ _ _
  | .badCondition _ _ | .returnOutside | .badReturn _ _ | .missingReturn _ =>
    .statement
  | .duplicate _ | .unknownType _ | .voidVariable _ | .unusedVariable _
  | .unusedParameter _ => .binding

/-- Events that only report findings of some concerns. -/
def Concerns (of : Concern → Prop) (es : List Event) : Prop :=
  ∀ e ∈ es, ∃ node f, e = .found node f ∧ of f.cause.concern

section

variable {of : Concern → Prop} {es fs : List Event}

/-- Events with a concern are reports and nothing else. -/
theorem Concerns.reports (h : Concerns of es) : Reports es := by
  intro e he
  obtain ⟨node, f, rfl, -⟩ := h e he
  exact ⟨node, f, rfl⟩

theorem concerns_nil : Concerns of [] := nofun

theorem concerns_append :
    Concerns of (es ++ fs) ↔ Concerns of es ∧ Concerns of fs := by
  simp only [Concerns, List.mem_append, or_imp, forall_and]

theorem concerns_found {node : NodeId} {f : Finding} (h : of f.cause.concern) :
    Concerns of [.found node f] := by
  intro e he
  exact ⟨node, f, List.mem_singleton.mp he, h⟩

/-- A check that is met reports nothing, and otherwise its cause. -/
theorem concerns_complaint {ok : Bool} {node : NodeId} {c : Cause} {p : Position}
    (h : of c.concern) : Concerns of (complaint ok node c p) := by
  cases ok with
  | true => exact concerns_nil
  | false => exact concerns_found h

/-- A finding among events has one of their concerns. -/
theorem Concerns.of_found {node : NodeId} {f : Finding} (h : Concerns of es)
    (hf : .found node f ∈ es) : of f.cause.concern := by
  obtain ⟨node', g, heq, hg⟩ := h _ hf
  obtain ⟨-, rfl⟩ := Event.found.inj heq
  exact hg

theorem Concerns.mono {of' : Concern → Prop} (h : Concerns of es)
    (hof : ∀ c, of c → of' c) : Concerns of' es := by
  intro e he
  obtain ⟨node, f, rfl, hf⟩ := h e he
  exact ⟨node, f, rfl, hof _ hf⟩

end

-- ============================================================= bindings

/-- That a name is declared twice is about the binding. -/
theorem concerns_duplicateEvents (node : NodeId) (b : Binding)
    (previous : Option Declared) :
    Concerns (· = .binding) (duplicateEvents node b previous) := by
  cases previous with
  | none => exact concerns_nil
  | some d => exact concerns_found rfl

/-- What is wrong with the annotation of a variable or parameter is about the
binding that it belongs to. -/
theorem concerns_valueEvents (node : NodeId) (name : String) (a : TypeName) :
    Concerns (· = .binding) (a.valueEvents node name) :=
  concerns_append.mpr ⟨concerns_complaint rfl, concerns_complaint rfl⟩

/-- So is what is wrong with the annotations of a function. -/
theorem concerns_signatureEvents (node : NodeId) (params : List Param)
    (result : Option TypeName) :
    Concerns (· = .binding) (signatureEvents node params result) := by
  refine concerns_append.mpr ⟨?_, ?_⟩
  · intro e he
    obtain ⟨p, -, hp⟩ := List.mem_flatMap.mp he
    unfold Param.events at hp
    cases hann : p.typeName with
    | none => simp [hann] at hp
    | some a =>
        rw [hann] at hp
        exact concerns_valueEvents node p.name a e hp
  · cases result with
    | none => exact concerns_nil
    | some a => exact concerns_complaint rfl

/-- What is reported when a scope is left is about bindings that nothing read. -/
theorem concerns_leavingEvents (config : Config) (w : Walk) :
    Concerns (· = .binding) (leavingEvents config w) := by
  intro e he
  obtain ⟨node, f, rfl, hkind⟩ := exists_unused_of_leavingEvents he
  refine ⟨node, f, rfl, ?_⟩
  cases hc : f.cause with
  | unusedVariable | unusedParameter => rfl
  | _ =>
      rw [hc] at hkind
      cases hkind

-- ============================================================= verdicts

/-- Whether a value fits its variable is about the declaration. -/
theorem concerns_initializerEvents (node : NodeId) (name : String)
    (declared : Option Ty) (init : Option (Ty × Position)) :
    Concerns (· = .statement) (initializerEvents node name declared init) := by
  unfold initializerEvents
  split
  · exact concerns_complaint rfl
  · exact concerns_complaint rfl
  · exact concerns_nil

/-- Whether a value can be stored is about the assignment. -/
theorem concerns_storeEvents (node : NodeId) (target : Tag) (d : Declared)
    (name : String) (found : Ty) (p : Position) :
    Concerns (· = .statement) (storeEvents node target d name found p) := by
  unfold storeEvents
  split
  · exact concerns_found rfl
  · split
    · exact concerns_found rfl
    · exact concerns_complaint rfl

/-- Whether a `return` fits its function is about the `return`. -/
theorem concerns_returnEvents (node : NodeId) (position : Position)
    (expected : Option Ty) (value : Option (Ty × Position)) :
    Concerns (· = .statement) (returnEvents node position expected value) := by
  unfold returnEvents
  split
  · exact concerns_found rfl
  · exact concerns_complaint rfl
  · exact concerns_complaint rfl

/-- Whether an argument fits its parameter is about the call. -/
theorem Expr.concern_of_argumentEvents {ρ : Lookup} {node : NodeId}
    {callee : Option String} {index : Nat} {ps : List Ty} {args : List Expr} :
    Concerns (· = .expression) (argumentEvents ρ node callee index ps args) := by
  induction ps generalizing index args with
  | nil => exact concerns_nil
  | cons p ps ih =>
      cases args with
      | nil => exact concerns_nil
      | cons arg args => exact concerns_append.mpr ⟨concerns_complaint rfl, ih⟩

/-- What is found at a node is about an expression. -/
theorem Expr.concern_of_verdict {ρ : Lookup} {e : Expr} {f : Finding}
    (hf : f ∈ (e.verdict ρ).filterMap Event.finding?) :
    f.cause.concern = .expression := by
  obtain ⟨ev, hev, hfound⟩ := List.mem_filterMap.mp hf
  have hconcern {es : List Event} (hes : Concerns (· = .expression) es)
      (hmem : ev ∈ es) : f.cause.concern = .expression := by
    obtain ⟨node, g, rfl, hg⟩ := hes ev hmem
    rw [← Option.some.inj hfound]
    exact hg
  cases e with
  | literal => cases hev
  | identifier t x =>
      cases hx : ρ x with
      | none =>
          simp only [verdict, hx] at hev
          exact hconcern (concerns_found rfl) hev
      | some d =>
          simp only [verdict, hx, List.mem_singleton] at hev
          subst hev
          cases hfound
  | binary | unary => exact hconcern (concerns_complaint rfl) hev
  | call t f args =>
      refine hconcern ?_ hev
      rw [verdict]
      cases f.typeIn ρ with
      | func ps r =>
          simp only [callEvents]
          split
          · exact concern_of_argumentEvents
          · exact concerns_found rfl
      | error | unknown => exact concerns_nil
      | int | float | bool | string | void => exact concerns_found rfl

/-- Whatever is found in an expression is about expressions. -/
theorem Expr.concern_of_events {ρ : Lookup} {e : Expr} {node : NodeId} {f : Finding}
    (h : .found node f ∈ e.events ρ) : f.cause.concern = .expression := by
  have hshows : .found node f ∈ (e.events ρ).filter Event.shows :=
    List.mem_filter.mpr ⟨h, rfl⟩
  obtain ⟨inner, -, hremark⟩ :=
    List.mem_flatMap.mp ((e.perm_events ρ).mem_iff.mp hshows)
  rcases List.mem_append.mp hremark with hverdict | htyped
  · exact concern_of_verdict (List.mem_filterMap.mpr ⟨_, hverdict, rfl⟩)
  · cases List.mem_singleton.mp htyped

/-- What is found about a statement as a whole is about none of its
expressions. -/
theorem Visit.concerns_verdict (v : Visit) :
    Concerns (· ≠ .expression) v.verdict := by
  obtain ⟨s, ρ, expected⟩ := v
  have hbinding : ∀ c, c = Concern.binding → c ≠ .expression := by
    rintro _ rfl
    exact nofun
  have hstatement : ∀ c, c = Concern.statement → c ≠ .expression := by
    rintro _ rfl
    exact nofun
  cases s with
  | declaration t name ann init m =>
      refine concerns_append.mpr ⟨?_, ?_⟩
      · cases ann with
        | none => exact concerns_nil
        | some a => exact (concerns_valueEvents t.id name a).mono hbinding
      · exact (concerns_initializerEvents t.id name _ _).mono hstatement
  | assignment t target value =>
      cases target with
      | identifier target x =>
          show Concerns _ (Option.elim (ρ x) _ _)
          cases ρ x with
          | none => exact concerns_nil
          | some d => exact (concerns_storeEvents _ _ d _ _ _).mono hstatement
      | literal | binary | unary | call => exact concerns_found nofun
  | ifElse | «while» => exact concerns_complaint nofun
  | ret t value => exact (concerns_returnEvents _ _ _ _).mono hstatement
  | expr | function | block => exact concerns_nil

-- ============================================================ splitting

/-- Two sequences in two parts each, with the first parts in front. -/
theorem perm_append_append {α : Type} (as bs cs ds : List α) :
    (as ++ bs ++ (cs ++ ds)).Perm (as ++ cs ++ (bs ++ ds)) := by
  simp only [List.append_assoc]
  refine List.Perm.append_left _ ?_
  rw [← List.append_assoc, ← List.append_assoc]
  exact List.perm_append_comm.append_right _

/-- Events show what is remarked at some visits, and findings about
bindings. -/
def Splits (es : List Event) (vs : List Visit) : Prop :=
  ∃ rest, (es.filter Event.shows).Perm (vs.flatMap Visit.remarks ++ rest)
    ∧ Concerns (· = .binding) rest

namespace Splits

variable {es fs : List Event} {vs ws : List Visit}

/-- Sequences split part by part. -/
theorem append (h : Splits es vs) (h' : Splits fs ws) :
    Splits (es ++ fs) (vs ++ ws) := by
  obtain ⟨rest, hperm, hrest⟩ := h
  obtain ⟨rest', hperm', hrest'⟩ := h'
  refine ⟨rest ++ rest', ?_, concerns_append.mpr ⟨hrest, hrest'⟩⟩
  rw [List.filter_append, List.flatMap_append]
  exact (hperm.append hperm').trans (perm_append_append _ _ _ _)

/-- Findings about bindings, and that names are bound, belong to no
visit. -/
theorem binding {rest : List Event} (hshows : es.filter Event.shows = rest)
    (hrest : Concerns (· = .binding) rest) : Splits es [] :=
  ⟨rest, .of_eq hshows, hrest⟩

/-- Findings about bindings belong to no visit. -/
theorem concerns (h : Concerns (· = .binding) es) : Splits es [] :=
  binding h.reports.shows h

/-- What shows the remarks of a visit, in any order, splits into the visit alone. -/
theorem visit {v : Visit} (h : (es.filter Event.shows).Perm v.remarks) :
    Splits es [v] := by
  refine ⟨[], ?_, concerns_nil⟩
  rwa [List.flatMap_singleton, List.append_nil]

/-- What is about bindings may come in front of what a visit remarks. -/
theorem skip (h : Splits es []) (h' : Splits fs vs) : Splits (es ++ fs) vs :=
  h.append h'

/-- It may also come behind. -/
theorem pass (h : Splits es vs) (h' : Splits fs []) : Splits (es ++ fs) vs := by
  have happend := h.append h'
  rwa [List.append_nil] at happend

/-- To leave a scope adds findings about bindings. -/
theorem closed {w : Walk} (h : Splits w.events vs) (config : Config) (φ : Frame) :
    Splits (w.closed config φ).events vs :=
  h.pass (concerns (concerns_leavingEvents config w))

end Splits

/-- Binding a name remarks nothing. -/
theorem splits_declaring (node : NodeId) (site : Site) (b : Binding) (φ : Frame)
    (n : SymbolId) : Splits (declaring node site b φ n).events [] := by
  have hduplicate := concerns_duplicateEvents node b (φ.find b.name)
  refine .binding ?_ hduplicate
  show List.filter _ (duplicateEvents node b _ ++ [_]) = _
  rw [List.filter_append, hduplicate.reports.shows]
  exact List.append_nil _

/-- Nor does declaring a function, with all its annotations. -/
theorem splits_declaringFunction (t : Tag) (name : String) (params : List Param)
    (result : Option TypeName) (body : List Stmt) (φ : Frame) (n : SymbolId) :
    Splits (declaringFunction t name params result body φ n).events [] :=
  (Splits.concerns (concerns_signatureEvents t.id params result)).skip
    (splits_declaring _ _ _ _ _)

/-- Functions that are declared ahead are not visited there. -/
theorem splits_hoisting (earlier : List String) (ss : List Stmt) (φ : Frame)
    (n : SymbolId) : Splits (hoisting earlier ss φ n).events [] := by
  induction ss generalizing earlier φ n with
  | nil => exact .concerns concerns_nil
  | cons s ss ih =>
      cases s with
      | function t name params result p body =>
          unfold hoisting
          split
          · exact ih earlier φ n
          · exact (splits_declaringFunction _ _ _ _ _ _ _).skip (ih _ _ _)
      | declaration | assignment | block | ifElse | «while» | ret | expr =>
          exact ih _ φ n

/-- Parameters are bound without a visit of their own. -/
theorem splits_declaringParams (function : NodeId) (i : Nat) (ps : List Param)
    (tys : List Ty) (φ : Frame) (n : SymbolId) :
    Splits (declaringParams function i ps tys φ n).events [] := by
  induction ps generalizing i tys φ n with
  | nil => exact .concerns concerns_nil
  | cons p ps ih =>
      cases tys with
      | nil => exact .concerns concerns_nil
      | cons ty tys => exact (splits_declaring _ _ _ _ _).skip (ih _ _ _ _)

-- ====================================================== own statements

section

variable (ρ : Lookup) (expected : Option Ty)

/-- A declaration is visited with its value. -/
theorem splits_declarationEvents (t : Tag) (name : String) (ann : Option TypeName)
    (init : Option Expr) (m : Bool) :
    Splits (declarationEvents ρ t.id name ann init)
      [⟨.declaration t name ann init m, ρ, expected⟩] := by
  have hann : Reports (ann.elim [] (·.valueEvents t.id name)) := by
    cases ann with
    | none => exact reports_nil
    | some a => exact reports_valueEvents t.id name a
  refine .visit ?_
  rw [declarationEvents, List.filter_append, List.filter_append, hann.shows,
    (reports_initializerEvents _ _ _ _).shows]
  -- The annotation is looked at before the initializer.
  have hinit := Expr.perm_events? ρ init
  refine (List.perm_append_comm.append_right _).trans ?_
  rw [List.append_assoc]
  exact hinit.append_right _

/-- An assignment is visited with its target and its value. A target that is an
identifier is remarked on like one that is read. -/
theorem splits_assignmentEvents (t : Tag) (target value : Expr) :
    Splits (assignmentEvents ρ t.id target value)
      [⟨.assignment t target value, ρ, expected⟩] := by
  have hvalue := value.perm_events ρ
  refine .visit ?_
  have hexprs : Stmt.exprs (.assignment t target value)
      = target.nested ++ value.nested := by
    simp [Stmt.exprs, Stmt.roots]
  rw [Visit.remarks, hexprs, List.flatMap_append]
  cases target with
  | identifier target x =>
      simp only [assignmentEvents, Visit.verdict]
      cases hx : ρ x with
      | none =>
          rw [List.filter_append, Option.elim_none, List.append_nil, Expr.nested,
            List.flatMap_singleton]
          refine List.Perm.append (.of_eq ?_) hvalue
          simp only [Expr.remarks, Expr.verdict, Expr.typeIn, hx]
          rfl
      | some d =>
          rw [List.filter_append, List.filter_append, Option.elim_some,
            (reports_storeEvents _ _ _ _ _ _).shows, Expr.nested,
            List.flatMap_singleton]
          refine List.Perm.append_right _ (List.Perm.append (.of_eq ?_) hvalue)
          simp only [Expr.remarks, Expr.verdict, Expr.typeIn, hx]
          rfl
  | literal | binary | unary | call =>
      simp only [assignmentEvents, Visit.verdict]
      rw [List.filter_append, List.filter_append]
      exact ((Expr.perm_events ρ _).append hvalue).append_right _

/-- A statement with a condition is visited with it. -/
theorem splits_conditionEvents {s : Stmt} {t : Tag} {construct : Construct}
    {c : Expr} (hroots : s.roots = [c])
    (hverdict : Visit.verdict ⟨s, ρ, expected⟩
      = complaint (isCondition (c.typeIn ρ)) t.id
          (.badCondition construct (c.typeIn ρ)) c.position) :
    Splits (conditionEvents ρ t.id construct c) [⟨s, ρ, expected⟩] := by
  refine .visit ?_
  rw [conditionEvents, List.filter_append, (reports_complaint _ _ _ _).shows,
    Visit.remarks, hverdict, Stmt.exprs, hroots, List.flatMap_singleton]
  exact (c.perm_events ρ).append_right _

/-- A `return` is visited with its value. -/
theorem splits_returningEvents (t : Tag) (value : Option Expr) :
    Splits (returningEvents ρ t expected value) [⟨.ret t value, ρ, expected⟩] := by
  refine .visit ?_
  rw [returningEvents, List.filter_append, (reports_returnEvents _ _ _ _).shows]
  exact (Expr.perm_events? ρ value).append_right _

/-- A statement that is an expression has nothing to say for itself. -/
theorem splits_expr (t : Tag) (e : Expr) :
    Splits (e.events ρ) [⟨.expr t e, ρ, expected⟩] := by
  refine .visit ?_
  rw [Visit.remarks, Stmt.exprs, Stmt.roots, List.flatMap_singleton]
  exact (e.perm_events ρ).trans (.of_eq (List.append_nil _).symm)

/-- The visit of a function or of a block as such adds nothing. -/
theorem Splits.enter {es : List Event} {vs : List Visit} {s : Stmt}
    (h : Splits es vs) (hs : Visit.remarks ⟨s, ρ, expected⟩ = []) :
    Splits es (⟨s, ρ, expected⟩ :: vs) := by
  obtain ⟨rest, hperm, hrest⟩ := h
  refine ⟨rest, ?_, hrest⟩
  rwa [List.flatMap_cons, hs, List.nil_append]

end

-- ========================================================== statements

/-- The scope around a branch belongs to no visit. -/
theorem splits_courseOfBranch {config : Config} {branch : Stmt}
    {course : Env → Frame → SymbolId → Signatures → Course}
    {visits : Env → Frame → SymbolId → Signatures → List Visit}
    (h : ∀ outer φ n σ,
      Splits (course outer φ n σ).events (visits outer φ n σ))
    (outer : Env) (φ : Frame) (n : SymbolId) (σ : Signatures) :
    Splits (courseOfBranch config branch course outer φ n σ).events
      (visitsOfBranch branch visits outer φ n σ) := by
  unfold courseOfBranch visitsOfBranch
  split
  · exact h outer φ n σ
  · exact (h (φ :: outer) [] n σ).closed config φ

mutual

/-- The course of a statement says what is remarked at its visits, and what
is found about bindings. -/
theorem Stmt.splits_course (config : Config) : (s : Stmt) →
    ∀ (expected : Option Ty) (outer : Env) (φ : Frame) (n : SymbolId)
      (σ : Signatures),
    Splits (s.course config expected outer φ n σ).events
      (s.visits config expected outer φ n σ)
  | .declaration t name ann init m, expected, outer, φ, n, σ =>
      (splits_declarationEvents _ expected t name ann init m).pass
        (splits_declaring _ _ _ _ _)
  | .function t name params result p body, expected, outer, φ, n, σ => by
      simp only [Stmt.course, Stmt.visits]
      refine Splits.enter _ _ (Splits.skip ?reached ?inside) rfl
      case reached =>
        show Splits (reachingFunction t name params result body φ n σ).events []
        unfold reachingFunction
        split
        · exact .concerns concerns_nil
        · exact splits_declaringFunction _ _ _ _ _ _ _
      case inside =>
        refine Splits.closed (Splits.skip (Splits.skip ?_ ?_) ?_) config _
        · exact splits_declaringParams _ _ _ _ _ _
        · exact splits_hoisting _ _ _ _
        · exact Stmt.splits_courseAll config body _ _ _ _ _
  | .assignment t target value, expected, outer, φ, n, σ =>
      splits_assignmentEvents _ expected t target value
  | .block t p ss, expected, outer, φ, n, σ => by
      simp only [Stmt.course, Stmt.visits]
      refine Splits.enter _ _ (Splits.closed (Splits.skip ?_ ?_) config φ) rfl
      · exact splits_hoisting _ _ _ _
      · exact Stmt.splits_courseAll config ss _ _ _ _ _
  | .ifElse t c a none, expected, outer, φ, n, σ => by
      simp only [Stmt.course, Stmt.visits]
      exact (splits_conditionEvents _ expected rfl rfl).append
        (splits_courseOfBranch
          (fun outer φ n σ => Stmt.splits_course config a expected outer φ n σ)
          outer φ n σ)
  | .ifElse t c a (some b), expected, outer, φ, n, σ => by
      simp only [Stmt.course, Stmt.visits]
      refine (splits_conditionEvents _ expected rfl rfl).append
        (Splits.append ?_ ?_)
      · exact splits_courseOfBranch
          (fun outer φ n σ => Stmt.splits_course config a expected outer φ n σ)
          outer φ n σ
      · exact splits_courseOfBranch
          (fun outer φ n σ => Stmt.splits_course config b expected outer φ n σ)
          outer _ _ _
  | .while t c b, expected, outer, φ, n, σ => by
      simp only [Stmt.course, Stmt.visits]
      exact (splits_conditionEvents _ expected rfl rfl).append
        (splits_courseOfBranch
          (fun outer φ n σ => Stmt.splits_course config b expected outer φ n σ)
          outer φ n σ)
  | .ret t value, expected, outer, φ, n, σ =>
      splits_returningEvents _ expected t value
  | .expr t e, expected, outer, φ, n, σ => splits_expr _ expected t e

theorem Stmt.splits_courseAll (config : Config) : (ss : List Stmt) →
    ∀ (expected : Option Ty) (outer : Env) (φ : Frame) (n : SymbolId)
      (σ : Signatures),
    Splits (Stmt.courseAll config ss expected outer φ n σ).events
      (Stmt.visitsAll config ss expected outer φ n σ)
  | [], expected, outer, φ, n, σ => .concerns concerns_nil
  | s :: ss, expected, outer, φ, n, σ => by
      simp only [Stmt.courseAll, Stmt.visitsAll]
      exact (Stmt.splits_course config s expected outer φ n σ).append
        (Stmt.splits_courseAll config ss expected outer _ _ _)

end

/-- The course of a program says what is remarked at its visits, and what is
found about bindings. -/
theorem Program.splits_course (config : Config) (p : Program) :
    Splits (p.course config).events (p.visits config) :=
  (splits_hoisting _ _ _ _).skip (Stmt.splits_courseAll config p.body _ _ _ _ _)

end TreeCheck
