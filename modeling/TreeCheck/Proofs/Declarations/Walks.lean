/-
A walk says of each declaration what the source says, once.

A function is declared ahead of its place or where it is reached, never
both: what the walk of a statement leaves out is what declaring the list
ahead has said (`Stmt.perm_saidAll`). What is looked at besides, the
expressions, what is checked about a statement and the unused names of a
scope, says nothing about declarations.
-/
import TreeCheck.Proofs.Account.Binding
import TreeCheck.Proofs.Declarations.Source
import TreeCheck.Proofs.Scoping.Level

namespace TreeCheck

open Analysis

-- ============================================== what says nothing of it

section

variable {ρ : Lookup} {es : List Event}

/-- Events that bind nothing and report nothing about bindings say nothing
about declarations. -/
theorem said_eq_nil (hlooks : Looks es)
    (h : ∀ node f, .found node f ∈ es → f.cause.concern ≠ .binding) : said es = [] := by
  refine List.filterMap_eq_nil_iff.mpr fun e he => ?_
  cases e with
  | bound d =>
      have hnone := List.filterMap_eq_nil_iff.mp hlooks _ he
      cases hnone
  | found node f =>
      have hconcern := h node f he
      rw [Event.declarative?, if_neg]
      intro hof
      refine hconcern ?_
      cases hc : f.cause with
      | unknownType | voidVariable => rfl
      | _ =>
          rw [hc] at hof
          cases hof
  | typed | resolved | read => rfl

theorem Concerns.said {of : Concern → Prop} (h : Concerns of es)
    (hof : ∀ c, of c → c ≠ .binding) : said es = [] := by
  refine said_eq_nil h.reports.looks fun node f hf => ?_
  obtain ⟨node', f', heq, hf'⟩ := h _ hf
  injection heq with _ hfinding
  exact hof _ (hfinding ▸ hf')

theorem said_expr (ρ : Lookup) (e : Expr) : said (e.events ρ) = [] := by
  refine said_eq_nil (e.consults_events ρ).looks fun node f hf => ?_
  rw [Expr.concern_of_events hf]
  exact nofun

theorem said_expr? (ρ : Lookup) (e : Option Expr) : said (Expr.events? ρ e) = [] := by
  cases e with
  | none => rfl
  | some e => exact said_expr ρ e

theorem concern_ne_binding : ∀ c, c = Concern.statement → c ≠ .binding := by
  rintro _ rfl
  exact nofun

theorem said_conditionEvents (ρ : Lookup) (node : NodeId) (construct : Construct)
    (c : Expr) : said (conditionEvents ρ node construct c) = [] := by
  have hcomplaint : Concerns (· = .statement) (complaint (isCondition (c.typeIn ρ)) node
      (.badCondition construct (c.typeIn ρ)) c.position) := concerns_complaint rfl
  rw [conditionEvents, said_append, said_expr, hcomplaint.said concern_ne_binding,
    List.append_nil]

theorem said_returningEvents (ρ : Lookup) (t : Tag) (expected : Option Ty)
    (value : Option Expr) : said (returningEvents ρ t expected value) = [] := by
  rw [returningEvents, said_append, said_expr?,
    (concerns_returnEvents _ _ _ _).said concern_ne_binding, List.append_nil]

theorem said_assignmentEvents (ρ : Lookup) (node : NodeId) (target value : Expr) :
    said (assignmentEvents ρ node target value) = [] := by
  cases target with
  | identifier t x =>
      rw [assignmentEvents]
      cases ρ x with
      | some d =>
          rw [said_append, said_append, said_expr,
            (concerns_storeEvents _ _ _ _ _ _).said concern_ne_binding]
          rfl
      | none =>
          rw [said_append, said_expr]
          rfl
  | literal | binary | unary | call =>
      rw [assignmentEvents, said_append, said_append, said_expr, said_expr]
      · rfl
      · intro _ _ h
        cases h

/-- The unused names of a scope are no matter of their declarations. -/
theorem said_leavingEvents (config : Config) (w : Walk) :
    said (leavingEvents config w) = [] := by
  refine List.filterMap_eq_nil_iff.mpr fun e he => ?_
  obtain ⟨node, f, rfl, hkind⟩ := exists_unused_of_leavingEvents he
  rw [Event.declarative?, if_neg]
  intro hof
  cases hc : f.cause with
  | unknownType | voidVariable =>
      rw [hc] at hkind
      cases hkind
  | _ =>
      rw [hc] at hof
      cases hof

theorem said_closed (config : Config) (φ : Frame) (w : Walk) :
    said (w.closed config φ).events = said w.events := by
  show said (w.events ++ leavingEvents config w) = _
  rw [said_append, said_leavingEvents, List.append_nil]

end

-- ============================================================= declaring

/-- What is said where a name is bound does not depend on the number it gets
and on what the scope has of its name. -/
theorem said_declaring (node : NodeId) (site : Site) (b : Binding) (φ : Frame)
    (n : SymbolId) :
    said (declaring node site b φ n).events
      = if b.kind = .variable then [] else [.unnumbered (site, b)] := by
  have hduplicate : said (duplicateEvents node b (φ.find b.name)) = [] := by
    cases φ.find b.name <;> rfl
  show said (duplicateEvents node b _ ++ [.bound ⟨⟨b, n⟩, site⟩]) = _
  rw [said_append, hduplicate, List.nil_append, said, List.filterMap_cons,
    Event.declarative?]
  by_cases hkind : b.kind = .variable
  · rw [if_pos hkind, if_pos hkind]
    rfl
  · rw [if_neg hkind, if_neg hkind]
    rfl

/-- What is found about annotations is said. -/
theorem said_valueEvents (node : NodeId) (name : String) (ann : TypeName) :
    said (ann.valueEvents node name) = ann.valueEvents node name := by
  rw [TypeName.valueEvents, TypeName.events, said_append]
  cases (Ty.ofName? ann.name).isSome <;> cases (ann.type != .void) <;> rfl

theorem said_signatureEvents (node : NodeId) (params : List Param)
    (result : Option TypeName) :
    said (signatureEvents node params result) = signatureEvents node params result := by
  have hparam (q : Param) : said (q.events node) = q.events node := by
    rw [Param.events]
    cases q.typeName with
    | none => rfl
    | some ann => exact said_valueEvents node q.name ann
  have hresult : said (result.elim [] (·.events node))
      = result.elim [] (·.events node) := by
    cases result with
    | none => rfl
    | some ann =>
        show said (ann.events node) = ann.events node
        rw [TypeName.events]
        cases (Ty.ofName? ann.name).isSome <;> rfl
  rw [signatureEvents, said_append, hresult, said, List.filterMap_flatMap]
  exact congrArg (· ++ _) (List.flatMap_congr fun q _ => hparam q)

/-- Where a function is declared, its heading is said. -/
theorem said_declaringFunction (f : FunctionDef) (φ : Frame) (n : SymbolId) :
    said (declaringFunction f.tag f.name f.params f.result f.body φ n).events
      = f.stmt.heading := by
  rw [declaringFunction, Walk.events_after, said_append, said_signatureEvents,
    said_declaring]
  rfl

theorem said_hoisting (earlier : List String) (ss : List Stmt) (φ : Frame)
    (n : SymbolId) :
    said (hoisting earlier ss φ n).events
      = (Stmt.functionsAhead earlier ss).flatMap Stmt.heading := by
  induction ss generalizing earlier φ n with
  | nil => rfl
  | cons s ss ih =>
      rw [Stmt.functionsAhead, List.flatMap_append]
      cases s with
      | function t name params result p body =>
          unfold hoisting
          by_cases hmem : name ∈ earlier
          · rw [if_pos hmem, ih, if_neg (by simpa [Stmt.isAhead] using hmem)]
            rfl
          · rw [if_neg hmem, if_pos (by simpa [Stmt.isAhead] using hmem),
              Walk.events_andThen, said_append, ih,
              said_declaringFunction ⟨t, name, params, result, p, body⟩,
              List.flatMap_singleton]
            rfl
      | declaration | assignment | block | ifElse | «while» | ret | expr =>
          exact ih _ φ n

theorem said_declaringParams (function : NodeId) (i : Nat) (ps : List Param) (φ : Frame)
    (n : SymbolId) :
    said (declaringParams function i ps (ps.map (·.type)) φ n).events
      = ((ps.zipIdx i).map fun q => ((.param function q.2,
          ⟨q.1.name, .parameter, q.1.type, q.1.position, true⟩) : Site × Binding)).map
            Event.unnumbered := by
  induction ps generalizing i φ n with
  | nil => rfl
  | cons p ps ih =>
      rw [List.map_cons, declaringParams, Walk.events_andThen, said_append,
        said_declaring, ih]
      rfl

/-- Where a variable is declared, what its annotation says is said. -/
theorem said_declaringVariable (ρ : Lookup) (t : Tag) (name : String)
    (ann : Option TypeName) (init : Option Expr) (mutable : Bool) (φ : Frame)
    (n : SymbolId) :
    said (declaringVariable ρ t name ann init mutable φ n).events
      = (Stmt.declaration t name ann init mutable).placing := by
  have hann : said (ann.elim [] (·.valueEvents t.id name))
      = ann.elim [] (·.valueEvents t.id name) := by
    cases ann with
    | none => rfl
    | some ann => exact said_valueEvents t.id name ann
  rw [declaringVariable, Walk.events_after, said_append, said_declaring, declarationEvents,
    said_append, said_append, hann, said_expr?,
    (concerns_initializerEvents _ _ _ _).said concern_ne_binding]
  simp [Stmt.placing]

-- ============================================================ statements

/-- What is said in a statement and all statements in it. -/
def Stmt.sayingAll (s : Stmt) : List Event := s.inner.flatMap Stmt.saying

theorem Stmt.sayingAll_eq (s : Stmt) :
    s.sayingAll = s.heading ++ (s.placing ++ s.children.flatMap Stmt.sayingAll) := by
  rw [sayingAll, inner_eq_cons, List.flatMap_cons, saying, List.append_assoc,
    List.flatMap_assoc]
  rfl

/-- A branch says what its statement says, in a scope of its own or not. -/
theorem said_walkBranch {config : Config} {expected : Option Ty} {s : Stmt}
    (h : ∀ outer φ n, (said (s.walk config expected false outer φ n).events).Perm
      (s.heading ++ (s.placing ++ s.children.flatMap Stmt.sayingAll)))
    (outer : Env) (φ : Frame) (n : SymbolId) :
    (said (walkBranch config s (Stmt.walk config s expected false) outer φ n).events).Perm
      s.sayingAll := by
  rw [Stmt.sayingAll_eq]
  unfold walkBranch
  split
  · exact h outer φ n
  · rw [said_closed]
    exact h (φ :: outer) [] n

mutual

/-- A walk says of a statement what the source says, but for the heading of
a function that was declared ahead. -/
theorem Stmt.perm_said (config : Config) : (s : Stmt) → ∀ (expected : Option Ty)
    (ahead : Bool) (outer : Env) (φ : Frame) (n : SymbolId),
    (said (s.walk config expected ahead outer φ n).events).Perm
      ((if ahead then [] else s.heading) ++ (s.placing
        ++ s.children.flatMap Stmt.sayingAll))
  | .declaration t name ann init m, expected, ahead, outer, φ, n => by
      rw [Stmt.walk, said_declaringVariable]
      cases ahead <;> simp [heading, children]
  | .function t name params result p body, expected, ahead, outer, φ, n => by
      have hown : said (if ahead then ⟨φ, n, []⟩
          else declaringFunction t name params result body φ n : Walk).events
          = if ahead then [] else heading (.function t name params result p body) := by
        cases ahead with
        | true => rfl
        | false => exact said_declaringFunction ⟨t, name, params, result, p, body⟩ φ n
      simp only [Stmt.walk, Walk.events_andThen, said_append, said_closed, said_hoisting,
        hown]
      refine List.Perm.append_left _ ?_
      rw [List.append_assoc]
      refine List.Perm.append (.of_eq ?_) (Stmt.perm_saidAll config body _ _ _ _ _)
      exact said_declaringParams t.id 0 params [] _
  | .assignment t target value, expected, ahead, outer, φ, n => by
      rw [Stmt.walk, said_assignmentEvents]
      cases ahead <;> exact .refl _
  | .block t p ss, expected, ahead, outer, φ, n => by
      simp only [Stmt.walk, said_closed, Walk.events_andThen, said_append, said_hoisting]
      have hall := Stmt.perm_saidAll config ss expected [] (φ :: outer)
      cases ahead <;> exact hall _ _
  | .ifElse t c a none, expected, ahead, outer, φ, n => by
      simp only [Stmt.walk, Walk.events_after, said_append, said_conditionEvents]
      have ha := said_walkBranch (Stmt.perm_said config a expected false) outer φ n
      cases ahead <;> simpa [heading, placing, children] using ha
  | .ifElse t c a (some b), expected, ahead, outer, φ, n => by
      simp only [Stmt.walk, Walk.events_after, Walk.events_andThen, said_append,
        said_conditionEvents]
      have ha := said_walkBranch (Stmt.perm_said config a expected false) outer φ n
      have hb := said_walkBranch (Stmt.perm_said config b expected false) outer
        (walkBranch config a (Stmt.walk config a expected false) outer φ n).frame
        (walkBranch config a (Stmt.walk config a expected false) outer φ n).next
      cases ahead <;> simpa [heading, placing, children] using ha.append hb
  | .while t c b, expected, ahead, outer, φ, n => by
      simp only [Stmt.walk, Walk.events_after, said_append, said_conditionEvents]
      have hb := said_walkBranch (Stmt.perm_said config b expected false) outer φ n
      cases ahead <;> simpa [heading, placing, children] using hb
  | .ret t value, expected, ahead, outer, φ, n => by
      rw [Stmt.walk, said_returningEvents]
      cases ahead <;> exact .refl _
  | .expr t e, expected, ahead, outer, φ, n => by
      rw [Stmt.walk, said_expr]
      cases ahead <;> exact .refl _

/-- Declaring the functions of a list ahead and then walking the list says
what the source says of its statements, each thing once. -/
theorem Stmt.perm_saidAll (config : Config) : (ss : List Stmt) →
    ∀ (expected : Option Ty) (earlier : List String) (outer : Env) (φ : Frame)
    (n : SymbolId),
    ((Stmt.functionsAhead earlier ss).flatMap Stmt.heading
      ++ said (Stmt.walkAll config ss expected earlier outer φ n).events).Perm
      (ss.flatMap Stmt.sayingAll)
  | [], expected, earlier, outer, φ, n => .refl _
  | s :: ss, expected, earlier, outer, φ, n => by
      have hfirst := Stmt.perm_said config s expected (s.isAhead earlier) outer φ n
      have hrest := Stmt.perm_saidAll config ss expected (s.variablesAfter earlier) outer
        (s.walk config expected (s.isAhead earlier) outer φ n).frame
        (s.walk config expected (s.isAhead earlier) outer φ n).next
      -- Ahead or in its place, the heading is said once.
      have hown : ((if s.isAhead earlier then [s] else []).flatMap Stmt.heading
          ++ ((if s.isAhead earlier then [] else s.heading) ++ (s.placing
            ++ s.children.flatMap Stmt.sayingAll))) = s.sayingAll := by
        rw [sayingAll_eq]
        cases s.isAhead earlier <;> simp
      rw [functionsAhead, List.flatMap_append, Stmt.walkAll, Walk.events_andThen,
        said_append, List.flatMap_cons]
      refine (perm_append_append _ _ _ _).trans (List.Perm.append ?_ hrest)
      exact (hfirst.append_left _).trans (.of_eq hown)

end

end TreeCheck
