/-
Scopes, as typing sees them.

The symbols of a frame have the types that the level of the scope knows.
That no name is declared twice is checked one binding at a time: each
new name is compared with the names bound before. What is checked in
all is that the bound names are distinct, and these are the parameters,
the functions declared ahead and what is bound in place: all names that
the scope declares, in another order.
-/
import Mathlib.Data.List.Nodup
import Mathlib.Tactic.Tauto
import TreeCheck.Proofs.Typing.Statements

namespace TreeCheck

open Analysis

-- ============================================================== names

/-- The name that a statement binds where it stands, by whether it is a
function that has been declared ahead. -/
def Stmt.boundHere? (ahead : Bool) : Stmt → Option String
  | .declaration _ name _ _ _ => some name
  | .function _ name _ _ _ _ => if ahead then none else some name
  | _ => none

/-- The names that the statements of a list bind where they stand. -/
def Stmt.boundInPlace : List String → List Stmt → List String
  | _, [] => []
  | earlier, s :: ss =>
    (s.boundHere? (s.isAhead earlier)).toList
      ++ boundInPlace (s.variablesAfter earlier) ss

/-- The names of the functions of a list that are declared ahead. -/
def Stmt.boundAhead (earlier : List String) (ss : List Stmt) : List String :=
  (Stmt.functionsAhead earlier ss).filterMap Stmt.declaredName?

/-- What is declared is bound ahead or in place. -/
theorem Stmt.perm_bound (earlier : List String) (ss : List Stmt) :
    (boundAhead earlier ss ++ boundInPlace earlier ss).Perm
      (ss.filterMap Stmt.declaredName?) := by
  induction ss generalizing earlier with
  | nil => exact .nil
  | cons s ss ih =>
      rw [boundAhead, functionsAhead, boundInPlace, List.filterMap_append]
      have ih := ih (s.variablesAfter earlier)
      rw [boundAhead] at ih
      cases s with
      | declaration t name ann init m =>
          exact List.perm_middle.trans (ih.cons name)
      | function t name params result p body =>
          by_cases hmem : name ∈ earlier
          · simp only [isAhead, hmem, not_true, decide_false, boundHere?]
            exact List.perm_middle.trans (ih.cons name)
          · simp only [isAhead, hmem, not_false_eq_true, decide_true, boundHere?]
            exact ih.cons name
      | assignment | block | ifElse | «while» | ret | expr => exact ih

/-- The names that a frame has. -/
def Frame.names (φ : Frame) : List String := φ.map (·.name)

theorem Frame.find_eq_none {φ : Frame} {x : String} :
    φ.find x = none ↔ x ∉ φ.names := by
  rw [Frame.find, List.find?_eq_none, Frame.names, List.mem_map]
  simp

theorem Stmt.names_walk (config : Config) (s : Stmt) (expected : Option Ty)
    (ahead : Bool) (outer : Env) (φ : Frame) (n : SymbolId) :
    (s.walk config expected ahead outer φ n).frame.names
      = (s.boundHere? ahead).toList ++ φ.names := by
  cases s with
  | declaration t name ann init m => rfl
  | function t name params result p body =>
      rw [Stmt.frame_walk rfl]
      cases ahead <;> rfl
  | assignment | block | ifElse | «while» | ret | expr =>
      rw [Stmt.frame_walk rfl]
      rfl

/-- Names that are new one after the other. -/
theorem distinct_new_cons {x : String} {as bs : List String} :
    (x :: bs).Nodup ∧ as.Disjoint (x :: bs)
      ↔ x ∉ as ∧ bs.Nodup ∧ (x :: as).Disjoint bs := by
  rw [List.nodup_cons, List.disjoint_cons_right, List.disjoint_cons_left]
  tauto

-- ======================================================== annotations

/-- The annotations of a function statement are valid. -/
def Stmt.Annotated : Stmt → Prop
  | .function _ _ params result _ body =>
      ∃ sig, Signature.of? params result body = some sig
  | _ => True

section

variable {t : Tag} {name : String} {params : List Param}
  {result : Option TypeName} {p : Position} {body : List Stmt}

/-- The signature of a function whose annotations are valid. -/
theorem Stmt.Annotated.signature
    (h : (Stmt.function t name params result p body).Annotated) :
    Signature.of? params result body
      = some (Signature.of params result body) := by
  obtain ⟨sig, hsig⟩ := h
  rw [hsig, ((Signature.of?_eq_some 0).mp hsig).2]

/-- A function whose annotations are valid is declared with its
signature. -/
theorem Stmt.typedDecl?_of_annotated
    (h : (Stmt.function t name params result p body).Annotated) :
    Stmt.typedDecl? (.function t name params result p body)
      = some ⟨name, .function, .func (Signature.of params result body).params
          (Signature.of params result body).ret, false⟩ := by
  rw [Stmt.typedDecl?, h.signature]
  rfl

end

-- ============================================================ frames

/-- What holds of the declarations in programs without errors. -/
structure Decl.Fit (d : Decl TypeInfo) : Prop where
  firstOrder : d.info.type.FirstOrder
  parameter : d.kind = .parameter → d.info.mutable = true

/-- The symbols of a frame are fit. -/
def Frame.Fit (φ : Frame) : Prop := ∀ d ∈ φ, (d.decl Declared.typeInfo).Fit

/-- An environment gives what scopes say. -/
structure Models (outer : Env) (Γ : Scopes) : Prop where
  finds : RealisesAll Declared.typeInfo outer Γ
  fit : ∀ φ ∈ outer, φ.Fit

theorem Models.gives {outer : Env} {Γ : Scopes} (h : Models outer Γ) :
    Gives outer.find Γ := by
  have hfit : ∀ x d, outer.find x = some d → (d.decl Declared.typeInfo).Fit := by
    intro x d hd
    obtain ⟨φ, hφ, hfind⟩ := List.exists_of_findSome?_eq_some hd
    exact h.fit φ hφ d (Frame.mem_of_find hfind)
  exact ⟨h.finds, fun x d hd => (hfit x d hd).firstOrder,
    fun x d hd => (hfit x d hd).parameter⟩

theorem Models.cons {outer : Env} {Γ : Scopes} {φ : Frame} {L : Level TypeInfo}
    (h : Models outer Γ) (hφ : Realises Declared.typeInfo φ L) (hfit : φ.Fit) :
    Models (φ :: outer) (L :: Γ) where
  finds := hφ.cons h.finds
  fit := List.forall_mem_cons.mpr ⟨hfit, h.fit⟩

/-- A frame is the scope that a level describes, so far without
duplicates. -/
structure Tracks (φ : Frame) (earlier : List String)
    (L : Level TypeInfo) : Prop where
  shows : Shows Declared.typeInfo φ earlier L
  fit : φ.Fit
  nodup : φ.names.Nodup

theorem fit_function {t : Tag} {name : String} {params : List Param}
    {result : Option TypeName} {p : Position} {body : List Stmt}
    (h : (Stmt.function t name params result p body).Annotated) :
    Decl.Fit ⟨name, .function, .func (Signature.of params result body).params
      (Signature.of params result body).ret, false⟩ :=
  ⟨Signature.firstOrder_of? h.signature, nofun⟩

-- ============================================================ opening

section

variable (function : NodeId)

theorem typedParams_map (params : List Param) :
    typedParams params (params.map (·.type))
      = params.map fun p => ⟨p.name, .parameter, p.type, true⟩ := by
  induction params with
  | nil => rfl
  | cons p ps ih =>
      rw [List.map_cons, List.map_cons, ← ih]
      rfl

theorem decls_typedParams (params : List Param) (n : SymbolId) :
    (declaringParams function 0 params (params.map (·.type)) [] n).frame.map
        (·.decl Declared.typeInfo)
      = (typedParams params (params.map (·.type))).reverse := by
  rw [decls_declaringParams (π := fun _ p => ⟨p.name, .parameter, p.type, true⟩)
    fun _ _ _ => rfl, typedParams_map, List.map_nil, List.append_nil]
  have hindex := congrArg (List.map fun p : Param =>
    (⟨p.name, .parameter, p.type, true⟩ : Decl TypeInfo))
      (List.zipIdx_map_fst 0 params)
  rw [List.map_map] at hindex
  exact congrArg List.reverse hindex

theorem names_decls {φ : Frame} :
    (φ.map (·.decl Declared.typeInfo)).map (·.name) = φ.names := by
  rw [List.map_map]
  rfl

theorem names_declaringParams (params : List Param) (n : SymbolId) :
    (declaringParams function 0 params (params.map (·.type)) [] n).frame.names
      = (params.map (·.name)).reverse := by
  rw [← names_decls, decls_typedParams, typedParams_map, List.map_reverse,
    List.map_map]
  rfl

theorem clean_declaringParams (i : Nat) (ps : List Param) (φ : Frame)
    (n : SymbolId) :
    Clean (declaringParams function i ps (ps.map (·.type)) φ n).events
      ↔ (ps.map (·.name)).Nodup ∧ φ.names.Disjoint (ps.map (·.name)) := by
  induction ps generalizing i φ n with
  | nil => exact iff_of_true clean_nil ⟨List.nodup_nil, List.disjoint_nil_right _⟩
  | cons p ps ih =>
      rw [List.map_cons, List.map_cons, declaringParams, Walk.events_andThen,
        clean_append, clean_declaring, Frame.find_eq_none, distinct_new_cons]
      exact and_congr_right fun _ => ih (i + 1) _ _

end

theorem clean_declaringFunction {t : Tag} {name : String} {params : List Param}
    {result : Option TypeName} {p : Position} {body : List Stmt} {φ : Frame}
    {n : SymbolId} :
    Clean (declaringFunction t name params result body φ n).events
      ↔ (Stmt.function t name params result p body).Annotated
        ∧ name ∉ φ.names := by
  rw [declaringFunction, Walk.events_after, clean_append, clean_declaring,
    Frame.find_eq_none]
  refine and_congr_left fun _ => ?_
  constructor
  · intro h
    exact ⟨_, (Signature.of?_eq_some t.id).mpr ⟨h, rfl⟩⟩
  · intro h
    exact ((Signature.of?_eq_some t.id).mp h.signature).1

/-- A function is reached cleanly if its annotations are valid and its name
is new, unless it was declared ahead. -/
theorem clean_reached {t : Tag} {name : String} {params : List Param}
    {result : Option TypeName} {p : Position} {body : List Stmt} {ahead : Bool}
    {φ : Frame} {n : SymbolId} :
    Clean (if ahead then ⟨φ, n, []⟩
        else declaringFunction t name params result body φ n : Walk).events
      ↔ (ahead = false →
          (Stmt.function t name params result p body).Annotated)
        ∧ ∀ x ∈ Stmt.boundHere? ahead (.function t name params result p body),
          x ∉ φ.names := by
  cases ahead with
  | true => exact iff_of_true clean_nil ⟨nofun, nofun⟩
  | false =>
      refine (clean_declaringFunction (p := p)).trans ?_
      simp [Stmt.boundHere?]

/-- Declaring functions ahead is clean if their annotations are valid and
their names are new. -/
theorem clean_hoisting (earlier : List String) (ss : List Stmt) (φ : Frame)
    (n : SymbolId) :
    Clean (hoisting earlier ss φ n).events
      ↔ (∀ s ∈ Stmt.functionsAhead earlier ss, s.Annotated)
        ∧ (Stmt.boundAhead earlier ss).Nodup
        ∧ φ.names.Disjoint (Stmt.boundAhead earlier ss) := by
  induction ss generalizing earlier φ n with
  | nil =>
      refine iff_of_true clean_nil
        ⟨fun _ hs => (List.not_mem_nil hs).elim, ?_, ?_⟩
      · exact List.nodup_nil
      · exact List.disjoint_nil_right _
  | cons s ss ih =>
      cases s with
      | function t name params result p body =>
          by_cases hmem : name ∈ earlier
          · simp only [hoisting, Stmt.boundAhead, Stmt.functionsAhead,
              Stmt.isAhead, hmem, if_true, not_true, decide_false,
              Bool.false_eq_true, if_false, List.nil_append]
            exact ih earlier φ n
          · simp only [hoisting, Stmt.boundAhead, Stmt.functionsAhead,
              Stmt.isAhead, hmem, if_false, not_false_eq_true, decide_true,
              if_true, List.singleton_append, Walk.events_andThen, clean_append,
              List.forall_mem_cons,
              List.filterMap_cons_some (rfl : Stmt.declaredName?
                (.function t name params result p body) = some name)]
            rw [clean_declaringFunction (p := p), distinct_new_cons, and_assoc,
              and_assoc]
            refine and_congr_right fun _ => ?_
            rw [and_left_comm]
            exact and_congr_right fun _ => ih earlier _ _
      | declaration | assignment | block | ifElse | «while» | ret | expr =>
          exact ih _ φ n

-- ======================================================= whole scopes

/-- With valid annotations, the functions declared ahead have their
names. -/
theorem names_typedDecls {earlier : List String} {ss : List Stmt}
    (h : ∀ s ∈ Stmt.functionsAhead earlier ss, s.Annotated) :
    ((Stmt.functionsAhead earlier ss).filterMap Stmt.typedDecl?).map (·.name)
      = Stmt.boundAhead earlier ss := by
  rw [List.map_filterMap, Stmt.boundAhead]
  refine List.filterMap_congr fun s hs => ?_
  obtain ⟨-, names, hahead⟩ := Stmt.mem_of_ahead hs
  cases s with
  | function t name params result p body =>
      rw [Stmt.typedDecl?_of_annotated (h _ hs)]
      rfl
  | declaration | assignment | block | ifElse | «while» | ret | expr =>
      cases hahead

section

variable (function : NodeId) (params : List Param) {ss : List Stmt}
  (n m : SymbolId)

theorem decls_opened (h : ∀ s ∈ Stmt.functionsAhead [] ss, s.Annotated) :
    (Frame.opened function params ss n m).map (·.decl Declared.typeInfo)
      = ((Stmt.functionsAhead [] ss).filterMap Stmt.typedDecl?).reverse
        ++ (typedParams params (params.map (·.type))).reverse := by
  rw [Frame.opened, decls_hoisting (δ := Stmt.typedDecl?) [] ?_,
    decls_typedParams]
  intro t name params result p body hmem n
  exact Stmt.typedDecl?_of_annotated (h _ hmem)

theorem names_opened (h : ∀ s ∈ Stmt.functionsAhead [] ss, s.Annotated) :
    (Frame.opened function params ss n m).names
      = (Stmt.boundAhead [] ss).reverse ++ (params.map (·.name)).reverse := by
  rw [← names_decls, decls_opened function params n m h, List.map_append,
    List.map_reverse, List.map_reverse, names_typedDecls h, typedParams_map,
    List.map_map]
  rfl

/-- The frame of a scope at its first statement. -/
theorem tracks_opened (hparams : ∀ p ∈ params, p.type.FirstOrder)
    (h : ∀ s ∈ Stmt.functionsAhead [] ss, s.Annotated)
    (hnodup : (params.map (·.name) ++ Stmt.boundAhead [] ss).Nodup) :
    Tracks (.opened function params ss n m) []
      (.entered (typedParams params (params.map (·.type))) ss) where
  shows := shows_of_decls (decls_opened function params n m h)
  fit := by
    intro d hd
    have hmem := List.mem_map_of_mem (f := (·.decl Declared.typeInfo)) hd
    rw [decls_opened function params n m h, List.mem_append, List.mem_reverse,
      List.mem_reverse]
      at hmem
    rcases hmem with hmem | hmem
    · obtain ⟨s, hs, hdecl⟩ := List.mem_filterMap.mp hmem
      cases s with
      | function t name params result p body =>
          rw [Stmt.typedDecl?_of_annotated (h _ hs)] at hdecl
          rw [← Option.some.inj hdecl]
          exact fit_function (h _ hs)
      | declaration | assignment | block | ifElse | «while» | ret | expr =>
          cases hdecl
    · rw [typedParams_map] at hmem
      obtain ⟨p, hp, hdecl⟩ := List.mem_map.mp hmem
      rw [← hdecl]
      exact ⟨hparams p hp, fun _ => rfl⟩
  nodup := by
    rw [names_opened function params n m h, ← List.reverse_append]
    exact (List.reverse_perm _).nodup_iff.mpr hnodup

end

theorem StmtsOk.annotated {ret : Option Ty} {Γ : Scopes} {L : Level TypeInfo}
    {ss : List Stmt} (h : StmtsOk ret Γ L ss) : ∀ s ∈ ss, s.Annotated := by
  induction ss generalizing L with
  | nil => exact nofun
  | cons s ss ih =>
      cases h with
      | cons hs hss =>
          refine List.forall_mem_cons.mpr ⟨?_, ih hss⟩
          cases hs with
          | function hsig _ => exact ⟨_, hsig⟩
          | «variable» | assignment | block | ifThen | ifElse | «while» | ret | bareRet
            | expr => trivial

/-- A scope is opened cleanly if the annotations of its functions are valid
and its parameters and functions have distinct names. -/
theorem clean_opening (function : NodeId) (params : List Param) (ss : List Stmt)
    (n m : SymbolId) :
    Clean (declaringParams function 0 params (params.map (·.type)) [] n).events
        ∧ Clean (hoisting [] ss (declaringParams function 0 params
          (params.map (·.type)) [] n).frame m).events
      ↔ (∀ s ∈ Stmt.functionsAhead [] ss, s.Annotated)
        ∧ (params.map (·.name) ++ Stmt.boundAhead [] ss).Nodup := by
  have hnew : Frame.names [] |>.Disjoint (params.map (·.name)) :=
    List.disjoint_nil_left _
  rw [clean_declaringParams, clean_hoisting, names_declaringParams,
    List.disjoint_reverse_left, List.nodup_append', and_iff_left hnew,
    and_left_comm]

/-- What is bound in a scope is what it declares, in another order. -/
theorem perm_names_opened (function : NodeId) (params : List Param)
    {ss : List Stmt} (n m : SymbolId)
    (h : ∀ s ∈ Stmt.functionsAhead [] ss, s.Annotated) :
    ((Frame.opened function params ss n m).names ++ Stmt.boundInPlace [] ss).Perm
      (params.map (·.name) ++ ss.filterMap Stmt.declaredName?) := by
  rw [names_opened function params n m h, ← List.reverse_append]
  refine ((List.reverse_perm _).append_right _).trans ?_
  rw [List.append_assoc]
  exact (Stmt.perm_bound [] ss).append_left _

/-- A scope is clean if it is well-formed, provided that its list is
walked cleanly if the statements are well-formed and bind new names. -/
theorem clean_scope (config : Config) (function : NodeId) (params : List Param)
    {ss : List Stmt} (n : SymbolId) {ret : Option Ty} {Γ : Scopes} {outer : Env}
    (hparams : ∀ p ∈ params, p.type.FirstOrder)
    (hss : ∀ {φ : Frame} {n : SymbolId} {L : Level TypeInfo}, Tracks φ [] L →
      (∀ s ∈ Stmt.functionsAhead [] ss, s.Annotated) →
      (Clean (Stmt.walkAll config ss ret [] outer φ n).events
        ↔ StmtsOk ret Γ L ss ∧ (φ.names ++ Stmt.boundInPlace [] ss).Nodup)) :
    Clean (((declaringParams function 0 params (params.map (·.type)) [] n).andThen
        (hoisting [] ss)).andThen (Stmt.walkAll config ss ret [] outer)).events
      ↔ ScopeOk ret Γ (typedParams params (params.map (·.type))) ss := by
  have hnames : (typedParams params (params.map (·.type))).map (·.name)
      = params.map (·.name) := by
    rw [typedParams_map, List.map_map]
    rfl
  rw [Walk.events_andThen, Walk.events_andThen, clean_append, clean_append,
    clean_opening]
  constructor
  · intro h
    obtain ⟨⟨hann, hopened⟩, hwalk⟩ := h
    obtain ⟨hok, hbound⟩ :=
      (hss (tracks_opened function params n _ hparams hann hopened) hann).mp hwalk
    refine .scope ?_ hok
    rw [hnames]
    exact (perm_names_opened function params n _ hann).nodup_iff.mp hbound
  · intro h
    cases h with
    | scope hnodup hok =>
        rw [hnames] at hnodup
        have hann : ∀ s ∈ Stmt.functionsAhead [] ss, s.Annotated :=
          fun s hs => hok.annotated s (Stmt.mem_of_ahead hs).1
        have hopened : (params.map (·.name) ++ Stmt.boundAhead [] ss).Nodup := by
          have hbound := (Stmt.perm_bound [] ss).append_left (params.map (·.name))
          have hall := hbound.nodup_iff.mpr hnodup
          rw [← List.append_assoc] at hall
          exact (List.nodup_append.mp hall).1
        refine ⟨⟨hann, hopened⟩, ?_⟩
        refine (hss (tracks_opened function params n _ hparams hann hopened)
          hann).mpr ⟨hok, ?_⟩
        exact (perm_names_opened function params n _ hann).nodup_iff.mpr hnodup

end TreeCheck
