/-
The declarations of a program, as parts of the source.

A place names a declaration by the identity of its statement, which
other statements may share. An origin is the declaration itself: a
statement, or a parameter of a function. Origins are listed in the order
in which declarations are numbered, so the number of a symbol leads to
what was written, whatever identities the nodes have.

The list follows what happens to a function whose identity another one
had before. Such a function is not declared where it is reached, and its
parameters are declared as far as the kept signature has types for them.
-/
import TreeCheck.Proofs.Account.Course
import TreeCheck.Proofs.Scoping.Level
import TreeCheck.Proofs.Visits.Visit

namespace TreeCheck

open Analysis

/-- A declaration of a program: a statement, or a parameter of a function,
counted from zero. -/
inductive Origin where
  | stmt (s : Stmt)
  | param (function : Stmt) (index : Nat)
deriving Repr

-- =========================================================== signatures

/-- The signatures that are kept once a function has been reached. -/
def Stmt.reached (s : Stmt) (σ : Signatures) : Signatures :=
  if s.id ∈ σ then σ else s.signed σ

mutual

/-- The signatures that are kept after a statement. -/
def Stmt.keeping : Stmt → Signatures → Signatures
  | .function t name params result p body, σ =>
    Stmt.keepingAll body (hoistedSignatures [] body
      (Stmt.reached (.function t name params result p body) σ))
  | .block _ _ ss, σ => Stmt.keepingAll ss (hoistedSignatures [] ss σ)
  | .ifElse _ _ a none, σ => a.keeping σ
  | .ifElse _ _ a (some b), σ => b.keeping (a.keeping σ)
  | .while _ _ b, σ => b.keeping σ
  | .declaration _ _ _ _ _, σ | .assignment _ _ _, σ | .ret _ _, σ
  | .expr _ _, σ => σ
termination_by structural s => s

/-- The signatures that are kept after the statements of a list. -/
def Stmt.keepingAll : List Stmt → Signatures → Signatures
  | [], σ => σ
  | s :: ss, σ => Stmt.keepingAll ss (s.keeping σ)
termination_by structural ss => ss

end

-- ============================================================== origins

/-- The functions of a list that are declared ahead. -/
def originsAhead (earlier : List String) (ss : List Stmt) : List Origin :=
  (Stmt.functionsAhead earlier ss).map .stmt

/-- Parameters of a function, from one with a given index on. -/
def originsOfParams (function : Stmt) (index count : Nat) : List Origin :=
  (List.range' index count).map (.param function)

mutual

/-- The declarations in a statement that are not made ahead of it. -/
def Stmt.origins : Stmt → Signatures → List Origin
  | .declaration t name ann init m, _ =>
    [.stmt (.declaration t name ann init m)]
  | .function t name params result p body, σ =>
    let s := Stmt.function t name params result p body
    let sig := σ[t.id]?.getD (Signature.of params result body)
    (if t.id ∈ σ then [] else [.stmt s])
      ++ (originsOfParams s 0 (min params.length sig.params.length)
        ++ originsAhead [] body
        ++ Stmt.originsAll body (hoistedSignatures [] body (s.reached σ)))
  | .block _ _ ss, σ =>
    originsAhead [] ss ++ Stmt.originsAll ss (hoistedSignatures [] ss σ)
  | .ifElse _ _ a none, σ => a.origins σ
  | .ifElse _ _ a (some b), σ => a.origins σ ++ b.origins (a.keeping σ)
  | .while _ _ b, σ => b.origins σ
  | .assignment _ _ _, _ | .ret _ _, _ | .expr _ _, _ => []
termination_by structural s => s

/-- The declarations in a list that are not made ahead of it. -/
def Stmt.originsAll : List Stmt → Signatures → List Origin
  | [], _ => []
  | s :: ss, σ => s.origins σ ++ Stmt.originsAll ss (s.keeping σ)
termination_by structural ss => ss

end

/-- The declarations of a program, in the order in which they are
numbered. -/
def Program.origins (p : Program) : List Origin :=
  originsAhead [] p.body
    ++ Stmt.originsAll p.body (hoistedSignatures [] p.body {})

/-- The statement that an origin is, or is a parameter of. -/
def Origin.source : Origin → Stmt
  | .stmt s | .param s _ => s

theorem source_of_ahead (d : Nat) (r : Role) {ss : List Stmt} {o : Origin}
    (h : o ∈ originsAhead [] ss) :
    o.source ∈ (Stmt.outlines d r ss).filterMap (·.node.stmt?) := by
  obtain ⟨s, hs, rfl⟩ := List.mem_map.mp h
  exact Stmt.mem_stmts_outlines d r (Stmt.mem_of_ahead hs).1

mutual

/-- What a statement declares is in the statement. -/
theorem Stmt.source_of_origins (d : Nat) (r : Role) : (s : Stmt) →
    ∀ {σ : Signatures} {o : Origin}, o ∈ s.origins σ →
    o.source ∈ (s.outline d r).filterMap (·.node.stmt?)
  | .declaration t name ann init m, σ, o, h => by
      rw [List.mem_singleton.mp h]
      exact List.mem_cons_self
  | .function t name params result p body, σ, o, h => by
      rw [Stmt.outline, Outline.stmts_cons, List.mem_cons]
      rcases List.mem_append.mp h with hown | hinside
      · split at hown
        · cases hown
        · exact .inl (congrArg Origin.source (List.mem_singleton.mp hown))
      · rcases List.mem_append.mp hinside with hopened | hbody
        · rcases List.mem_append.mp hopened with hparam | hahead
          · obtain ⟨i, -, rfl⟩ := List.mem_map.mp hparam
            exact .inl rfl
          · exact .inr (source_of_ahead _ _ hahead)
        · exact .inr (Stmt.source_of_originsAll _ _ body hbody)
  | .block t p ss, σ, o, h => by
      rw [Stmt.outline, Outline.stmts_cons, List.mem_cons]
      rcases List.mem_append.mp h with hahead | hstmts
      · exact .inr (source_of_ahead _ _ hahead)
      · exact .inr (Stmt.source_of_originsAll _ _ ss hstmts)
  | .ifElse t c a none, σ, o, h => by
      rw [Stmt.outline, Outline.stmts_cons, List.filterMap_append]
      exact List.mem_cons_of_mem _
        (List.mem_append_right _ (Stmt.source_of_origins _ _ a h))
  | .ifElse t c a (some b), σ, o, h => by
      rw [Stmt.outline, Outline.stmts_cons, List.filterMap_append,
        List.filterMap_append]
      refine List.mem_cons_of_mem _ ?_
      rcases List.mem_append.mp h with ha | hb
      · exact List.mem_append_left _
          (List.mem_append_right _ (Stmt.source_of_origins _ _ a ha))
      · exact List.mem_append_right _ (Stmt.source_of_origins _ _ b hb)
  | .while t c b, σ, o, h => by
      rw [Stmt.outline, Outline.stmts_cons, List.filterMap_append]
      exact List.mem_cons_of_mem _
        (List.mem_append_right _ (Stmt.source_of_origins _ _ b h))
  | .assignment t target value, σ, o, h => nomatch h
  | .ret t value, σ, o, h => nomatch h
  | .expr t e, σ, o, h => nomatch h

theorem Stmt.source_of_originsAll (d : Nat) (r : Role) : (ss : List Stmt) →
    ∀ {σ : Signatures} {o : Origin}, o ∈ Stmt.originsAll ss σ →
    o.source ∈ (Stmt.outlines d r ss).filterMap (·.node.stmt?)
  | [], σ, o, h => nomatch h
  | s :: ss, σ, o, h => by
      rw [Stmt.outlines, List.filterMap_append, List.mem_append]
      rcases List.mem_append.mp h with hfirst | hrest
      · exact .inl (Stmt.source_of_origins d r s hfirst)
      · exact .inr (Stmt.source_of_originsAll d r ss hrest)

end

/-- What a program declares is in the program. -/
theorem Program.source_of_origin {p : Program} {n : SymbolId} {o : Origin}
    (h : p.origins[n]? = some o) : o.source ∈ p.stmts := by
  rcases List.mem_append.mp (List.mem_of_getElem? h) with hahead | hbody
  · exact source_of_ahead _ _ hahead
  · exact Stmt.source_of_originsAll _ _ p.body hbody

-- ============================================================ numbering

/-- A course binds as many symbols as there are origins, and keeps certain
signatures. -/
structure Reckons (n : SymbolId) (os : List Origin) (σ' : Signatures)
    (c : Course) : Prop where
  next : c.next = n + os.length
  signatures : c.signatures = σ'

namespace Reckons

variable {n : SymbolId} {os os' : List Origin} {σ' σ'' : Signatures} {c : Course}

theorem andThen {f : Frame → SymbolId → Signatures → Course}
    (h : Reckons n os σ' c) (h' : Reckons c.next os' σ'' (f c.frame c.next σ')) :
    Reckons n (os ++ os') σ'' (c.andThen f) := by
  obtain ⟨hnext, rfl⟩ := h
  refine ⟨?_, h'.signatures⟩
  show (f c.frame c.next c.signatures).next = _
  rw [h'.next, hnext, List.length_append, Nat.add_assoc]

theorem after (h : Reckons n os σ' c) (es : List Event) :
    Reckons n os σ' (c.after es) := ⟨h.next, h.signatures⟩

theorem closed (h : Reckons n os σ' c) (config : Config) (φ : Frame) :
    Reckons n os σ' (c.closed config φ) := ⟨h.next, h.signatures⟩

end Reckons

theorem next_hoisting (earlier : List String) (ss : List Stmt) (φ : Frame)
    (n : SymbolId) :
    (hoisting earlier ss φ n).next = n + (originsAhead earlier ss).length := by
  induction ss generalizing earlier φ n with
  | nil => rfl
  | cons s ss ih =>
      cases s with
      | function t name params result p body =>
          unfold hoisting originsAhead Stmt.functionsAhead
          by_cases hmem : name ∈ earlier
          · simp only [hmem, if_true, Stmt.isAhead, Stmt.variablesAfter, not_true,
              decide_false, Bool.false_eq_true, if_false, List.nil_append]
            exact ih earlier φ n
          · simp only [hmem, if_false, Stmt.isAhead, Stmt.variablesAfter,
              not_false_eq_true, decide_true, if_true, List.singleton_append,
              List.map_cons, List.length_cons]
            have hnext : (declaringFunction t name params result body φ n).next
                = n + 1 := rfl
            rw [Walk.next_andThen, ih, hnext, Nat.add_right_comm, Nat.add_assoc,
              originsAhead]
      | declaration | assignment | block | ifElse | «while» | ret | expr =>
          exact ih _ φ n

theorem reckons_hoisting (ss : List Stmt) (φ : Frame) (n : SymbolId)
    (σ : Signatures) :
    Reckons n (originsAhead [] ss) (hoistedSignatures [] ss σ)
      (hoistingCourse ss φ n σ) := ⟨next_hoisting [] ss φ n, rfl⟩

theorem next_declaringParams (function : NodeId) (i : Nat) (ps : List Param)
    (tys : List Ty) (φ : Frame) (n : SymbolId) :
    (declaringParams function i ps tys φ n).next
      = n + min ps.length tys.length := by
  induction ps generalizing i tys φ n with
  | nil => simp [declaringParams]
  | cons p ps ih =>
      cases tys with
      | nil => rfl
      | cons ty tys =>
          have hnext (site : Site) (b : Binding) :
              (declaring function site b φ n).next = n + 1 := rfl
          rw [declaringParams, Walk.next_andThen, ih, hnext, List.length_cons,
            List.length_cons, Nat.add_min_add_right, Nat.add_right_comm,
            Nat.add_assoc]

theorem reckons_declaringParams (s : Stmt) (function : NodeId) (ps : List Param)
    (tys : List Ty) (φ : Frame) (n : SymbolId) (σ : Signatures) :
    Reckons n (originsOfParams s 0 (min ps.length tys.length)) σ
      ⟨declaringParams function 0 ps tys φ n, σ⟩ where
  next := by
    rw [originsOfParams, List.length_map, List.length_range']
    exact next_declaringParams _ _ _ _ _ _
  signatures := rfl

theorem reckons_reachingFunction (t : Tag) (name : String) (params : List Param)
    (result : Option TypeName) (p : Position) (body : List Stmt) (φ : Frame)
    (n : SymbolId) (σ : Signatures) :
    Reckons n
      (if t.id ∈ σ then []
        else [.stmt (.function t name params result p body)])
      (Stmt.reached (.function t name params result p body) σ)
      (reachingFunction t name params result body φ n σ) := by
  unfold reachingFunction Stmt.reached
  by_cases hmem : t.id ∈ σ
  · simp only [Stmt.id, Stmt.tag, hmem, if_true]
    exact ⟨rfl, rfl⟩
  · simp only [Stmt.id, Stmt.tag, hmem, if_false]
    exact ⟨rfl, rfl⟩

theorem reckons_courseOfBranch {config : Config} {branch : Stmt}
    {course : Env → Frame → SymbolId → Signatures → Course} {os : List Origin}
    {σ σ' : Signatures}
    (h : ∀ outer φ n, Reckons n os σ' (course outer φ n σ)) (outer : Env)
    (φ : Frame) (n : SymbolId) :
    Reckons n os σ' (courseOfBranch config branch course outer φ n σ) := by
  unfold courseOfBranch
  split
  · exact h outer φ n
  · exact (h (φ :: outer) [] n).closed config φ

mutual

/-- The course of a statement numbers the declarations in it. -/
theorem Stmt.reckons_course (config : Config) : (s : Stmt) →
    ∀ (expected : Option Ty) (outer : Env) (φ : Frame) (n : SymbolId)
      (σ : Signatures),
    Reckons n (s.origins σ) (s.keeping σ) (s.course config expected outer φ n σ)
  | .declaration t name ann init m, expected, outer, φ, n, σ => ⟨rfl, rfl⟩
  | .function t name params result p body, expected, outer, φ, n, σ => by
      have hown := reckons_reachingFunction t name params result p body φ n σ
      simp only [Stmt.course, Stmt.origins, Stmt.keeping]
      have hparams := reckons_declaringParams
        (.function t name params result p body) t.id params
        (σ[t.id]?.getD (Signature.of params result body)).params
      refine hown.andThen (Reckons.closed ?_ config _)
      exact ((hparams _ _ _).andThen (reckons_hoisting body _ _ _)).andThen
        (Stmt.reckons_courseAll config body _ _ _ _ _)
  | .assignment t target value, expected, outer, φ, n, σ => ⟨rfl, rfl⟩
  | .block t p ss, expected, outer, φ, n, σ => by
      simp only [Stmt.course, Stmt.origins, Stmt.keeping]
      exact ((reckons_hoisting ss [] n σ).andThen
        (Stmt.reckons_courseAll config ss _ _ _ _ _)).closed config φ
  | .ifElse t c a none, expected, outer, φ, n, σ => by
      simp only [Stmt.course, Stmt.origins, Stmt.keeping]
      exact (reckons_courseOfBranch
        (fun outer φ n => Stmt.reckons_course config a expected outer φ n σ)
        outer φ n).after _
  | .ifElse t c a (some b), expected, outer, φ, n, σ => by
      simp only [Stmt.course, Stmt.origins, Stmt.keeping]
      have ha : Reckons n (a.origins σ) (a.keeping σ)
          (courseOfBranch config a (a.course config expected) outer φ n σ) :=
        reckons_courseOfBranch
          (fun outer φ n => Stmt.reckons_course config a expected outer φ n σ)
          outer φ n
      refine (ha.andThen (reckons_courseOfBranch ?_ outer _ _)).after _
      exact fun outer φ n => Stmt.reckons_course config b expected outer φ n _
  | .while t c b, expected, outer, φ, n, σ => by
      simp only [Stmt.course, Stmt.origins, Stmt.keeping]
      exact (reckons_courseOfBranch
        (fun outer φ n => Stmt.reckons_course config b expected outer φ n σ)
        outer φ n).after _
  | .ret t value, expected, outer, φ, n, σ => ⟨rfl, rfl⟩
  | .expr t e, expected, outer, φ, n, σ => ⟨rfl, rfl⟩

theorem Stmt.reckons_courseAll (config : Config) : (ss : List Stmt) →
    ∀ (expected : Option Ty) (outer : Env) (φ : Frame) (n : SymbolId)
      (σ : Signatures),
    Reckons n (Stmt.originsAll ss σ) (Stmt.keepingAll ss σ)
      (Stmt.courseAll config ss expected outer φ n σ)
  | [], expected, outer, φ, n, σ => ⟨rfl, rfl⟩
  | s :: ss, expected, outer, φ, n, σ => by
      simp only [Stmt.courseAll, Stmt.originsAll, Stmt.keepingAll]
      exact (Stmt.reckons_course config s _ _ _ _ _).andThen
        (Stmt.reckons_courseAll config ss _ _ _ _ _)

end

-- =========================================================== positions

/-- Some declarations of a program, numbered from a given number on. -/
def Program.Numbered (p : Program) (n : SymbolId) (os : List Origin) : Prop :=
  os <+: p.origins.drop n

namespace Program.Numbered

variable {p : Program} {n : SymbolId} {o : Origin} {os os' : List Origin}

theorem left (h : p.Numbered n (os ++ os')) : p.Numbered n os :=
  (List.prefix_append os os').trans h

theorem right (h : p.Numbered n (os ++ os')) :
    p.Numbered (n + os.length) os' := by
  obtain ⟨rest, hrest⟩ := h
  refine ⟨rest, ?_⟩
  rw [← List.drop_drop, ← hrest, List.append_assoc, List.drop_left]

theorem head (h : p.Numbered n (o :: os)) : p.origins[n]? = some o := by
  obtain ⟨rest, hrest⟩ := h
  rw [← List.head?_drop, ← hrest]
  rfl

theorem tail (h : p.Numbered n (o :: os)) : p.Numbered (n + 1) os :=
  right (show p.Numbered n ([o] ++ os) from h)

end Program.Numbered

end TreeCheck
