/-
Parts that match, in a whole program.

What is walked the same up to numbers can be exchanged anywhere: in the
statement that it is a part of, in the list of that statement, and so on
up to the program. The induction is on the way down to the part. A list
of statements is matched by another one if this holds of its functions
declared ahead followed by its statements (`Stmt.MatchingAll`).
-/
import TreeCheck.Proofs.Exchange.Renumbering
import TreeCheck.Proofs.Modularity.Twins

namespace TreeCheck

open Analysis

/-- Two lists of statements are walked the same in one scope, up to numbers. -/
def Stmt.MatchingAll (config : Config) (ss ss' : List Stmt) : Prop :=
  ∀ expected, Matching
    (fun outer φ n => (hoisting [] ss φ n).andThen (Stmt.walkAll config ss expected [] outer))
    fun outer φ n => (hoisting [] ss' φ n).andThen (Stmt.walkAll config ss' expected [] outer)

/-- Two contents of a slot are walked the same, up to numbers. -/
def Slot.Matching (config : Config) (slot : Slot) (x y : slot.Content) : Prop :=
  ∀ expected, TreeCheck.Matching (fun outer φ n => slot.walk config expected outer φ n x)
    fun outer φ n => slot.walk config expected outer φ n y

section

variable {config : Config} {slot : Slot} {x y : slot.Content}

-- ============================================================ statements

theorem matching_declaringFunction (t : Tag) (name : String) (params : List Param)
    (result : Option TypeName) (body : List Stmt) :
    Matching (fun _ φ n => declaringFunction t name params result body φ n)
      fun _ φ n => declaringFunction t name params result body φ n :=
  composed_declaringFunction (q := t.position) (composes_matching {}) trivial

theorem matching_hoisting (earlier : List String) (ss : List Stmt) :
    Matching (fun _ φ n => hoisting earlier ss φ n) fun _ φ n => hoisting earlier ss φ n :=
  composed_hoisting (composes_matching {}) fun _ _ => trivial

theorem matching_declaringParams (t : Tag) (params : List Param) (tys : List Ty) :
    Matching (fun _ φ n => declaringParams t.id 0 params tys φ n)
      fun _ φ n => declaringParams t.id 0 params tys φ n :=
  composed_declaringParams (s := .function t "" params none t.position [])
    (composes_matching {}) trivial

theorem Stmt.matching_walkAll (config : Config) (ss : List Stmt) (expected : Option Ty)
    (earlier : List String) :
    Matching (fun outer φ n => Stmt.walkAll config ss expected earlier outer φ n)
      fun outer φ n => Stmt.walkAll config ss expected earlier outer φ n :=
  Stmt.composed_walkAll (d := 0) (r := .body) (composes_matching config) ss fun _ _ => trivial

theorem matching_walkBranch (config : Config) (s : Stmt) (expected : Option Ty) :
    Matching (fun outer φ n => walkBranch config s (s.walk config expected false) outer φ n)
      fun outer φ n => walkBranch config s (s.walk config expected false) outer φ n :=
  composed_walkBranch (composes_matching config) (s.matching_walk config expected false)

theorem matching_elseWalk (config : Config) (b : Option Stmt) (expected : Option Ty) :
    Matching (fun outer φ n => elseWalk config b expected outer φ n)
      fun outer φ n => elseWalk config b expected outer φ n := by
  cases b with
  | none => exact .same
  | some b => exact matching_walkBranch config b expected

/-- A statement is matched by the same with a matching content. -/
theorem Slot.Matching.fill (h : slot.Matching config x y)
    (hreturns : Stmt.anyReturnsValue (slot.stmts x) = Stmt.anyReturnsValue (slot.stmts y))
    (expected : Option Ty) (ahead : Bool) :
    TreeCheck.Matching (fun outer φ n => (slot.fill x).walk config expected ahead outer φ n)
      fun outer φ n => (slot.fill y).walk config expected ahead outer φ n := by
  obtain (⟨t, q⟩ | ⟨t, name, params, result, q⟩) | (⟨t, c, b⟩ | ⟨t, c, a⟩ | ⟨t, c⟩) := slot
  · exact (h expected).closed
  · have hreturns : Stmt.anyReturnsValue x = Stmt.anyReturnsValue y := hreturns
    let sig := Signature.of params result y
    have hinner := (matching_declaringParams t params sig.params).andThen (h (some sig.ret))
    simp only [Slot.fill, Body.fill, Stmt.walk, Walk.andThen_assoc,
      declaringFunction_congr t name params result hreturns,
      Signature.of_congr params result hreturns]
    cases ahead with
    | true => exact Matching.same.andThen hinner.closed
    | false => exact (matching_declaringFunction t name params result y).andThen hinner.closed
  · simp only [Slot.fill, Branch.fill, Stmt.walk_ifElse]
    exact ((h expected).andThen (matching_elseWalk config b expected)).consults
      (.ifElse t c (.expr t c) none) expected
  · simp only [Slot.fill, Branch.fill, Stmt.walk]
    exact ((matching_walkBranch config a expected).andThen (h expected)).consults
      (.ifElse t c (.expr t c) none) expected
  · exact (h expected).consults (.while t c (.expr t c)) expected

-- ================================================================= lists

theorem Slot.Matching.walkAll (h : slot.Matching config x y)
    (hreturns : Stmt.anyReturnsValue (slot.stmts x) = Stmt.anyReturnsValue (slot.stmts y))
    (before behind : List Stmt) (expected : Option Ty) (earlier : List String) :
    TreeCheck.Matching
      (fun outer φ n =>
        Stmt.walkAll config (before ++ slot.fill x :: behind) expected earlier outer φ n)
      fun outer φ n =>
        Stmt.walkAll config (before ++ slot.fill y :: behind) expected earlier outer φ n := by
  induction before generalizing earlier with
  | nil =>
    simp only [List.nil_append, Stmt.walkAll, slot.variablesAfter_fill, slot.isAhead_fill x y]
    exact (h.fill hreturns expected _).andThen (Stmt.matching_walkAll config behind expected _)
  | cons s before ih =>
    simp only [List.cons_append, Stmt.walkAll]
    exact (s.matching_walk config expected _).andThen (ih _)

/-- A list is matched by the same with a matching content of one statement. -/
theorem Slot.Matching.among (h : slot.Matching config x y)
    (hreturns : Stmt.anyReturnsValue (slot.stmts x) = Stmt.anyReturnsValue (slot.stmts y))
    (before behind : List Stmt) :
    Stmt.MatchingAll config (before ++ slot.fill x :: behind)
      (before ++ slot.fill y :: behind) := by
  intro expected
  simp only [hoisting_congr before behind hreturns]
  exact (matching_hoisting [] _).andThen (h.walkAll hreturns before behind expected [])

/-- A branch is matched by the same with a matching content. -/
theorem Slot.Matching.branch (h : slot.Matching config x y)
    (hreturns : Stmt.anyReturnsValue (slot.stmts x) = Stmt.anyReturnsValue (slot.stmts y))
    (b : Branch) : Slot.Matching config (.branch b) (slot.fill x) (slot.fill y) := by
  intro expected
  simp only [Slot.walk, walkBranch, slot.isBlock_fill x y]
  split
  · exact h.fill hreturns expected false
  · exact (h.fill hreturns expected false).closed

-- ============================================================== programs

/-- Two programs with matching contents of one slot match. -/
theorem Way.matching (w : Way) : ∀ {slot : Slot} {x y : slot.Content},
    slot.Matching config x y →
    Stmt.anyReturnsValue (slot.stmts x) = Stmt.anyReturnsValue (slot.stmts y) →
    Stmt.MatchingAll config (w.fill (slot.fill x)).body (w.fill (slot.fill y)).body := by
  induction w with
  | top before behind q =>
    intro slot x y h hreturns
    exact h.among hreturns before behind
  | body w b before behind ih =>
    intro slot x y h hreturns
    have hlists : Slot.Matching config (.body b) (before ++ slot.fill x :: behind)
        (before ++ slot.fill y :: behind) := h.among hreturns before behind
    exact ih hlists (Stmt.anyReturnsValue_among_congr before behind
      (slot.returnsValue_fill_congr hreturns))
  | branch w b ih =>
    intro slot x y h hreturns
    exact ih (h.branch hreturns b) (Stmt.anyReturnsValue_among_congr [] []
      (slot.returnsValue_fill_congr hreturns))

end

end TreeCheck
