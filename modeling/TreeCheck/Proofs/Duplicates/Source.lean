/-
Duplicate declarations, read off the source.

A region is a scope of the source: the parameters of a function, if it is
the scope of one, and a list of statements. Its declarations come in the
order of the source. Of the declarations of one name, each but the first
is a duplicate of the one before it.

An analysis meets the declarations of a region in another order, since
it declares functions ahead. But a function is declared ahead only if no
variable before it has its name, so among the declarations of one name
the order is the same (`named_ahead_append_behind`).
-/
import TreeCheck.Proofs.Account.Statements
import TreeCheck.Proofs.Scoping.Level

namespace TreeCheck

/-- Where a declaration stands, and the position it is reported at. -/
structure Place where
  site : Site
  position : Position
deriving DecidableEq, Repr

/-- What a statement declares in the list it stands in. -/
def Stmt.placed : Stmt → Option (Decl Place)
  | .declaration t name _ _ _ =>
    some ⟨name, .variable, ⟨.stmt t.id, t.position⟩⟩
  | .function t name _ _ _ _ => some ⟨name, .function, ⟨.stmt t.id, t.position⟩⟩
  | _ => none

/-- The parameters of a function, from one with a given index on. -/
def placedParams (function : NodeId) (i : Nat) (params : List Param) :
    List (Decl Place) :=
  (params.zipIdx i).map fun p =>
    ⟨p.1.name, .parameter, ⟨.param function p.2, p.1.position⟩⟩

-- ============================================================== regions

/-- A scope of the source. -/
structure Region where
  params : List (Decl Place) := []
  stmts : List Stmt

/-- The declarations of a region in the order of the source: its parameters,
and what its statements declare. -/
def Region.declarations (r : Region) : List (Decl Place) :=
  r.params ++ r.stmts.filterMap Stmt.placed

/-- The declarations of a name in a region. -/
def Region.named (r : Region) (x : String) : List (Decl Place) :=
  r.declarations.filter (·.name == x)

/-- A branch is a region of its own. A block brings its region along. -/
def regionsOfBranch (branch : Stmt) (inner : List Region) : List Region :=
  if branch.isBlock then inner else { stmts := [branch] } :: inner

mutual

/-- The regions in a statement. -/
def Stmt.regions : Stmt → List Region
  | .function t _ params _ _ body =>
    ⟨placedParams t.id 0 params, body⟩ :: Stmt.regionsAll body
  | .block _ _ ss => { stmts := ss } :: Stmt.regionsAll ss
  | .ifElse _ _ a none => regionsOfBranch a a.regions
  | .ifElse _ _ a (some b) =>
    regionsOfBranch a a.regions ++ regionsOfBranch b b.regions
  | .while _ _ b => regionsOfBranch b b.regions
  | .declaration _ _ _ _ _ | .assignment _ _ _ | .ret _ _ | .expr _ _ => []
termination_by structural s => s

/-- The regions in the statements of a list. -/
def Stmt.regionsAll : List Stmt → List Region
  | [] => []
  | s :: ss => s.regions ++ Stmt.regionsAll ss
termination_by structural ss => ss

end

/-- The regions of a program: its global scope, and those in its
statements. -/
def Program.regions (p : Program) : List Region :=
  { stmts := p.body } :: Stmt.regionsAll p.body

-- =========================================================== duplicates

/-- What is found about a duplicate. -/
def duplicateOf (x : String) (previous d : Decl Place) : Finding :=
  ⟨.duplicate x, d.info.position, some previous.info.position⟩

/-- What is found about the declarations of a name in a scope, in this order:
each but the first is a duplicate of the one before it. -/
def redeclared (x : String) (ds : List (Decl Place)) : List Finding :=
  (ds.zip ds.tail).map fun (previous, d) => duplicateOf x previous d

/-- What is found about the declarations of a name in a region. -/
def Region.duplicates (x : String) (r : Region) : List Finding :=
  redeclared x (r.named x)

/-- How the duplicates of a name in a region are shown: as errors where they
stand, with the place of the declaration before. -/
def Region.duplicateDiagnostics (x : String) (r : Region) : List Diagnostic :=
  ((r.named x).zip (r.named x).tail).map fun q =>
    ⟨.error, .duplicateDeclaration, s!"'{x}' is already declared in this scope",
      q.2.info.position,
      some ⟨s!"'{x}' previously declared here", q.1.info.position⟩⟩

theorem Region.diagnostic_duplicates (x : String) (r : Region) :
    (r.duplicates x).map Finding.diagnostic = r.duplicateDiagnostics x := by
  rw [duplicates, redeclared, List.map_map]
  rfl

/-- What is found about further declarations of a name, where there may be
one already. -/
def redeclaring (x : String) : Option (Decl Place) → List (Decl Place) → List Finding
  | _, [] => []
  | none, d :: ds => redeclaring x (some d) ds
  | some previous, d :: ds => duplicateOf x previous d :: redeclaring x (some d) ds

theorem redeclaring_nil (x : String) (previous : Option (Decl Place)) :
    redeclaring x previous [] = [] := by
  cases previous <;> rfl

theorem redeclaring_some (x : String) (previous : Decl Place)
    (ds : List (Decl Place)) :
    redeclaring x (some previous) ds = redeclared x (previous :: ds) := by
  induction ds generalizing previous with
  | nil => rfl
  | cons d ds ih =>
      rw [redeclaring, ih]
      rfl

theorem redeclaring_none (x : String) (ds : List (Decl Place)) :
    redeclaring x none ds = redeclared x ds := by
  cases ds with
  | nil => rfl
  | cons d ds => exact redeclaring_some x d ds

/-- Behind further declarations the last of them is the one that counts. -/
theorem redeclaring_append (x : String) (previous : Option (Decl Place))
    (ds es : List (Decl Place)) :
    redeclaring x previous (ds ++ es)
      = redeclaring x previous ds
        ++ redeclaring x (ds.getLast?.or previous) es := by
  induction ds generalizing previous with
  | nil =>
      rw [redeclaring_nil]
      rfl
  | cons d ds ih =>
      have hlast : (d :: ds).getLast?.or previous = ds.getLast?.or (some d) := by
        rw [List.getLast?_cons]
        cases ds.getLast? <;> rfl
      rw [List.cons_append, hlast]
      cases previous with
      | none => rw [redeclaring, redeclaring, ih]
      | some previous => rw [redeclaring, redeclaring, ih, List.cons_append]

-- ================================================================ order

/-- What a list declares ahead. -/
def placedAhead (earlier : List String) (ss : List Stmt) : List (Decl Place) :=
  (Stmt.functionsAhead earlier ss).filterMap Stmt.placed

/-- What a statement declares where it stands. The flag says whether it is a
function that has been declared ahead. -/
def Stmt.placedBehind (ahead : Bool) : Stmt → List (Decl Place)
  | .function t name _ _ _ _ =>
    if ahead then [] else [⟨name, .function, ⟨.stmt t.id, t.position⟩⟩]
  | s => s.placed.toList

/-- What the statements of a list declare where they stand. -/
def Stmt.placedBehindAll (earlier : List String) : List Stmt → List (Decl Place)
  | [] => []
  | s :: ss => s.placedBehind (s.isAhead earlier)
      ++ placedBehindAll (s.variablesAfter earlier) ss

theorem Stmt.placedBehind_isAhead (earlier : List String) (s : Stmt) :
    s.placedBehind (s.isAhead earlier)
      = if s.isAhead earlier then [] else s.placed.toList := by
  cases s <;> rfl

theorem placedAhead_cons (earlier : List String) (s : Stmt) (ss : List Stmt) :
    placedAhead earlier (s :: ss)
      = (if s.isAhead earlier then s.placed.toList else [])
        ++ placedAhead (s.variablesAfter earlier) ss := by
  rw [placedAhead, Stmt.functionsAhead, List.filterMap_append]
  split
  · rw [List.filterMap_cons]
    cases s.placed <;> rfl
  · rfl

/-- What is declared in place is a variable, or a function behind a variable
of its name. -/
theorem Stmt.mem_variablesAfter {earlier : List String} {s : Stmt} {d : Decl Place}
    (hahead : s.isAhead earlier = false) (hd : s.placed = some d) :
    d.name ∈ s.variablesAfter earlier := by
  cases s with
  | declaration t name ann init m =>
      obtain rfl := Option.some.inj hd
      exact List.mem_cons_self
  | function t name params result p body =>
      obtain rfl := Option.some.inj hd
      exact Decidable.of_not_not (of_decide_eq_false hahead)
  | assignment | block | ifElse | «while» | ret | expr => cases hd

/-- No function is declared ahead under the name of a variable before it. -/
theorem named_placedAhead {x : String} {earlier : List String} {ss : List Stmt}
    (h : x ∈ earlier) : (placedAhead earlier ss).filter (·.name == x) = [] := by
  induction ss generalizing earlier with
  | nil => rfl
  | cons s ss ih =>
      have hafter : x ∈ s.variablesAfter earlier := by
        cases s with
        | declaration => exact List.mem_cons_of_mem _ h
        | function | assignment | block | ifElse | «while» | ret | expr => exact h
      rw [placedAhead_cons, List.filter_append, ih hafter, List.append_nil]
      cases s with
      | function t name params result p body =>
          by_cases hname : name = x
          · subst hname
            simp [Stmt.isAhead, h]
          · split <;> simp [Stmt.placed, hname]
      | declaration | assignment | block | ifElse | «while» | ret | expr => rfl

/-- What a list declares ahead and what it declares in place are, name by
name, its declarations in the order of the source. -/
theorem named_ahead_append_behind (x : String) (earlier : List String)
    (ss : List Stmt) :
    (placedAhead earlier ss).filter (·.name == x)
        ++ (Stmt.placedBehindAll earlier ss).filter (·.name == x)
      = (ss.filterMap Stmt.placed).filter (·.name == x) := by
  induction ss generalizing earlier with
  | nil => rfl
  | cons s ss ih =>
      have hsplit : (s :: ss).filterMap Stmt.placed
          = s.placed.toList ++ ss.filterMap Stmt.placed := by
        rw [List.filterMap_cons]
        cases s.placed <;> rfl
      rw [placedAhead_cons, Stmt.placedBehindAll, Stmt.placedBehind_isAhead, hsplit,
        List.filter_append, List.filter_append, List.filter_append,
        ← ih (s.variablesAfter earlier)]
      cases hahead : s.isAhead earlier with
      | true =>
          -- The function comes first, whatever is declared ahead after it.
          rw [if_pos rfl, if_pos rfl, List.filter_nil, List.nil_append,
            List.append_assoc]
      | false =>
          rw [if_neg Bool.false_ne_true, if_neg Bool.false_ne_true,
            List.filter_nil, List.nil_append]
          by_cases hnamed : s.placed.toList.filter (·.name == x) = []
          · rw [hnamed, List.nil_append, List.nil_append]
          · -- A variable of the name stands here or before.
            obtain ⟨d, hd⟩ := List.exists_mem_of_ne_nil _ hnamed
            obtain ⟨hd, hname⟩ := List.mem_filter.mp hd
            have hx : x ∈ s.variablesAfter earlier := by
              rw [← beq_iff_eq.mp hname]
              exact Stmt.mem_variablesAfter hahead (Option.mem_toList.mp hd)
            rw [named_placedAhead hx, List.nil_append, List.nil_append]

end TreeCheck
