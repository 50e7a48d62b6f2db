/-
The scoping rule, as a rule about the source.

A `Level` is a scope as it is seen from one of its statements: what the
statements before it declare, which functions of the list are declared
ahead, and the parameters if the scope is a function's. `Level.find`
is the rule. Once a variable of a name stands before a statement, the
latest declaration of the name before it counts; until then the last
function of the name that no such variable precedes, and after it the
last parameter.

What is known of a declaration beyond its name and its kind is left
open: for resolution it is a place, for typing it is a type.
-/
import TreeCheck.Proofs.Account.Statements

namespace TreeCheck

/-- A declaration, as far as the scoping rule looks at it. -/
structure Decl (α : Type) where
  name : String
  kind : SymbolKind
  info : α
deriving DecidableEq, Repr

/-- The last of some declarations of a name. -/
def lastNamed {α : Type} (x : String) (ds : List (Decl α)) : Option (Decl α) :=
  ds.reverse.find? (·.name == x)

/-- A scope, seen from one of its statements. The declarations are in the
order of the source. -/
structure Level (α : Type) where
  /-- The parameters of the function whose scope it is. -/
  params : List (Decl α) := []
  /-- The functions of the list that no variable of their name precedes. -/
  ahead : List (Decl α) := []
  /-- What the statements before this one declare. -/
  earlier : List (Decl α) := []
deriving Repr

namespace Level

variable {α : Type}

/-- Whether a variable of a name stands before the statement. -/
def hasVariable (L : Level α) (x : String) : Bool :=
  L.earlier.any fun d => d.kind == .variable && d.name == x

/-- The declaration that a name refers to in a scope. -/
def find (L : Level α) (x : String) : Option (Decl α) :=
  if L.hasVariable x then lastNamed x L.earlier
  else (lastNamed x L.ahead).or (lastNamed x L.params)

/-- A scope, seen from behind one more declaration. -/
def add (L : Level α) (d : Decl α) : Level α :=
  { L with earlier := L.earlier ++ [d] }

/-- A scope, seen from behind a statement that may be a declaration. -/
def pass (L : Level α) (d : Option (Decl α)) : Level α := d.elim L L.add

end Level

/-- The functions of a list that no variable of their name precedes. The
names are those of the variables that stand before the list. -/
def Stmt.functionsAhead : List String → List Stmt → List Stmt
  | _, [] => []
  | earlier, s :: ss =>
    (if s.isAhead earlier then [s] else [])
      ++ functionsAhead (s.variablesAfter earlier) ss

theorem Stmt.mem_of_ahead {earlier : List String} {ss : List Stmt} {s : Stmt}
    (h : s ∈ functionsAhead earlier ss) :
    s ∈ ss ∧ ∃ names, s.isAhead names = true := by
  induction ss generalizing earlier with
  | nil => cases h
  | cons a ss ih =>
      rw [functionsAhead, List.mem_append] at h
      rcases h with h | h
      · split at h
        · rename_i hahead
          obtain rfl := List.mem_singleton.mp h
          exact ⟨List.mem_cons_self, earlier, hahead⟩
        · cases h
      · have hrest := ih h
        exact ⟨List.mem_cons_of_mem _ hrest.1, hrest.2⟩

/-- The declaration that a name refers to from inside scopes, the
innermost first. -/
def findLevel {α : Type} (Ls : List (Level α)) (x : String) : Option (Decl α) :=
  Ls.findSome? (·.find x)

-- ============================================================== lemmas

section

variable {α : Type} (x : String) (d : Decl α) (ds : List (Decl α)) (L : Level α)

theorem lastNamed_append_singleton :
    lastNamed x (ds ++ [d]) = if d.name = x then some d else lastNamed x ds := by
  by_cases h : d.name = x
  · simp [lastNamed, h]
  · simp [lastNamed, h]

@[simp] theorem findLevel_cons (Ls : List (Level α)) :
    findLevel (L :: Ls) x = (L.find x).or (findLevel Ls x) := by
  rw [findLevel, List.findSome?_cons]
  cases L.find x <;> rfl

namespace Level

theorem hasVariable_add :
    (L.add d).hasVariable x
      = (L.hasVariable x || (d.kind == .variable && d.name == x)) := by
  simp [hasVariable, add]

/-- A variable counts from behind its declaration on. -/
theorem find_add_variable (hd : d.kind = .variable) :
    (L.add d).find x = if d.name = x then some d else L.find x := by
  unfold find
  rw [hasVariable_add]
  by_cases hx : d.name = x
  · simp [hd, hx, add, lastNamed_append_singleton]
  · simp [hx, add, lastNamed_append_singleton]

/-- A function behind a variable of its name counts from its declaration
on. -/
theorem find_add_behind (hname : L.hasVariable d.name = true) :
    (L.add d).find x = if d.name = x then some d else L.find x := by
  unfold find
  rw [hasVariable_add]
  by_cases hx : d.name = x
  · subst hx
    simp [hname, add, lastNamed_append_singleton]
  · simp [hx, add, lastNamed_append_singleton]

/-- Passing a function that no variable of its name precedes changes
nothing: it has counted before. -/
theorem find_add_ahead (hd : d.kind ≠ .variable)
    (hname : L.hasVariable d.name = false) :
    (L.add d).find x = L.find x := by
  unfold find
  rw [hasVariable_add]
  have hkind : (d.kind == SymbolKind.variable) = false :=
    beq_eq_false_iff_ne.mpr hd
  rw [hkind, Bool.false_and, Bool.or_false]
  by_cases hvar : L.hasVariable x = true
  · have hx : d.name ≠ x := by
      intro heq
      subst heq
      rw [hname] at hvar
      cases hvar
    rw [if_pos hvar, if_pos hvar]
    show lastNamed x (L.earlier ++ [d]) = _
    rw [lastNamed_append_singleton, if_neg hx]
  · rw [if_neg hvar, if_neg hvar]
    rfl

end Level

end

end TreeCheck
