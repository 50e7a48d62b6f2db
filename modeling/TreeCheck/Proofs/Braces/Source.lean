/-
Putting braces around branches.

A branch of an `if` or a `while` need not be a block. Here some of those
that are none are made the only statement of one, at any depth and one
inside the other. A branch is known by its own identity, and the block
gets a tag that the caller chooses.

Braces hide nothing that is asked about a statement from outside: the
name that it declares, whether it is a block, and whether it holds a
`return` with a value (`Stmt.returnsValue_braced`).
-/
import TreeCheck.Proofs.Account.Statements

namespace TreeCheck

/-- Which branches are to get braces: by the identity of the branch, the tag of
the block and the place of its opening brace. -/
abbrev Bracing := NodeId → Option (Tag × Position)

/-- A branch in braces, if it is no block and is to get some. -/
def Stmt.enclosed (B : Bracing) (s : Stmt) : Stmt :=
  match s.isBlock, B s.id with
  | false, some (t, q) => .block t q [s]
  | _, _ => s

section

variable (B : Bracing)

mutual

/-- A statement with braces around those branches in it that are to get some. -/
def Stmt.braced : Stmt → Stmt
  | .declaration t name ann init m => .declaration t name ann init m
  | .function t name params result q body =>
    .function t name params result q (Stmt.bracedAll body)
  | .assignment t target value => .assignment t target value
  | .block t q ss => .block t q (Stmt.bracedAll ss)
  | .ifElse t c a none => .ifElse t c (a.braced.enclosed B) none
  | .ifElse t c a (some b) => .ifElse t c (a.braced.enclosed B) (some (b.braced.enclosed B))
  | .while t c b => .while t c (b.braced.enclosed B)
  | .ret t value => .ret t value
  | .expr t e => .expr t e
termination_by structural s => s

/-- The statements of a list, likewise. They are no branches themselves. -/
def Stmt.bracedAll : List Stmt → List Stmt
  | [] => []
  | s :: ss => s.braced :: Stmt.bracedAll ss
termination_by structural ss => ss

end

/-- A program with braces around the branches that are to get some. -/
def Program.braced (p : Program) : Program :=
  { p with body := Stmt.bracedAll B p.body }

end

variable {B : Bracing}

-- ========================================================= what is kept

theorem Stmt.isBlock_braced (s : Stmt) : (s.braced B).isBlock = s.isBlock := by
  cases s with
  | ifElse t c a b => cases b <;> rfl
  | declaration | function | assignment | block | «while» | ret | expr => rfl

theorem Stmt.isAhead_braced (earlier : List String) (s : Stmt) :
    (s.braced B).isAhead earlier = s.isAhead earlier := by
  cases s with
  | ifElse t c a b => cases b <;> rfl
  | declaration | function | assignment | block | «while» | ret | expr => rfl

theorem Stmt.variablesAfter_braced (earlier : List String) (s : Stmt) :
    (s.braced B).variablesAfter earlier = s.variablesAfter earlier := by
  cases s with
  | ifElse t c a b => cases b <;> rfl
  | declaration | function | assignment | block | «while» | ret | expr => rfl

/-- A branch is as it was, or it is the only statement of a block. -/
theorem Stmt.enclosed_eq (B : Bracing) (s : Stmt) :
    s.enclosed B = s ∨ s.isBlock = false ∧ ∃ t q, s.enclosed B = .block t q [s] := by
  unfold enclosed
  cases hblock : s.isBlock with
  | true => exact .inl rfl
  | false =>
    cases B s.id with
    | none => exact .inl rfl
    | some brace => exact .inr ⟨rfl, brace.1, brace.2, rfl⟩

theorem Stmt.returnsValue_enclosed (s : Stmt) :
    (s.enclosed B).returnsValue = s.returnsValue := by
  rcases s.enclosed_eq B with h | ⟨-, t, q, h⟩
  · rw [h]
  · rw [h]
    simp only [Stmt.returnsValue, Stmt.anyReturnsValue, Bool.or_false]

mutual

theorem Stmt.returnsValue_braced : (s : Stmt) → (s.braced B).returnsValue = s.returnsValue
  | .declaration t name ann init m => rfl
  | .function t name params result q body => rfl
  | .assignment t target value => rfl
  | .block t q ss => by
      simp only [Stmt.braced, Stmt.returnsValue]
      exact Stmt.anyReturnsValue_bracedAll ss
  | .ifElse t c a none => by
      simp only [Stmt.braced, Stmt.returnsValue]
      rw [Stmt.returnsValue_enclosed, a.returnsValue_braced]
  | .ifElse t c a (some b) => by
      simp only [Stmt.braced, Stmt.returnsValue]
      rw [Stmt.returnsValue_enclosed, a.returnsValue_braced, Stmt.returnsValue_enclosed,
        b.returnsValue_braced]
  | .while t c b => by
      simp only [Stmt.braced, Stmt.returnsValue]
      rw [Stmt.returnsValue_enclosed, b.returnsValue_braced]
  | .ret t value => rfl
  | .expr t e => rfl

theorem Stmt.anyReturnsValue_bracedAll : (ss : List Stmt) →
    Stmt.anyReturnsValue (Stmt.bracedAll B ss) = Stmt.anyReturnsValue ss
  | [] => rfl
  | s :: ss => by
      simp only [Stmt.bracedAll, Stmt.anyReturnsValue]
      rw [s.returnsValue_braced, Stmt.anyReturnsValue_bracedAll ss]

end

end TreeCheck
