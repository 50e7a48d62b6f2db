/-
The account of a program whose nodes may share identities.

An analysis keeps the signature of a function under the identity of the
function, and asks for that identity again where it reaches the
function. If two functions share an identity, one is checked with the
signature of the other. A `Course` is a walk that carries the signatures
along and so follows an analysis in that case too.

Where the identities are distinct, the signatures tell no more than what
the place of a function tells: whether it was declared ahead, and if so,
with the signature it has by its annotations. The course then is the
walk (`Stmt.course_eq_walk`).
-/
import TreeCheck.Proofs.Account.Statements

namespace TreeCheck

open Analysis

/-- The signatures that functions were declared with, by identity. -/
abbrev Signatures := Std.TreeMap NodeId Signature

/-- A walk, with the signatures that are kept after it. -/
structure Course extends Walk where
  signatures : Signatures

namespace Course

/-- A course that goes on from where another one ended. -/
def andThen (c : Course) (f : Frame → SymbolId → Signatures → Course) :
    Course where
  toWalk := c.toWalk.andThen fun φ n => (f φ n c.signatures).toWalk
  signatures := (f c.frame c.next c.signatures).signatures

/-- A course with events before it. -/
def after (es : List Event) (c : Course) : Course where
  toWalk := c.toWalk.after es
  signatures := c.signatures

/-- The course of a scope, seen from the scope around it. -/
def closed (config : Config) (φ : Frame) (inner : Course) : Course where
  toWalk := inner.toWalk.closed config φ
  signatures := inner.signatures

end Course

-- =========================================================== functions

/-- The signature of a function, kept under its identity. -/
def Stmt.signed (σ : Signatures) : Stmt → Signatures
  | .function t _ params result _ body =>
      σ.insert t.id (Signature.of params result body)
  | _ => σ

/-- The signatures that are kept once the functions of a list have been
declared ahead. -/
def hoistedSignatures : List String → List Stmt → Signatures → Signatures
  | _, [], σ => σ
  | earlier, s :: ss, σ =>
    hoistedSignatures (s.variablesAfter earlier) ss
      (if s.isAhead earlier then s.signed σ else σ)

/-- The functions of a list are declared ahead of their place. -/
def hoistingCourse (ss : List Stmt) (φ : Frame) (n : SymbolId) (σ : Signatures) :
    Course where
  toWalk := hoisting [] ss φ n
  signatures := hoistedSignatures [] ss σ

/-- A function is declared where it is reached, unless a signature is
kept under its identity. -/
def reachingFunction (t : Tag) (name : String) (params : List Param)
    (result : Option TypeName) (body : List Stmt) (φ : Frame) (n : SymbolId)
    (σ : Signatures) : Course :=
  if t.id ∈ σ then ⟨⟨φ, n, []⟩, σ⟩
  else ⟨declaringFunction t name params result body φ n,
    σ.insert t.id (Signature.of params result body)⟩

-- ========================================================== statements

/-- A branch has a scope of its own. A block brings its scope along. -/
def courseOfBranch (config : Config) (branch : Stmt)
    (course : Env → Frame → SymbolId → Signatures → Course) (outer : Env)
    (φ : Frame) (n : SymbolId) (σ : Signatures) : Course :=
  if branch.isBlock then course outer φ n σ
  else (course (φ :: outer) [] n σ).closed config φ

mutual

/-- The course of a statement. -/
def Stmt.course (config : Config) :
    Stmt → Option Ty → Env → Frame → SymbolId → Signatures → Course
  | .declaration t name ann init mutable, _, outer, φ, n, σ =>
    ⟨declaringVariable (Env.find (φ :: outer)) t name ann init mutable φ n, σ⟩
  | .function t name params result _ body, _, outer, φ, n, σ =>
    let sig := σ[t.id]?.getD (Signature.of params result body)
    (reachingFunction t name params result body φ n σ).andThen fun φ n σ =>
      (((⟨declaringParams t.id 0 params sig.params [] n, σ⟩ : Course).andThen
        (hoistingCourse body)).andThen
          (Stmt.courseAll config body (some sig.ret) (φ :: outer))).closed
            config φ
  | .assignment t target value, _, outer, φ, n, σ =>
    ⟨⟨φ, n, assignmentEvents (Env.find (φ :: outer)) t.id target value⟩, σ⟩
  | .block _ _ ss, expected, outer, φ, n, σ =>
    ((hoistingCourse ss [] n σ).andThen
      (Stmt.courseAll config ss expected (φ :: outer))).closed config φ
  | .ifElse t c a none, expected, outer, φ, n, σ =>
    (courseOfBranch config a (Stmt.course config a expected) outer φ n σ).after
      (conditionEvents (Env.find (φ :: outer)) t.id .ifElse c)
  | .ifElse t c a (some b), expected, outer, φ, n, σ =>
    ((courseOfBranch config a (Stmt.course config a expected) outer φ n σ).andThen
      (courseOfBranch config b (Stmt.course config b expected) outer)).after
      (conditionEvents (Env.find (φ :: outer)) t.id .ifElse c)
  | .while t c b, expected, outer, φ, n, σ =>
    (courseOfBranch config b (Stmt.course config b expected) outer φ n σ).after
      (conditionEvents (Env.find (φ :: outer)) t.id .while c)
  | .ret t value, expected, outer, φ, n, σ =>
    ⟨⟨φ, n, returningEvents (Env.find (φ :: outer)) t expected value⟩, σ⟩
  | .expr _ e, _, outer, φ, n, σ => ⟨⟨φ, n, e.events (Env.find (φ :: outer))⟩, σ⟩
termination_by structural s => s

/-- The course of the statements of a list in order. -/
def Stmt.courseAll (config : Config) :
    List Stmt → Option Ty → Env → Frame → SymbolId → Signatures → Course
  | [], _, _, φ, n, σ => ⟨⟨φ, n, []⟩, σ⟩
  | s :: ss, expected, outer, φ, n, σ =>
    (Stmt.course config s expected outer φ n σ).andThen
      (Stmt.courseAll config ss expected outer)
termination_by structural ss => ss

end

/-- The course of a program. -/
def Program.course (config : Config) (p : Program) : Course :=
  (hoistingCourse p.body [] 0 {}).andThen (Stmt.courseAll config p.body none [])

end TreeCheck
