/-
From what is found to what is shown.

The diagnostics of an analysis show its findings, one each and in the
same order. So what is known of the findings of some sort is known of the
diagnostics of that sort, provided that a diagnostic tells its sort
(`Analysis.perm_diagnostics`). Most sorts are kinds. The kind for types
that do not match has many causes, but their messages begin with
different letters, and that is enough (`Cause.head?_message`).
-/
import TreeCheck.Analysis.Analyzer

namespace TreeCheck

-- ============================================================ messages

/-- The character that a message about types begins with; `none` where the
message is about something else. -/
def Cause.initial? : Cause → Option Char
  | .voidVariable _ => some '\''
  | .badInitializer _ _ _ | .voidInitializer _ | .badAssignment _ _ _ => some 'c'
  | .badCondition .ifElse _ => some 'i'
  | .badCondition .while _ => some 'w'
  | .badReturn _ _ | .missingReturn _ => some 'm'
  | .badOperands _ _ _ | .badOperand _ _ => some 'o'
  | .notCallable _ => some 'v'
  | .badArgument _ _ _ _ => some 'a'
  | .duplicate _ | .undefined _ | .unknownType _ | .notAVariable | .assignToFunction _
  | .assignToImmutable _ | .returnOutside | .wrongArity _ _ _ | .unusedVariable _
  | .unusedParameter _ => none

theorem head?_toList_append {s : String} {c : Char} (t : String)
    (h : s.toList.head? = some c) : (s ++ t).toList.head? = some c := by
  rw [String.toList_append, List.head?_append, h]
  rfl

theorem Cause.head?_message {c : Cause} (h : c.kind = .typeMismatch) :
    c.message.toList.head? = c.initial? := by
  cases c with
  | badCondition construct found =>
      cases construct with
      | ifElse | «while» =>
          unfold message
          repeat apply head?_toList_append
          rfl
  | voidVariable | badInitializer | voidInitializer | badAssignment | badReturn
  | missingReturn | badOperands | badOperand | notCallable | badArgument =>
      unfold message
      repeat apply head?_toList_append
      rfl
  | duplicate | undefined | unknownType | notAVariable | assignToFunction
  | assignToImmutable | returnOutside | wrongArity | unusedVariable | unusedParameter =>
      cases h

theorem Cause.initial?_eq_none {c : Cause} (h : c.kind ≠ .typeMismatch) :
    c.initial? = none := by
  cases c with
  | duplicate | undefined | unknownType | notAVariable | assignToFunction
  | assignToImmutable | returnOutside | wrongArity | unusedVariable | unusedParameter => rfl
  | voidVariable | badInitializer | voidInitializer | badAssignment | badCondition
  | badReturn | missingReturn | badOperands | badOperand | notCallable | badArgument =>
      exact absurd rfl h

/-- That a name is declared already is said of one name only. -/
theorem Cause.message_duplicate_inj {x y : String}
    (h : (Cause.duplicate x).message = (Cause.duplicate y).message) : x = y := by
  have htexts : "'" ++ x ++ "' is already declared in this scope"
      = "'" ++ y ++ "' is already declared in this scope" := h
  rwa [String.append_left_inj, String.append_right_inj] at htexts

/-- Whether a diagnostic says of types that they do not match, beginning with
one of some characters. -/
def Diagnostic.isMismatch (initials : List Char) (d : Diagnostic) : Bool :=
  d.kind = .typeMismatch && d.message.toList.head?.any initials.contains

theorem Finding.isMismatch_diagnostic (initials : List Char) (f : Finding) :
    f.diagnostic.isMismatch initials = f.cause.initial?.any initials.contains := by
  by_cases hkind : f.cause.kind = .typeMismatch
  · rw [Diagnostic.isMismatch, diagnostic, Cause.head?_message hkind, decide_eq_true hkind,
      Bool.true_and]
  · rw [Diagnostic.isMismatch, diagnostic, decide_eq_false hkind, Bool.false_and,
      Cause.initial?_eq_none hkind]
    rfl

-- ========================================================= diagnostics

namespace Analysis

variable {a : Analysis} {P : Finding → Bool} {q : Diagnostic → Bool}

/-- Diagnostics that are told by what they show are those of the findings
they show. -/
theorem filter_diagnostics (hsame : ∀ f, q f.diagnostic = P f) :
    a.diagnostics.filter q = (a.findings.filter P).map Finding.diagnostic := by
  rw [diagnostics, List.filter_map, show q ∘ Finding.diagnostic = P from funext hsame]

/-- What the findings of a sort are, up to order, the diagnostics of the
sort show. -/
theorem perm_diagnostics {fs : List Finding} (hsame : ∀ f, q f.diagnostic = P f)
    (h : (a.findings.filter P).Perm fs) :
    (a.diagnostics.filter q).Perm (fs.map Finding.diagnostic) := by
  rw [filter_diagnostics hsame]
  exact h.map _

end Analysis

end TreeCheck
