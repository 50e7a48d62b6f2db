/-
Which `return` statements belong to a function: those in its body at
any depth of blocks and branches, but not those of functions defined
inside it.
-/
import TreeCheck.Syntax.Tree

namespace TreeCheck

mutual

/-- Whether a statement holds a `return` with a value that belongs to the
function around it. -/
def Stmt.returnsValue : Stmt → Bool
  | .ret _ v => v.isSome
  | .block _ _ ss => Stmt.anyReturnsValue ss
  | .ifElse _ _ a none => a.returnsValue
  | .ifElse _ _ a (some b) => a.returnsValue || b.returnsValue
  | .while _ _ b => b.returnsValue
  | .declaration _ _ _ _ _ | .function _ _ _ _ _ _ | .assignment _ _ _ | .expr _ _ => false
termination_by structural s => s

/-- Whether one of the statements holds such a `return`. -/
def Stmt.anyReturnsValue : List Stmt → Bool
  | [] => false
  | s :: ss => s.returnsValue || Stmt.anyReturnsValue ss
termination_by structural ss => ss

end

end TreeCheck
