/-
What a name is bound to. A binding is what a declaration says; a symbol
is a binding that the table has taken in and numbered.
-/
import TreeCheck.Position
import TreeCheck.Typing.Ty

namespace TreeCheck

/-- The number of a symbol, counted over a whole run. -/
abbrev SymbolId := Nat

/-- What kind of declaration binds a name. -/
inductive SymbolKind where
  | variable
  | function
  | parameter
deriving DecidableEq, Repr

/-- What a declaration binds to a name. -/
structure Binding where
  name : String
  kind : SymbolKind
  type : Ty
  position : Position
  mutable : Bool
deriving DecidableEq, Repr

/-- A binding with its number. -/
structure Symbol extends Binding where
  id : SymbolId
deriving DecidableEq, Repr

end TreeCheck
