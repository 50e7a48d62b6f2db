/-
JSON values as a document holds them: members in their order, with
repetitions, and integers apart from other numbers.
-/
import TreeCheck.Number.Binary64

namespace TreeCheck.Json

/-- A number of a document. Integers from -2^63 to 2^64 - 1 are kept as
such; all other numbers are floating-point. -/
inductive Number where
  | int (value : Int)
  | float (value : Binary64)
deriving DecidableEq, Repr

/-- A value of a document. -/
inductive Value where
  | null
  | bool (value : Bool)
  | number (value : Number)
  | string (value : String)
  | array (items : List Value)
  | object (members : List (String × Value))
deriving Repr, Inhabited

namespace Number

/-- The least integer that is kept as an integer. -/
def least : Int := -0x8000000000000000

/-- The greatest integer that is kept as an integer. -/
def greatest : Int := 0xFFFFFFFFFFFFFFFF

/-- The text of a number. -/
def render : Number → String
  | .int z => toString z
  | .float x => x.render

end Number

end TreeCheck.Json
