/-
The operators of the analyzed language. A binary operator belongs to
exactly one class, and its class, with the one exception of `+` on
strings, is all that the typing rules ask about it.
-/

namespace TreeCheck

/-- What a binary operator does with its operands. -/
inductive OperatorClass where
  | arithmetic
  | ordering
  | equality
  | logical
deriving DecidableEq, Repr

/-- Operators with two operands. -/
inductive BinaryOp where
  | add | sub | mul | div | rem
  | eq | ne
  | lt | le | gt | ge
  | and | or
deriving DecidableEq, Repr

/-- Operators with one operand. -/
inductive UnaryOp where
  | neg
  | not
deriving DecidableEq, Repr

namespace BinaryOp

/-- Every binary operator, each once. -/
def all : List BinaryOp :=
  [.add, .sub, .mul, .div, .rem, .eq, .ne, .lt, .le, .gt, .ge, .and, .or]

/-- The spelling of an operator in documents and in messages. -/
def symbol : BinaryOp → String
  | .add => "+"
  | .sub => "-"
  | .mul => "*"
  | .div => "/"
  | .rem => "%"
  | .eq => "=="
  | .ne => "!="
  | .lt => "<"
  | .le => "<="
  | .gt => ">"
  | .ge => ">="
  | .and => "&&"
  | .or => "||"

/-- The operator with a given spelling. -/
def ofSymbol? (s : String) : Option BinaryOp := all.find? (·.symbol == s)

/-- The class of an operator. -/
def operatorClass : BinaryOp → OperatorClass
  | .add | .sub | .mul | .div | .rem => .arithmetic
  | .eq | .ne => .equality
  | .lt | .le | .gt | .ge => .ordering
  | .and | .or => .logical

/-- Spellings read back: no two operators share one. -/
theorem ofSymbol?_symbol (op : BinaryOp) : ofSymbol? op.symbol = some op := by
  cases op <;> decide

theorem ofSymbol?_eq_some {s : String} {op : BinaryOp} : ofSymbol? s = some op ↔ op.symbol = s :=
  ⟨fun h => by simpa using List.find?_some h, fun h => h ▸ ofSymbol?_symbol op⟩

end BinaryOp

namespace UnaryOp

/-- Every unary operator, each once. -/
def all : List UnaryOp := [.neg, .not]

/-- The spelling of an operator in documents and in messages. -/
def symbol : UnaryOp → String
  | .neg => "-"
  | .not => "!"

/-- The operator with a given spelling. -/
def ofSymbol? (s : String) : Option UnaryOp := all.find? (·.symbol == s)

/-- Spellings read back: no two operators share one. -/
theorem ofSymbol?_symbol (op : UnaryOp) : ofSymbol? op.symbol = some op := by
  cases op <;> decide

theorem ofSymbol?_eq_some {s : String} {op : UnaryOp} : ofSymbol? s = some op ↔ op.symbol = s :=
  ⟨fun h => by simpa using List.find?_some h, fun h => h ▸ ofSymbol?_symbol op⟩

end UnaryOp

end TreeCheck
