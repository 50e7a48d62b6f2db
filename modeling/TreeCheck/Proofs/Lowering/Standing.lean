/-
The nodes of a document, the places they stand in, and what has to hold
of them there.

A node fits if its place admits its kind and its own content is sound.
Which of its parts stand in which places is a matter of its kind alone,
so the nodes of a document with their places form a list: a node before
its parts, and the parts in the order of their fields. A complaint is
the other side of fitting, with the one place for each node where a
complaint can come from.
-/
import TreeCheck.Document.Lower
import TreeCheck.Failure

namespace TreeCheck.Document

-- =================================================== what has to hold

/-- The kinds of nodes that have a value. -/
def Kind.isExpression : Kind → Bool
  | .literal | .identifier | .binaryOp | .unaryOp | .call => true
  | _ => false

/-- The kinds of nodes that a place admits. -/
def Place.Admits : Place → Kind → Prop
  | .root, k => k = .program
  | .statement, k => k ≠ .program
  | .expression, k => k.isExpression
  | .body, k => k = .block

instance (pl : Place) (k : Kind) : Decidable (pl.Admits k) :=
  match pl with
  | .root => inferInstanceAs (Decidable (k = .program))
  | .statement => inferInstanceAs (Decidable (k ≠ .program))
  | .expression => inferInstanceAs (Decidable (k.isExpression = true))
  | .body => inferInstanceAs (Decidable (k = .block))

/-- The JSON values that are constants of the language. -/
def IsConstant : Json.Value → Prop
  | .bool _ | .string _ | .number (.float _) => True
  | .number (.int z) => leastInt ≤ z ∧ z ≤ greatestInt
  | .null | .array _ | .object _ => False

/-- What has to hold of a node apart from its place and its parts: its
operator is a known one of its arity, its value is a constant. -/
def Node.Sound : Node → Prop
  | .binaryOp _ op _ _ => ∃ o : BinaryOp, o.symbol = op
  | .unaryOp _ op _ => ∃ o : UnaryOp, o.symbol = op
  | .literal _ v => IsConstant v
  | _ => True

/-- A node of a document and the place it stands in. -/
structure Standing where
  place : Place
  node : Node

/-- A node is what it has to be where it stands. -/
structure Standing.Fits (s : Standing) : Prop where
  admitted : s.place.Admits s.node.kind
  sound : s.node.Sound

mutual

/-- The nodes inside a node in pre-order, each with its place. -/
def Node.inner : Node → List Standing
  | .program _ body => innerAll .statement body
  | .literal _ _ => []
  | .identifier _ _ => []
  | .binaryOp _ _ left right =>
    ⟨.expression, left⟩ :: left.inner ++ ⟨.expression, right⟩ :: right.inner
  | .unaryOp _ _ operand => ⟨.expression, operand⟩ :: operand.inner
  | .call _ callee args =>
    ⟨.expression, callee⟩ :: callee.inner ++ innerAll .expression args
  | .assignment _ target value =>
    ⟨.expression, target⟩ :: target.inner ++ ⟨.expression, value⟩ :: value.inner
  | .declaration _ _ _ none _ => []
  | .declaration _ _ _ (some value) _ => ⟨.expression, value⟩ :: value.inner
  | .functionDef _ _ _ _ body => ⟨.body, body⟩ :: body.inner
  | .block _ statements => innerAll .statement statements
  | .ifElse _ condition thenBranch none =>
    ⟨.expression, condition⟩ :: condition.inner ++ ⟨.statement, thenBranch⟩ :: thenBranch.inner
  | .ifElse _ condition thenBranch (some elseBranch) =>
    ⟨.expression, condition⟩ :: condition.inner ++
      (⟨.statement, thenBranch⟩ :: thenBranch.inner ++
        ⟨.statement, elseBranch⟩ :: elseBranch.inner)
  | .while _ condition body =>
    ⟨.expression, condition⟩ :: condition.inner ++ ⟨.statement, body⟩ :: body.inner
  | .ret _ none => []
  | .ret _ (some value) => ⟨.expression, value⟩ :: value.inner
  | .expressionStatement _ expression => ⟨.expression, expression⟩ :: expression.inner
termination_by structural n => n

/-- The nodes of a list and those inside them, in pre-order. -/
def innerAll (pl : Place) : List Node → List Standing
  | [] => []
  | n :: ns => ⟨pl, n⟩ :: n.inner ++ innerAll pl ns
termination_by structural ns => ns

end

/-- A node that stands in a place and the nodes inside it, in pre-order. -/
def Node.standing (pl : Place) (n : Node) : List Standing := ⟨pl, n⟩ :: n.inner

-- ======================================================== complaints

/-- What is wrong with the content of a node. -/
def Node.fault? : Node → Option LowerCause
  | .binaryOp _ op _ _ => if (BinaryOp.ofSymbol? op).isSome then none else some (.unknownBinary op)
  | .unaryOp _ op _ => if (UnaryOp.ofSymbol? op).isSome then none else some (.unknownUnary op)
  | .literal _ (.number (.int z)) =>
    if leastInt ≤ z ∧ z ≤ greatestInt then none else some (.integerOutOfRange z)
  | .literal _ .null => some (.unsupportedLiteral .null)
  | .literal _ (.array vs) => some (.unsupportedLiteral (.array vs))
  | .literal _ (.object ms) => some (.unsupportedLiteral (.object ms))
  | _ => none

/-- The complaint about a node that does not fit: its place goes first. -/
def Standing.complaint? (s : Standing) : Option LowerError :=
  if s.place.Admits s.node.kind then s.node.fault?.map (⟨s.node.position, ·⟩)
  else some ⟨s.node.position, .misplaced s.place s.node.kind⟩

/-- In a place that admits it, only the content of a node is complained
about. -/
theorem complaint?_of_admits (pl : Place) (n : Node) (h : pl.Admits n.kind) :
    Standing.complaint? ⟨pl, n⟩ = n.fault?.map (⟨n.position, ·⟩) :=
  if_pos h

/-- The complaint about a node is made where the node is. -/
theorem Standing.position_of_complaint {s : Standing} {e : LowerError}
    (h : s.complaint? = some e) : e.position = s.node.position := by
  unfold complaint? at h
  split at h
  · obtain ⟨c, -, rfl⟩ := Option.map_eq_some_iff.mp h
    rfl
  · cases h
    rfl

theorem Node.fault?_eq_none {n : Node} : n.fault? = none ↔ n.Sound := by
  cases n with
  | binaryOp p op l r => simp [fault?, Sound, Option.isSome_iff_exists, BinaryOp.ofSymbol?_eq_some]
  | unaryOp p op e => simp [fault?, Sound, Option.isSome_iff_exists, UnaryOp.ofSymbol?_eq_some]
  | literal p v =>
    cases v with
    | number k => cases k <;> simp [fault?, Sound, IsConstant]
    | _ => simp [fault?, Sound, IsConstant]
  | _ => simp [fault?, Sound]

/-- Nothing is complained about exactly if a node fits. -/
theorem Standing.complaint?_eq_none {s : Standing} : s.complaint? = none ↔ s.Fits := by
  unfold complaint?
  split
  case isTrue h =>
    rw [Option.map_eq_none_iff, Node.fault?_eq_none]
    exact ⟨fun hs => ⟨h, hs⟩, fun hs => hs.sound⟩
  case isFalse h => exact ⟨fun hs => (nomatch hs), fun hs => absurd hs.admitted h⟩

end TreeCheck.Document
