/-
Decoding: from JSON values to nodes.

A node, a position and a parameter are each a record of named fields.
The fields of a record are read as they come, so of several faults the
first in the document is reported; what is missing is noticed after all
of them have been read, in the order of the record. A record may also be
written as an array of its fields in order, and then it is its length
that is found wrong. Unknown fields are passed over, however often they
come.
-/
import TreeCheck.Document.DecodeError
import TreeCheck.Document.Node

namespace TreeCheck.Document

open Json (Value)

-- ============================================================ read fields

/-- The value of a field that has been read. -/
inductive Datum where
  | absent
  | position (p : Position)
  | count (n : Nat)
  | string (s : String)
  | bool (b : Bool)
  | json (v : Value)
  | node (n : Node)
  | param (p : Param)
  | list (ds : List Datum)

namespace Datum

/-- The position that was read. -/
def position? : Datum → Option Position
  | .position p => some p
  | _ => none

/-- The count that was read. -/
def count? : Datum → Option Nat
  | .count n => some n
  | _ => none

/-- The string that was read. -/
def string? : Datum → Option String
  | .string s => some s
  | _ => none

/-- The truth value that was read. -/
def bool? : Datum → Option Bool
  | .bool b => some b
  | _ => none

/-- The JSON value that was read. -/
def json? : Datum → Option Value
  | .json v => some v
  | _ => none

/-- The node that was read. -/
def node? : Datum → Option Node
  | .node n => some n
  | _ => none

/-- The parameter that was read. -/
def param? : Datum → Option Param
  | .param p => some p
  | _ => none

/-- The list that was read, by what its items are. -/
def list? {α : Type} (item : Datum → Option α) : Datum → Option (List α)
  | .list ds => some (ds.filterMap item)
  | _ => none

end Datum

/-- The fields of a record that have been read, and what is wrong if one
is missing. -/
structure Slots where
  entries : List (String × Datum)
  missing : String → DecodeError

namespace Slots

/-- The value read for a field, if it has been given. -/
def get? {α : Type} (s : Slots) (name : String) (as? : Datum → Option α) : Option α :=
  (s.entries.lookup name).bind as?

/-- The value read for a field that must be given. -/
def need {α : Type} (s : Slots) (name : String) (as? : Datum → Option α) :
    Except DecodeError α :=
  match s.get? name as? with
  | some a => .ok a
  | none => .error (s.missing name)

/-- The position that must be given. -/
def position (s : Slots) : Except DecodeError Position := s.need "position" Datum.position?

/-- A node that must be given. -/
def child (s : Slots) (name : String) : Except DecodeError Node := s.need name Datum.node?

/-- A node that may be missing or `null`. -/
def child? (s : Slots) (name : String) : Option Node := s.get? name Datum.node?

/-- A string that must be given. -/
def string (s : Slots) (name : String) : Except DecodeError String := s.need name Datum.string?

/-- A string that may be missing or `null`. -/
def string? (s : Slots) (name : String) : Option String := s.get? name Datum.string?

/-- Nodes of which there are none if the field is missing. -/
def children (s : Slots) (name : String) : List Node :=
  (s.get? name (Datum.list? Datum.node?)).getD []

end Slots

-- ========================================================= put together

/-- A position from its fields. -/
def positionOf (s : Slots) : Except DecodeError Position := do
  let line ← s.need "line" Datum.count?
  let column ← s.need "column" Datum.count?
  pure ⟨line, column⟩

/-- A parameter from its fields. -/
def paramOf (s : Slots) : Except DecodeError Param := do
  let name ← s.string "name"
  let position ← s.position
  pure ⟨name, s.string? "type", position⟩

/-- A node from its fields. Variables are mutable unless they say
otherwise, and a program starts where a source does. -/
def nodeOf (s : Slots) : Kind → Except DecodeError Node
  | .program => do
    let body ← s.need "body" (Datum.list? Datum.node?)
    pure (.program ((s.get? "position" Datum.position?).getD Position.start) body)
  | .literal => do
    let p ← s.position
    pure (.literal p (← s.need "value" Datum.json?))
  | .identifier => do
    let p ← s.position
    pure (.identifier p (← s.string "name"))
  | .binaryOp => do
    let p ← s.position
    let op ← s.string "op"
    let left ← s.child "left"
    pure (.binaryOp p op left (← s.child "right"))
  | .unaryOp => do
    let p ← s.position
    let op ← s.string "op"
    pure (.unaryOp p op (← s.child "operand"))
  | .call => do
    let p ← s.position
    pure (.call p (← s.child "callee") (s.children "arguments"))
  | .assignment => do
    let p ← s.position
    let target ← s.child "target"
    pure (.assignment p target (← s.child "value"))
  | .declaration => do
    let p ← s.position
    let name ← s.string "name"
    let mutable := (s.get? "mutable" Datum.bool?).getD true
    pure (.declaration p name (s.string? "type") (s.child? "value") mutable)
  | .functionDef => do
    let p ← s.position
    let name ← s.string "name"
    let params := (s.get? "params" (Datum.list? Datum.param?)).getD []
    pure (.functionDef p name params (s.string? "return_type") (← s.child "body"))
  | .block => do
    let p ← s.position
    pure (.block p (s.children "statements"))
  | .ifElse => do
    let p ← s.position
    let condition ← s.child "condition"
    let thenBranch ← s.child "then_branch"
    pure (.ifElse p condition thenBranch (s.child? "else_branch"))
  | .while => do
    let p ← s.position
    let condition ← s.child "condition"
    pure (.while p condition (← s.child "body"))
  | .ret => do
    let p ← s.position
    pure (.ret p (s.child? "value"))
  | .expressionStatement => do
    let p ← s.position
    pure (.expressionStatement p (← s.child "expression"))

-- =========================================================== read values

/-- The greatest line or column. -/
def greatestCount : Nat := 0xFFFFFFFF

/-- A line or a column. -/
def countOf (z : Int) : Except DecodeError Nat :=
  if 0 ≤ z ∧ z ≤ greatestCount then .ok z.toNat else .error (.wrongValue z .count)

/-- The kind that the value of a `kind` member or the first item of an
array stands for: a name, or its number. -/
def kindOfTag : Value → Except DecodeError Kind
  | .string s => (Kind.ofName? s).elim (.error (.unknownKind s)) .ok
  | .number (.int z) =>
    if z < 0 then .error (.wrongType (.number (.int z)) .kindName)
    else (Kind.all[z.toNat]?).elim (.error (.wrongValue z .kindNumber)) .ok
  | v => .error (.wrongType v .kindName)

/-- The kind that the members of an object name, which one of them must
do, wherever it stands. -/
def kindOf (members : List (String × Value)) : Except DecodeError Kind :=
  go none members
where
  /-- Looks for the kind in the members left, with the one found before. -/
  go : Option Kind → List (String × Value) → Except DecodeError Kind
    | none, [] => .error (.missingField "kind")
    | some k, [] => .ok k
    | found, (key, v) :: ms =>
      if key = "kind" then
        match found with
        | some _ => .error (.duplicateField "kind")
        | none =>
          match kindOfTag v with
          | .error e => .error e
          | .ok k => go (some k) ms
      else go found ms

/-- What is wrong with an array of some length from which a field is
missing: it ends at the place of that field. -/
def missingItem (fields : List Field) (expected : Expected) (name : String) : DecodeError :=
  .wrongLength (fields.findIdx (·.name == name)) expected

/-- Refuses an array with more items than a record has fields. -/
def atMost {α β : Type} (fields : List Field) (items : List α) (b : β) : Except DecodeError β :=
  if items.length ≤ fields.length then .ok b
  else .error (.wrongLength items.length (.items fields.length))

/-- What a shape calls for when a value is of the wrong type. -/
def Shape.expected : Shape → Expected
  | .position => .position
  | .count => .count
  | .string => .string
  | .bool => .bool
  | .json | .node => .node
  | .param => .param
  | .nodes | .params => .sequence

mutual

/-- Reads a value of a shape. -/
def readShape : Value → Shape → Except DecodeError Datum
  | v, .json => .ok (.json v)
  | .bool b, .bool => .ok (.bool b)
  | .number (.int z), .count => do pure (.count (← countOf z))
  | .string s, .string => .ok (.string s)
  | .array vs, .nodes => do pure (.list (← readAll vs .node))
  | .array vs, .params => do pure (.list (← readAll vs .param))
  | .array vs, .position => do
    let entries ← readFields positionFields vs
    let p ← positionOf ⟨entries, missingItem positionFields .fieldsOfPosition⟩
    atMost positionFields vs (.position p)
  | .array vs, .param => do
    let entries ← readFields paramFields vs
    let p ← paramOf ⟨entries, missingItem paramFields .fieldsOfParam⟩
    atMost paramFields vs (.param p)
  | .array [], .node => .error (.missingField "kind")
  | .array (tag :: vs), .node => do
    let kind ← kindOfTag tag
    let entries ← readFields kind.fields vs
    let n ← nodeOf ⟨entries, missingItem kind.fields (.fieldsOf kind)⟩ kind
    atMost kind.fields vs (.node n)
  | .object ms, .position => do
    let entries ← readMembers positionFields [] ms
    pure (.position (← positionOf ⟨entries, .missingField⟩))
  | .object ms, .param => do
    let entries ← readMembers paramFields [] ms
    pure (.param (← paramOf ⟨entries, .missingField⟩))
  | .object ms, .node => do
    let kind ← kindOf ms
    let entries ← readMembers kind.fields [] ms
    pure (.node (← nodeOf ⟨entries, .missingField⟩ kind))
  | v, shape => .error (.wrongType v shape.expected)
termination_by structural v => v

/-- Reads values that all have one shape. -/
def readAll : List Value → Shape → Except DecodeError (List Datum)
  | [], _ => .ok []
  | v :: vs, shape => do
    let d ← readShape v shape
    let ds ← readAll vs shape
    pure (d :: ds)
termination_by structural vs => vs

/-- Reads the fields of a record from the items of an array. -/
def readFields : List Field → List Value → Except DecodeError (List (String × Datum))
  | f :: fs, v :: vs => do
    let d ← if f.nullable && v matches .null then pure .absent else readShape v f.shape
    let ds ← readFields fs vs
    pure ((f.name, d) :: ds)
  | _, _ => .ok []
termination_by structural _ vs => vs

/-- Reads the fields of a record from the members of an object onto those
already read. -/
def readMembers (fields : List Field) (seen : List (String × Datum)) :
    List (String × Value) → Except DecodeError (List (String × Datum))
  | [] => .ok seen
  | (key, v) :: ms =>
    match fields.find? (·.name == key) with
    | none => readMembers fields seen ms
    | some f =>
      if (seen.lookup key).isSome then .error (.duplicateField key)
      else do
        let d ← if f.nullable && v matches .null then pure .absent else readShape v f.shape
        readMembers fields ((key, d) :: seen) ms
termination_by structural ms => ms

end

/-- The node that a value stands for. -/
def decode (v : Value) : Except DecodeError Node := do
  match ← readShape v .node with
  | .node n => pure n
  | _ => .error (.wrongType v .node)

end TreeCheck.Document
