/-
Records: what has been read for their fields, and what is put together
from it.

The value of a constant is the only part of a node that may be anything,
so a function on values acts on nodes by acting on those. It acts on what
is read for a field in the same way, and to put a node together commutes
with it: `nodeOf_map`. Positions and parameters have no constant in them
and stay as they are.

What is put together depends on a record by what its fields hold, and a
field that holds nothing is as good as none: `nodeOf_congr`.
-/
import TreeCheck.Document.Decode

namespace TreeCheck.Document

open Json (Value)

-- ============================================================ constants

mutual

/-- A node with the values of its constants changed. -/
def Node.map (f : Value → Value) : Node → Node
  | .program p body => .program p (mapAll f body)
  | .literal p v => .literal p (f v)
  | .identifier p name => .identifier p name
  | .binaryOp p op left right => .binaryOp p op (left.map f) (right.map f)
  | .unaryOp p op operand => .unaryOp p op (operand.map f)
  | .call p callee args => .call p (callee.map f) (mapAll f args)
  | .assignment p target value => .assignment p (target.map f) (value.map f)
  | .declaration p name type none mutable => .declaration p name type none mutable
  | .declaration p name type (some value) mutable =>
    .declaration p name type (some (value.map f)) mutable
  | .functionDef p name params result body => .functionDef p name params result (body.map f)
  | .block p statements => .block p (mapAll f statements)
  | .ifElse p condition thenBranch none =>
    .ifElse p (condition.map f) (thenBranch.map f) none
  | .ifElse p condition thenBranch (some elseBranch) =>
    .ifElse p (condition.map f) (thenBranch.map f) (some (elseBranch.map f))
  | .while p condition body => .while p (condition.map f) (body.map f)
  | .ret p none => .ret p none
  | .ret p (some value) => .ret p (some (value.map f))
  | .expressionStatement p expression => .expressionStatement p (expression.map f)
termination_by structural n => n

/-- Nodes with the values of their constants changed. -/
def Node.mapAll (f : Value → Value) : List Node → List Node
  | [] => []
  | n :: ns => n.map f :: mapAll f ns
termination_by structural ns => ns

end

variable (f : Value → Value)

theorem Node.mapAll_eq_map (ns : List Node) : Node.mapAll f ns = ns.map (Node.map f) := by
  induction ns with
  | nil => rfl
  | cons n ns ih => rw [Node.mapAll, List.map_cons, ih]

/-- A node stays of its kind. -/
@[simp] theorem Node.kind_map (n : Node) : (n.map f).kind = n.kind := by
  unfold map
  split <;> rfl

/-- A node stays where it is. -/
@[simp] theorem Node.position_map (n : Node) : (n.map f).position = n.position := by
  unfold map
  split <;> rfl

mutual

/-- What was read for a field, with the values of constants changed. -/
def Datum.map (f : Value → Value) : Datum → Datum
  | .json v => .json (f v)
  | .node n => .node (n.map f)
  | .list ds => .list (mapAll f ds)
  | .absent => .absent
  | .position p => .position p
  | .count n => .count n
  | .string s => .string s
  | .bool b => .bool b
  | .param p => .param p
termination_by structural d => d

/-- What was read for the items of a list, with the values of constants changed. -/
def Datum.mapAll (f : Value → Value) : List Datum → List Datum
  | [] => []
  | d :: ds => d.map f :: mapAll f ds
termination_by structural ds => ds

end

/-- The fields of a record, with the values of constants changed. -/
def mapEntries (es : List (String × Datum)) : List (String × Datum) :=
  es.map fun e => (e.1, e.2.map f)

/-- The fields of a record and what is wrong if one is missing, with the values of
constants changed. -/
def Slots.map (s : Slots) : Slots := ⟨mapEntries f s.entries, s.missing⟩

-- ========================================================= put together

/-- A field is found under its name, changed. -/
theorem lookup_mapEntries (es : List (String × Datum)) (name : String) :
    (mapEntries f es).lookup name = (es.lookup name).map (Datum.map f) := by
  induction es with
  | nil => rfl
  | cons e es ih =>
    obtain ⟨key, d⟩ := e
    simp only [mapEntries, List.map_cons, List.lookup_cons] at ih ⊢
    cases name == key with
    | true => rfl
    | false => exact ih

section Fields

variable {α : Type} {as? : Datum → Option α} {g : α → α}

/-- A field is found changed if its kind of value is. -/
theorem Slots.get?_map (h : ∀ d : Datum, as? (d.map f) = (as? d).map g) (s : Slots)
    (name : String) : (s.map f).get? name as? = (s.get? name as?).map g := by
  simp only [Slots.get?, Slots.map, lookup_mapEntries]
  cases s.entries.lookup name with
  | none => rfl
  | some d => exact h d

/-- A field that is needed is found changed, or missing as it was. -/
theorem Slots.need_map (h : ∀ d : Datum, as? (d.map f) = (as? d).map g) (s : Slots)
    (name : String) : (s.map f).need name as? = (s.need name as?).map g := by
  simp only [Slots.need, Slots.get?_map f h]
  cases s.get? name as? <;> rfl

/-- A field whose kind of value holds no constant is found as it was. -/
theorem Slots.get?_map_same (h : ∀ d : Datum, as? (d.map f) = as? d) (s : Slots)
    (name : String) : (s.map f).get? name as? = s.get? name as? := by
  simp only [Slots.get?, Slots.map, lookup_mapEntries]
  cases s.entries.lookup name with
  | none => rfl
  | some d => exact h d

/-- A needed field whose kind of value holds no constant is found as it was. -/
theorem Slots.need_map_same (h : ∀ d : Datum, as? (d.map f) = as? d) (s : Slots)
    (name : String) : (s.map f).need name as? = s.need name as? := by
  simp only [Slots.need, Slots.get?_map_same f h]
  rfl

end Fields

theorem Datum.position?_map (d : Datum) : (d.map f).position? = d.position? := by
  cases d <;> rfl

theorem Datum.count?_map (d : Datum) : (d.map f).count? = d.count? := by
  cases d <;> rfl

theorem Datum.string?_map (d : Datum) : (d.map f).string? = d.string? := by
  cases d <;> rfl

theorem Datum.bool?_map (d : Datum) : (d.map f).bool? = d.bool? := by
  cases d <;> rfl

theorem Datum.param?_map (d : Datum) : (d.map f).param? = d.param? := by
  cases d <;> rfl

/-- A value is what is changed itself. -/
theorem Datum.json?_map (d : Datum) : (d.map f).json? = d.json?.map f := by
  cases d <;> rfl

/-- A node is changed by its constants. -/
theorem Datum.node?_map (d : Datum) : (d.map f).node? = d.node?.map (Node.map f) := by
  cases d <;> rfl

/-- A list is changed item by item, and what is no item is left out as before. -/
theorem Datum.list?_map {α : Type} {item : Datum → Option α} {g : α → α}
    (h : ∀ d : Datum, item (d.map f) = (item d).map g) (d : Datum) :
    (d.map f).list? item = (d.list? item).map (List.map g) := by
  cases d with
  | list ds =>
    simp only [Datum.map, Datum.list?, Option.map_some, Option.some.injEq]
    induction ds with
    | nil => rfl
    | cons d ds ih =>
      simp only [Datum.mapAll, List.filterMap_cons, h d]
      cases item d with
      | none => exact ih
      | some a => simp only [Option.map_some, ih, List.map_cons]
  | _ => rfl

/-- Parameters hold no constants. -/
theorem Datum.params?_map (d : Datum) :
    (d.map f).list? Datum.param? = d.list? Datum.param? := by
  have hitem : ∀ d : Datum, (d.map f).param? = d.param?.map id := fun d => by
    rw [Datum.param?_map, Option.map_id_fun, id]
  simpa using Datum.list?_map f hitem d

namespace Slots

variable (s : Slots) (name : String)

theorem position_map : (s.map f).position = s.position :=
  need_map_same f (Datum.position?_map f) s _

/-- A text that a node needs is the same. -/
theorem string_map : (s.map f).string name = s.string name :=
  need_map_same f (Datum.string?_map f) s name

theorem string?_map : (s.map f).string? name = s.string? name :=
  get?_map_same f (Datum.string?_map f) s name

/-- A child that a node needs is changed. -/
theorem child_map : (s.map f).child name = (s.child name).map (Node.map f) :=
  need_map f (Datum.node?_map f) s name

/-- So is one that it may do without. -/
theorem child?_map : (s.map f).child? name = (s.child? name).map (Node.map f) :=
  get?_map f (Datum.node?_map f) s name

/-- So are the nodes of a list, which may be left out as a whole. -/
theorem children_map : (s.map f).children name = (s.children name).map (Node.map f) := by
  simp only [children, get?_map f (Datum.list?_map f (Datum.node?_map f))]
  cases s.get? name (Datum.list? Datum.node?) <;> rfl

end Slots

/-- A position is put together from counts, which stay. -/
theorem positionOf_map (s : Slots) : positionOf (s.map f) = positionOf s := by
  simp only [positionOf, Slots.need_map_same f (Datum.count?_map f)]

/-- A parameter is put together from texts and a position, which stay. -/
theorem paramOf_map (s : Slots) : paramOf (s.map f) = paramOf s := by
  simp only [paramOf, Slots.string_map, Slots.position_map, Slots.string?_map]

/-- A node is put together from changed fields as it is from the fields, changed. -/
theorem nodeOf_map (s : Slots) (k : Kind) :
    nodeOf (s.map f) k = (nodeOf s k).map (Node.map f) := by
  cases k with
  | program =>
    simp only [nodeOf, Slots.need_map f (Datum.list?_map f (Datum.node?_map f)),
      Slots.get?_map_same f (Datum.position?_map f)]
    cases s.need "body" (Datum.list? Datum.node?) with
    | error e => rfl
    | ok body =>
      simp only [Except.map, bind, Except.bind, pure, Except.pure, Node.map, Node.mapAll_eq_map]
  | literal =>
    simp only [nodeOf, Slots.position_map, Slots.need_map f (Datum.json?_map f)]
    cases s.position <;> cases s.need "value" Datum.json? <;> rfl
  | identifier =>
    simp only [nodeOf, Slots.position_map, Slots.string_map]
    cases s.position <;> cases s.string "name" <;> rfl
  | binaryOp =>
    simp only [nodeOf, Slots.position_map, Slots.string_map, Slots.child_map]
    cases s.position <;> cases s.string "op" <;> cases s.child "left" <;>
      cases s.child "right" <;> rfl
  | unaryOp =>
    simp only [nodeOf, Slots.position_map, Slots.string_map, Slots.child_map]
    cases s.position <;> cases s.string "op" <;> cases s.child "operand" <;> rfl
  | call =>
    simp only [nodeOf, Slots.position_map, Slots.child_map, Slots.children_map,
      ← Node.mapAll_eq_map]
    cases s.position <;> cases s.child "callee" <;> rfl
  | assignment =>
    simp only [nodeOf, Slots.position_map, Slots.child_map]
    cases s.position <;> cases s.child "target" <;> cases s.child "value" <;> rfl
  | declaration =>
    simp only [nodeOf, Slots.position_map, Slots.string_map, Slots.string?_map,
      Slots.child?_map, Slots.get?_map_same f (Datum.bool?_map f)]
    cases s.position <;> cases s.string "name" <;> cases s.child? "value" <;> rfl
  | functionDef =>
    simp only [nodeOf, Slots.position_map, Slots.string_map, Slots.string?_map,
      Slots.child_map, Slots.get?_map_same f (Datum.params?_map f)]
    cases s.position <;> cases s.string "name" <;> cases s.child "body" <;> rfl
  | block =>
    simp only [nodeOf, Slots.position_map, Slots.children_map, ← Node.mapAll_eq_map]
    cases s.position <;> rfl
  | ifElse =>
    simp only [nodeOf, Slots.position_map, Slots.child_map, Slots.child?_map]
    cases s.position <;> cases s.child "condition" <;> cases s.child "then_branch" <;>
      cases s.child? "else_branch" <;> rfl
  | «while» =>
    simp only [nodeOf, Slots.position_map, Slots.child_map]
    cases s.position <;> cases s.child "condition" <;> cases s.child "body" <;> rfl
  | ret =>
    simp only [nodeOf, Slots.position_map, Slots.child?_map]
    cases s.position <;> cases s.child? "value" <;> rfl
  | expressionStatement =>
    simp only [nodeOf, Slots.position_map, Slots.child_map]
    cases s.position <;> cases s.child "expression" <;> rfl

-- ======================================================= what is held

/-- What fields that have been read hold, by their names. -/
def held (es : List (String × Datum)) (name : String) : Datum := (es.lookup name).getD .absent

/-- Two records hold the same in every field, and lack the same if one is missing. -/
structure Slots.Same (s s' : Slots) : Prop where
  held : held s.entries = held s'.entries
  missing : s.missing = s'.missing

/-- Where nothing was read there is nothing to be found. -/
theorem Slots.get?_eq_held {α : Type} {as? : Datum → Option α} (habsent : as? .absent = none)
    (s : Slots) (name : String) : s.get? name as? = as? (held s.entries name) := by
  unfold get? held
  cases s.entries.lookup name with
  | none => exact habsent.symm
  | some d => rfl

namespace Slots.Same

variable {α : Type} {s s' : Slots} (h : s.Same s')

include h

/-- A field that is asked for is found alike in records that hold the same. -/
theorem get? (as? : Datum → Option α) (habsent : as? .absent = none) (name : String) :
    s.get? name as? = s'.get? name as? := by
  rw [get?_eq_held habsent, get?_eq_held habsent, h.held]

/-- A field that is needed is found alike, or missing alike. -/
theorem need (as? : Datum → Option α) (habsent : as? .absent = none) (name : String) :
    s.need name as? = s'.need name as? := by
  unfold Slots.need
  rw [h.get? as? habsent, h.missing]

variable (name : String)

theorem position : s.position = s'.position := h.need Datum.position? rfl "position"

theorem child : s.child name = s'.child name := h.need Datum.node? rfl name

theorem child? : s.child? name = s'.child? name := h.get? Datum.node? rfl name

theorem string : s.string name = s'.string name := h.need Datum.string? rfl name

theorem string? : s.string? name = s'.string? name := h.get? Datum.string? rfl name

theorem children : s.children name = s'.children name :=
  congrArg (Option.getD · []) (h.get? (Datum.list? Datum.node?) rfl name)

end Slots.Same

/-- A position is put together from what its fields hold. -/
theorem positionOf_congr {s s' : Slots} (h : s.Same s') : positionOf s = positionOf s' := by
  unfold positionOf
  rw [h.need Datum.count? rfl, h.need Datum.count? rfl]

/-- So is a parameter. -/
theorem paramOf_congr {s s' : Slots} (h : s.Same s') : paramOf s = paramOf s' := by
  unfold paramOf
  rw [h.string, h.position, h.string?]

/-- A node is put together from what its fields hold. -/
theorem nodeOf_congr {s s' : Slots} (h : s.Same s') (k : Kind) : nodeOf s k = nodeOf s' k := by
  cases k with
  | program =>
    simp only [nodeOf, h.need (Datum.list? Datum.node?) rfl, h.get? Datum.position? rfl]
  | literal => simp only [nodeOf, h.position, h.need Datum.json? rfl]
  | identifier => simp only [nodeOf, h.position, h.string]
  | binaryOp => simp only [nodeOf, h.position, h.string, h.child]
  | unaryOp => simp only [nodeOf, h.position, h.string, h.child]
  | call => simp only [nodeOf, h.position, h.child, h.children]
  | assignment => simp only [nodeOf, h.position, h.child]
  | declaration =>
    simp only [nodeOf, h.position, h.string, h.string?, h.child?, h.get? Datum.bool? rfl]
  | functionDef =>
    simp only [nodeOf, h.position, h.string, h.string?, h.child,
      h.get? (Datum.list? Datum.param?) rfl]
  | block => simp only [nodeOf, h.position, h.children]
  | ifElse => simp only [nodeOf, h.position, h.child, h.child?]
  | «while» => simp only [nodeOf, h.position, h.child]
  | ret => simp only [nodeOf, h.position, h.child?]
  | expressionStatement => simp only [nodeOf, h.position, h.child]

-- ============================================================ read values

/-- A sequence gives a result exactly if both of its parts do. -/
theorem bind_eq_ok {ε α β : Type} {x : Except ε α} {k : α → Except ε β} {b : β} :
    (x >>= k) = .ok b ↔ ∃ a, x = .ok a ∧ k a = .ok b := by
  cases x with
  | error e => exact ⟨fun h => (nomatch h), fun ⟨_, h, _⟩ => (nomatch h)⟩
  | ok a => exact ⟨fun h => ⟨a, rfl, h⟩, fun ⟨_, h, h'⟩ => by cases h; exact h'⟩

/-- Any value can be read for a constant. -/
theorem readShape_json (v : Value) : readShape v .json = .ok (.json v) := by
  cases v <;> rfl

/-- Reads the value of a field, which may be `null` for an absent one. -/
def readField (f : Field) : Value → Except DecodeError Datum
  | .null => if f.nullable then .ok .absent else readShape .null f.shape
  | v => readShape v f.shape

/-- The values of a list are read for the fields in order. -/
theorem readFields_cons (f : Field) (fs : List Field) (v : Value) (vs : List Value) :
    readFields (f :: fs) (v :: vs) = (do
      let d ← readField f v
      let ds ← readFields fs vs
      pure ((f.name, d) :: ds)) := by
  cases v with
  | null =>
    simp only [readFields, readField]
    cases f.nullable <;> rfl
  | _ =>
    simp only [readFields, readField]
    cases f.nullable <;> rfl

/-- A member whose name is a field that was not read before is read for it. -/
theorem readMembers_cons {fs : List Field} {seen : List (String × Datum)} {key : String}
    {f : Field} (hf : fs.find? (·.name == key) = some f) (hseen : (seen.lookup key).isSome = false)
    (v : Value) (ms : List (String × Value)) :
    readMembers fs seen ((key, v) :: ms) = (do
      let d ← readField f v
      readMembers fs ((key, d) :: seen) ms) := by
  cases v with
  | null =>
    simp only [readMembers, readField, hf, hseen]
    cases f.nullable <;> rfl
  | _ =>
    simp only [readMembers, readField, hf, hseen]
    cases f.nullable <;> rfl

/-- Only `null` can stand for an absent value. -/
theorem readField_of_ne_null (f : Field) {v : Value} (h : v ≠ .null) :
    readField f v = readShape v f.shape := by
  cases v with
  | null => exact absurd rfl h
  | _ => rfl

end TreeCheck.Document
