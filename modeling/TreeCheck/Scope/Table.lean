/-
The symbol table: a stack of scopes, innermost first, each with the
symbols it binds by name.

Scopes and symbols are numbered from zero in the order they are opened
and bound, and no number is used twice. Who opens a scope gets a handle
and needs it to leave; the handle of any scope but the innermost is
refused. A call gives a table whether it fails or not; one that fails
gives the table as it was.
-/
import Std.Data.TreeMap
import TreeCheck.Scope.Symbol

namespace TreeCheck

/-- The right to leave one scope: how deep it is and its number. -/
structure ScopeHandle where
  depth : Nat
  serial : Nat
deriving DecidableEq, Repr

/-- One scope: its number and its symbols by name. -/
structure Scope where
  serial : Nat
  symbols : Std.TreeMap String Symbol := {}

/-- The open scopes and the next number for a scope and for a symbol. -/
structure SymbolTable where
  scopes : List Scope := []
  nextSerial : Nat := 0
  nextId : SymbolId := 0

/-- Why a name could not be bound. -/
inductive BindError where
  | duplicate (name : String) (previous : Position)
  | noScope
deriving DecidableEq, Repr

/-- Why a scope could not be left. -/
inductive LeaveError where
  | notInnermost (leaving innermost : Nat)
  | noneOpen (leaving : Nat)
deriving DecidableEq, Repr

/-- The text of a failed binding. -/
def BindError.message : BindError → String
  | .duplicate name _ => s!"'{name}' is already declared in this scope"
  | .noScope => "no scope is open"

/-- The text of a failed attempt to leave a scope. -/
def LeaveError.message : LeaveError → String
  | .notInnermost leaving innermost =>
    s!"scope exit mismatch: leaving scope {leaving} but scope {innermost} is innermost"
  | .noneOpen leaving => s!"scope stack underflow leaving scope {leaving}"

namespace Scope

/-- The symbol that a scope binds to a name. -/
def find? (s : Scope) (name : String) : Option Symbol := s.symbols[name]?

/-- The scope with a symbol bound to its name, in place of any other. -/
def bind (s : Scope) (sym : Symbol) : Scope :=
  { s with symbols := s.symbols.insert sym.name sym }

/-- The symbols of a scope in the order in which they were bound. -/
def inOrder (s : Scope) : List Symbol := s.symbols.values.mergeSort (·.id ≤ ·.id)

end Scope

namespace SymbolTable

/-- The number of open scopes. -/
def depth (t : SymbolTable) : Nat := t.scopes.length

/-- Whether no scope is open. -/
def isEmpty (t : SymbolTable) : Bool := t.scopes.isEmpty

/-- Opens an empty scope inside all others. -/
def enter (t : SymbolTable) : ScopeHandle × SymbolTable :=
  (⟨t.depth + 1, t.nextSerial⟩,
    { t with scopes := { serial := t.nextSerial } :: t.scopes, nextSerial := t.nextSerial + 1 })

/-- A call as those see it who go no further once it has failed. -/
def completed {ε α : Type} (call : Except ε α × SymbolTable) : Except ε (α × SymbolTable) :=
  call.1.map (·, call.2)

/-- Leaves the innermost scope with its handle and gives its symbols in
the order in which they were bound, and the table after it. -/
def tryExit (t : SymbolTable) (h : ScopeHandle) : Except LeaveError (List Symbol) × SymbolTable :=
  match t.scopes with
  | [] => (.error (.noneOpen h.serial), t)
  | top :: outer =>
    if top.serial = h.serial ∧ t.depth = h.depth then
      (.ok top.inOrder, { t with scopes := outer })
    else (.error (.notInnermost h.serial top.serial), t)

/-- Leaves the innermost scope, if that can be done. -/
def exit (t : SymbolTable) (h : ScopeHandle) : Except LeaveError (List Symbol × SymbolTable) :=
  completed (t.tryExit h)

/-- The symbol of a name in the innermost scope. -/
def resolveLocal (t : SymbolTable) (name : String) : Option Symbol :=
  t.scopes.head?.bind (·.find? name)

/-- The symbol of a name in the innermost scope that binds it. -/
def resolve (t : SymbolTable) (name : String) : Option Symbol :=
  t.scopes.findSome? (·.find? name)

/-- Binds a name in the innermost scope, in place of any symbol it has
there; gives the new number and the symbol replaced, and the table
after it. -/
def tryShadow (t : SymbolTable) (b : Binding) :
    Except BindError (SymbolId × Option Symbol) × SymbolTable :=
  match t.scopes with
  | [] => (.error .noScope, t)
  | top :: outer =>
    (.ok (t.nextId, top.find? b.name),
      { t with scopes := top.bind ⟨b, t.nextId⟩ :: outer, nextId := t.nextId + 1 })

/-- Binds a name in the innermost scope, if there is one. -/
def shadow (t : SymbolTable) (b : Binding) :
    Except BindError ((SymbolId × Option Symbol) × SymbolTable) :=
  completed (t.tryShadow b)

/-- Binds a name that the innermost scope does not bind yet, and gives the
table after it. Outer scopes are not asked: a name may be bound again
further in. -/
def tryDeclare (t : SymbolTable) (b : Binding) : Except BindError SymbolId × SymbolTable :=
  match t.resolveLocal b.name with
  | some previous => (.error (.duplicate b.name previous.position), t)
  | none => ((t.tryShadow b).1.map (·.1), (t.tryShadow b).2)

/-- Binds a name that the innermost scope does not bind yet, if it can be
bound. -/
def declare (t : SymbolTable) (b : Binding) : Except BindError (SymbolId × SymbolTable) :=
  completed (t.tryDeclare b)

end SymbolTable

end TreeCheck
