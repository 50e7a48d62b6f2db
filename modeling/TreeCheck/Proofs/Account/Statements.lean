/-
The account of statements and programs.

A `Walk` is what walking part of a scope comes to: the frame of the scope
afterwards, the number for the next symbol, and the events. Frames
further out are passed down and never returned, so that a scope cannot
change the scopes around it is not a theorem but the type of `walk`.

Whether a function is declared ahead of its place depends on its name
and on the names of the variables before it in its list, and on nothing
else. The account therefore needs no table of signatures: a function
that was declared ahead is passed over where the walk reaches it.
-/
import TreeCheck.Proofs.Account.Expressions
import TreeCheck.Analysis.Statements

namespace TreeCheck

open Analysis

/-- What walking part of a scope comes to. -/
structure Walk where
  frame : Frame
  next : SymbolId
  events : List Event

namespace Walk

/-- A walk that goes on from where another one ended. -/
def andThen (w : Walk) (f : Frame → SymbolId → Walk) : Walk where
  frame := (f w.frame w.next).frame
  next := (f w.frame w.next).next
  events := w.events ++ (f w.frame w.next).events

/-- A walk with events before it. -/
def after (es : List Event) (w : Walk) : Walk :=
  { w with events := es ++ w.events }

section

variable (es : List Event) (w : Walk) (f : Frame → SymbolId → Walk)

@[simp] theorem frame_andThen :
    (w.andThen f).frame = (f w.frame w.next).frame := rfl

@[simp] theorem next_andThen :
    (w.andThen f).next = (f w.frame w.next).next := rfl

@[simp] theorem events_andThen :
    (w.andThen f).events = w.events ++ (f w.frame w.next).events := rfl

theorem andThen_assoc (g : Frame → SymbolId → Walk) :
    (w.andThen f).andThen g = w.andThen fun φ n => (f φ n).andThen g := by
  simp only [andThen, List.append_assoc]

@[simp] theorem frame_after : (after es w).frame = w.frame := rfl

@[simp] theorem next_after : (after es w).next = w.next := rfl

@[simp] theorem events_after : (after es w).events = es ++ w.events := rfl

end

end Walk

-- ============================================================= binding

/-- What is found about a binding whose name the scope has already. -/
def duplicateEvents (node : NodeId) (b : Binding) : Option Declared → List Event
  | some previous => [.found node
      ⟨.duplicate b.name, b.position, some previous.position⟩]
  | none => []

/-- A name is bound under the next number, in place of any other symbol
of that name. -/
def declaring (node : NodeId) (site : Site) (b : Binding) (φ : Frame)
    (n : SymbolId) : Walk where
  frame := ⟨⟨b, n⟩, site⟩ :: φ
  next := n + 1
  events := duplicateEvents node b (φ.find b.name) ++ [.bound ⟨⟨b, n⟩, site⟩]

-- ========================================================= annotations

/-- The type that an annotation stands for. -/
def TypeName.type (a : TypeName) : Ty := (Ty.ofName? a.name).getD .error

/-- What is found about an annotation. -/
def TypeName.events (node : NodeId) (a : TypeName) : List Event :=
  complaint (Ty.ofName? a.name).isSome node (.unknownType a.name) a.position

/-- The type that an annotation gives to a variable or parameter. -/
def TypeName.valueType (a : TypeName) : Ty :=
  if a.type = .void then .error else a.type

/-- What is found about the annotation of a variable or parameter. -/
def TypeName.valueEvents (node : NodeId) (name : String) (a : TypeName) :
    List Event :=
  a.events node ++ complaint (a.type != .void) node (.voidVariable name)
    a.position

/-- The type of a parameter. -/
def Param.type (p : Param) : Ty := p.typeName.elim .unknown (·.valueType)

/-- What is found about a parameter's annotation. -/
def Param.events (node : NodeId) (p : Param) : List Event :=
  p.typeName.elim [] (·.valueEvents node p.name)

/-- The signature of a function. -/
def Signature.of (params : List Param) (result : Option TypeName)
    (body : List Stmt) :
    Signature where
  params := params.map (·.type)
  ret := result.elim (if Stmt.anyReturnsValue body then .unknown else .void)
    (·.type)

/-- What is found about the annotations of a function. -/
def signatureEvents (node : NodeId) (params : List Param)
    (result : Option TypeName) : List Event :=
  params.flatMap (·.events node) ++ result.elim [] (·.events node)

-- =========================================================== functions

/-- A function is bound, with the type that its annotations give. -/
def declaringFunction (t : Tag) (name : String) (params : List Param)
    (result : Option TypeName) (body : List Stmt) (φ : Frame) (n : SymbolId) :
    Walk :=
  (declaring t.id (.stmt t.id)
    ⟨name, .function,
      .func (Signature.of params result body).params
      (Signature.of params result body).ret,
      t.position, false⟩ φ n).after (signatureEvents t.id params result)

/-- The functions of a list are bound ahead of their place, except those
whose name a variable before them has. -/
def hoisting : List String → List Stmt → Frame → SymbolId → Walk
  | _, [], φ, n => ⟨φ, n, []⟩
  | earlier, .declaration _ name _ _ _ :: ss, φ, n =>
      hoisting (name :: earlier) ss φ n
  | earlier, .function t name params result _ body :: ss, φ, n =>
    if name ∈ earlier then hoisting earlier ss φ n
    else (declaringFunction t name params result body φ n).andThen
      (hoisting earlier ss)
  | earlier, _ :: ss, φ, n => hoisting earlier ss φ n

/-- Parameters are bound with their types, from one with a given index
on. -/
def declaringParams (function : NodeId) :
    Nat → List Param → List Ty → Frame → SymbolId → Walk
  | i, p :: ps, ty :: tys, φ, n =>
    (declaring function (.param function i)
      ⟨p.name, .parameter, ty, p.position, true⟩
      φ n).andThen (declaringParams function (i + 1) ps tys)
  | _, _, _, φ, n => ⟨φ, n, []⟩

/-- Whether a function is declared ahead of its place, by the variables
before it in its list. -/
def Stmt.isAhead (earlier : List String) : Stmt → Bool
  | .function _ name _ _ _ _ => name ∉ earlier
  | _ => false

/-- The names of the variables before the next statement of a list. -/
def Stmt.variablesAfter (earlier : List String) : Stmt → List String
  | .declaration _ name _ _ _ => name :: earlier
  | _ => earlier

-- ====================================================== own statements

/-- The type of a variable, by its annotation and its initializer. -/
def variableTypeOf : Option Ty → Option Ty → Ty
  | some declared, _ => declared
  | none, some found => if found = .void then .error else found
  | none, none => .unknown

/-- What is found about an initializer. -/
def initializerEvents (node : NodeId) (name : String) :
    Option Ty → Option (Ty × Position) → List Event
  | some declared, some (found, p) =>
    complaint (declared.accepts found) node
      (.badInitializer name declared found) p
  | none, some (found, p) =>
      complaint (found != .void) node (.voidInitializer name) p
  | _, none => []

/-- What is done about the annotation and the initializer of a variable. -/
def declarationEvents (ρ : Lookup) (node : NodeId) (name : String)
    (ann : Option TypeName) (init : Option Expr) : List Event :=
  ann.elim [] (·.valueEvents node name) ++ Expr.events? ρ init
    ++ initializerEvents node name (ann.map (·.valueType))
        (located init (init.map (·.typeIn ρ)))

/-- What is found about storing a value in a symbol. -/
def storeEvents (node : NodeId) (target : Tag) (d : Declared) (name : String)
    (found : Ty) (p : Position) : List Event :=
  if d.kind = .function then
    [.found node ⟨.assignToFunction name, target.position, some d.position⟩]
  else if !d.mutable then
    [.found node ⟨.assignToImmutable name, target.position, some d.position⟩]
  else complaint (d.type.accepts found) node (.badAssignment name d.type found) p

/-- The account of an assignment. -/
def assignmentEvents (ρ : Lookup) (node : NodeId) : Expr → Expr → List Event
  | .identifier t x, value =>
    match ρ x with
    | some d =>
      [.resolved t.id d, .typed t.id d.type] ++ value.events ρ
        ++ storeEvents node t d x (value.typeIn ρ) value.position
    | none =>
      [.found t.id ⟨.undefined x, t.position, none⟩, .typed t.id .error]
        ++ value.events ρ
  | target, value =>
    target.events ρ ++ value.events ρ
      ++ [.found node ⟨.notAVariable, target.position, none⟩]

/-- The account of a condition. -/
def conditionEvents (ρ : Lookup) (node : NodeId) (construct : Construct)
    (c : Expr) : List Event :=
  c.events ρ ++ complaint (isCondition (c.typeIn ρ)) node
    (.badCondition construct (c.typeIn ρ)) c.position

/-- What is found about a `return`. -/
def returnEvents (node : NodeId) (position : Position) :
    Option Ty → Option (Ty × Position) → List Event
  | none, _ => [.found node ⟨.returnOutside, position, none⟩]
  | some expected, some (found, p) =>
    complaint (expected.accepts found) node (.badReturn expected found) p
  | some expected, none =>
    complaint (expected == .void || expected.isPermissive) node
      (.missingReturn expected) position

-- ============================================================== scopes

/-- The symbols of a frame that no later one hides, the latest first. -/
def Frame.current : Frame → Frame
  | [] => []
  | d :: φ => d :: (current φ).filter (·.name != d.name)

/-- What is found when a scope is left: the variables and parameters that
nothing in it has read, in the order of their declarations. -/
def leavingEvents (config : Config) (w : Walk) : List Event :=
  if config.warnUnused then
    w.frame.current.reverse.filterMap fun d =>
      (unused? (replay {} w.events).used d.toSymbol).map (.found d.site.node)
  else []

/-- The walk of a scope, seen from the scope around it: its names are gone,
and its unused ones are reported. -/
def Walk.closed (config : Config) (φ : Frame) (inner : Walk) : Walk where
  frame := φ
  next := inner.next
  events := inner.events ++ leavingEvents config inner

/-- A branch has a scope of its own. A block brings its scope along. -/
def walkBranch (config : Config) (branch : Stmt)
    (walk : Env → Frame → SymbolId → Walk) (outer : Env) (φ : Frame)
    (n : SymbolId) : Walk :=
  if branch.isBlock then walk outer φ n
  else (walk (φ :: outer) [] n).closed config φ

-- =========================================================== statements

/-- A variable is bound after what its declaration says is looked at. -/
def declaringVariable (ρ : Lookup) (t : Tag) (name : String)
    (ann : Option TypeName) (init : Option Expr) (mutable : Bool) (φ : Frame)
    (n : SymbolId) : Walk :=
  (declaring t.id (.stmt t.id)
    ⟨name, .variable,
      variableTypeOf (ann.map (·.valueType)) (init.map (·.typeIn ρ)),
      t.position, mutable⟩ φ n).after (declarationEvents ρ t.id name ann init)

/-- The account of a `return`. -/
def returningEvents (ρ : Lookup) (t : Tag) (expected : Option Ty)
    (value : Option Expr) : List Event :=
  Expr.events? ρ value
    ++ returnEvents t.id t.position expected
      (located value (value.map (·.typeIn ρ)))

mutual

/-- Walks a statement. The flag says whether it is a function that has
been declared ahead of its place. -/
def Stmt.walk (config : Config) :
    Stmt → Option Ty → Bool → Env → Frame → SymbolId → Walk
  | .declaration t name ann init mutable, _, _, outer, φ, n =>
    declaringVariable (Env.find (φ :: outer)) t name ann init mutable φ n
  | .function t name params result _ body, _, ahead, outer, φ, n =>
    let sig := Signature.of params result body
    (if ahead then ⟨φ, n, []⟩
      else declaringFunction t name params result body φ n).andThen fun φ n =>
        (((declaringParams t.id 0 params sig.params [] n).andThen
          (hoisting [] body)).andThen
            (Stmt.walkAll config body (some sig.ret) [] (φ :: outer))).closed
              config φ
  | .assignment t target value, _, _, outer, φ, n =>
    ⟨φ, n, assignmentEvents (Env.find (φ :: outer)) t.id target value⟩
  | .block _ _ ss, expected, _, outer, φ, n =>
    ((hoisting [] ss [] n).andThen
      (Stmt.walkAll config ss expected [] (φ :: outer))).closed config φ
  | .ifElse t c a none, expected, _, outer, φ, n =>
    (walkBranch config a (Stmt.walk config a expected false) outer φ n).after
      (conditionEvents (Env.find (φ :: outer)) t.id .ifElse c)
  | .ifElse t c a (some b), expected, _, outer, φ, n =>
    ((walkBranch config a (Stmt.walk config a expected false) outer φ n).andThen
      (walkBranch config b (Stmt.walk config b expected false) outer)).after
      (conditionEvents (Env.find (φ :: outer)) t.id .ifElse c)
  | .while t c b, expected, _, outer, φ, n =>
    (walkBranch config b (Stmt.walk config b expected false) outer φ n).after
      (conditionEvents (Env.find (φ :: outer)) t.id .while c)
  | .ret t value, expected, _, outer, φ, n =>
    ⟨φ, n, returningEvents (Env.find (φ :: outer)) t expected value⟩
  | .expr _ e, _, _, outer, φ, n => ⟨φ, n, e.events (Env.find (φ :: outer))⟩
termination_by structural s => s

/-- Walks the statements of a list in order. -/
def Stmt.walkAll (config : Config) :
    List Stmt → Option Ty → List String → Env → Frame → SymbolId → Walk
  | [], _, _, _, φ, n => ⟨φ, n, []⟩
  | s :: ss, expected, earlier, outer, φ, n =>
    (Stmt.walk config s expected (s.isAhead earlier) outer φ n).andThen
      (Stmt.walkAll config ss expected (s.variablesAfter earlier) outer)
termination_by structural ss => ss

end

/-- The account of a program. Its global scope is not asked what is
unused in it. -/
def Program.account (config : Config) (p : Program) : List Event :=
  ((hoisting [] p.body [] 0).andThen
    (Stmt.walkAll config p.body none [] [])).events

end TreeCheck
