/-
Which programs are well-formed, as a system of rules.

Nothing of an analysis occurs here: no findings, no state, and no type
that stands for a failure. Where a rule does not apply there is no
derivation. Names are bound by the scoping rule (Scoping/Level), with
the type of a declaration and whether it can be assigned to as what is
known of it.

A scope is opened with its parameters and with the functions of its list
that are declared ahead; the statements then add their own declarations
one after the other. Branches are lists of one statement.
-/
import Mathlib.Data.List.Forall2
import TreeCheck.Proofs.Scoping.Level

namespace TreeCheck

open Analysis

-- ============================================================== types

/-- Two components of function types that can stand for each other. -/
inductive Ty.Similar : Ty → Ty → Prop
  | refl {a} : Similar a a
  | unknownLeft {b} : Similar .unknown b
  | unknownRight {a} : Similar a .unknown

/-- A value of the second type may be stored where the first is declared.
Numbers widen at the top of a type only. -/
inductive Ty.Assignable : Ty → Ty → Prop
  | refl {a} : Assignable a a
  | unknownTarget {b} : Assignable .unknown b
  | unknownValue {a} : Assignable a .unknown
  | widen : Assignable .float .int
  | func {ps qs r s} : List.Forall₂ Similar ps qs → Similar r s →
      Assignable (.func ps r) (.func qs s)

/-- A type that is some wanted one, or not known. -/
def Ty.OrUnknown (P : Ty → Prop) (t : Ty) : Prop := P t ∨ t = .unknown

/-- The types of numbers. -/
inductive Ty.Number : Ty → Prop
  | int : Number .int
  | float : Number .float

/-- What arithmetic demands of one operand if the other is not known. -/
def BinaryOp.Admits (op : BinaryOp) (t : Ty) : Prop :=
  t.OrUnknown Ty.Number ∨ op = .add ∧ t = .string

/-- What arithmetic makes of its operands. If one is not known, only as
much is demanded of the other as the operator needs. -/
inductive Arithmetic (op : BinaryOp) : Ty → Ty → Ty → Prop
  | int : Arithmetic op .int .int .int
  | float {a b} : a.Number → b.Number → (a = .float ∨ b = .float) →
      Arithmetic op a b .float
  | concat : op = .add → Arithmetic op .string .string .string
  | unknownLeft {b} : op.Admits b → Arithmetic op .unknown b .unknown
  | unknownRight {a} : op.Admits a → Arithmetic op a .unknown .unknown

/-- What binary operators make of their operands. -/
inductive BinaryRule (op : BinaryOp) : Ty → Ty → Ty → Prop
  | logical {a b} : op.operatorClass = .logical →
      a.OrUnknown (· = .bool) → b.OrUnknown (· = .bool) → BinaryRule op a b .bool
  | equality {a b} : op.operatorClass = .equality →
      (a.Assignable b ∨ b.Assignable a) → BinaryRule op a b .bool
  | ordering {a b} : op.operatorClass = .ordering →
      a.OrUnknown Ty.Number → b.OrUnknown Ty.Number → BinaryRule op a b .bool
  | arithmetic {a b c} : op.operatorClass = .arithmetic → Arithmetic op a b c →
      BinaryRule op a b c

/-- The operands that unary operators admit; their type is kept. -/
inductive UnaryRule : UnaryOp → Ty → Prop
  | neg {a} : a.OrUnknown Ty.Number → UnaryRule .neg a
  | not {a} : a.OrUnknown (· = .bool) → UnaryRule .not a

-- ======================================================== annotations

/-- The type that an annotation names. -/
def TypeName.type? (a : TypeName) : Option Ty := Ty.ofName? a.name

/-- The type that an annotation gives to a variable or parameter. -/
def TypeName.valueType? (a : TypeName) : Option Ty := a.type?.filter (· ≠ .void)

/-- The type of a parameter. -/
def Param.type? (p : Param) : Option Ty :=
  p.typeName.elim (some .unknown) (·.valueType?)

/-- The signature of a function, if its annotations are valid. -/
def Signature.of? (params : List Param) (result : Option TypeName)
    (body : List Stmt) : Option Signature := do
  let ps ← params.mapM Param.type?
  let r ← result.elim
    (some (if Stmt.anyReturnsValue body then .unknown else .void))
    (·.type?)
  some ⟨ps, r⟩

-- ============================================================= scopes

/-- What typing knows of a declaration. -/
structure TypeInfo where
  type : Ty
  mutable : Bool
deriving DecidableEq, Repr

/-- The scopes around a place, the innermost first. -/
abbrev Scopes := List (Level TypeInfo)

/-- The declaration that a function statement makes. -/
def Stmt.typedDecl? : Stmt → Option (Decl TypeInfo)
  | .function _ name params result _ body =>
    (Signature.of? params result body).map fun sig =>
      ⟨name, .function, .func sig.params sig.ret, false⟩
  | _ => none

/-- The declarations of parameters with their types. -/
def typedParams (params : List Param) (types : List Ty) : List (Decl TypeInfo) :=
  (params.zip types).map fun p => ⟨p.1.name, .parameter, p.2, true⟩

/-- The name that a statement declares in its list. -/
def Stmt.declaredName? : Stmt → Option String
  | .declaration _ name _ _ _ | .function _ name _ _ _ _ => some name
  | _ => none

/-- A scope at its first statement. -/
def Level.entered (params : List (Decl TypeInfo)) (ss : List Stmt) :
    Level TypeInfo where
  params := params
  ahead := (Stmt.functionsAhead [] ss).filterMap Stmt.typedDecl?

-- ======================================================== expressions

mutual

/-- An expression has a type. -/
inductive HasType (Γ : Scopes) : Expr → Ty → Prop
  | literal {t v} : HasType Γ (.literal t v) (literalType v)
  | identifier {t x d} :
      findLevel Γ x = some d → HasType Γ (.identifier t x) d.info.type
  | binary {t op l r a b c} :
      HasType Γ l a → HasType Γ r b → BinaryRule op a b c →
      HasType Γ (.binary t op l r) c
  | unary {t op e a} : HasType Γ e a → UnaryRule op a →
      HasType Γ (.unary t op e) a
  | callUnknown {t f args as} : HasType Γ f .unknown → HaveTypes Γ args as →
      HasType Γ (.call t f args) .unknown
  | call {t f args ps r as} : HasType Γ f (.func ps r) → HaveTypes Γ args as →
      List.Forall₂ Ty.Assignable ps as → HasType Γ (.call t f args) r

/-- Expressions have types. -/
inductive HaveTypes (Γ : Scopes) : List Expr → List Ty → Prop
  | nil : HaveTypes Γ [] []
  | cons {e es a as} : HasType Γ e a → HaveTypes Γ es as →
      HaveTypes Γ (e :: es) (a :: as)

end

-- ========================================================= statements

/-- The type that a variable gets from its annotation and its
initializer. -/
inductive VariableType (Γ : Scopes) : Option TypeName → Option Expr → Ty → Prop
  | annotated {a ty} : a.valueType? = some ty → VariableType Γ (some a) none ty
  | initialized {a e ty found} : a.valueType? = some ty → HasType Γ e found →
      ty.Assignable found → VariableType Γ (some a) (some e) ty
  | inferred {e ty} : HasType Γ e ty → ty ≠ .void →
      VariableType Γ none (some e) ty
  | open : VariableType Γ none none .unknown

/-- What can be assigned to: mutable variables and parameters. -/
def Decl.IsTarget (d : Decl TypeInfo) : Prop :=
  d.kind = .parameter ∨ d.kind = .variable ∧ d.info.mutable = true

mutual

/-- A statement is well-formed in a function with a result type, if any,
and inside scopes; it turns the scope that it stands in into what the
next statement sees. -/
inductive StmtOk : Option Ty → Scopes → Level TypeInfo → Stmt → Level TypeInfo →
    Prop
  | variable {ret Γ L t name ann init m ty} : VariableType (L :: Γ) ann init ty →
      StmtOk ret Γ L (.declaration t name ann init m)
        (L.add ⟨name, .variable, ty, m⟩)
  | function {ret Γ L t name params result p body sig} :
      Signature.of? params result body = some sig →
      ScopeOk (some sig.ret)
        (L.add ⟨name, .function, .func sig.params sig.ret, false⟩ :: Γ)
        (typedParams params sig.params) body →
      StmtOk ret Γ L (.function t name params result p body)
        (L.add ⟨name, .function, .func sig.params sig.ret, false⟩)
  | assignment {ret Γ L t t' x value d found} : findLevel (L :: Γ) x = some d →
      d.IsTarget → HasType (L :: Γ) value found → d.info.type.Assignable found →
      StmtOk ret Γ L (.assignment t (.identifier t' x) value) L
  | block {ret Γ L t p ss} :
      ScopeOk ret (L :: Γ) [] ss → StmtOk ret Γ L (.block t p ss) L
  | ifThen {ret Γ L t c a ty} : HasType (L :: Γ) c ty → ty.OrUnknown (· = .bool) →
      ScopeOk ret (L :: Γ) [] [a] → StmtOk ret Γ L (.ifElse t c a none) L
  | ifElse {ret Γ L t c a b ty} :
      HasType (L :: Γ) c ty → ty.OrUnknown (· = .bool) →
      ScopeOk ret (L :: Γ) [] [a] → ScopeOk ret (L :: Γ) [] [b] →
      StmtOk ret Γ L (.ifElse t c a (some b)) L
  | while {ret Γ L t c b ty} : HasType (L :: Γ) c ty → ty.OrUnknown (· = .bool) →
      ScopeOk ret (L :: Γ) [] [b] → StmtOk ret Γ L (.while t c b) L
  | ret {result Γ L t e found} :
      HasType (L :: Γ) e found → result.Assignable found →
      StmtOk (some result) Γ L (.ret t (some e)) L
  | bareRet {result Γ L t} : result.OrUnknown (· = .void) →
      StmtOk (some result) Γ L (.ret t none) L
  | expr {ret Γ L t e ty} : HasType (L :: Γ) e ty → StmtOk ret Γ L (.expr t e) L

/-- A scope is well-formed: it declares no name twice, and its statements
are well-formed one after the other. -/
inductive ScopeOk : Option Ty → Scopes → List (Decl TypeInfo) → List Stmt → Prop
  | scope {ret Γ params ss} :
      (params.map (·.name) ++ ss.filterMap Stmt.declaredName?).Nodup →
      StmtsOk ret Γ (.entered params ss) ss → ScopeOk ret Γ params ss

/-- The statements of a list are well-formed, where the first sees the
scope as given. -/
inductive StmtsOk : Option Ty → Scopes → Level TypeInfo → List Stmt → Prop
  | nil {ret Γ L} : StmtsOk ret Γ L []
  | cons {ret Γ L L' s ss} : StmtOk ret Γ L s L' → StmtsOk ret Γ L' ss →
      StmtsOk ret Γ L (s :: ss)

end

/-- A program is well-formed: its statements are, in a scope without
parameters and outside any function. -/
def Program.WellFormed (p : Program) : Prop := ScopeOk none [] [] p.body

end TreeCheck
