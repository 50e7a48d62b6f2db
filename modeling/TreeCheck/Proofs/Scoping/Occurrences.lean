/-
The identifiers of a program, each with the scopes around it, and the
declarations of a program, in the order in which they are numbered.

Both are read off the source. The program, a block, a function and a
branch are scopes; a branch is a list of one statement. An initializer
is looked at from its own declaration, before which the variable does
not stand; the body of a function is looked at from behind the function.
-/
import TreeCheck.Proofs.Scoping.Level
import TreeCheck.Syntax.Outline

namespace TreeCheck

/-- An identifier in a program, with the scopes around it, the innermost
first. -/
structure Occurrence where
  tag : Tag
  name : String
  scopes : List (Level Site)

namespace Occurrence

/-- The place of the declaration that the scoping rule chooses. -/
def declaration (o : Occurrence) : Option Site :=
  (findLevel o.scopes o.name).map (·.info)

/-- The occurrence as an expression. -/
def expr (o : Occurrence) : Expr := .identifier o.tag o.name

end Occurrence

-- ============================================================= scopes

/-- What a statement declares in the list it stands in. -/
def Stmt.declared : Stmt → Option (Decl Site)
  | .declaration t name _ _ _ => some ⟨name, .variable, .stmt t.id⟩
  | .function t name _ _ _ _ => some ⟨name, .function, .stmt t.id⟩
  | _ => none

/-- The parameters of a function, with their places from an index on. -/
def paramDecls (function : NodeId) (i : Nat) (params : List Param) : List (Decl Site) :=
  (params.zipIdx i).map fun p => ⟨p.1.name, .parameter, .param function p.2⟩

/-- A scope at its first statement. -/
def Level.opening (params : List (Decl Site)) (ss : List Stmt) : Level Site where
  params := params
  ahead := (Stmt.functionsAhead [] ss).filterMap Stmt.declared

-- ======================================================== occurrences

mutual

/-- The identifiers of an expression. -/
def Expr.identifiers : Expr → List (Tag × String)
  | .literal _ _ => []
  | .identifier t x => [(t, x)]
  | .binary _ _ l r => l.identifiers ++ r.identifiers
  | .unary _ _ e => e.identifiers
  | .call _ f args => f.identifiers ++ Expr.identifiersAll args
termination_by structural e => e

/-- The identifiers of expressions from the front. -/
def Expr.identifiersAll : List Expr → List (Tag × String)
  | [] => []
  | e :: es => e.identifiers ++ Expr.identifiersAll es
termination_by structural es => es

end

/-- The identifiers of an expression that may be absent. -/
def Expr.identifiers? (e : Option Expr) : List (Tag × String) :=
  e.elim [] identifiers

/-- Identifiers inside scopes. -/
def occurring (scopes : List (Level Site)) (names : List (Tag × String)) :
    List Occurrence :=
  names.map fun (t, x) => ⟨t, x, scopes⟩

mutual

/-- The identifiers of a statement. The scope it stands in is seen from
the statement, and has others around it. -/
def Stmt.occurrences (here : Level Site) (around : List (Level Site)) :
    Stmt → List Occurrence
  | .declaration _ _ _ init _ =>
      occurring (here :: around) (Expr.identifiers? init)
  | .function t name params _ _ body =>
    Stmt.occurrencesAll (.opening (paramDecls t.id 0 params) body)
      (here.add ⟨name, .function, .stmt t.id⟩ :: around) body
  | .assignment _ target value =>
    occurring (here :: around) (target.identifiers ++ value.identifiers)
  | .block _ _ ss => Stmt.occurrencesAll (.opening [] ss) (here :: around) ss
  | .ifElse _ c a none =>
    occurring (here :: around) c.identifiers
      ++ a.occurrences (.opening [] [a]) (here :: around)
  | .ifElse _ c a (some b) =>
    occurring (here :: around) c.identifiers
      ++ a.occurrences (.opening [] [a]) (here :: around)
      ++ b.occurrences (.opening [] [b]) (here :: around)
  | .while _ c b =>
    occurring (here :: around) c.identifiers
      ++ b.occurrences (.opening [] [b]) (here :: around)
  | .ret _ value => occurring (here :: around) (Expr.identifiers? value)
  | .expr _ e => occurring (here :: around) e.identifiers
termination_by structural s => s

/-- The identifiers of the statements of a list, the first of which sees
the scope as given. -/
def Stmt.occurrencesAll (here : Level Site) (around : List (Level Site)) :
    List Stmt → List Occurrence
  | [] => []
  | s :: ss =>
    s.occurrences here around
      ++ Stmt.occurrencesAll (here.pass s.declared) around ss
termination_by structural ss => ss

end

/-- The identifiers of a program. -/
def Program.occurrences (p : Program) : List Occurrence :=
  Stmt.occurrencesAll (.opening [] p.body) [] p.body

-- ======================================================= declarations

/-- The places of the functions of a list that are declared ahead. -/
def sitesAhead (earlier : List String) (ss : List Stmt) : List Site :=
  (Stmt.functionsAhead earlier ss).map fun s => .stmt s.id

mutual

/-- The places of the declarations in a statement, but for itself if it
has been declared ahead. -/
def Stmt.sites (ahead : Bool) : Stmt → List Site
  | .declaration t _ _ _ _ => [.stmt t.id]
  | .function t _ params _ _ body =>
    (if ahead then [] else [.stmt t.id])
      ++ (paramDecls t.id 0 params).map (·.info)
      ++ sitesAhead [] body ++ Stmt.sitesAll [] body
  | .block _ _ ss => sitesAhead [] ss ++ Stmt.sitesAll [] ss
  | .ifElse _ _ a none => a.sites false
  | .ifElse _ _ a (some b) => a.sites false ++ b.sites false
  | .while _ _ b => b.sites false
  | .assignment _ _ _ | .ret _ _ | .expr _ _ => []
termination_by structural s => s

/-- The places of the declarations in a list, but for the functions
declared ahead. -/
def Stmt.sitesAll (earlier : List String) : List Stmt → List Site
  | [] => []
  | s :: ss => s.sites (s.isAhead earlier)
      ++ Stmt.sitesAll (s.variablesAfter earlier) ss
termination_by structural ss => ss

end

/-- The places of the declarations of a program, in the order in which
they are numbered: a list declares its functions ahead, then its
statements follow. -/
def Program.declarations (p : Program) : List Site :=
  sitesAhead [] p.body ++ Stmt.sitesAll [] p.body

end TreeCheck
