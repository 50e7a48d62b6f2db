/-
Frames realise levels.

A frame is what a walk has bound in a scope so far: first the
parameters, then the functions declared ahead, then variables and the
remaining functions where they stand. A level has the functions declared
ahead twice, once for being ahead and once more when their place is
passed. `Shows` says that both find the same declaration under every
name, whatever one wants to know of a declaration. Every declaration
that a walk passes keeps this.
-/
import TreeCheck.Proofs.Scoping.Level

namespace TreeCheck

section

variable {α : Type} (g : Declared → α)

/-- A bound symbol as a declaration, with what is known of it. -/
def Declared.decl (d : Declared) : Decl α := ⟨d.name, d.kind, g d⟩

/-- A frame and a level find the same under every name. -/
def Realises (φ : Frame) (L : Level α) : Prop :=
  ∀ x, (φ.find x).map (·.decl g) = L.find x

/-- An environment and levels find the same under every name. -/
def RealisesAll (Γ : Env) (Ls : List (Level α)) : Prop :=
  ∀ x, (Γ.find x).map (·.decl g) = findLevel Ls x

/-- A frame realises a level, and the level knows the names of the
variables bound so far. -/
structure Shows (φ : Frame) (earlier : List String) (L : Level α) : Prop where
  find : Realises g φ L
  names : ∀ x, L.hasVariable x = decide (x ∈ earlier)

end

section

variable {α : Type} {g : Declared → α} {φ : Frame} {earlier : List String}
  {L : Level α}

theorem Realises.cons {Γ : Env} {Ls : List (Level α)} (h : Realises g φ L)
    (hΓ : RealisesAll g Γ Ls) : RealisesAll g (φ :: Γ) (L :: Ls) := by
  intro x
  rw [Env.find_cons, findLevel_cons, ← h x, ← hΓ x]
  cases φ.find x <;> rfl

theorem find_decls (g : Declared → α) (φ : Frame) (x : String) :
    (φ.find x).map (·.decl g) = (φ.map (·.decl g)).find? (·.name == x) := by
  rw [List.find?_map]
  rfl

theorem find_cons_decl (d : Declared) (x : String) :
    (Frame.find (d :: φ) x).map (·.decl g)
      = if d.name = x then some (d.decl g) else (φ.find x).map (·.decl g) := by
  rw [Frame.find_cons]
  split <;> rfl

/-- A variable is bound behind everything else. -/
theorem Shows.add_variable (h : Shows g φ earlier L) (d : Declared)
    (hd : d.kind = .variable) :
    Shows g (d :: φ) (d.name :: earlier) (L.add (d.decl g)) where
  find := by
    intro x
    have hkind : (d.decl g).kind = .variable := hd
    rw [find_cons_decl, L.find_add_variable x _ hkind, h.find]
    rfl
  names := by
    intro x
    rw [L.hasVariable_add, h.names]
    show (decide (x ∈ earlier) || (d.kind == .variable && d.name == x)) = _
    rw [hd]
    by_cases hx : d.name = x
    · simp [hx]
    · simp [hx, Ne.symm hx]

/-- A function behind a variable of its name is bound where it stands. -/
theorem Shows.add_behind (h : Shows g φ earlier L) (d : Declared)
    (hd : d.kind = .function) (hname : d.name ∈ earlier) :
    Shows g (d :: φ) earlier (L.add (d.decl g)) where
  find := by
    intro x
    have hbehind : L.hasVariable (d.decl g).name = true := by
      rw [h.names]
      exact decide_eq_true hname
    rw [find_cons_decl, L.find_add_behind x _ hbehind, h.find]
    rfl
  names := by
    intro x
    rw [L.hasVariable_add, h.names]
    show (decide (x ∈ earlier) || (d.kind == .variable && d.name == x)) = _
    rw [hd]
    simp

/-- A function that was declared ahead has been bound. -/
theorem Shows.add_ahead (h : Shows g φ earlier L) (d : Decl α)
    (hd : d.kind = .function) (hname : d.name ∉ earlier) :
    Shows g φ earlier (L.add d) where
  find := by
    intro x
    have hahead : L.hasVariable d.name = false := by
      rw [h.names]
      exact decide_eq_false hname
    rw [L.find_add_ahead x d (hd ▸ nofun) hahead]
    exact h.find x
  names := by
    intro x
    rw [L.hasVariable_add, h.names, hd]
    simp

-- ============================================================= opening

/-- What declaring functions ahead binds, as declarations. -/
theorem decls_hoisting {δ : Stmt → Option (Decl α)} {ss : List Stmt}
    (earlier : List String)
    (hδ : ∀ t name params result p body,
      .function t name params result p body ∈ Stmt.functionsAhead earlier ss →
      ∀ n, δ (.function t name params result p body)
        = some (Declared.decl g ⟨⟨⟨name, .function,
            .func (Signature.of params result body).params
              (Signature.of params result body).ret,
            t.position, false⟩, n⟩, .stmt t.id⟩))
    (φ : Frame) (n : SymbolId) :
    (hoisting earlier ss φ n).frame.map (·.decl g)
      = ((Stmt.functionsAhead earlier ss).filterMap δ).reverse
        ++ φ.map (·.decl g) := by
  induction ss generalizing earlier φ n with
  | nil => rfl
  | cons s ss ih =>
      rw [Stmt.functionsAhead] at hδ ⊢
      have ih := ih (s.variablesAfter earlier)
        fun t name params result p body hmem =>
        hδ t name params result p body (List.mem_append_right _ hmem)
      cases s with
      | function t name params result p body =>
          simp only [Stmt.variablesAfter] at ih hδ ⊢
          unfold hoisting
          by_cases hmem : name ∈ earlier
          · simp only [hmem, if_true, Stmt.isAhead, not_true, decide_false,
              Bool.false_eq_true, if_false, List.nil_append]
            exact ih φ n
          · simp only [hmem, if_false, Stmt.isAhead, not_false_eq_true,
              decide_true, if_true, List.singleton_append] at hδ ⊢
            have hdecl := hδ t name params result p body List.mem_cons_self n
            rw [Walk.frame_andThen, ih, List.filterMap_cons_some hdecl,
              List.reverse_cons, List.append_assoc]
            rfl
      | declaration | assignment | block | ifElse | «while» | ret | expr =>
          exact ih φ n

/-- The frame of a scope, once its parameters are bound and its functions
are declared ahead, shows the level of the scope at its first
statement. -/
theorem shows_of_decls {params ahead : List (Decl α)}
    (h : φ.map (·.decl g) = ahead.reverse ++ params.reverse) :
    Shows g φ [] { params, ahead } where
  find := by
    intro x
    rw [find_decls, h, List.find?_append]
    rfl
  names := by
    intro x
    simp [Level.hasVariable]

/-- What binding parameters binds, as declarations. -/
theorem decls_declaringParams {function : NodeId} {π : Nat → Param → Decl α}
    (hπ : ∀ i p n, Declared.decl g
        ⟨⟨⟨p.name, .parameter, p.type, p.position, true⟩, n⟩, .param function i⟩
      = π i p)
    (i : Nat) (ps : List Param) (φ : Frame) (n : SymbolId) :
    (declaringParams function i ps (ps.map (·.type)) φ n).frame.map (·.decl g)
      = ((ps.zipIdx i).map fun p => π p.2 p.1).reverse ++ φ.map (·.decl g) := by
  induction ps generalizing i φ n with
  | nil => rfl
  | cons p ps ih =>
      rw [List.map_cons, declaringParams, Walk.frame_andThen, ih,
        List.zipIdx_cons, List.map_cons, List.reverse_cons, List.append_assoc,
        ← hπ i p n]
      rfl

end

/-- The frame of a scope at its first statement: its parameters are bound,
and the functions of its list that are declared ahead. -/
abbrev Frame.opened (function : NodeId) (params : List Param) (ss : List Stmt)
    (n m : SymbolId) : Frame :=
  (hoisting [] ss
    (declaringParams function 0 params (params.map (·.type)) [] n).frame m).frame

-- =========================================================== statements

/-- The frame in force inside a statement: a function is bound before its
body. -/
def Stmt.own (ahead : Bool) (φ : Frame) (n : SymbolId) : Stmt → Frame
  | .function t name params result _ body =>
    if ahead then φ else (declaringFunction t name params result body φ n).frame
  | _ => φ

/-- Whether a statement declares a variable. -/
def Stmt.isVariable : Stmt → Bool
  | .declaration _ _ _ _ _ => true
  | _ => false

/-- A scope, seen from inside one of its statements. -/
def Level.inside {α : Type} (δ : Stmt → Option (Decl α)) (L : Level α) : Stmt → Level α
  | .function t name params result p body =>
    L.pass (δ (.function t name params result p body))
  | _ => L

theorem frame_walkBranch (config : Config) (branch : Stmt) (expected : Option Ty)
    (outer : Env) (φ : Frame) (n : SymbolId) :
    (walkBranch config branch (branch.walk config expected false)
      outer φ n).frame = φ := by
  unfold walkBranch
  cases branch <;> rfl

/-- A function that is reached is bound before its body, whether it was
declared ahead or is declared now. -/
theorem Stmt.frame_reached {t : Tag} {name : String} {params : List Param}
    {result : Option TypeName} {p : Position} {body : List Stmt} (ahead : Bool)
    (φ : Frame) (n : SymbolId) :
    (if ahead then ⟨φ, n, []⟩
      else declaringFunction t name params result body φ n : Walk).frame
        = Stmt.own ahead φ n (.function t name params result p body) := by
  cases ahead <;> rfl

/-- But for variables, what a statement leaves bound is what is bound
inside it. -/
theorem Stmt.frame_walk {s : Stmt} (h : s.isVariable = false) (config : Config)
    (expected : Option Ty) (ahead : Bool) (outer : Env) (φ : Frame)
    (n : SymbolId) :
    (s.walk config expected ahead outer φ n).frame = s.own ahead φ n := by
  cases s with
  | declaration t name ann init m => cases h
  | function t name params result p body =>
      cases ahead <;> rfl
  | ifElse t c a b =>
      cases b with
      | none => exact frame_walkBranch config a expected outer φ n
      | some b =>
          simp only [Stmt.walk, Walk.frame_after, Walk.frame_andThen]
          rw [frame_walkBranch, frame_walkBranch]
          rfl
  | «while» t c b => exact frame_walkBranch config b expected outer φ n
  | assignment | block | ret | expr => rfl

end TreeCheck
