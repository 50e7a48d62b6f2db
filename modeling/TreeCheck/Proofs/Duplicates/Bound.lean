/-
What a name is bound to when its scope is left.

The frames in force at a point of a run hold only what the account of
the program binds. At a region the frame holds what has been declared
ahead, so once the statements of the region are checked, the frame holds
all its declarations, name by name in the order of the source.
-/
import TreeCheck.Proofs.Points.Staged
import TreeCheck.Proofs.Scoping.Correctness

namespace TreeCheck

open Analysis

section

variable {config : Config} {p : Program} {ctx : Context} {s : State}

/-- A declaration that the account of a program binds. -/
def Program.Declares (config : Config) (p : Program) (d : Declared) : Prop :=
  d ∈ (p.account config).filterMap Event.bound?

namespace Scene.Holds

variable {S : Scene} {σ : Signatures} {ids : List NodeId} {w : Walk}

/-- What a scene has in force, the account has bound. -/
theorem declares (h : S.Holds config p s σ ids w) :
    ∀ φ ∈ S.env, ∀ d ∈ φ, p.Declares config d := by
  intro φ hφ d hd
  rw [Program.Declares, h.account, List.filterMap_append]
  exact List.mem_append_left _ (h.known φ hφ d hd)

/-- What comes next binds what the account binds. -/
theorem declares_walk (h : S.Holds config p s σ ids w) :
    ∀ d ∈ w.events.filterMap Event.bound?, p.Declares config d := by
  intro d hd
  rw [Program.Declares, h.account, List.filterMap_append, List.filterMap_append]
  exact List.mem_append_right _ (List.mem_append_left _ hd)

end Scene.Holds

/-- The declaration that a symbol was bound by, which its number tells. -/
def Program.bound (p : Program) (sym : Symbol) : Option (Decl Place) :=
  p.declarations[sym.id]?.map fun site => ⟨sym.name, sym.kind, ⟨site, sym.position⟩⟩

theorem Program.bound_toSymbol {d : Declared} (hd : p.Declares config d) :
    p.bound d.toSymbol = some (d.decl Declared.place) := by
  rw [Program.bound, show p.declarations[d.toSymbol.id]? = some d.site from
    declarations_of_bound hd]
  rfl

/-- Where a scope is left, a name is bound to its last declaration in it. -/
theorem Program.Leaves.resolveLocal {r : Region} {t : State} (hids : p.ids.Nodup)
    (h : p.Leaves config r t) (x : String) :
    (t.table.resolveLocal x).map p.bound = (r.named x).getLast?.map some := by
  obtain ⟨ctx, s, hat, hchecked⟩ := h
  obtain ⟨S, earlier, ds, ⟨rfl, σ, hholds, hawaits⟩, hplaced, horder, -⟩ :=
    hat.staged hids
  have hreach := reaches_checkStmts r.stmts hholds.mirrors hchecked
  have hfollows := Stmt.courseAll_eq_walkAll ctx.config r.stmts ctx.expected S.outer
    S.frame S.next hholds.nodup hawaits
  have hscopes := hreach.mirrors.scopes
  rw [hfollows.walk] at hscopes
  have hcarries := Stmt.carries_walkAll (p.Declares ctx.config) ctx.config r.stmts
    ctx.expected earlier S.outer S.frame S.next
  have hlast := horder.last
    (Stmt.placed_walkAll ctx.config r.stmts ctx.expected earlier S.outer S.next hplaced) x
  generalize Stmt.walkAll ctx.config r.stmts ctx.expected earlier S.outer S.frame S.next
    = w at hholds hscopes hcarries hlast
  have hsymbol : t.table.resolveLocal x = w.frame.symbol x := by
    rw [SymbolTable.resolveLocal]
    cases hopen : t.table.scopes with
    | nil =>
        rw [hopen] at hscopes
        cases hscopes
    | cons top rest =>
        rw [hopen, List.map_cons, List.map_cons] at hscopes
        exact congrFun (List.cons.inj hscopes).1 x
  rw [hsymbol, ← hlast, Frame.last_eq, Frame.symbol]
  cases hfind : w.frame.find x with
  | none => rfl
  | some d =>
      have hbound := (hcarries hholds.declares hholds.declares_walk).1 d
        (Frame.mem_of_find hfind)
      exact congrArg some (p.bound_toSymbol hbound)

end

end TreeCheck
