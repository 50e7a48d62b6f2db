/-
What the single steps of an analysis do to its state, read off once.

Two views of a step are kept here. An equation for its run serves where
both endings matter, completion and failure. `Completes` speaks of
completion alone and takes a sequence of steps apart: a sequence
completes exactly if its parts do, each from the state that the part
before it left.

The one step that can go wrong inside an open scope is `record`.
Binding a name always succeeds there: a duplicate is reported and then
shadowed, so the table's refusals never reach the outside.
-/
import TreeCheck.Analysis.Analyzer

namespace TreeCheck.Analysis

-- ============================================================ completion

/-- From a state, a step gives a value and leaves another state. -/
def Completes {α : Type} (m : Check α) (s : State) (a : α) (s' : State) : Prop :=
  m.run s = .ok (a, s')

section

variable {α β : Type} {s s' : State}

theorem completes_pure {a b : α} :
    Completes (pure a) s b s' ↔ b = a ∧ s' = s := by
  simp only [Completes, StateT.run_pure]
  constructor
  · intro h
    injection h with h
    injection h with ha hs
    exact ⟨ha.symm, hs.symm⟩
  · intro h
    obtain ⟨rfl, rfl⟩ := h
    rfl

/-- A sequence completes if its parts do, one after the other. -/
theorem completes_bind {m : Check α} {f : α → Check β} {b : β} :
    Completes (m >>= f) s b s'
      ↔ ∃ a t, Completes m s a t ∧ Completes (f a) t b s' := by
  simp only [Completes, StateT.run_bind]
  cases hm : m.run s with
  | error e => simp [bind, Except.bind]
  | ok r =>
      obtain ⟨a, t⟩ := r
      simp only [bind, Except.bind, Except.ok.injEq, Prod.mk.injEq]
      constructor
      · intro h
        exact ⟨a, t, ⟨rfl, rfl⟩, h⟩
      · intro h
        obtain ⟨_, _, ⟨rfl, rfl⟩, h⟩ := h
        exact h

end

-- ================================================================ runs

section

variable {s : State}

theorem run_descend (ctx : Context) (p : Position) :
    (ctx.descend p).run s
      = if ctx.depth < ctx.config.maxDepth
        then .ok ({ ctx with depth := ctx.depth + 1 }, s)
        else .error (.tooDeep ctx.config.maxDepth p) := by
  unfold Context.descend
  split <;> rfl

theorem run_report (c : Cause) (p : Position) (r : Option Position) :
    (report c p r).run s
      = .ok ((), { s with findings := s.findings.push ⟨c, p, r⟩ }) := rfl

theorem run_require (ok : Bool) (c : Cause) (p : Position) :
    (require ok c p).run s
      = if ok then .ok ((), s)
        else .ok ((), { s with findings := s.findings.push ⟨c, p, none⟩ }) := by
  cases ok <;> rfl

theorem run_orError (r : Option Ty) (c : Cause) (p : Position) :
    (orError r c p).run s
      = .ok (r.getD .error,
          if r.isSome then s
          else { s with findings := s.findings.push ⟨c, p, none⟩ }) := by
  cases r <;> rfl

theorem run_record (id : NodeId) (ty : Ty) :
    (record id ty).run s
      = if id ∈ s.types then .error (.repeatedNode id)
        else .ok (ty, { s with types := s.types.insert id ty }) := by
  by_cases h : id ∈ s.types
  · simp only [record, bind_pure_comp, Std.TreeMap.contains_iff_mem,
      StateT.run_bind, StateT.run_get, pure_bind, h, if_true]
    rfl
  · simp only [record, bind_pure_comp, Std.TreeMap.contains_iff_mem,
      StateT.run_bind, StateT.run_get, pure_bind, h, if_false]
    rfl

theorem run_markUsed (sym : Symbol) :
    (markUsed sym).run s = .ok ((), { s with used := s.used.insert sym.id }) :=
  rfl

/-- An identifier is resolved in the open scopes, and its resolution is
kept; one without a declaration is reported. -/
theorem run_resolve (t : Tag) (name : String) :
    (resolve t name).run s
      = .ok (s.table.resolve name,
          match s.table.resolve name with
          | some sym => { s with resolutions := s.resolutions.insert t.id sym.id }
          | none =>
            { s with findings :=
                s.findings.push ⟨.undefined name, t.position, none⟩ }) := by
  cases h : s.table.resolve name with
  | none =>
      simp only [resolve, StateT.run_bind, StateT.run_get, pure_bind, h]
      rfl
  | some sym =>
      simp only [resolve, StateT.run_bind, StateT.run_get, pure_bind, h]
      rfl

/-- Binding a name where a scope is open: the symbol enters the innermost
scope under the next number, and a name bound there already is
reported with the place of the declaration before. -/
theorem run_declare {top : Scope} {outer : List Scope} (b : Binding)
    (h : s.table.scopes = top :: outer) :
    (declare b).run s
      = .ok ((), { s with
          table := { s.table with
            scopes := top.bind ⟨b, s.table.nextId⟩ :: outer,
            nextId := s.table.nextId + 1 },
          findings := match top.find? b.name with
            | some previous => s.findings.push
                ⟨.duplicate b.name, b.position, some previous.position⟩
            | none => s.findings }) := by
  obtain ⟨⟨scopes, serial, next⟩, types, resolutions, used, signatures,
    findings⟩ := s
  obtain rfl : scopes = top :: outer := h
  have hlocal : SymbolTable.resolveLocal ⟨top :: outer, serial, next⟩ b.name
      = top.find? b.name := rfl
  cases hfind : top.find? b.name with
  | none =>
      simp only [declare, StateT.run_bind, StateT.run_get, pure_bind,
        SymbolTable.declare, SymbolTable.tryDeclare, SymbolTable.tryShadow, hlocal, hfind]
      rfl
  | some previous =>
      simp only [declare, StateT.run_bind, StateT.run_get, pure_bind,
        SymbolTable.declare, SymbolTable.tryDeclare, hlocal, hfind]
      rfl

/-- A step in a scope of its own runs where an empty scope has been
opened, which is then left with its handle. -/
theorem run_inScope (config : Config) (body : Check Unit) :
    (inScope config body).run s
      = body.run { s with table := s.table.enter.2 }
          >>= fun r => (leave config s.table.enter.1).run r.2 := rfl

/-- Leaving the innermost scope with its handle gives the scopes around
it back and reports what was unused, except in the outermost one. -/
theorem run_leave {top : Scope} {outer : List Scope} (config : Config)
    (serial : Nat) (h : s.table.scopes = top :: outer)
    (hserial : top.serial = serial) :
    (leave config ⟨outer.length + 1, serial⟩).run s
      = .ok ((), { s with
          table := { s.table with scopes := outer },
          findings := s.findings ++
            if config.warnUnused && !outer.isEmpty
            then top.inOrder.filterMap (unused? s.used) else [] }) := by
  have hexit : s.table.exit ⟨outer.length + 1, serial⟩
      = .ok (top.inOrder, { s.table with scopes := outer }) := by
    simp only [SymbolTable.exit, SymbolTable.tryExit, h, hserial, SymbolTable.depth,
      List.length_cons, and_self, if_true]
    rfl
  have hdepth : (s.table.depth != 1) = !outer.isEmpty := by
    rw [SymbolTable.depth, h]
    cases outer <;> rfl
  simp only [leave, StateT.run_bind, StateT.run_get, pure_bind, hexit, hdepth]
  rfl

end

end TreeCheck.Analysis
