/-
To leave a scope is to be where one was before it was opened.

Between the call that opens a scope and the one that leaves it with its
handle, anything may be called: names are bound, further scopes are
opened and left, calls fail. As long as the scope is open, the scopes
outside it are the ones there were, and its own symbols are those that
the calls have bound where no further scope was open (`Inside`). Once it
has been left it cannot come back, for the scopes opened later have
later numbers (`Gone`), and its handle is refused. So where the handle
is accepted, all is as it was before.

Nothing is assumed of the table in which the scope is opened.
-/
import TreeCheck.Proofs.Scope.Nesting

namespace TreeCheck

-- ================================================================== log

/-- What calls and their answers say of the scope they start in: how many
scopes are open further in, and what is bound in this one. -/
structure ScopeLog where
  inner : Nat := 0
  own : OrderedScope

namespace ScopeLog

/-- A symbol is bound, here or in a scope further in. -/
def bind (l : ScopeLog) (sym : Symbol) : ScopeLog :=
  if l.inner = 0 then { l with own := l.own.bind sym } else l

/-- Takes down a call and its answer. -/
def note (l : ScopeLog) : TableCall × TableAnswer → ScopeLog
  | (.enter, .entered _) => { l with inner := l.inner + 1 }
  | (.exit _, .left _) => { l with inner := l.inner - 1 }
  | (.declare b, .declared id) | (.shadow b, .shadowed id _) => l.bind ⟨b, id⟩
  | _ => l

theorem note_of_failure (l : ScopeLog) (c : TableCall) {a : TableAnswer}
    (h : a.isFailure = true) : l.note (c, a) = l := by
  cases a with
  | stayed | unbound => cases c <;> rfl
  | entered | left | declared | shadowed | found => cases h

theorem note_found (l : ScopeLog) (c : TableCall) (symbol : Option Symbol) :
    l.note (c, .found symbol) = l := by
  cases c <;> rfl

end ScopeLog

/-- The symbols that calls bind in the scope with a handle, told by the
answers to them from where the scope was opened. -/
def OrderedScope.ofCalls (handle : ScopeHandle) (cs : List TableCall)
    (answers : List TableAnswer) : OrderedScope :=
  ((cs.zip answers).foldl ScopeLog.note { own := { handle } }).own

-- ============================================================ invariants

/-- A scope opened in a table is open in another, and its log is kept. -/
structure Inside (t : SymbolTable) (l : ScopeLog) (t' : SymbolTable) : Prop where
  scopes : ∃ inner entered, t'.scopes = inner ++ entered :: t.scopes
    ∧ inner.length = l.inner ∧ entered.Holds t'.nextId l.own
  serial : t.nextSerial < t'.nextSerial

/-- The scope opened in a table has been left. Of the scopes there were
before, some may be open; all others have later numbers. -/
structure Gone (t t' : SymbolTable) : Prop where
  scopes : ∃ newer older, t'.scopes = newer ++ older ∧ older.length ≤ t.depth
    ∧ ∀ sc ∈ newer, t.nextSerial < sc.serial
  serial : t.nextSerial < t'.nextSerial

section

variable {t t' : SymbolTable} {l : ScopeLog}

namespace Gone

/-- The innermost scope may be changed if it keeps its number. -/
theorem rebind {top top' : Scope} {outer : List Scope} (gone : Gone t t')
    (hs : t'.scopes = top :: outer) (hserial : top'.serial = top.serial) :
    ∃ newer older, top' :: outer = newer ++ older ∧ older.length ≤ t.depth
      ∧ ∀ sc ∈ newer, t.nextSerial < sc.serial := by
  obtain ⟨newer, older, hscopes, holder, hnewer⟩ := gone.scopes
  rw [hs] at hscopes
  cases newer with
  | nil =>
      rw [← show top :: outer = older from hscopes] at holder
      exact ⟨[], top' :: outer, rfl, holder, nofun⟩
  | cons sc newer =>
      obtain ⟨rfl, rfl⟩ := List.cons.inj hscopes
      refine ⟨top' :: newer, older, rfl, holder, List.forall_mem_cons.mpr ⟨?_, ?_⟩⟩
      · exact hserial ▸ hnewer top List.mem_cons_self
      · exact fun sc hsc => hnewer sc (List.mem_cons_of_mem _ hsc)

theorem call (gone : Gone t t') (c : TableCall) : Gone t (t'.call c).2 := by
  have hdoes := t'.does_call c
  generalize t'.call c = r at hdoes ⊢
  cases hdoes with
  | opens =>
      obtain ⟨newer, older, hscopes, holder, hnewer⟩ := gone.scopes
      refine ⟨⟨{ serial := t'.nextSerial } :: newer, older, ?_, holder,
        List.forall_mem_cons.mpr ⟨gone.serial, hnewer⟩⟩, Nat.lt_succ_of_lt gone.serial⟩
      exact congrArg _ hscopes
  | @leaves h top outer hs fits =>
      obtain ⟨newer, older, hscopes, holder, hnewer⟩ := gone.scopes
      rw [hs] at hscopes
      refine ⟨?_, gone.serial⟩
      cases newer with
      | nil =>
          rw [← show top :: outer = older from hscopes] at holder
          exact ⟨[], outer, rfl, Nat.le_of_succ_le holder, nofun⟩
      | cons sc newer =>
          exact ⟨newer, older, (List.cons.inj hscopes).2, holder,
            fun sc hsc => hnewer sc (List.mem_cons_of_mem _ hsc)⟩
  | declares hs | shadows hs => exact ⟨gone.rebind hs rfl, gone.serial⟩
  | fails | answers => exact gone

theorem run (gone : Gone t t') (cs : List TableCall) : Gone t (t'.run cs).2 := by
  induction cs generalizing t' with
  | nil => exact gone
  | cons c cs ih => exact ih (gone.call c)

/-- The handle of a scope that has been left is refused. -/
theorem exit {r : List Symbol × SymbolTable} (gone : Gone t t') :
    t'.exit t.enter.1 ≠ .ok r := by
  intro hexit
  obtain ⟨newer, older, hscopes, holder, hnewer⟩ := gone.scopes
  have hhead := SymbolTable.exit_eq_ok_iff.mp ⟨r, hexit⟩
  rw [hscopes] at hhead
  cases newer with
  | nil =>
      cases older with
      | nil => cases hhead
      | cons sc older =>
          have hdepth : older.length + 1 = t.depth + 1 :=
            congrArg ScopeHandle.depth (Option.some.inj hhead)
          rw [List.length_cons] at holder
          omega
  | cons sc newer =>
      have hserial : sc.serial = t.nextSerial :=
        congrArg ScopeHandle.serial (Option.some.inj hhead)
      exact Nat.ne_of_gt (hnewer sc List.mem_cons_self) hserial

end Gone

namespace Inside

theorem opened (t : SymbolTable) : Inside t { own := { handle := t.enter.1 } } t.enter.2 where
  scopes := ⟨[], { serial := t.nextSerial }, rfl, rfl, .opened _ _ _⟩
  serial := Nat.lt_succ_self _

/-- A name is bound in the innermost scope: in the one that was opened, or
in one further in. -/
theorem bind {top : Scope} {outer : List Scope} (inside : Inside t l t')
    (hs : t'.scopes = top :: outer) (b : Binding) :
    Inside t (l.bind ⟨b, t'.nextId⟩)
      { t' with scopes := top.bind ⟨b, t'.nextId⟩ :: outer, nextId := t'.nextId + 1 } := by
  obtain ⟨inner, entered, hscopes, hinner, holds⟩ := inside.scopes
  rw [hs] at hscopes
  refine ⟨?_, inside.serial⟩
  cases inner with
  | nil =>
      obtain ⟨rfl, rfl⟩ := List.cons.inj hscopes
      rw [ScopeLog.bind, if_pos (Eq.symm hinner : l.inner = 0)]
      exact ⟨[], top.bind ⟨b, t'.nextId⟩, rfl, hinner, holds.bind b⟩
  | cons sc inner =>
      obtain ⟨rfl, rfl⟩ := List.cons.inj hscopes
      rw [ScopeLog.bind, if_neg (hinner ▸ Nat.succ_ne_zero _)]
      exact ⟨top.bind ⟨b, t'.nextId⟩ :: inner, entered, rfl, hinner, holds.mono⟩

/-- A call leaves the scope, or is one more in it. -/
theorem call (inside : Inside t l t') (c : TableCall) :
    Inside t (l.note (c, (t'.call c).1)) (t'.call c).2 ∨ Gone t (t'.call c).2 := by
  have hdoes := t'.does_call c
  generalize t'.call c = r at hdoes ⊢
  cases hdoes with
  | opens =>
      obtain ⟨inner, entered, hscopes, hinner, holds⟩ := inside.scopes
      refine .inl ⟨⟨{ serial := t'.nextSerial } :: inner, entered, ?_,
        congrArg (· + 1) hinner, holds⟩, Nat.lt_succ_of_lt inside.serial⟩
      exact congrArg _ hscopes
  | @leaves h top outer hs fits =>
      obtain ⟨inner, entered, hscopes, hinner, holds⟩ := inside.scopes
      rw [hs] at hscopes
      cases inner with
      | nil =>
          have houter := (List.cons.inj hscopes).2
          exact .inr ⟨⟨[], t.scopes, houter, Nat.le_refl _, nofun⟩, inside.serial⟩
      | cons sc inner =>
          have hlength : inner.length = l.inner - 1 := by rw [← hinner]; rfl
          exact .inl ⟨⟨inner, entered, (List.cons.inj hscopes).2, hlength, holds⟩,
            inside.serial⟩
  | declares hs | shadows hs => exact .inl (inside.bind hs _)
  | fails failure =>
      refine .inl ?_
      rw [ScopeLog.note_of_failure _ _ failure]
      exact inside
  | answers symbol =>
      refine .inl ?_
      rw [ScopeLog.note_found]
      exact inside

theorem run (inside : Inside t l t') (cs : List TableCall) :
    Inside t ((cs.zip (t'.run cs).1).foldl ScopeLog.note l) (t'.run cs).2
      ∨ Gone t (t'.run cs).2 := by
  induction cs generalizing t' l with
  | nil => exact .inl inside
  | cons c cs ih =>
      rcases inside.call c with inside | gone
      · exact ih inside
      · exact .inr (gone.run cs)

/-- Where the handle of the scope is accepted, nothing is open further in, and
what was outside is left. -/
theorem exit {t'' : SymbolTable} {symbols : List Symbol} (inside : Inside t l t')
    (hexit : t'.exit t.enter.1 = .ok (symbols, t'')) :
    ∃ entered, t'.scopes = entered :: t.scopes ∧ entered.Holds t'.nextId l.own
      ∧ symbols = entered.inOrder ∧ t''.scopes = t.scopes := by
  obtain ⟨inner, entered, hscopes, -, holds⟩ := inside.scopes
  have hhead := SymbolTable.exit_eq_ok_iff.mp ⟨_, hexit⟩
  rw [hscopes] at hhead
  cases inner with
  | nil =>
      refine ⟨entered, hscopes, holds, ?_⟩
      simp only [SymbolTable.exit, SymbolTable.completed, SymbolTable.tryExit, hscopes,
        List.nil_append] at hexit
      split at hexit
      case isTrue =>
        obtain ⟨rfl, rfl⟩ := Prod.mk.inj (Except.ok.inj hexit)
        exact ⟨rfl, rfl⟩
      case isFalse => cases hexit
  | cons sc inner =>
      -- the handle would say another depth
      have hdepth : (inner ++ entered :: t.scopes).length + 1 = t.depth + 1 :=
        congrArg ScopeHandle.depth (Option.some.inj hhead)
      rw [List.length_append, List.length_cons, ← SymbolTable.depth] at hdepth
      omega

end Inside

end

-- ============================================================= restoring

namespace SymbolTable

/-- A scope is opened, calls follow, and its handle is accepted. Then
every name is resolved as before the scope was opened, in all scopes and
in the innermost one alone, and as many scopes are open. All the while,
the scopes outside were the ones there had been. The symbols handed out
are those that the calls bound in this scope itself, which are those
that it finds under their names in the end. -/
theorem exit_restores {t t' : SymbolTable} {cs : List TableCall} {symbols : List Symbol}
    (hexit : (t.enter.2.run cs).2.exit t.enter.1 = .ok (symbols, t')) :
    ((∀ x, t'.resolve x = t.resolve x) ∧ (∀ x, t'.resolveLocal x = t.resolveLocal x)
        ∧ t'.depth = t.depth)
      ∧ (∀ before, before <+: cs → ∃ inner, inner ≠ []
        ∧ (t.enter.2.run before).2.scopes = inner ++ t.scopes)
      ∧ symbols = (OrderedScope.ofCalls t.enter.1 cs (t.enter.2.run cs).1).symbols
      ∧ ∀ sym, sym ∈ symbols
        ↔ (t.enter.2.run cs).2.resolveLocal sym.name = some sym := by
  have inside := ((Inside.opened t).run cs).resolve_right fun gone => gone.exit hexit
  obtain ⟨entered, hscopes, holds, hsymbols, hrest⟩ := inside.exit hexit
  refine ⟨⟨fun x => ?_, fun x => ?_, ?_⟩, ?during, hsymbols.trans holds.inOrder, ?found⟩
  · rw [resolve, hrest, resolve]
  · rw [resolveLocal, hrest, resolveLocal]
  · rw [depth, hrest, depth]
  case during =>
    intro before hbefore
    obtain ⟨behind, rfl⟩ := hbefore
    rw [run_append] at hexit
    have inside := ((Inside.opened t).run before).resolve_right
      fun gone => (gone.run behind).exit hexit
    obtain ⟨inner, entered, hscopes, -, -⟩ := inside.scopes
    exact ⟨inner ++ [entered], List.append_ne_nil_of_right_ne_nil _ (List.cons_ne_nil _ _),
      by rw [hscopes, List.append_assoc, List.singleton_append]⟩
  case found =>
    intro sym
    have hlocal : (t.enter.2.run cs).2.resolveLocal sym.name = entered.find? sym.name := by
      rw [resolveLocal, hscopes]
      rfl
    rw [hlocal, hsymbols, holds.inOrder, holds.finds,
      OrderedScope.find?_eq_some holds.distinct, and_iff_left rfl]

/-- A table with one name bound in its only scope. -/
def oneBound : SymbolTable := reached [.enter, .declare (lineVariable "x" 1)]

/-- Calls that bind the name anew, twice, and open and leave a scope in
between; some of them fail. -/
def rebinding : List TableCall :=
  [.declare (lineVariable "x" 2), .enter, .declare (lineVariable "y" 3), .exit ⟨1, 0⟩,
    .exit ⟨3, 2⟩, .declare (lineVariable "x" 4), .shadow (lineVariable "x" 5)]

/-- Outside the scope where it is bound anew, the name keeps its first
meaning. -/
theorem exit_restores_rebinding :
    ∃ symbols t', (oneBound.enter.2.run rebinding).2.exit oneBound.enter.1
        = .ok (symbols, t')
      ∧ t'.resolve "x" = some ⟨lineVariable "x" 1, 0⟩
      ∧ symbols = [⟨lineVariable "x" 5, 3⟩] := by
  obtain ⟨⟨symbols, t'⟩, hexit⟩ :
      ∃ r, (oneBound.enter.2.run rebinding).2.exit oneBound.enter.1 = .ok r := ⟨_, rfl⟩
  obtain ⟨⟨hresolve, -, -⟩, -, hsymbols, -⟩ := exit_restores hexit
  exact ⟨symbols, t', hexit, (hresolve "x").trans (by decide),
    hsymbols.trans (by decide)⟩

end SymbolTable

end TreeCheck
