/-
The symbol table beside a stack of ordered scopes.

The table keeps the symbols of a scope by name and puts them in order
only when the scope is left; an ordered scope is just the list of its
symbols, the one bound last at the end. `Refines` ties the two together
scope by scope: they find the same symbol under each name, and since
numbers are given out in ascending order, to sort by number is to leave
the list as it is. One lemma for each call says that the two answer
alike and stay tied; a whole run follows by induction on its calls.

That numbers are never used twice is read off the stack alone, where
the number given out is the count of the symbols bound so far.
-/
import Mathlib.Data.List.Forall2
import TreeCheck.Proofs.Scope.Order

namespace TreeCheck

-- =============================================================== calls

/-- A call of the symbol table. -/
inductive TableCall where
  | enter
  | exit (handle : ScopeHandle)
  | declare (binding : Binding)
  | shadow (binding : Binding)
  | resolve (name : String)
  | resolveLocal (name : String)

/-- The answer to a call. -/
inductive TableAnswer where
  | entered (handle : ScopeHandle)
  | left (symbols : List Symbol)
  | stayed (error : LeaveError)
  | declared (id : SymbolId)
  | shadowed (id : SymbolId) (replaced : Option Symbol)
  | unbound (error : BindError)
  | found (symbol : Option Symbol)

namespace TableAnswer

/-- The number that a call gave out. -/
def id? : TableAnswer → Option SymbolId
  | .declared id | .shadowed id _ => some id
  | .entered _ | .left _ | .stayed _ | .unbound _ | .found _ => none

/-- Whether a call failed. -/
def isFailure : TableAnswer → Bool
  | .stayed _ | .unbound _ => true
  | .entered _ | .left _ | .declared _ | .shadowed _ _ | .found _ => false

end TableAnswer

namespace SymbolTable

/-- Makes a call, and gives the answer with the table after it. -/
def call (t : SymbolTable) : TableCall → TableAnswer × SymbolTable
  | .enter => (.entered t.enter.1, t.enter.2)
  | .exit h =>
    match t.tryExit h with
    | (.ok symbols, t') => (.left symbols, t')
    | (.error e, t') => (.stayed e, t')
  | .declare b =>
    match t.tryDeclare b with
    | (.ok id, t') => (.declared id, t')
    | (.error e, t') => (.unbound e, t')
  | .shadow b =>
    match t.tryShadow b with
    | (.ok (id, replaced), t') => (.shadowed id replaced, t')
    | (.error e, t') => (.unbound e, t')
  | .resolve name => (.found (t.resolve name), t)
  | .resolveLocal name => (.found (t.resolveLocal name), t)

/-- The answers to a sequence of calls, and the table after it. -/
def run (t : SymbolTable) : List TableCall → List TableAnswer × SymbolTable
  | [] => ([], t)
  | c :: cs => ((t.call c).1 :: ((t.call c).2.run cs).1, ((t.call c).2.run cs).2)

end SymbolTable

-- =============================================================== stack

/-- A scope as the list of its symbols, in the order in which their names
were bound last, with the handle given out for it. -/
structure OrderedScope where
  handle : ScopeHandle
  symbols : List Symbol := []

/-- The open scopes, innermost first, how many have been opened, and how
many symbols have been bound. -/
structure ScopeStack where
  scopes : List OrderedScope := []
  opened : Nat := 0
  bound : Nat := 0

namespace OrderedScope

/-- The symbol that a scope binds to a name. -/
def find? (o : OrderedScope) (name : String) : Option Symbol :=
  o.symbols.find? (·.name == name)

/-- The scope with a symbol at its end, in place of any other of that
name. -/
def bind (o : OrderedScope) (sym : Symbol) : OrderedScope :=
  { o with symbols := o.symbols.filter (·.name != sym.name) ++ [sym] }

end OrderedScope

namespace ScopeStack

/-- The stack with a symbol bound in its innermost scope under the next
number. -/
def bind (m : ScopeStack) (top : OrderedScope) (outer : List OrderedScope)
    (b : Binding) : ScopeStack :=
  { m with scopes := top.bind ⟨b, m.bound⟩ :: outer, bound := m.bound + 1 }

/-- Makes a call. -/
def call (m : ScopeStack) : TableCall → TableAnswer × ScopeStack
  | .enter =>
    let handle : ScopeHandle := ⟨m.scopes.length + 1, m.opened⟩
    (.entered handle,
      { m with scopes := { handle } :: m.scopes, opened := m.opened + 1 })
  | .exit h =>
    match m.scopes with
    | [] => (.stayed (.noneOpen h.serial), m)
    | top :: outer =>
      if top.handle = h then (.left top.symbols, { m with scopes := outer })
      else (.stayed (.notInnermost h.serial top.handle.serial), m)
  | .declare b =>
    match m.scopes with
    | [] => (.unbound .noScope, m)
    | top :: outer =>
      match top.find? b.name with
      | some previous => (.unbound (.duplicate b.name previous.position), m)
      | none => (.declared m.bound, m.bind top outer b)
  | .shadow b =>
    match m.scopes with
    | [] => (.unbound .noScope, m)
    | top :: outer => (.shadowed m.bound (top.find? b.name), m.bind top outer b)
  | .resolve name => (.found (m.scopes.findSome? (·.find? name)), m)
  | .resolveLocal name => (.found (m.scopes.head?.bind (·.find? name)), m)

/-- The answers to a sequence of calls, and the stack after it. -/
def run (m : ScopeStack) : List TableCall → List TableAnswer × ScopeStack
  | [] => ([], m)
  | c :: cs => ((m.call c).1 :: ((m.call c).2.run cs).1, ((m.call c).2.run cs).2)

end ScopeStack

-- ====================================================== ordered scopes

namespace OrderedScope

variable {o : OrderedScope} {sym : Symbol}

theorem find?_bind (o : OrderedScope) (sym : Symbol) (name : String) :
    (o.bind sym).find? name
      = if sym.name = name then some sym else o.find? name := by
  unfold bind find?
  rw [List.find?_append]
  by_cases h : sym.name = name
  · have hgone : (o.symbols.filter (·.name != sym.name)).find? (·.name == name)
        = none := by
      refine List.find?_eq_none.mpr fun a ha => ?_
      have hne := (List.mem_filter.mp ha).2
      rw [h] at hne
      simpa using hne
    rw [hgone, if_pos h]
    simp [h]
  · have hkept : (o.symbols.filter (·.name != sym.name)).find? (·.name == name)
        = o.symbols.find? (·.name == name) := by
      rw [List.find?_filter]
      congr 1
      funext a
      by_cases ha : a.name = name
      · simp [ha, Ne.symm h]
      · simp [ha]
    rw [hkept, if_neg h]
    simp [h]

theorem mem_symbols_bind {a : Symbol} :
    a ∈ (o.bind sym).symbols ↔ (a ∈ o.symbols ∧ a.name ≠ sym.name) ∨ a = sym := by
  simp [bind]

/-- Names stay distinct when a name is bound again. -/
theorem nodup_bind (h : (o.symbols.map (·.name)).Nodup) :
    ((o.bind sym).symbols.map (·.name)).Nodup := by
  unfold bind
  rw [List.map_append, List.map_singleton]
  refine List.Nodup.append ?_ (List.nodup_singleton _) ?_
  · exact h.sublist (List.filter_sublist.map _)
  · intro name hname hlast
    obtain ⟨a, ha, rfl⟩ := List.mem_map.mp hname
    have hne := (List.mem_filter.mp ha).2
    simp only [bne_iff_ne, ne_eq] at hne
    exact hne (List.mem_singleton.mp hlast)

/-- With distinct names, a scope finds each of its symbols, and no other. -/
theorem find?_eq_some (h : (o.symbols.map (·.name)).Nodup) {name : String} :
    o.find? name = some sym ↔ sym ∈ o.symbols ∧ sym.name = name := by
  unfold find?
  constructor
  · intro hfind
    exact ⟨List.mem_of_find?_eq_some hfind, by simpa using List.find?_some hfind⟩
  · intro hmem
    obtain ⟨hsym, rfl⟩ := hmem
    cases hfind : o.symbols.find? (·.name == sym.name) with
    | none =>
        have := List.find?_eq_none.mp hfind sym hsym
        simp at this
    | some a =>
        have ha : a.name = sym.name := by simpa using List.find?_some hfind
        rw [List.inj_on_of_nodup_map h (List.mem_of_find?_eq_some hfind) hsym ha]

end OrderedScope

-- ========================================================== refinement

/-- A scope of the table holds what an ordered scope lists, where `n`
symbols have been bound. -/
structure Scope.Holds (n : Nat) (sc : Scope) (o : OrderedScope) : Prop where
  serial : sc.serial = o.handle.serial
  finds : ∀ name, sc.find? name = o.find? name
  distinct : (o.symbols.map (·.name)).Nodup
  ascending : o.symbols.Pairwise (·.id < ·.id)
  below : ∀ sym ∈ o.symbols, sym.id < n

/-- The handle of each scope says how deep it is. -/
def OrderedScope.Nested : List OrderedScope → Prop
  | [] => True
  | o :: os => o.handle.depth = os.length + 1 ∧ Nested os

/-- A table holds what a stack lists. -/
structure Refines (t : SymbolTable) (m : ScopeStack) : Prop where
  scopes : List.Forall₂ (Scope.Holds m.bound) t.scopes m.scopes
  nested : OrderedScope.Nested m.scopes
  serial : t.nextSerial = m.opened
  id : t.nextId = m.bound

namespace Scope.Holds

variable {n : Nat} {sc : Scope} {o : OrderedScope}

/-- A scope hands out its symbols in the order of the list. -/
theorem inOrder (h : sc.Holds n o) : sc.inOrder = o.symbols := by
  refine inOrder_eq_of_ascending h.ascending fun name sym => ?_
  rw [h.finds, OrderedScope.find?_eq_some h.distinct]

theorem mono (h : sc.Holds n o) : sc.Holds (n + 1) o :=
  { h with below := fun sym hsym => Nat.lt_succ_of_lt (h.below sym hsym) }

/-- A symbol with the next number goes to the end of the list. -/
theorem bind (h : sc.Holds n o) (b : Binding) :
    (sc.bind ⟨b, n⟩).Holds (n + 1) (o.bind ⟨b, n⟩) where
  serial := h.serial
  finds name := by
    rw [Scope.find?_bind, OrderedScope.find?_bind, h.finds]
  distinct := OrderedScope.nodup_bind h.distinct
  ascending := by
    refine List.pairwise_append.mpr ⟨h.ascending.sublist List.filter_sublist,
      List.pairwise_singleton _ _, ?_⟩
    intro a ha last hlast
    rw [List.mem_singleton.mp hlast]
    exact h.below a (List.mem_filter.mp ha).1
  below := by
    intro sym hsym
    rcases OrderedScope.mem_symbols_bind.mp hsym with ⟨hmem, -⟩ | rfl
    · exact Nat.lt_succ_of_lt (h.below sym hmem)
    · exact Nat.lt_succ_self n

/-- A scope just opened is empty. -/
theorem opened (n serial depth : Nat) :
    Holds n { serial } { handle := ⟨depth, serial⟩ } where
  serial := rfl
  finds _ := Std.TreeMap.getElem?_emptyc
  distinct := List.nodup_nil
  ascending := .nil
  below := nofun

end Scope.Holds

namespace Refines

variable {t : SymbolTable} {m : ScopeStack}

/-- A fresh table holds an empty stack. -/
theorem fresh : Refines {} {} where
  scopes := .nil
  nested := trivial
  serial := rfl
  id := rfl

theorem depth (h : Refines t m) : t.depth = m.scopes.length := h.scopes.length_eq

theorem enter (h : Refines t m) :
    (t.call .enter).1 = (m.call .enter).1
      ∧ Refines (t.call .enter).2 (m.call .enter).2 := by
  simp only [SymbolTable.call, SymbolTable.enter, ScopeStack.call, h.depth, h.serial]
  exact ⟨trivial, .cons (.opened _ _ _) h.scopes, ⟨rfl, h.nested⟩, rfl, h.id⟩

theorem exit (h : Refines t m) (handle : ScopeHandle) :
    (t.call (.exit handle)).1 = (m.call (.exit handle)).1
      ∧ Refines (t.call (.exit handle)).2 (m.call (.exit handle)).2 := by
  have hdepth := h.depth
  have hscopes := h.scopes
  have hnested := h.nested
  unfold SymbolTable.call SymbolTable.tryExit ScopeStack.call
  cases ht : t.scopes with
  | nil =>
      rw [ht] at hscopes
      rw [List.forall₂_nil_left_iff.mp hscopes]
      exact ⟨rfl, h⟩
  | cons top outer =>
      rw [ht] at hscopes
      obtain ⟨o, os, htop, houter, hm⟩ := List.forall₂_cons_left_iff.mp hscopes
      rw [hm] at hdepth hnested ⊢
      -- the two numbers of the handle are checked one by one
      have hfits : (top.serial = handle.serial ∧ t.depth = handle.depth)
          ↔ o.handle = handle := by
        rw [htop.serial, hdepth, List.length_cons, ← hnested.1]
        cases o.handle
        cases handle
        simp only [ScopeHandle.mk.injEq]
        exact and_comm
      by_cases hfit : o.handle = handle
      · simp only [if_pos (hfits.mpr hfit), if_pos hfit]
        exact ⟨congrArg _ htop.inOrder, houter, hnested.2, h.serial, h.id⟩
      · simp only [if_neg (mt hfits.mp hfit), if_neg hfit]
        exact ⟨by rw [htop.serial], h⟩

theorem resolveLocal (h : Refines t m) (name : String) :
    t.resolveLocal name = m.scopes.head?.bind (·.find? name) := by
  have hscopes := h.scopes
  unfold SymbolTable.resolveLocal
  generalize t.scopes = scopes at hscopes ⊢
  generalize m.scopes = ordered at hscopes ⊢
  cases hscopes with
  | nil => rfl
  | cons htop _ => exact htop.finds name

theorem resolve (h : Refines t m) (name : String) :
    t.resolve name = m.scopes.findSome? (·.find? name) := by
  have hscopes := h.scopes
  unfold SymbolTable.resolve
  generalize t.scopes = scopes at hscopes ⊢
  generalize m.scopes = ordered at hscopes ⊢
  induction hscopes with
  | nil => rfl
  | cons htop _ ih => rw [List.findSome?_cons, List.findSome?_cons, htop.finds, ih]

/-- What binding a name in the innermost scope does to both. -/
theorem bind {top : Scope} {outer : List Scope} {o : OrderedScope}
    {os : List OrderedScope} (h : Refines t m) (b : Binding)
    (ht : t.scopes = top :: outer) (hm : m.scopes = o :: os) :
    Refines { t with scopes := top.bind ⟨b, t.nextId⟩ :: outer, nextId := t.nextId + 1 }
      (m.bind o os b) where
  scopes := by
    have hscopes := h.scopes
    rw [ht, hm] at hscopes
    obtain ⟨htop, houter⟩ := List.forall₂_cons.mp hscopes
    rw [h.id]
    exact .cons (htop.bind b) (houter.imp fun _ _ => Scope.Holds.mono)
  nested := by
    have hnested := h.nested
    rw [hm] at hnested
    exact hnested
  serial := h.serial
  id := congrArg (· + 1) h.id

theorem shadow (h : Refines t m) (b : Binding) :
    (t.call (.shadow b)).1 = (m.call (.shadow b)).1
      ∧ Refines (t.call (.shadow b)).2 (m.call (.shadow b)).2 := by
  have hscopes := h.scopes
  cases ht : t.scopes with
  | nil =>
      rw [ht] at hscopes
      have hm := List.forall₂_nil_left_iff.mp hscopes
      simp only [SymbolTable.call, SymbolTable.tryShadow, ScopeStack.call, ht, hm]
      exact ⟨trivial, h⟩
  | cons top outer =>
      rw [ht] at hscopes
      obtain ⟨o, os, htop, -, hm⟩ := List.forall₂_cons_left_iff.mp hscopes
      simp only [SymbolTable.call, SymbolTable.tryShadow, ScopeStack.call, ht, hm]
      exact ⟨by rw [h.id, htop.finds], h.bind b ht hm⟩

theorem declare (h : Refines t m) (b : Binding) :
    (t.call (.declare b)).1 = (m.call (.declare b)).1
      ∧ Refines (t.call (.declare b)).2 (m.call (.declare b)).2 := by
  have hscopes := h.scopes
  have hlocal := h.resolveLocal b.name
  cases ht : t.scopes with
  | nil =>
      rw [ht] at hscopes
      have hm := List.forall₂_nil_left_iff.mp hscopes
      rw [hm] at hlocal
      simp only [SymbolTable.call, SymbolTable.tryDeclare, SymbolTable.tryShadow,
        ScopeStack.call, ht, hm, hlocal]
      exact ⟨rfl, h⟩
  | cons top outer =>
      rw [ht] at hscopes
      obtain ⟨o, os, -, -, hm⟩ := List.forall₂_cons_left_iff.mp hscopes
      rw [hm] at hlocal
      cases hfind : o.find? b.name with
      | some previous =>
          have hlocal : t.resolveLocal b.name = some previous := hlocal.trans hfind
          simp only [SymbolTable.call, SymbolTable.tryDeclare, ScopeStack.call, hm, hlocal,
            hfind]
          exact ⟨trivial, h⟩
      | none =>
          have hlocal : t.resolveLocal b.name = none := hlocal.trans hfind
          simp only [SymbolTable.call, SymbolTable.tryDeclare, SymbolTable.tryShadow,
            ScopeStack.call, ht, hm, hlocal, hfind]
          exact ⟨congrArg _ h.id, h.bind b ht hm⟩

/-- Table and stack answer a call alike, and the table goes on holding
what the stack lists. -/
theorem call (h : Refines t m) (c : TableCall) :
    (t.call c).1 = (m.call c).1 ∧ Refines (t.call c).2 (m.call c).2 := by
  cases c with
  | enter => exact h.enter
  | exit handle => exact h.exit handle
  | declare b => exact h.declare b
  | shadow b => exact h.shadow b
  | resolve name => exact ⟨congrArg _ (h.resolve name), h⟩
  | resolveLocal name => exact ⟨congrArg _ (h.resolveLocal name), h⟩

theorem run (h : Refines t m) (cs : List TableCall) :
    (t.run cs).1 = (m.run cs).1 ∧ Refines (t.run cs).2 (m.run cs).2 := by
  induction cs generalizing t m with
  | nil => exact ⟨rfl, h⟩
  | cons c cs ih =>
      obtain ⟨hanswer, hnext⟩ := h.call c
      obtain ⟨hanswers, hlast⟩ := ih hnext
      exact ⟨congrArg₂ _ hanswer hanswers, hlast⟩

end Refines

-- ============================================================= numbers

/-- A call gives out the next number or none, and the count goes up
accordingly. -/
theorem ScopeStack.id?_call (m : ScopeStack) (c : TableCall) :
    ((m.call c).1.id? = none ∧ (m.call c).2.bound = m.bound)
      ∨ ((m.call c).1.id? = some m.bound ∧ (m.call c).2.bound = m.bound + 1) := by
  cases c with
  | enter => exact .inl ⟨rfl, rfl⟩
  | resolve name => exact .inl ⟨rfl, rfl⟩
  | resolveLocal name => exact .inl ⟨rfl, rfl⟩
  | exit handle =>
      refine .inl ?_
      cases hm : m.scopes with
      | nil => simp [call, hm, TableAnswer.id?]
      | cons top outer =>
          by_cases hfit : top.handle = handle
          · simp [call, hm, hfit, TableAnswer.id?]
          · simp [call, hm, hfit, TableAnswer.id?]
  | declare b =>
      cases hm : m.scopes with
      | nil => exact .inl (by simp [call, hm, TableAnswer.id?])
      | cons top outer =>
          cases hfind : top.find? b.name with
          | some previous => exact .inl (by simp [call, hm, hfind, TableAnswer.id?])
          | none => exact .inr (by simp [call, hm, hfind, bind, TableAnswer.id?])
  | shadow b =>
      cases hm : m.scopes with
      | nil => exact .inl (by simp [call, hm, TableAnswer.id?])
      | cons top outer => exact .inr (by simp [call, hm, bind, TableAnswer.id?])

/-- A run gives out consecutive numbers, from the next one on. -/
theorem ScopeStack.ids_run (m : ScopeStack) (cs : List TableCall) :
    ∃ n, (m.run cs).1.filterMap (·.id?) = List.range' m.bound n := by
  induction cs generalizing m with
  | nil => exact ⟨0, rfl⟩
  | cons c cs ih =>
      obtain ⟨n, hn⟩ := ih (m.call c).2
      unfold ScopeStack.run
      rcases m.id?_call c with ⟨hid, hbound⟩ | ⟨hid, hbound⟩
      · rw [hbound] at hn
        exact ⟨n, by rw [List.filterMap_cons_none hid, hn]⟩
      · rw [hbound] at hn
        exact ⟨n + 1, by rw [List.filterMap_cons_some hid, hn, List.range'_succ]⟩

-- ============================================================ failures

namespace SymbolTable

section Failures

variable {t : SymbolTable}

/-- Who is not let out of a scope finds the table as it was. -/
theorem tryExit_of_error {h : ScopeHandle} {e : LeaveError} (herror : (t.tryExit h).1 = .error e) :
    (t.tryExit h).2 = t := by
  unfold tryExit at herror ⊢
  split
  · rfl
  · next htop =>
      rw [htop] at herror
      split
      · next hfits => simp only [if_pos hfits] at herror; cases herror
      · rfl

theorem tryShadow_of_error {b : Binding} {e : BindError} (herror : (t.tryShadow b).1 = .error e) :
    (t.tryShadow b).2 = t := by
  unfold tryShadow at herror ⊢
  split
  · rfl
  · next htop => rw [htop] at herror; cases herror

/-- A name that cannot be bound leaves the table as it was, whether it is
bound already or there is no scope. -/
theorem tryDeclare_of_error {b : Binding} {e : BindError} (herror : (t.tryDeclare b).1 = .error e) :
    (t.tryDeclare b).2 = t := by
  unfold tryDeclare at herror ⊢
  split
  · rfl
  · next hlocal =>
      rw [hlocal] at herror
      cases hshadow : (t.tryShadow b).1 with
      | ok r => simp only [hshadow, Except.map] at herror; cases herror
      | error e => exact tryShadow_of_error hshadow

/-- A call that fails leaves the table as it is. -/
theorem call_of_failure {c : TableCall} (h : (t.call c).1.isFailure = true) :
    (t.call c).2 = t := by
  cases c with
  | enter => cases h
  | resolve name => cases h
  | resolveLocal name => cases h
  | exit handle =>
      simp only [call] at h ⊢
      rcases hexit : t.tryExit handle with ⟨e | symbols, t'⟩
      · exact (congrArg Prod.snd hexit).symm.trans (tryExit_of_error (congrArg Prod.fst hexit))
      · rw [hexit] at h
        cases h
  | declare b =>
      simp only [call] at h ⊢
      rcases hdeclare : t.tryDeclare b with ⟨e | id, t'⟩
      · exact (congrArg Prod.snd hdeclare).symm.trans (tryDeclare_of_error (congrArg Prod.fst hdeclare))
      · rw [hdeclare] at h
        cases h
  | shadow b =>
      simp only [call] at h ⊢
      rcases hshadow : t.tryShadow b with ⟨e | r, t'⟩
      · exact (congrArg Prod.snd hshadow).symm.trans (tryShadow_of_error (congrArg Prod.fst hshadow))
      · rw [hshadow] at h
        cases h

theorem call_exit_of_ok {h : ScopeHandle} {symbols : List Symbol} {t' : SymbolTable}
    (hexit : t.exit h = .ok (symbols, t')) : t.call (.exit h) = (.left symbols, t') := by
  unfold exit completed at hexit
  simp only [call]
  rcases htry : t.tryExit h with ⟨e | symbols', u⟩
  · rw [htry] at hexit
    cases hexit
  · rw [htry] at hexit
    cases hexit
    rfl

theorem call_exit_of_error {h : ScopeHandle} {e : LeaveError} (hexit : t.exit h = .error e) :
    t.call (.exit h) = (.stayed e, t) := by
  unfold exit completed at hexit
  simp only [call]
  rcases htry : t.tryExit h with ⟨e' | symbols, u⟩
  · have hsame : u = t :=
      (congrArg Prod.snd htry).symm.trans (tryExit_of_error (congrArg Prod.fst htry))
    rw [htry] at hexit
    cases hexit
    rw [hsame]
  · rw [htry] at hexit
    cases hexit

end Failures

theorem length_run (t : SymbolTable) (cs : List TableCall) :
    (t.run cs).1.length = cs.length := by
  induction cs generalizing t with
  | nil => rfl
  | cons c cs ih => exact congrArg (· + 1) (ih _)

theorem run_append (t : SymbolTable) (cs ds : List TableCall) :
    t.run (cs ++ ds) = ((t.run cs).1 ++ ((t.run cs).2.run ds).1,
      ((t.run cs).2.run ds).2) := by
  induction cs generalizing t with
  | nil => rfl
  | cons c cs ih => simp only [List.cons_append, run, ih]

/-- A failed call can be left out: the other answers stay the same. -/
theorem run_of_failure {t : SymbolTable} {before : List TableCall} {c : TableCall}
    (h : ((t.run before).2.call c).1.isFailure = true) (behind : List TableCall) :
    (t.run (before ++ c :: behind)).1
      = (t.run before).1 ++ ((t.run before).2.call c).1
        :: (t.run (before ++ behind)).1.drop before.length := by
  rw [run_append, run_append]
  simp only [run, call_of_failure h]
  rw [← length_run t before, List.drop_left]

/-- A fresh table gives the answers of a stack of ordered scopes, to any
sequence of calls, and has as many scopes open. The numbers it gives out
are zero, one, two and so on; and a call that fails leaves no trace in
the answers to the others. -/
theorem answers_as_stack :
    (∀ cs : List TableCall,
      (({} : SymbolTable).run cs).1 = (({} : ScopeStack).run cs).1
        ∧ (({} : SymbolTable).run cs).2.depth
          = (({} : ScopeStack).run cs).2.scopes.length
        ∧ ∃ n, (({} : SymbolTable).run cs).1.filterMap (·.id?) = List.range n)
      ∧ ∀ (before : List TableCall) (c : TableCall) (behind : List TableCall),
        ((({} : SymbolTable).run before).2.call c).1.isFailure = true →
        (({} : SymbolTable).run (before ++ c :: behind)).1
          = (({} : SymbolTable).run before).1
            ++ ((({} : SymbolTable).run before).2.call c).1
              :: (({} : SymbolTable).run (before ++ behind)).1.drop before.length := by
  refine ⟨fun cs => ?_, fun before c behind h => run_of_failure h behind⟩
  obtain ⟨hanswers, hlast⟩ := Refines.fresh.run cs
  refine ⟨hanswers, hlast.depth, ?_⟩
  obtain ⟨n, hn⟩ := ScopeStack.ids_run {} cs
  exact ⟨n, by rw [hanswers, hn, List.range_eq_range']⟩

/-- A variable named by a letter, declared on some line. -/
def lineVariable (name : String) (line : Nat) : Binding :=
  ⟨name, .variable, .int, ⟨line, 1⟩, true⟩

/-- A second declaration of a name is refused and leaves no trace: the
next symbol gets the next number. -/
theorem answers_as_stack_redeclared :
    ((({} : SymbolTable).run [.enter, .declare (lineVariable "x" 1)]).2.call
        (.declare (lineVariable "x" 2))).1.isFailure = true
      ∧ (({} : SymbolTable).run [.enter, .declare (lineVariable "x" 1),
          .declare (lineVariable "x" 2), .declare (lineVariable "y" 3)]).1
        = [.entered ⟨1, 0⟩, .declared 0, .unbound (.duplicate "x" ⟨1, 1⟩),
          .declared 1] := by
  have hfails : ((({} : SymbolTable).run
      [.enter, .declare (lineVariable "x" 1)]).2.call
        (.declare (lineVariable "x" 2))).1.isFailure = true := by decide
  exact ⟨hfails, answers_as_stack.2 _ _ [.declare (lineVariable "y" 3)] hfails⟩

end SymbolTable

end TreeCheck
