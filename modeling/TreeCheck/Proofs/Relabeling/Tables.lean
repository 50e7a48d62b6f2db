/-
Tables under other labels.

Two tables are filled alike if they have taken in the same values in the
same order, the second one under other keys. Nothing is said about how
either keeps them; if keys are kept apart, both answer alike.

For the symbol table, the stack of ordered scopes says what it holds.
Two symbol tables are relabeled if one holds a stack and the other the
same stack under other labels. There is one lemma for each call.
-/
import TreeCheck.Proofs.Relabeling.Source
import TreeCheck.Proofs.Scope.Stack

namespace TreeCheck

-- ========================================================== keyed tables

section

variable {κ β : Type} [Ord κ]

/-- The second table has been filled like the first one, under other keys. -/
inductive FilledAlike (f : κ → κ) : Std.TreeMap κ β → Std.TreeMap κ β → Prop where
  | empty : FilledAlike f {} {}
  | insert {m m' : Std.TreeMap κ β} (k : κ) (v : β) (h : FilledAlike f m m') :
    FilledAlike f (m.insert k v) (m'.insert (f k) v)

variable {f : κ → κ} {m m' : Std.TreeMap κ β}

namespace FilledAlike

variable [Std.TransOrd κ] [Std.LawfulEqOrd κ]

theorem getElem? (h : FilledAlike f m m') (hf : Function.Injective f) (k : κ) :
    m'[f k]? = m[k]? := by
  induction h with
  | empty => rw [Std.TreeMap.getElem?_emptyc, Std.TreeMap.getElem?_emptyc]
  | insert j v _ ih =>
      rw [Std.TreeMap.getElem?_insert, Std.TreeMap.getElem?_insert, ih]
      by_cases hjk : j = k
      · simp [hjk]
      · have hne : ¬ f j = f k := fun heq => hjk (hf heq)
        simp [hjk, hne]

theorem mem_iff (h : FilledAlike f m m') (hf : Function.Injective f) (k : κ) :
    f k ∈ m' ↔ k ∈ m := by
  rw [Std.TreeMap.mem_iff_isSome_getElem?, Std.TreeMap.mem_iff_isSome_getElem?,
    h.getElem? hf]

/-- Every key of the second table is that of an entry of the first one. -/
theorem exists_key (h : FilledAlike f m m') {k : κ} (hk : k ∈ m') : ∃ j ∈ m, f j = k := by
  induction h with
  | empty => exact absurd hk Std.TreeMap.not_mem_emptyc
  | insert j v _ ih =>
      rcases Std.TreeMap.mem_insert.mp hk with heq | hk
      · refine ⟨j, Std.TreeMap.mem_insert_self, ?_⟩
        exact Std.LawfulEqCmp.eq_of_compare heq
      · obtain ⟨i, hi, hfi⟩ := ih hk
        exact ⟨i, Std.TreeMap.mem_insert.mpr (.inr hi), hfi⟩

/-- What the second table holds is what the first one holds, with the keys renumbered
by any map that does the same to them. -/
theorem getElem?_eq_some_iff (h : FilledAlike f m m') (hf : Function.Injective f)
    {r : κ → κ} (hkeys : ∀ k ∈ m, f k = r k) {k : κ} {v : β} :
    m'[k]? = some v ↔ ∃ j, r j = k ∧ m[j]? = some v := by
  have hmem {m : Std.TreeMap κ β} {k : κ} (hv : m[k]? = some v) : k ∈ m :=
    Std.TreeMap.mem_iff_isSome_getElem?.mpr (Option.isSome_of_eq_some hv)
  constructor
  · intro hv
    obtain ⟨j, hj, rfl⟩ := h.exists_key (hmem hv)
    rw [h.getElem? hf] at hv
    exact ⟨j, (hkeys j hj).symm, hv⟩
  · rintro ⟨j, rfl, hv⟩
    rw [← hkeys j (hmem hv), h.getElem? hf, hv]

end FilledAlike

/-- Under the same keys, the tables are the same. -/
theorem FilledAlike.eq_of_id (h : FilledAlike id m m') : m' = m := by
  induction h with
  | empty => rfl
  | insert k v _ ih => rw [ih, id_eq]

end

-- ========================================================= ordered scopes

section

variable (T : Relabeling)

/-- An ordered scope under other labels. -/
def OrderedScope.relabel (o : OrderedScope) : OrderedScope :=
  { o with symbols := o.symbols.map (Symbol.relabel T) }

/-- A stack under other labels. -/
def ScopeStack.relabel (m : ScopeStack) : ScopeStack :=
  { m with scopes := m.scopes.map (OrderedScope.relabel T) }

end

variable {T : Relabeling}

theorem OrderedScope.find?_relabel (hT : T.Faithful) (o : OrderedScope) (x : String) :
    (o.relabel T).find? (T.name x) = (o.find? x).map (Symbol.relabel T) := by
  have hsame : (fun sym : Symbol => sym.name == T.name x) ∘ Symbol.relabel T
      = fun sym => sym.name == x := by
    funext sym
    show (T.name sym.name == T.name x) = (sym.name == x)
    rw [Bool.eq_iff_iff, beq_iff_eq, beq_iff_eq, hT.name.eq_iff]
  rw [find?, relabel, List.find?_map, hsame, find?]

theorem OrderedScope.relabel_bind (hT : T.Faithful) (o : OrderedScope) (sym : Symbol) :
    (o.bind sym).relabel T = (o.relabel T).bind (sym.relabel T) := by
  have hsame : (fun a : Symbol => a.name != (sym.relabel T).name) ∘ Symbol.relabel T
      = fun a => a.name != sym.name := by
    funext a
    show (T.name a.name != T.name sym.name) = (a.name != sym.name)
    rw [Bool.eq_iff_iff, bne_iff_ne, bne_iff_ne, hT.name.ne_iff]
  simp only [bind, relabel, List.map_append, List.map_cons, List.map_nil, List.filter_map,
    hsame]

theorem ScopeStack.relabel_bind (hT : T.Faithful) (m : ScopeStack) (top : OrderedScope)
    (outer : List OrderedScope) (b : Binding) :
    (m.bind top outer b).relabel T
      = (m.relabel T).bind (top.relabel T) (outer.map (OrderedScope.relabel T))
          (b.relabel T) := by
  simp only [relabel, bind, List.map_cons, OrderedScope.relabel_bind hT]
  rfl

/-- The innermost scope that binds a name is the same one under other labels. -/
theorem ScopeStack.findSome?_relabel (hT : T.Faithful) (m : ScopeStack) (x : String) :
    (m.relabel T).scopes.findSome? (·.find? (T.name x))
      = (m.scopes.findSome? (·.find? x)).map (Symbol.relabel T) := by
  have hsame : (fun o : OrderedScope => o.find? (T.name x)) ∘ OrderedScope.relabel T
      = fun o => (o.find? x).map (Symbol.relabel T) := by
    funext o
    exact o.find?_relabel hT x
  rw [relabel, List.findSome?_map, hsame, List.map_findSome?]
  rfl

-- =========================================================== symbol tables

/-- The second table holds what the first one holds, under other labels. -/
def SymbolTable.Relabeled (T : Relabeling) (t t' : SymbolTable) : Prop :=
  ∃ m : ScopeStack, Refines t m ∧ Refines t' (m.relabel T)

section

variable {t : SymbolTable} {handle : ScopeHandle}

theorem SymbolTable.exit_of_left {symbols : List Symbol}
    (h : (t.call (.exit handle)).1 = .left symbols) :
    t.exit handle = .ok (symbols, (t.call (.exit handle)).2) := by
  simp only [call] at h ⊢
  rcases hexit : t.tryExit handle with ⟨e | symbols', t'⟩
  · rw [hexit] at h
    cases h
  · rw [hexit] at h
    cases h
    rw [exit, hexit]
    rfl

theorem SymbolTable.exit_of_stayed {e : LeaveError}
    (h : (t.call (.exit handle)).1 = .stayed e) : t.exit handle = .error e := by
  simp only [call] at h
  rcases hexit : t.tryExit handle with ⟨e' | symbols, t'⟩
  · rw [hexit] at h
    cases h
    rw [exit, hexit]
    rfl
  · rw [hexit] at h
    cases h

end

namespace SymbolTable.Relabeled

variable {t t' : SymbolTable}

theorem fresh (T : Relabeling) : Relabeled T {} {} := ⟨{}, .fresh, .fresh⟩

theorem depth (h : t.Relabeled T t') : t'.depth = t.depth := by
  obtain ⟨m, hm, hm'⟩ := h
  rw [hm'.depth, hm.depth]
  exact List.length_map _

theorem isEmpty (h : t.Relabeled T t') : t'.isEmpty = t.isEmpty := by
  have hlength : t'.scopes.length = t.scopes.length := h.depth
  rw [Bool.eq_iff_iff, SymbolTable.isEmpty, SymbolTable.isEmpty, List.isEmpty_iff,
    List.isEmpty_iff, ← List.length_eq_zero_iff, ← List.length_eq_zero_iff, hlength]

theorem resolve (h : t.Relabeled T t') (hT : T.Faithful) (x : String) :
    t'.resolve (T.name x) = (t.resolve x).map (Symbol.relabel T) := by
  obtain ⟨m, hm, hm'⟩ := h
  rw [hm'.resolve, hm.resolve, m.findSome?_relabel hT]

theorem enter (h : t.Relabeled T t') :
    t'.enter.1 = t.enter.1 ∧ t.enter.2.Relabeled T t'.enter.2 := by
  have hdepth := h.depth
  obtain ⟨m, hm, hm'⟩ := h
  constructor
  · have hserial : t'.nextSerial = t.nextSerial := hm'.serial.trans hm.serial.symm
    rw [SymbolTable.enter, SymbolTable.enter, hdepth, hserial]
  · refine ⟨(m.call .enter).2, hm.enter.2, ?_⟩
    have hnext := hm'.enter.2
    have hlength : (m.relabel T).scopes.length = m.scopes.length := List.length_map _
    simp only [ScopeStack.call, hlength] at hnext
    exact hnext

/-- Where a scope is open in one table, one is open in the other. A name that it
binds has the same symbol there under other labels, and binding a name does
the same to both. -/
theorem bind {top : Scope} {outer : List Scope} (h : t.Relabeled T t') (hT : T.Faithful)
    (ht : t.scopes = top :: outer) :
    ∃ top' outer', t'.scopes = top' :: outer'
      ∧ (∀ x, top'.find? (T.name x) = (top.find? x).map (Symbol.relabel T))
      ∧ ∀ b : Binding, Relabeled T
        { t with scopes := top.bind ⟨b, t.nextId⟩ :: outer, nextId := t.nextId + 1 }
        { t' with
          scopes := top'.bind ⟨b.relabel T, t'.nextId⟩ :: outer', nextId := t'.nextId + 1 } := by
  obtain ⟨m, hm, hm'⟩ := h
  have hscopes := hm.scopes
  rw [ht] at hscopes
  obtain ⟨o, os, htop, -, ho⟩ := List.forall₂_cons_left_iff.mp hscopes
  have ho' : (m.relabel T).scopes = o.relabel T :: os.map (OrderedScope.relabel T) :=
    congrArg (List.map _) ho
  have hscopes' := hm'.scopes
  rw [ho'] at hscopes'
  obtain ⟨top', outer', htop', -, ht'⟩ := List.forall₂_cons_right_iff.mp hscopes'
  refine ⟨top', outer', ht', fun x => ?_, fun b => ⟨m.bind o os b, hm.bind b ht ho, ?_⟩⟩
  · rw [htop'.finds, o.find?_relabel hT, htop.finds]
  · rw [m.relabel_bind hT]
    exact hm'.bind (b.relabel T) ht' ho'

/-- Leaving a scope succeeds with the same handles, and hands out the same symbols
under other labels. -/
theorem exit (h : t.Relabeled T t') (handle : ScopeHandle) :
    match t.exit handle with
    | .ok (symbols, u) => ∃ u', t'.exit handle = .ok (symbols.map (Symbol.relabel T), u')
        ∧ u.Relabeled T u'
    | .error e => t'.exit handle = .error e := by
  obtain ⟨m, hm, hm'⟩ := h
  obtain ⟨hanswer, hnext⟩ := hm.exit handle
  obtain ⟨hanswer', hnext'⟩ := hm'.exit handle
  cases hscopes : m.scopes with
  | nil =>
      have hscopes' : (m.relabel T).scopes = [] := congrArg (List.map _) hscopes
      simp only [ScopeStack.call, hscopes] at hanswer
      simp only [ScopeStack.call, hscopes'] at hanswer'
      rw [exit_of_stayed hanswer]
      exact exit_of_stayed hanswer'
  | cons top outer =>
      have hscopes' : (m.relabel T).scopes
          = top.relabel T :: outer.map (OrderedScope.relabel T) :=
        congrArg (List.map _) hscopes
      by_cases hhandle : top.handle = handle
      · have hhandle' : (top.relabel T).handle = handle := hhandle
        simp only [ScopeStack.call, hscopes, if_pos hhandle] at hanswer hnext
        simp only [ScopeStack.call, hscopes', if_pos hhandle'] at hanswer' hnext'
        rw [exit_of_left hanswer]
        exact ⟨_, exit_of_left hanswer', _, hnext, hnext'⟩
      · have hhandle' : ¬ (top.relabel T).handle = handle := hhandle
        simp only [ScopeStack.call, hscopes, if_neg hhandle] at hanswer
        simp only [ScopeStack.call, hscopes', if_neg hhandle'] at hanswer'
        rw [exit_of_stayed hanswer]
        exact exit_of_stayed hanswer'

end SymbolTable.Relabeled

end TreeCheck
