/-
What a scope hands out when it is left.

A scope keeps its symbols by name and sorts them by number only in the
end. A frame keeps every symbol ever bound, the latest first. If both
find the same symbol under each name, the scope hands out what the frame
has current, from the first bound to the last: both lists have the same
members, and both are ordered by number, where no number comes twice.
-/
import Mathlib.Data.List.Nodup
import TreeCheck.Proofs.Account.Statements

namespace TreeCheck

-- ============================================================== current

/-- A symbol is current in a frame if the frame finds it under its name. -/
theorem Frame.mem_current {φ : Frame} {d : Declared} :
    d ∈ φ.current ↔ φ.find d.name = some d := by
  induction φ with
  | nil => exact iff_of_false List.not_mem_nil nofun
  | cons e φ ih =>
      rw [Frame.current, Frame.find_cons, List.mem_cons, List.mem_filter, ih]
      by_cases hname : e.name = d.name
      · simp [hname, eq_comm]
      · have hne : d ≠ e := fun h => hname (h ▸ rfl)
        simp [hname, hne, Ne.symm hname]

theorem Frame.current_sublist (φ : Frame) : φ.current.Sublist φ := by
  induction φ with
  | nil => exact .slnil
  | cons d φ ih => exact (List.filter_sublist.trans ih).cons_cons d

-- =============================================================== scopes

namespace Scope

theorem find?_bind (sc : Scope) (sym : Symbol) (name : String) :
    (sc.bind sym).find? name
      = if sym.name = name then some sym else sc.find? name := by
  simp [Scope.bind, Scope.find?, Std.TreeMap.getElem?_insert]

theorem values_symbols (sc : Scope) :
    sc.symbols.values = sc.symbols.toList.map Prod.snd := by
  show sc.symbols.foldr (fun _ sym syms => sym :: syms) [] = _
  rw [Std.TreeMap.foldr_eq_foldr_toList]
  exact List.map_eq_foldr.symm

theorem mem_inOrder {sc : Scope} {sym : Symbol} :
    sym ∈ sc.inOrder ↔ ∃ name, sc.find? name = some sym := by
  rw [Scope.inOrder, List.mem_mergeSort, values_symbols, List.mem_map]
  constructor
  · intro h
    obtain ⟨⟨name, _⟩, hmem, rfl⟩ := h
    exact ⟨name, Std.TreeMap.mem_toList_iff_getElem?_eq_some.mp hmem⟩
  · intro h
    obtain ⟨name, hfind⟩ := h
    exact ⟨(name, sym), Std.TreeMap.mem_toList_iff_getElem?_eq_some.mpr hfind,
      rfl⟩

/-- If symbols are found under their own names only, none is handed out
twice. -/
theorem nodup_inOrder {sc : Scope}
    (h : ∀ name sym, sc.find? name = some sym → sym.name = name) :
    sc.inOrder.Nodup := by
  rw [Scope.inOrder, (List.mergeSort_perm _ _).nodup_iff, values_symbols]
  refine List.pairwise_map.mpr ?_
  refine sc.symbols.distinct_keys_toList.imp_of_mem fun {a b} ha hb hne heq =>
    hne ?_
  have hfind {e : String × Symbol} (he : e ∈ sc.symbols.toList) :
      e.2.name = e.1 :=
    h e.1 e.2 (Std.TreeMap.mem_toList_iff_getElem?_eq_some.mp he)
  rw [← hfind ha, ← hfind hb, heq]
  exact Std.ReflCmp.compare_self

theorem pairwise_inOrder (sc : Scope) : sc.inOrder.Pairwise (·.id ≤ ·.id) := by
  have h : sc.inOrder.Pairwise (fun a b => decide (a.id ≤ b.id) = true) :=
    List.pairwise_mergeSort (fun a b c hab hbc => by
        simp only [decide_eq_true_eq] at hab hbc ⊢
        exact Nat.le_trans hab hbc)
      (fun a b => by
        simp only [Bool.or_eq_true, decide_eq_true_eq]
        exact Nat.le_total a.id b.id)
      sc.symbols.values
  exact h.imp of_decide_eq_true

/-- A scope hands out a list of symbols whose numbers ascend, if these are
the symbols that it finds. -/
theorem inOrder_eq_of_ascending {sc : Scope} {syms : List Symbol}
    (hids : syms.Pairwise (·.id < ·.id))
    (hfind : ∀ name sym,
      sc.find? name = some sym ↔ sym ∈ syms ∧ sym.name = name) :
    sc.inOrder = syms := by
  have hmem (sym : Symbol) : sym ∈ sc.inOrder ↔ sym ∈ syms := by
    rw [mem_inOrder]
    constructor
    · intro h
      obtain ⟨name, h⟩ := h
      exact ((hfind name sym).mp h).1
    · intro h
      exact ⟨sym.name, (hfind sym.name sym).mpr ⟨h, rfl⟩⟩
  have hnodup : sc.inOrder.Nodup :=
    nodup_inOrder fun name sym h => ((hfind name sym).mp h).2
  have hdistinct : (syms.map (·.id)).Nodup :=
    List.pairwise_map.mpr (hids.imp Nat.ne_of_lt)
  have hperm : sc.inOrder.Perm syms :=
    (List.perm_ext_iff_of_nodup hnodup hdistinct.of_map).mpr hmem
  refine hperm.eq_of_pairwise ?_ sc.pairwise_inOrder (hids.imp Nat.le_of_lt)
  intro a b ha hb hab hba
  exact List.inj_on_of_nodup_map hdistinct ((hmem a).mp ha) hb
    (Nat.le_antisymm hab hba)

/-- A scope that finds what a frame finds hands out the current symbols
of the frame, from the first bound to the last. -/
theorem inOrder_eq {sc : Scope} {φ : Frame}
    (hfind : ∀ x, sc.find? x = (φ.find x).map (·.toSymbol))
    (hids : φ.Pairwise (·.id > ·.id)) :
    sc.inOrder = φ.current.reverse.map (·.toSymbol) := by
  refine inOrder_eq_of_ascending ?_ fun name sym => ?_
  · exact List.pairwise_map.mpr
      (List.pairwise_reverse.mpr (hids.sublist φ.current_sublist))
  · simp only [hfind, Option.map_eq_some_iff, List.mem_map, List.mem_reverse,
      Frame.mem_current]
    constructor
    · intro h
      obtain ⟨d, hd, rfl⟩ := h
      have hname : d.name = name := Frame.name_of_find hd
      exact ⟨⟨d, hname ▸ hd, rfl⟩, hname⟩
    · intro h
      obtain ⟨⟨d, hd, rfl⟩, rfl⟩ := h
      exact ⟨d, hd, rfl⟩

end Scope

end TreeCheck
