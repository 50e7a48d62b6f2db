/-
The table of types.

Recording a type is where an analysis stops if it has met the identity
before. So a completed one has recorded the expressions of its program
one by one, and its table of types has an entry for each of them and no
other, however much was found wrong on the way.
-/
import TreeCheck.Proofs.Run.Failure

namespace TreeCheck

open Analysis

/-- A table that has keys without repetition for its keys has as many
entries. -/
theorem size_eq_length {β : Type} {m : Std.TreeMap NodeId β} {ids : List NodeId}
    (hids : ids.Nodup) (hmem : ∀ id, id ∈ m ↔ id ∈ ids) : m.size = ids.length := by
  have hdistinct : m.keys.Nodup := m.distinct_keys.imp fun hne heq =>
    hne (Std.LawfulEqCmp.compare_eq_iff_eq.mpr heq)
  have hperm : m.keys.Perm ids := by
    refine (List.perm_ext_iff_of_nodup hdistinct hids).mpr fun id => ?_
    rw [Std.TreeMap.mem_keys]
    exact hmem id
  rw [← Std.TreeMap.length_keys]
  exact hperm.length_eq

/-- Every expression is typed exactly once. In a completed analysis no two
expressions share an identity, the types are recorded for the
identities of the expressions and for nothing else, and there are as
many of them as expressions. -/
theorem Program.typed_exactly_once {config : Config} {p : Program} {a : Analysis}
    (h : p.analyze config = .ok a) :
    (p.exprs.map Expr.id).Nodup
      ∧ (∀ id, id ∈ a.types ↔ ∃ e ∈ p.exprs, e.id = id)
      ∧ a.types.size = p.exprs.length := by
  have hnodup : (p.exprs.map Expr.id).Nodup := (shallow_of_analyze h).2
  refine ⟨hnodup, fun id => ?_, ?_⟩
  · rw [mem_types_of_analyze h id, List.mem_map]
  · rw [size_eq_length hnodup (mem_types_of_analyze h), List.length_map]

/-- An assignment to a name that nothing binds, a call with too few arguments
inside a condition, and a `return` outside of a function. -/
def Program.ofErrors : Program :=
  ⟨[.assignment ⟨0, ⟨1, 1⟩⟩ (.identifier ⟨1, ⟨1, 1⟩⟩ "x")
      (.literal ⟨2, ⟨1, 5⟩⟩ (.int 1)),
    .function ⟨3, ⟨2, 1⟩⟩ "f" [⟨"a", none, ⟨2, 8⟩⟩] none ⟨2, 11⟩ [],
    .while ⟨4, ⟨3, 1⟩⟩
      (.unary ⟨5, ⟨3, 7⟩⟩ .not
        (.call ⟨6, ⟨3, 8⟩⟩ (.identifier ⟨7, ⟨3, 8⟩⟩ "f") []))
      (.ret ⟨8, ⟨3, 12⟩⟩ (some (.literal ⟨9, ⟨3, 19⟩⟩ (.bool true))))],
    .start⟩

/-- Nothing below the errors is passed over. -/
theorem Program.typed_ofErrors :
    ∃ a, ofErrors.analyze {} = .ok a ∧ a.isSuccess = false
      ∧ (ofErrors.exprs.map Expr.id).Nodup
      ∧ (∀ id, id ∈ a.types ↔ ∃ e ∈ ofErrors.exprs, e.id = id)
      ∧ a.types.size = 6 := by
  obtain ⟨a, ha, hfails⟩ : ∃ a, ofErrors.analyze {} = .ok a ∧ a.isSuccess = false :=
    analyze_ok_of_results (by decide +kernel)
  obtain ⟨hnodup, hdomain, hsize⟩ := typed_exactly_once ha
  exact ⟨a, ha, hfails, hnodup, hdomain, hsize⟩

end TreeCheck
