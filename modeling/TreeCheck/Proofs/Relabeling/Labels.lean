/-
The labels that a program has.

A relabeling acts on a program through the labels that occur in it. If it
keeps the names and the identities of the program apart, another one does
the same to the program and keeps all of them apart, so that a rerun
under it can be compared.

The other way round, a program that a relabeling leaves alone has findings
that it leaves alone. Taking one that moves all labels but those of the
program shows that no others get into what is reported.
-/
import Mathlib.Algebra.Order.BigOperators.Group.List
import Mathlib.Algebra.Order.Group.Nat
import Mathlib.Data.Set.Piecewise
import TreeCheck.Proofs.Relabeling.Run
import TreeCheck.Proofs.Run.Failure

namespace TreeCheck

open Analysis

-- ============================================================= extension

/-- A map that is injective on the members of a list becomes injective if all else is
sent, injectively, to where it sends none of them. -/
theorem exists_injective_extension {α : Type} {N : List α} {f : α → α} (shift : α → α)
    (hf : Set.InjOn f {x | x ∈ N}) (hshift : Function.Injective shift)
    (hapart : ∀ x ∈ N, ∀ y, f x ≠ shift y) :
    ∃ f' : α → α, Function.Injective f' ∧ (∀ x ∈ N, f' x = f x)
      ∧ ∀ x, x ∉ N → f' x = shift x := by
  classical
  refine ⟨Set.piecewise {x | x ∈ N} f shift, ?_, fun x hx => ?_, fun x hx => ?_⟩
  · refine (Set.injective_piecewise_iff _).mpr ⟨hf, hshift.injOn, fun x hx y _ => ?_⟩
    exact hapart x hx y
  · exact Set.piecewise_eq_of_mem _ _ _ hx
  · exact Set.piecewise_eq_of_notMem _ _ _ hx

/-- Identities that are kept apart in a list can be kept apart everywhere. -/
theorem exists_injective_node {ids : List NodeId} {r : NodeId → NodeId}
    (hr : Set.InjOn r {id | id ∈ ids}) :
    ∃ r' : NodeId → NodeId, Function.Injective r' ∧ ∀ id ∈ ids, r' id = r id := by
  let n : Nat := (ids.map r).sum
  have hapart : ∀ id ∈ ids, ∀ k : Nat, r id ≠ k + (n + 1) := by
    intro id hid k
    have hbound : r id ≤ n := List.le_sum_of_mem (List.mem_map_of_mem hid)
    exact Nat.ne_of_lt (Nat.lt_of_le_of_lt hbound (by omega))
  obtain ⟨r', hinj, hsame, -⟩ := exists_injective_extension (· + (n + 1)) hr
    (add_left_injective (n + 1)) hapart
  exact ⟨r', hinj, hsame⟩

/-- Names that are kept apart in a list can be kept apart everywhere, by putting
something at the end of all others, which keeps their beginnings. -/
theorem exists_injective_name {names : List String} {ν : String → String}
    (hν : Set.InjOn ν {x | x ∈ names}) :
    ∃ ν' : String → String, Function.Injective ν' ∧ (∀ x ∈ names, ν' x = ν x)
      ∧ (∀ x, x ∉ names → ν' x ≠ x)
      ∧ ((∀ x ∈ names, (ν x).toList.head? = some '_' ↔ x.toList.head? = some '_') →
        Relabeling.KeepsUnderscores { name := ν' }) := by
  let n := (names.map fun x => (ν x).toList.length).sum
  let pad := String.ofList (List.replicate (n + 1) 'a')
  have hpad : pad.toList = 'a' :: List.replicate n 'a' := by
    rw [String.toList_ofList, List.replicate_succ]
  have hlength (x : String) : (x ++ pad).toList.length = x.toList.length + (n + 1) := by
    rw [String.toList_append, hpad, List.length_append, List.length_cons,
      List.length_replicate]
  have hapart : ∀ x ∈ names, ∀ y, ν x ≠ y ++ pad := by
    intro x hx y heq
    have hbound : (ν x).toList.length ≤ n :=
      List.le_sum_of_mem (List.mem_map_of_mem (f := fun x => (ν x).toList.length) hx)
    rw [heq, hlength] at hbound
    omega
  obtain ⟨ν', hinj, hsame, hother⟩ := exists_injective_extension (· ++ pad) hν
    (fun x y h => (String.append_left_inj pad).mp h) hapart
  refine ⟨ν', hinj, hsame, fun x hx heq => ?_, fun hkeeps x => ?_⟩
  · have hlonger := hlength x
    rw [← hother x hx, heq] at hlonger
    omega
  · show (ν' x).toList.head? = some '_' ↔ _
    by_cases hx : x ∈ names
    · rw [hsame x hx]
      exact hkeeps x hx
    · rw [hother x hx, String.toList_append, hpad]
      cases x.toList <;> simp

-- ================================================================= names

/-- The names of the program that a cause is about. -/
def Cause.names : Cause → List String
  | .duplicate x | .undefined x | .voidVariable x | .badInitializer x _ _
  | .voidInitializer x | .assignToFunction x | .assignToImmutable x
  | .badAssignment x _ _ | .unusedVariable x | .unusedParameter x => [x]
  | .wrongArity callee _ _ | .badArgument callee _ _ _ => callee.toList
  | .unknownType _ | .notAVariable | .badCondition _ _ | .returnOutside
  | .badReturn _ _ | .missingReturn _ | .badOperands _ _ _ | .badOperand _ _
  | .notCallable _ => []

theorem Cause.rename_eq_rename_iff {ν ν' : String → String} {c : Cause} :
    c.rename ν = c.rename ν' ↔ ∀ x ∈ c.names, ν x = ν' x := by
  cases c with
  | wrongArity callee _ _ => cases callee <;> simp [rename, names]
  | badArgument callee _ _ _ => cases callee <;> simp [rename, names]
  | duplicate | undefined | unknownType | voidVariable | badInitializer | voidInitializer
  | notAVariable | assignToFunction | assignToImmutable | badAssignment | badCondition
  | returnOutside | badReturn | missingReturn | badOperands | badOperand | notCallable
  | unusedVariable | unusedParameter => simp [rename, names]

@[simp] theorem Cause.rename_id (c : Cause) : c.rename id = c := by
  cases c with
  | wrongArity callee _ _ => cases callee <;> rfl
  | badArgument callee _ _ _ => cases callee <;> rfl
  | duplicate | undefined | unknownType | voidVariable | badInitializer | voidInitializer
  | notAVariable | assignToFunction | assignToImmutable | badAssignment | badCondition
  | returnOutside | badReturn | missingReturn | badOperands | badOperand | notCallable
  | unusedVariable | unusedParameter => rfl

@[simp] theorem Finding.relabel_id (f : Finding) : f.relabel {} = f := by
  obtain ⟨c, q, r⟩ := f
  show (⟨c.rename id, q, r.map id⟩ : Finding) = _
  rw [c.rename_id, Option.map_id_fun, id_eq]

@[simp] theorem AnalysisError.relabel_id (e : AnalysisError) : e.relabel {} = e := by
  cases e with
  | bind e => cases e <;> rfl
  | tooDeep | repeatedNode | leave | stillOpen => rfl

-- ============================================================== findings

section

variable {config : Config} {p : Program} {a : Analysis} {T T' : Relabeling} {f : Finding}

/-- What is found about a program is left alone by a relabeling that leaves the
program alone. -/
theorem Program.relabel_finding_eq_self (hT : T.Faithful) (hkeeps : T.KeepsUnderscores)
    (hself : p.relabel T = p) (h : p.analyze config = .ok a) (hf : f ∈ a.findings) :
    f.relabel T = f := by
  rcases analyze_relabel config hT hself with
    ⟨e, hfirst, -⟩ | ⟨b, b', hfirst, hsecond, hresults⟩
  · cases h.symm.trans hfirst
  · obtain rfl : a = b := Except.ok.inj (h.symm.trans hfirst)
    obtain rfl : a = b' := Except.ok.inj (h.symm.trans hsecond)
    have hsame : a.findings.map id = a.findings.map (Finding.relabel T) := by
      rw [List.map_id]
      exact hresults.findings.same rfl hkeeps
    exact (List.map_inj_left.mp hsame f hf).symm

/-- Findings are at positions of the program. -/
theorem Program.positions_of_finding (h : p.analyze config = .ok a) (hf : f ∈ a.findings) :
    f.position ∈ p.positions ∧ ∀ q ∈ f.related, q ∈ p.positions := by
  -- all positions but those of the program are moved to the next line
  let move (q : Position) : Position :=
    if q ∈ p.positions then q else ⟨q.line + 1, q.column⟩
  have hmove {q : Position} (hq : move q = q) : q ∈ p.positions := by
    by_contra hnot
    have hmoved : move q = ⟨q.line + 1, q.column⟩ := if_neg hnot
    have hline : q.line + 1 = q.line := congrArg Position.line (hmoved.symm.trans hq)
    omega
  have hself : p.relabel { position := move } = p :=
    relabel_eq_self rfl (fun _ _ => rfl) (fun _ _ => rfl) fun q hq => if_pos hq
  have hfixed : f.relabel { position := move } = f :=
    relabel_finding_eq_self ⟨Function.injective_id, Function.injective_id⟩
      (fun _ => Iff.rfl) hself h hf
  refine ⟨hmove (congrArg Finding.position hfixed), fun q hq => ?_⟩
  have hrelated : f.related.map move = f.related := congrArg Finding.related hfixed
  rw [Option.mem_def.mp hq] at hrelated
  exact hmove (Option.some.inj hrelated)

/-- Findings are about names of the program. -/
theorem Program.names_of_finding (h : p.analyze config = .ok a) (hf : f ∈ a.findings)
    {x : String} (hx : x ∈ f.cause.names) : x ∈ p.names := by
  -- all names but those of the program are made longer
  obtain ⟨μ, hinj, hsame, hmoved, hkeeps⟩ :=
    exists_injective_name (Function.injective_id.injOn (s := {x | x ∈ p.names}))
  have hself : p.relabel { name := μ } = p :=
    relabel_eq_self rfl hsame (fun _ _ => rfl) fun _ _ => rfl
  have hfixed : f.relabel { name := μ } = f :=
    relabel_finding_eq_self ⟨hinj, Function.injective_id⟩ (hkeeps fun _ _ => Iff.rfl)
      hself h hf
  have hcause : f.cause.rename μ = f.cause.rename id := by
    rw [f.cause.rename_id]
    exact congrArg Finding.cause hfixed
  by_contra hnot
  exact hmoved x hnot (Cause.rename_eq_rename_iff.mp hcause x hx)

/-- Relabelings that agree on the labels of a program do the same to what is found
about it. -/
theorem Program.relabel_finding_congr (hname : ∀ x ∈ p.names, T.name x = T'.name x)
    (hposition : ∀ q ∈ p.positions, T.position q = T'.position q)
    (h : p.analyze config = .ok a) (hf : f ∈ a.findings) : f.relabel T = f.relabel T' := by
  obtain ⟨hown, hrelated⟩ := positions_of_finding h hf
  have hcause : f.cause.rename T.name = f.cause.rename T'.name :=
    Cause.rename_eq_rename_iff.mpr fun x hx => hname x (names_of_finding h hf hx)
  have hplace : f.related.map T.position = f.related.map T'.position :=
    Option.map_congr fun q hq => hposition q (hrelated q hq)
  rw [Finding.relabel, Finding.relabel, hcause, hposition _ hown, hplace]

theorem Program.id_mem_ids {e : Expr} (h : e ∈ p.exprs) : e.id ∈ p.ids := by
  obtain ⟨n, hn, he⟩ := List.mem_filterMap.mp h
  have hid : n.node.id = e.id := by
    cases hnode : n.node with
    | stmt s =>
        rw [hnode] at he
        cases he
    | expr e' =>
        rw [hnode] at he
        cases he
        rfl
  rw [← hid]
  exact List.mem_map_of_mem hn

/-- Relabelings that agree on the labels of a program do the same to the error that
ends its analysis. -/
theorem Program.relabel_error_congr {e : AnalysisError}
    (hnode : ∀ id ∈ p.ids, T.node id = T'.node id)
    (hposition : ∀ q ∈ p.positions, T.position q = T'.position q)
    (h : p.analyze config = .error e) : e.relabel T = e.relabel T' := by
  rcases causes_of_analyze h with ⟨n, hn, rfl⟩ | ⟨id, rfl, hcount⟩
  · have hmem : n ∈ p.outline := Outline.mem_of_mem_visited (List.mem_of_find?_eq_some hn)
    have hown : n.node.position ∈ p.positions :=
      List.mem_flatMap.mpr ⟨n, hmem, List.mem_cons_self⟩
    rw [AnalysisError.relabel, AnalysisError.relabel, hposition _ hown]
  · have hmem : id ∈ p.exprs.map Expr.id := List.count_pos_iff.mp (by omega)
    obtain ⟨e, he, rfl⟩ := List.mem_map.mp hmem
    rw [AnalysisError.relabel, AnalysisError.relabel, hnode _ (id_mem_ids he)]

end

end TreeCheck
