/-
The names of types are unambiguous.

The name of a function type has the names of other types inside it, in
front of commas, in front of a parenthesis and at its end. It can be read
nevertheless, since a name also tells where it ends: if two types are
named, with anything behind them, and the texts are the same, then so are
the types and what is behind them (`display_append_inj`). Behind each
parameter there is a comma or the end of the list, and as no name begins
with a parenthesis, a list with a parameter is not taken for an empty one.

So two types that do not fit are told by different names: what has one
name is one type, and a type fits itself.
-/
import TreeCheck.Proofs.Typing.Comparisons
import TreeCheck.Proofs.Typing.Symmetry

namespace TreeCheck

namespace Ty

-- ============================================================== names

/-- No name begins with a parenthesis, so none can be taken for the end of a list
of parameters. -/
theorem display_append_ne_close (a : Ty) (s t : List Char) :
    a.display.toList ++ s ≠ ')' :: t := by
  cases a <;> simp [display]

mutual

/-- The name of a type, with something behind it, tells the type and where its name
ends. -/
theorem display_append_inj : (a b : Ty) → {s t : List Char} →
    a.display.toList ++ s = b.display.toList ++ t → a = b ∧ s = t
  | .func ps r, b, s, t, h => by
      cases b with
      | func qs q =>
          simp only [display, String.toList_append, List.append_assoc] at h
          obtain ⟨rfl, hresult⟩ := displayAll_append_inj ps qs (List.append_cancel_left h)
          obtain ⟨rfl, hrest⟩ := display_append_inj r q hresult
          exact ⟨rfl, hrest⟩
      | int | float | bool | string | void | unknown | error => simp [display] at h
  | .int, b, s, t, h | .float, b, s, t, h | .bool, b, s, t, h | .string, b, s, t, h
  | .void, b, s, t, h | .unknown, b, s, t, h | .error, b, s, t, h => by
      cases b <;> simp_all [display]

/-- A list of parameters is told by their names up to where it is closed. -/
theorem displayAll_append_inj : (ps qs : List Ty) → {s t : List Char} →
    (displayAll ps).toList ++ (") -> ".toList ++ s)
      = (displayAll qs).toList ++ (") -> ".toList ++ t) → ps = qs ∧ s = t
  | [], [], s, t, h => ⟨rfl, List.append_cancel_left h⟩
  | [], q :: qs, s, t, h => by
      rw [displayAll, displayAll, String.toList_append, List.append_assoc] at h
      exact (display_append_ne_close q _ _ h.symm).elim
  | p :: ps, [], s, t, h => by
      rw [displayAll, displayAll, String.toList_append, List.append_assoc] at h
      exact (display_append_ne_close p _ _ h).elim
  | p :: ps, q :: qs, s, t, h => by
      rw [displayAll, displayAll, String.toList_append, String.toList_append,
        List.append_assoc, List.append_assoc] at h
      obtain ⟨rfl, hmore⟩ := display_append_inj p q h
      obtain ⟨rfl, hrest⟩ := displayMore_append_inj ps qs hmore
      exact ⟨rfl, hrest⟩

/-- Behind a parameter there is a comma or the end of the list. -/
theorem displayMore_append_inj : (ps qs : List Ty) → {s t : List Char} →
    (displayMore ps).toList ++ (") -> ".toList ++ s)
      = (displayMore qs).toList ++ (") -> ".toList ++ t) → ps = qs ∧ s = t
  | [], [], s, t, h => ⟨rfl, List.append_cancel_left h⟩
  | [], q :: qs, s, t, h => by simp [displayMore] at h
  | p :: ps, [], s, t, h => by simp [displayMore] at h
  | p :: ps, q :: qs, s, t, h => by
      simp only [displayMore, String.toList_append, List.append_assoc] at h
      obtain ⟨rfl, hmore⟩ := display_append_inj p q (List.append_cancel_left h)
      obtain ⟨rfl, hrest⟩ := displayMore_append_inj ps qs hmore
      exact ⟨rfl, hrest⟩

end

theorem display_injective : Function.Injective display := by
  intro a b h
  have hlists : a.display.toList ++ [] = b.display.toList ++ [] := by rw [h]
  exact (display_append_inj a b hlists).1

/-- What does not fit has another name. -/
theorem display_ne_of_rejects {target value : Ty} (h : target.accepts value = false) :
    target.display ≠ value.display := by
  intro hnames
  rw [display_injective hnames, accepts_self] at h
  cases h

end Ty

-- ========================================================== the result

/-- The names of types are unambiguous. Two types with one name are the same; so a
type that does not fit another has another name, and the message about it
tells both. In a completed analysis every message about a value that does not
fit its target is of this kind. -/
theorem Ty.names_unambiguous :
    (∀ a b : Ty, a.display = b.display → a = b)
      ∧ (∀ target value : Ty, target.accepts value = false →
        target.display ≠ value.display
          ∧ ∀ c : Cause, c.Misfit target value →
            target.ToldIn value c.message ∨ value.ToldIn target c.message)
      ∧ ∀ (config : Config) (p : Program) (a : Analysis), p.analyze config = .ok a →
        ∀ f ∈ a.findings, ∀ target value : Ty, f.cause.Misfit target value →
          target.display ≠ value.display
            ∧ (target.ToldIn value f.diagnostic.message
              ∨ value.ToldIn target f.diagnostic.message) := by
  refine ⟨fun _ _ h => display_injective h,
    fun target value hrejects => ⟨display_ne_of_rejects hrejects, fun _ hmisfit => hmisfit.toldIn⟩,
    ?found⟩
  case found =>
    intro config p a h f hf target value hmisfit
    have hrejects := (Program.compares_of_finding h hf hmisfit).2
    exact ⟨display_ne_of_rejects hrejects, hmisfit.toldIn⟩

/-- Where a function is taken or given tells types apart, and so does what a function
deep inside another one takes. The message about a function assigned to a
variable tells two different names. -/
theorem Ty.names_unambiguous_functionsStored :
    (func [func [] int] int).display ≠ (func [] (func [int] int)).display
      ∧ (func [func [unknown] int] int).accepts (func [func [bool] int] int) = false
      ∧ (func [func [unknown] int] int).display ≠ (func [func [bool] int] int).display
      ∧ ∃ a, Program.functionsStored.analyze { warnUnused := false } = .ok a
        ∧ ∃ f ∈ a.findings, f.cause.Misfit (func [int, unknown] float) (func [unknown] void)
          ∧ (func [int, unknown] float).display ≠ (func [unknown] void).display := by
  obtain ⟨hsame, hrejected, hfound⟩ := names_unambiguous
  have hrejects :
      (func [func [unknown] int] int).accepts (func [func [bool] int] int) = false := by decide
  obtain ⟨a, ha, hfindings⟩ : ∃ a,
      Program.functionsStored.analyze { warnUnused := false } = .ok a
        ∧ a.findings = [⟨.badAssignment "v" (func [int, unknown] float) (func [unknown] void),
          ⟨6, 5⟩, none⟩] := Program.analyze_ok_of_results (by decide +kernel)
  have hmem := hfindings ▸ List.mem_cons_self
  have hmisfit := Cause.Misfit.assigned "v" (func [int, unknown] float) (func [unknown] void)
  exact ⟨mt (hsame _ _) (by decide), hrejects, (hrejected _ _ hrejects).1, a, ha, _, hmem,
    hmisfit, (hfound _ _ a ha _ hmem _ _ hmisfit).1⟩

end TreeCheck
