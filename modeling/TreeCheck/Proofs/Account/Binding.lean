/-
Which parts of an account bind names, and which look them up.

Declaring functions and parameters only binds and reports; expressions
and what is checked about one statement only look up, record and report.
So whatever counts the bindings of an account may pass over the latter,
and whatever counts resolutions or types may pass over the former.
-/
import TreeCheck.Proofs.Account.Reads

namespace TreeCheck

open Analysis

variable {ρ : Lookup} {es fs : List Event}

-- ============================================================== binding

/-- Events that only bind and report. -/
def Binds (es : List Event) : Prop :=
  ∀ e ∈ es, (∃ d, e = .bound d) ∨ ∃ node f, e = .found node f

theorem Reports.binds (h : Reports es) : Binds es := fun e he => .inr (h e he)

theorem binds_append : Binds (es ++ fs) ↔ Binds es ∧ Binds fs := by
  simp only [Binds, List.mem_append, or_imp, forall_and]

theorem Binds.resolved (h : Binds es) : es.filterMap Event.resolved? = [] := by
  refine List.filterMap_eq_nil_iff.mpr fun e he => ?_
  rcases h e he with ⟨d, rfl⟩ | ⟨node, f, rfl⟩ <;> rfl

theorem binds_declaring (node : NodeId) (site : Site) (b : Binding) (φ : Frame)
    (n : SymbolId) : Binds (declaring node site b φ n).events := by
  refine binds_append.mpr ⟨(reports_duplicateEvents _ _ _).binds, ?_⟩
  intro e he
  exact .inl ⟨_, List.mem_singleton.mp he⟩

/-- A declaration binds one symbol. -/
theorem bound_declaring (node : NodeId) (site : Site) (b : Binding) (φ : Frame)
    (n : SymbolId) :
    (declaring node site b φ n).events.filterMap Event.bound? = [⟨⟨b, n⟩, site⟩] := by
  show (duplicateEvents node b _ ++ [_]).filterMap _ = _
  rw [List.filterMap_append, (reports_duplicateEvents _ _ _).bound]
  rfl

theorem binds_declaringFunction (t : Tag) (name : String) (params : List Param)
    (result : Option TypeName) (body : List Stmt) (φ : Frame) (n : SymbolId) :
    Binds (declaringFunction t name params result body φ n).events :=
  binds_append.mpr ⟨(reports_signatureEvents _ _ _).binds,
    binds_declaring _ _ _ _ _⟩

theorem binds_hoisting (earlier : List String) (ss : List Stmt) (φ : Frame)
    (n : SymbolId) : Binds (hoisting earlier ss φ n).events := by
  induction ss generalizing earlier φ n with
  | nil => exact reports_nil.binds
  | cons s ss ih =>
      cases s with
      | function t name params result p body =>
          unfold hoisting
          split
          · exact ih earlier φ n
          · exact binds_append.mpr
              ⟨binds_declaringFunction _ _ _ _ _ _ _, ih _ _ _⟩
      | declaration | assignment | block | ifElse | «while» | ret | expr =>
          exact ih _ φ n

theorem binds_declaringParams (function : NodeId) (i : Nat) (ps : List Param)
    (tys : List Ty) (φ : Frame) (n : SymbolId) :
    Binds (declaringParams function i ps tys φ n).events := by
  induction ps generalizing i tys φ n with
  | nil => exact reports_nil.binds
  | cons p ps ih =>
      cases tys with
      | nil => exact reports_nil.binds
      | cons ty tys =>
          exact binds_append.mpr ⟨binds_declaring _ _ _ _ _, ih _ _ _ _⟩

-- ============================================================ looking up

/-- Events that bind nothing. -/
def Looks (es : List Event) : Prop := es.filterMap Event.bound? = []

theorem Reports.looks (h : Reports es) : Looks es := h.bound

theorem Consults.looks (h : Consults ρ es) : Looks es := by
  refine List.filterMap_eq_nil_iff.mpr fun e he => ?_
  cases e with
  | bound d => exact (h _ he).elim
  | typed | resolved | read | found => rfl

end TreeCheck
