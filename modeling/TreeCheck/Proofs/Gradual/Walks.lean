/-
Walks with less precise types.

`Relaxes` compares two walks: if the second one is clean, then the first
one is clean, records less precise types and leaves less precise
symbols. It goes through sequences and scopes, so that deleting
annotations can be followed statement by statement.
-/
import TreeCheck.Proofs.Gradual.Expressions

namespace TreeCheck

open Analysis

/-- The symbols of a frame have less precise types. -/
def Frame.Below (φ' φ : Frame) : Prop := List.Forall₂ Declared.Below φ' φ

/-- The symbols of an environment have less precise types. -/
def Env.Below (Γ' Γ : Env) : Prop := List.Forall₂ Frame.Below Γ' Γ

theorem Declared.Below.name_eq {d' d : Declared} (h : d'.Below d) :
    d'.name = d.name := by
  rw [h.same]

theorem Frame.Below.find {φ' φ : Frame} (h : φ'.Below φ) (x : String) :
    Option.Rel Declared.Below (φ'.find x) (φ.find x) := by
  induction h with
  | nil => exact .none
  | cons hd _ ih =>
      rw [Frame.find_cons, Frame.find_cons, hd.name_eq]
      split
      · exact .some hd
      · exact ih

theorem Env.Below.lookup {Γ' Γ : Env} (h : Γ'.Below Γ) :
    LookupBelow Γ'.find Γ.find := by
  intro x
  induction h with
  | nil => exact .none
  | cons hφ _ ih =>
      rw [Env.find_cons, Env.find_cons]
      have hx := hφ.find x
      revert hx
      generalize Frame.find _ x = a
      generalize Frame.find _ x = b
      intro hx
      cases hx with
      | none => exact ih
      | some hd => exact .some hd

/-- A walk is clean, what it binds and records is less precise, and it
numbers its symbols alike. -/
structure Walk.Below (w' w : Walk) : Prop where
  frame : w'.frame.Below w.frame
  next : w'.next = w.next
  events : EventsBelow w'.events w.events

/-- If the second walk is clean, the first one is below it. -/
def Walk.Relaxes (w' w : Walk) : Prop := Clean w.events → w'.Below w

namespace Walk.Relaxes

variable {w' w : Walk} {φ' φ : Frame} {es' es : List Event}

/-- What comes after may rely on what has been clean. -/
theorem andThen {f' f : Frame → SymbolId → Walk} (h : w'.Relaxes w)
    (hf : Clean w.events → ∀ {ψ' ψ : Frame} {m : SymbolId}, ψ'.Below ψ →
      (f' ψ' m).Relaxes (f ψ m)) :
    (w'.andThen f').Relaxes (w.andThen f) := by
  intro hclean
  rw [events_andThen, clean_append] at hclean
  have hfirst := h hclean.1
  have hnext := hf hclean.1 hfirst.frame hclean.2
  refine ⟨?_, ?_, ?_⟩
  · rw [frame_andThen, hfirst.next]
    exact hnext.frame
  · rw [next_andThen, hfirst.next]
    exact hnext.next
  · rw [events_andThen, hfirst.next]
    exact hfirst.events.append hnext.events

theorem after (h : w'.Relaxes w) (hes : Clean es → EventsBelow es' es) :
    (Walk.after es' w').Relaxes (Walk.after es w) := by
  intro hclean
  rw [events_after, clean_append] at hclean
  have hw := h hclean.2
  exact ⟨hw.frame, hw.next, (hes hclean.1).append hw.events⟩

theorem same (hφ : φ'.Below φ) (n : SymbolId) :
    Walk.Relaxes ⟨φ', n, []⟩ ⟨φ, n, []⟩ :=
  fun _ => ⟨hφ, rfl, .nil⟩

theorem events (hφ : φ'.Below φ) (n : SymbolId)
    (hes : Clean es → EventsBelow es' es) :
    Walk.Relaxes ⟨φ', n, es'⟩ ⟨φ, n, es⟩ :=
  fun hclean => ⟨hφ, rfl, hes hclean⟩

/-- Leaving a scope reports unused names only. -/
theorem closed (h : w'.Relaxes w) (config : Config) (hφ : φ'.Below φ) :
    (w'.closed config φ').Relaxes (w.closed config φ) := by
  intro hclean
  have hw := h (clean_closed.mp hclean)
  refine ⟨hφ, hw.next, hw.events.append ?_⟩
  exact .reports (clean_leavingEvents config w') (reports_leavingEvents config w')
    (reports_leavingEvents config w)

end Walk.Relaxes

/-- A name is bound with a less precise type. -/
theorem relaxes_declaring {φ' φ : Frame} (hφ : φ'.Below φ) (node : NodeId)
    (site : Site) (b : Binding) (n : SymbolId) {ty' : Ty}
    (hfirst : b.type.FirstOrder) (hty : ty'.LessPrecise b.type) :
    (declaring node site { b with type := ty' } φ' n).Relaxes
      (declaring node site b φ n) := by
  intro hclean
  rw [clean_declaring] at hclean
  have hclean' : φ'.find b.name = none := by
    have hfind := hφ.find b.name
    rw [hclean] at hfind
    generalize φ'.find b.name = found at hfind
    cases hfind
    rfl
  refine ⟨.cons ⟨hfirst, hty, rfl⟩ hφ, rfl, ?_⟩
  rw [declaring, declaring, hclean, hclean']
  exact .untyped (clean_cons.mpr ⟨rfl, clean_nil⟩) rfl rfl

theorem relaxes_walkBranch {a' a : Stmt} (config : Config)
    {walk' walk : Env → Frame → SymbolId → Walk} {outer' outer : Env}
    {φ' φ : Frame} (n : SymbolId) (hblock : a'.isBlock = a.isBlock)
    (hΓ : outer'.Below outer) (hφ : φ'.Below φ)
    (h : ∀ {outer' outer : Env} {φ' φ : Frame}, outer'.Below outer → φ'.Below φ →
      (walk' outer' φ' n).Relaxes (walk outer φ n)) :
    (walkBranch config a' walk' outer' φ' n).Relaxes
      (walkBranch config a walk outer φ n) := by
  rw [walkBranch, walkBranch, hblock]
  cases a.isBlock with
  | true => exact h hΓ hφ
  | false => exact (h (.cons hφ hΓ) .nil).closed config hφ

end TreeCheck
