/-
What a completed analysis does, as a list of events.

The account of a program tells its analysis without the machinery: no
table of scopes with serials and handles, no side table of signatures,
no way to fail. Each event is one thing that shows outside: a type
recorded, an identifier resolved, a symbol read, a name bound, a
finding. The names in force are an environment, a list of frames that
is passed down, so what one scope binds cannot reach another.

Two things are told here that the state of an analysis does not keep:
where the declaration of a symbol stands, and which node a finding is
about. `replay` forgets them again and carries out the events on a
state; that a run is the replay of its account is shown in
Run/Expressions and Run/Statements.
-/
import TreeCheck.Analysis.State

namespace TreeCheck

/-- Where a declaration stands: it is a statement, or the parameter of
one, counted from zero. -/
inductive Site where
  | stmt (id : NodeId)
  | param (function : NodeId) (index : Nat)
deriving DecidableEq, Repr

/-- The statement whose declaration it is. -/
def Site.node : Site → NodeId
  | .stmt id => id
  | .param function _ => function

/-- A symbol together with the place of its declaration. -/
structure Declared extends Symbol where
  site : Site
deriving DecidableEq, Repr

/-- The symbols of one scope, the latest first. A later symbol of a name
hides the earlier ones. -/
abbrev Frame := List Declared

/-- The frames of the scopes around a place, the innermost first. -/
abbrev Env := List Frame

/-- The symbol that a frame binds to a name. -/
def Frame.find (φ : Frame) (name : String) : Option Declared :=
  φ.find? (·.name == name)

/-- The symbol of a name in the innermost frame that binds it. -/
def Env.find (Γ : Env) (name : String) : Option Declared :=
  Γ.findSome? (·.find name)

theorem Frame.find_cons (d : Declared) (φ : Frame) (name : String) :
    Frame.find (d :: φ) name = if d.name = name then some d else φ.find name := by
  by_cases h : d.name = name
  · simp [Frame.find, h]
  · simp [Frame.find, h]

theorem Frame.name_of_find {φ : Frame} {name : String} {d : Declared}
    (h : φ.find name = some d) : d.name = name := by
  simpa using List.find?_some h

theorem Frame.mem_of_find {φ : Frame} {name : String} {d : Declared}
    (h : φ.find name = some d) : d ∈ φ := List.mem_of_find?_eq_some h

@[simp] theorem Env.find_cons (φ : Frame) (Γ : Env) (name : String) :
    Env.find (φ :: Γ) name = (φ.find name).or (Γ.find name) := by
  rw [Env.find, List.findSome?_cons]
  cases φ.find name <;> rfl

/-- One thing that an analysis does. -/
inductive Event where
  /-- The type of an expression is recorded. -/
  | typed (id : NodeId) (type : Ty)
  /-- An identifier is resolved. -/
  | resolved (id : NodeId) (target : Declared)
  /-- A symbol is read. -/
  | read (symbol : SymbolId)
  /-- A name is bound. -/
  | bound (d : Declared)
  /-- A finding about a node is reported. -/
  | found (node : NodeId) (finding : Finding)
deriving DecidableEq, Repr

/-- A state without its table and its signatures: what is left is what
events write. -/
def Analysis.State.log (s : Analysis.State) : Analysis.State :=
  { s with table := {}, signatures := {} }

namespace Event

/-- Carries out an event. The table of scopes is not its business. -/
def apply (s : Analysis.State) : Event → Analysis.State
  | typed id ty => { s with types := s.types.insert id ty }
  | resolved id d => { s with resolutions := s.resolutions.insert id d.id }
  | read k => { s with used := s.used.insert k }
  | bound _ => s
  | found _ f => { s with findings := s.findings.push f }

/-- The finding that an event reports. -/
@[simp] def finding? : Event → Option Finding
  | found _ f => some f
  | _ => none

/-- The symbol that an event binds. -/
@[simp] def bound? : Event → Option Declared
  | bound d => some d
  | _ => none

/-- The type that an event records. -/
@[simp] def typed? : Event → Option (NodeId × Ty)
  | typed id ty => some (id, ty)
  | _ => none

/-- The resolution that an event makes. -/
@[simp] def resolved? : Event → Option (NodeId × Declared)
  | resolved id d => some (id, d)
  | _ => none

end Event

theorem Event.mem_typed? {es : List Event} {id : NodeId} {ty : Ty} :
    (id, ty) ∈ es.filterMap typed? ↔ .typed id ty ∈ es := by
  rw [List.mem_filterMap]
  constructor
  · rintro ⟨e, he, heq⟩
    cases e with
    | typed id' ty' =>
        obtain ⟨rfl, rfl⟩ := Prod.mk.inj (Option.some.inj heq)
        exact he
    | resolved | read | bound | found => cases heq
  · exact fun h => ⟨_, h, rfl⟩

theorem Event.mem_resolved? {es : List Event} {id : NodeId} {d : Declared} :
    (id, d) ∈ es.filterMap resolved? ↔ .resolved id d ∈ es := by
  rw [List.mem_filterMap]
  constructor
  · rintro ⟨e, he, heq⟩
    cases e with
    | resolved id' d' =>
        obtain ⟨rfl, rfl⟩ := Prod.mk.inj (Option.some.inj heq)
        exact he
    | typed | read | bound | found => cases heq
  · exact fun h => ⟨_, h, rfl⟩

/-- Carries out events one after the other. -/
def replay (s : Analysis.State) (es : List Event) : Analysis.State :=
  es.foldl Event.apply s

section

variable (s : Analysis.State) (e : Event) (es fs : List Event)

@[simp] theorem replay_cons : replay s (e :: es) = replay (e.apply s) es := rfl

@[simp] theorem replay_append : replay s (es ++ fs) = replay (replay s es) fs :=
  List.foldl_append

@[simp] theorem replay_table : (replay s es).table = s.table := by
  induction es generalizing s with
  | nil => rfl
  | cons e es ih =>
      rw [replay_cons, ih]
      cases e <;> rfl

@[simp] theorem replay_signatures : (replay s es).signatures = s.signatures := by
  induction es generalizing s with
  | nil => rfl
  | cons e es ih =>
      rw [replay_cons, ih]
      cases e <;> rfl

/-- Events do not look at the table and the signatures of a state. -/
theorem log_replay : (replay s es).log = replay s.log es := by
  induction es generalizing s with
  | nil => rfl
  | cons e es ih =>
      rw [replay_cons, replay_cons, ih]
      cases e <;> rfl

theorem toList_findings_replay :
    (replay s es).findings.toList
      = s.findings.toList ++ es.filterMap Event.finding? := by
  induction es generalizing s with
  | nil => exact (List.append_nil _).symm
  | cons e es ih =>
      rw [replay_cons, ih]
      cases e <;> simp [Event.apply, List.filterMap_cons]

theorem types_replay :
    (replay s es).types
      = (es.filterMap Event.typed?).foldl (fun m e => m.insert e.1 e.2)
        s.types := by
  induction es generalizing s with
  | nil => rfl
  | cons e es ih =>
      rw [replay_cons, ih]
      cases e <;> rfl

theorem resolutions_replay :
    (replay s es).resolutions
      = (es.filterMap Event.resolved?).foldl (fun m e => m.insert e.1 e.2.id)
          s.resolutions := by
  induction es generalizing s with
  | nil => rfl
  | cons e es ih =>
      rw [replay_cons, ih]
      cases e <;> rfl

end

-- ============================================================= tables

section

variable {β : Type} {l : List (NodeId × β)} {m : Std.TreeMap NodeId β}
  {k : NodeId}

theorem getElem?_foldl_insert_of_not_mem (h : k ∉ l.map Prod.fst) :
    (l.foldl (fun m e => m.insert e.1 e.2) m)[k]? = m[k]? := by
  induction l generalizing m with
  | nil => rfl
  | cons e l ih =>
      rw [List.map_cons, List.mem_cons, not_or] at h
      have hne : ¬ compare e.1 k = .eq := fun heq =>
        h.1 (Std.LawfulEqCmp.eq_of_compare heq).symm
      rw [List.foldl_cons, ih h.2, Std.TreeMap.getElem?_insert, if_neg hne]

theorem getElem?_foldl_insert_of_mem {v : β} (hkeys : (l.map Prod.fst).Nodup)
    (h : (k, v) ∈ l) : (l.foldl (fun m e => m.insert e.1 e.2) m)[k]?
      = some v := by
  induction l generalizing m with
  | nil => cases h
  | cons e l ih =>
      rw [List.map_cons, List.nodup_cons] at hkeys
      rw [List.foldl_cons]
      rcases List.mem_cons.mp h with rfl | h
      · rw [getElem?_foldl_insert_of_not_mem hkeys.1]
        simp
      · exact ih hkeys.2 h

end

end TreeCheck
