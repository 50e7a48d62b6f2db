/-
Drafts of one document.

Two values are drafts of one document if they differ in nothing that a
document is read for. `Redraft` says what may be done to a value, at all
depths at once: the members of an object may be put in another order,
members may be added whose keys mean nothing there, and members may be
dropped that say no more than that an optional value is absent.

What the keys of an object mean depends on where the object stands, and
for a node on its kind. So the relation is between values at a shape, and
the shape of a part is that of the field, or of the place in an array,
that the part is read for.
-/
import TreeCheck.Document.Decode

namespace TreeCheck

-- ======================================================= repeated keys

namespace Json.Value

mutual

/-- Whether no object in a value has a key twice. -/
def distinctKeys : Value → Bool
  | .array vs => distinctKeysAll vs
  | .object ms => decide (ms.map Prod.fst).Nodup && distinctKeysMembers ms
  | _ => true
termination_by structural v => v

/-- Whether no object in the items of an array has a key twice. -/
def distinctKeysAll : List Value → Bool
  | [] => true
  | v :: vs => v.distinctKeys && distinctKeysAll vs
termination_by structural vs => vs

/-- Whether no object in the members of an object has a key twice. -/
def distinctKeysMembers : List (String × Value) → Bool
  | [] => true
  | (_, v) :: ms => v.distinctKeys && distinctKeysMembers ms
termination_by structural ms => ms

end

theorem distinctKeys_array {vs : List Value} :
    (array vs).distinctKeys = true ↔ ∀ v ∈ vs, v.distinctKeys = true := by
  rw [distinctKeys]
  induction vs with
  | nil => exact iff_of_true rfl nofun
  | cons v vs ih => rw [distinctKeysAll, Bool.and_eq_true, ih, List.forall_mem_cons]

theorem distinctKeys_object {ms : List (String × Value)} :
    (object ms).distinctKeys = true ↔
      (ms.map Prod.fst).Nodup ∧ ∀ m ∈ ms, m.2.distinctKeys = true := by
  rw [distinctKeys, Bool.and_eq_true, decide_eq_true_iff]
  refine and_congr Iff.rfl ?_
  induction ms with
  | nil => exact iff_of_true rfl nofun
  | cons m ms ih =>
    obtain ⟨key, v⟩ := m
    rw [distinctKeysMembers, Bool.and_eq_true, ih, List.forall_mem_cons]

/-- What holds of a value if it holds of its parts holds of every value. -/
theorem induction_parts {P : Value → Prop} (null : P .null) (bool : ∀ b, P (.bool b))
    (number : ∀ n, P (.number n)) (string : ∀ s, P (.string s))
    (array : ∀ vs, (∀ v ∈ vs, P v) → P (.array vs))
    (object : ∀ ms : List (String × Value), (∀ m ∈ ms, P m.2) → P (.object ms)) (v : Value) :
    P v :=
  @Value.rec P (fun vs => ∀ v ∈ vs, P v) (fun ms => ∀ m ∈ ms, P m.2) (fun m => P m.2)
    null bool number string array object nofun
    (fun _ _ hv hvs => List.forall_mem_cons.mpr ⟨hv, hvs⟩) nofun
    (fun _ _ hm hms => List.forall_mem_cons.mpr ⟨hm, hms⟩) (fun _ _ hv => hv) v

end Json.Value

namespace Document

open Json (Value)

-- ================================================== what parts mean

/-- The fields of the kind that has been found, if one has. -/
def fieldsOf : Except DecodeError Kind → List Field
  | .ok k => k.fields
  | .error _ => []

/-- The fields that the members of an object are read for, where a shape is read. -/
def recordFields : Shape → List (String × Value) → List Field
  | .node, ms => fieldsOf (kindOf ms)
  | .position, _ => positionFields
  | .param, _ => paramFields
  | _, _ => []

/-- The field that a key stands for. -/
def fieldNamed (fs : List Field) (key : String) : Option Field := fs.find? (·.name == key)

/-- The shape that the value of a member is read at. What nothing reads may be
anything. -/
def memberShape (fs : List Field) (key : String) : Shape :=
  (fieldNamed fs key).elim .json (·.shape)

/-- The shapes that the items of an array are read at, where a shape is read. -/
def itemShapes : Shape → List Value → List Shape
  | .nodes, vs => vs.map fun _ => .node
  | .params, vs => vs.map fun _ => .param
  | .position, _ => positionFields.map (·.shape)
  | .param, _ => paramFields.map (·.shape)
  | .node, tag :: _ => .json :: (fieldsOf (kindOfTag tag)).map (·.shape)
  | _, _ => []

/-- A key that means something: it names a field, or the kind of a node. -/
def Meant (s : Shape) (fs : List Field) (key : String) : Prop :=
  (fieldNamed fs key).isSome ∨ s = .node ∧ key = "kind"

/-- A member that says that an optional value is absent. -/
def SaysAbsent (fs : List Field) (m : String × Value) : Prop :=
  m.2 = .null ∧ ∃ f, fieldNamed fs m.1 = some f ∧ f.nullable = true

-- ============================================================ redrafts

mutual

/-- A value is redrafted as another one, to be read at the same shape. -/
inductive Redraft : Shape → Value → Value → Prop where
  | same (s : Shape) (v : Value) : Redraft s v v
  | array {s : Shape} {vs vs' : List Value} (h : RedraftItems (itemShapes s vs) vs vs') :
    Redraft s (.array vs) (.array vs')
  | object {s : Shape} {ms ms' kept kept' dropped added : List (String × Value)}
    (hms : ms.Perm (kept ++ dropped)) (hdropped : ∀ m ∈ dropped, SaysAbsent (recordFields s ms) m)
    (hkept : RedraftMembers (recordFields s ms) kept kept')
    (hadded : ∀ m ∈ added, ¬ Meant s (recordFields s ms) m.1) (hms' : ms'.Perm (kept' ++ added)) :
    Redraft s (.object ms) (.object ms')

/-- The items of an array are redrafted one by one. -/
inductive RedraftItems : List Shape → List Value → List Value → Prop where
  | nil (ss : List Shape) : RedraftItems ss [] []
  | cons {ss : List Shape} {v v' : Value} {vs vs' : List Value}
    (h : Redraft (ss.headD .json) v v') (hs : RedraftItems ss.tail vs vs') :
    RedraftItems ss (v :: vs) (v' :: vs')

/-- The members of an object are redrafted one by one, each with its key. -/
inductive RedraftMembers : List Field → List (String × Value) → List (String × Value) → Prop where
  | nil (fs : List Field) : RedraftMembers fs [] []
  | cons {fs : List Field} {key : String} {v v' : Value} {ms ms' : List (String × Value)}
    (h : Redraft (memberShape fs key) v v') (hs : RedraftMembers fs ms ms') :
    RedraftMembers fs ((key, v) :: ms) ((key, v') :: ms')

end

theorem RedraftMembers.refl (fs : List Field) (ms : List (String × Value)) :
    RedraftMembers fs ms ms := by
  induction ms with
  | nil => exact .nil fs
  | cons m ms ih => exact .cons (.same _ _) ih

/-- The members of an object may be in any order. -/
theorem Redraft.perm (s : Shape) {ms ms' : List (String × Value)} (h : ms'.Perm ms) :
    Redraft s (.object ms) (.object ms') := by
  have hkeep : (ms ++ []).Perm ms := by rw [List.append_nil]
  exact .object hkeep.symm (List.forall_mem_nil _) (.refl _ ms) (List.forall_mem_nil _)
    (h.trans hkeep.symm)

end Document

end TreeCheck
