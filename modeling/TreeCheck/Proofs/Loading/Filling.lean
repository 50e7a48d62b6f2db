/-
Documents with a constant left open.

A floating-point constant that a document has in one place only marks
that place; to fill it is to put another value there. No shape but that
of a constant takes a floating-point number, so a document that decodes
has its mark in the value of a constant, and decodes in the same way
with anything else in its place: decoding and filling commute. What a
field is read to decides this, so the induction follows the reading of
values; and to put a node together commutes with every change of the
values of constants, of which filling is one.
-/
import TreeCheck.Proofs.Loading.Records
import TreeCheck.Proofs.Loading.Root

namespace TreeCheck

-- =============================================================== filling

/-- The constant that marks a place, and the value put in its place. -/
structure Filling where
  mark : Binary64
  content : Json.Value

variable (g : Filling)

mutual

/-- A value with the marked place filled. -/
def Json.Value.fill (g : Filling) : Json.Value → Json.Value
  | .null => .null
  | .bool b => .bool b
  | .number (.int z) => .number (.int z)
  | .number (.float x) => if x = g.mark then g.content else .number (.float x)
  | .string s => .string s
  | .array vs => .array (fillAll g vs)
  | .object ms => .object (fillMembers g ms)
termination_by structural v => v

/-- Values with the marked place filled. -/
def Json.Value.fillAll (g : Filling) : List Json.Value → List Json.Value
  | [] => []
  | v :: vs => v.fill g :: fillAll g vs
termination_by structural vs => vs

/-- Members with the marked place filled. -/
def Json.Value.fillMembers (g : Filling) :
    List (String × Json.Value) → List (String × Json.Value)
  | [] => []
  | (key, v) :: ms => (key, v.fill g) :: fillMembers g ms
termination_by structural ms => ms

end

namespace Document

open Json (Value)

mutual

/-- A node with the marked place filled. -/
def Node.fill (g : Filling) : Node → Node
  | .program p body => .program p (fillAll g body)
  | .literal p v => .literal p (v.fill g)
  | .identifier p name => .identifier p name
  | .binaryOp p op left right => .binaryOp p op (left.fill g) (right.fill g)
  | .unaryOp p op operand => .unaryOp p op (operand.fill g)
  | .call p callee args => .call p (callee.fill g) (fillAll g args)
  | .assignment p target value => .assignment p (target.fill g) (value.fill g)
  | .declaration p name type none mutable => .declaration p name type none mutable
  | .declaration p name type (some value) mutable =>
    .declaration p name type (some (value.fill g)) mutable
  | .functionDef p name params result body => .functionDef p name params result (body.fill g)
  | .block p statements => .block p (fillAll g statements)
  | .ifElse p condition thenBranch none =>
    .ifElse p (condition.fill g) (thenBranch.fill g) none
  | .ifElse p condition thenBranch (some elseBranch) =>
    .ifElse p (condition.fill g) (thenBranch.fill g) (some (elseBranch.fill g))
  | .while p condition body => .while p (condition.fill g) (body.fill g)
  | .ret p none => .ret p none
  | .ret p (some value) => .ret p (some (value.fill g))
  | .expressionStatement p expression => .expressionStatement p (expression.fill g)
termination_by structural n => n

/-- Nodes with the marked place filled. -/
def Node.fillAll (g : Filling) : List Node → List Node
  | [] => []
  | n :: ns => n.fill g :: fillAll g ns
termination_by structural ns => ns

end

mutual

/-- What was read for a field, with the marked place filled. -/
def Datum.fill (g : Filling) : Datum → Datum
  | .json v => .json (v.fill g)
  | .node n => .node (n.fill g)
  | .list ds => .list (fillAll g ds)
  | .absent => .absent
  | .position p => .position p
  | .count n => .count n
  | .string s => .string s
  | .bool b => .bool b
  | .param p => .param p
termination_by structural d => d

/-- What was read for the items of a list, with the marked place filled. -/
def Datum.fillAll (g : Filling) : List Datum → List Datum
  | [] => []
  | d :: ds => d.fill g :: fillAll g ds
termination_by structural ds => ds

end

/-- The fields of a record, with the marked place filled. -/
def fillEntries (es : List (String × Datum)) : List (String × Datum) :=
  es.map fun e => (e.1, e.2.fill g)

/-- The fields of a record and what is wrong if one is missing, with the
marked place filled. -/
def Slots.fill (s : Slots) : Slots := ⟨fillEntries g s.entries, s.missing⟩

-- ========================================================= put together

mutual

/-- To fill a node is to fill the values of its constants. -/
theorem Node.fill_eq_map (n : Node) : n.fill g = n.map (Value.fill g) := by
  cases n with
  | program p body => rw [Node.fill, Node.map, Node.fillAll_eq_mapAll body]
  | literal p v => rfl
  | identifier p name => rfl
  | binaryOp p op left right =>
    rw [Node.fill, Node.map, Node.fill_eq_map left, Node.fill_eq_map right]
  | unaryOp p op operand => rw [Node.fill, Node.map, Node.fill_eq_map operand]
  | call p callee args =>
    rw [Node.fill, Node.map, Node.fill_eq_map callee, Node.fillAll_eq_mapAll args]
  | assignment p target value =>
    rw [Node.fill, Node.map, Node.fill_eq_map target, Node.fill_eq_map value]
  | declaration p name type value mutable =>
    cases value with
    | none => rfl
    | some v => rw [Node.fill, Node.map, Node.fill_eq_map v]
  | functionDef p name params result body => rw [Node.fill, Node.map, Node.fill_eq_map body]
  | block p statements => rw [Node.fill, Node.map, Node.fillAll_eq_mapAll statements]
  | ifElse p condition thenBranch elseBranch =>
    cases elseBranch with
    | none => rw [Node.fill, Node.map, Node.fill_eq_map condition, Node.fill_eq_map thenBranch]
    | some e =>
      rw [Node.fill, Node.map, Node.fill_eq_map condition, Node.fill_eq_map thenBranch,
        Node.fill_eq_map e]
  | «while» p condition body =>
    rw [Node.fill, Node.map, Node.fill_eq_map condition, Node.fill_eq_map body]
  | ret p value =>
    cases value with
    | none => rfl
    | some v => rw [Node.fill, Node.map, Node.fill_eq_map v]
  | expressionStatement p expression => rw [Node.fill, Node.map, Node.fill_eq_map expression]
termination_by structural n

theorem Node.fillAll_eq_mapAll (ns : List Node) :
    Node.fillAll g ns = Node.mapAll (Value.fill g) ns := by
  cases ns with
  | nil => rfl
  | cons n ns => rw [Node.fillAll, Node.mapAll, Node.fill_eq_map n, Node.fillAll_eq_mapAll ns]
termination_by structural ns

end

mutual

theorem Datum.fill_eq_map (d : Datum) : d.fill g = d.map (Value.fill g) := by
  cases d with
  | node n => rw [Datum.fill, Datum.map, Node.fill_eq_map]
  | list ds => rw [Datum.fill, Datum.map, Datum.fillAll_eq_mapAll ds]
  | _ => rfl
termination_by structural d

theorem Datum.fillAll_eq_mapAll (ds : List Datum) :
    Datum.fillAll g ds = Datum.mapAll (Value.fill g) ds := by
  cases ds with
  | nil => rfl
  | cons d ds => rw [Datum.fillAll, Datum.mapAll, Datum.fill_eq_map d, Datum.fillAll_eq_mapAll ds]
termination_by structural ds

end

theorem fillEntries_eq_mapEntries (es : List (String × Datum)) :
    fillEntries g es = mapEntries (Value.fill g) es :=
  List.map_congr_left fun e _ => by rw [Datum.fill_eq_map]

theorem Slots.fill_eq_map (s : Slots) : s.fill g = s.map (Value.fill g) := by
  rw [fill, fillEntries_eq_mapEntries]
  rfl

theorem positionOf_fill_ok {s : Slots} {p : Position} (h : positionOf s = .ok p) :
    positionOf (s.fill g) = .ok p := by
  rw [Slots.fill_eq_map, positionOf_map, h]

theorem paramOf_fill_ok {s : Slots} {p : Param} (h : paramOf s = .ok p) :
    paramOf (s.fill g) = .ok p := by
  rw [Slots.fill_eq_map, paramOf_map, h]

/-- A node is put together from filled fields as it is from the fields. -/
theorem nodeOf_fill_ok {s : Slots} {k : Kind} {n : Node} (h : nodeOf s k = .ok n) :
    nodeOf (s.fill g) k = .ok (n.fill g) := by
  rw [Slots.fill_eq_map, nodeOf_map, h, Node.fill_eq_map]
  rfl

-- ============================================================ read values

/-- No kind is given by a constant that marks a place. -/
theorem kindOfTag_fill {v : Value} {k : Kind} (h : kindOfTag v = .ok k) :
    kindOfTag (v.fill g) = .ok k := by
  cases v with
  | string s => exact h
  | number z =>
    cases z with
    | int z => exact h
    | float x => cases h
  | _ => cases h

theorem kindOf_fill {ms : List (String × Value)} {found : Option Kind} {k : Kind}
    (h : kindOf.go found ms = .ok k) : kindOf.go found (Value.fillMembers g ms) = .ok k := by
  induction ms generalizing found with
  | nil => exact h
  | cons m ms ih =>
    obtain ⟨key, v⟩ := m
    rw [Value.fillMembers]
    by_cases hkey : key = "kind"
    · subst hkey
      obtain ⟨rfl, k', htag, hgo⟩ := kindOf_go_cons h
      rw [kindOf.go, if_pos rfl]
      simp only [kindOfTag_fill g htag, ih hgo]
    · rw [kindOf_go_other hkey] at h ⊢
      exact ih h

theorem length_fillAll (vs : List Value) : (Value.fillAll g vs).length = vs.length := by
  induction vs with
  | nil => rfl
  | cons v vs ih => rw [Value.fillAll, List.length_cons, List.length_cons, ih]

/-- What is filled is `null` only if it was, unless it is filled with
`null`. -/
theorem fill_ne_null (hg : g.content ≠ .null) {v : Value} (hv : v ≠ .null) :
    v.fill g ≠ .null := by
  cases v with
  | null => exact absurd rfl hv
  | number z =>
    cases z with
    | int z => exact nofun
    | float x =>
      rw [Value.fill]
      split
      · exact hg
      · exact nofun
  | _ => exact nofun

theorem readField_fill (hg : g.content ≠ .null) {f : Field} {v : Value} {d : Datum}
    (hv : ∀ {d}, readShape v f.shape = .ok d → readShape (v.fill g) f.shape = .ok (d.fill g))
    (h : readField f v = .ok d) : readField f (v.fill g) = .ok (d.fill g) := by
  by_cases hnull : v = .null
  · subst hnull
    unfold readField at h ⊢
    cases hf : f.nullable with
    | true =>
      simp only [hf, if_true] at h
      cases h
      rfl
    | false =>
      simp only [hf] at h
      exact hv h
  · rw [readField_of_ne_null f hnull] at h
    rw [readField_of_ne_null f (fill_ne_null g hg hnull)]
    exact hv h

/-- An array that is not too long is not so when filled, either. -/
theorem atMost_fill {α : Type} {fields : List Field} {vs : List Value} {a b : α}
    (h : atMost fields vs a = .ok b) :
    b = a ∧ ∀ c : α, atMost fields (Value.fillAll g vs) c = .ok c := by
  unfold atMost at h
  split at h
  case isTrue hle =>
    cases h
    refine ⟨rfl, fun c => ?_⟩
    rw [atMost, length_fillAll, if_pos hle]
  case isFalse => cases h

section Records

variable {α : Type} (build : Slots → Except DecodeError α) {f : α → α} {wrap : α → Datum}
  {missing : String → DecodeError} {fs : List Field} {d : Datum}

/-- A record given by an array is put together filled if it can be put
together from its filled fields. -/
theorem record_fillAll {vs : List Value}
    (hbuild : ∀ {s a}, build s = .ok a → build (s.fill g) = .ok (f a))
    (hwrap : ∀ a, (wrap a).fill g = wrap (f a))
    (hread : ∀ {es}, readFields fs vs = .ok es →
      readFields fs (Value.fillAll g vs) = .ok (fillEntries g es))
    (h : (do let es ← readFields fs vs
             let a ← build ⟨es, missing⟩
             atMost fs vs (wrap a)) = .ok d) :
    (do let es ← readFields fs (Value.fillAll g vs)
        let a ← build ⟨es, missing⟩
        atMost fs (Value.fillAll g vs) (wrap a)) = .ok (d.fill g) := by
  obtain ⟨es, hes, h⟩ := bind_eq_ok.mp h
  obtain ⟨a, ha, h⟩ := bind_eq_ok.mp h
  obtain ⟨rfl, hmost⟩ := atMost_fill g h
  refine bind_eq_ok.mpr ⟨_, hread hes, bind_eq_ok.mpr ⟨f a, hbuild ha, ?_⟩⟩
  rw [hmost, hwrap]

/-- So is a record given by an object. -/
theorem record_fillMembers {ms : List (String × Value)}
    (hbuild : ∀ {s a}, build s = .ok a → build (s.fill g) = .ok (f a))
    (hwrap : ∀ a, (wrap a).fill g = wrap (f a))
    (hread : ∀ {es}, readMembers fs [] ms = .ok es →
      readMembers fs [] (Value.fillMembers g ms) = .ok (fillEntries g es))
    (h : (do let es ← readMembers fs [] ms
             let a ← build ⟨es, missing⟩
             pure (wrap a)) = .ok d) :
    (do let es ← readMembers fs [] (Value.fillMembers g ms)
        let a ← build ⟨es, missing⟩
        pure (wrap a)) = .ok (d.fill g) := by
  obtain ⟨es, hes, h⟩ := bind_eq_ok.mp h
  obtain ⟨a, ha, h⟩ := bind_eq_ok.mp h
  cases h
  refine bind_eq_ok.mpr ⟨_, hread hes, bind_eq_ok.mpr ⟨f a, hbuild ha, ?_⟩⟩
  rw [hwrap]
  rfl

end Records

theorem isSome_lookup_fillEntries (es : List (String × Datum)) (name : String) :
    ((fillEntries g es).lookup name).isSome = (es.lookup name).isSome := by
  rw [fillEntries_eq_mapEntries, lookup_mapEntries, Option.isSome_map]

mutual

/-- A value is read filled as it is read, filled. -/
theorem readShape_fill (hg : g.content ≠ .null) (v : Value) (s : Shape) {d : Datum}
    (h : readShape v s = .ok d) : readShape (v.fill g) s = .ok (d.fill g) := by
  by_cases hs : s = .json
  · subst hs
    rw [readShape_json] at h
    cases h
    exact readShape_json _
  cases v with
  | null =>
    cases s with
    | json => exact absurd rfl hs
    | _ => cases h
  | bool b =>
    cases s with
    | json => exact absurd rfl hs
    | bool =>
      cases h
      rfl
    | _ => cases h
  | string t =>
    cases s with
    | json => exact absurd rfl hs
    | string =>
      cases h
      rfl
    | _ => cases h
  | number k =>
    cases k with
    | float x =>
      cases s with
      | json => exact absurd rfl hs
      | _ => cases h
    | int z =>
      cases s with
      | json => exact absurd rfl hs
      | count =>
        obtain ⟨n, -, hd⟩ := bind_eq_ok.mp h
        cases hd
        exact h
      | _ => cases h
  | array vs =>
    cases s with
    | json => exact absurd rfl hs
    | nodes =>
      obtain ⟨ds, hds, hd⟩ := bind_eq_ok.mp h
      cases hd
      exact bind_eq_ok.mpr ⟨_, readAll_fill hg vs .node hds, rfl⟩
    | params =>
      obtain ⟨ds, hds, hd⟩ := bind_eq_ok.mp h
      cases hd
      exact bind_eq_ok.mpr ⟨_, readAll_fill hg vs .param hds, rfl⟩
    | position =>
      exact record_fillAll g positionOf (positionOf_fill_ok g) (fun _ => rfl)
        (readFields_fill hg _ vs) h
    | param =>
      exact record_fillAll g paramOf (paramOf_fill_ok g) (fun _ => rfl) (readFields_fill hg _ vs) h
    | node =>
      cases vs with
      | nil => cases h
      | cons tag vs =>
        obtain ⟨k, hk, h⟩ := bind_eq_ok.mp h
        refine bind_eq_ok.mpr ⟨k, kindOfTag_fill g hk, ?_⟩
        exact record_fillAll g (nodeOf · k) (nodeOf_fill_ok g) (fun _ => rfl)
          (readFields_fill hg _ vs) h
    | _ => cases h
  | object ms =>
    cases s with
    | json => exact absurd rfl hs
    | position =>
      exact record_fillMembers g positionOf (positionOf_fill_ok g) (fun _ => rfl)
        (readMembers_fill hg _ [] ms) h
    | param =>
      exact record_fillMembers g paramOf (paramOf_fill_ok g) (fun _ => rfl)
        (readMembers_fill hg _ [] ms) h
    | node =>
      obtain ⟨k, hk, h⟩ := bind_eq_ok.mp h
      refine bind_eq_ok.mpr ⟨k, kindOf_fill g hk, ?_⟩
      exact record_fillMembers g (nodeOf · k) (nodeOf_fill_ok g) (fun _ => rfl)
        (readMembers_fill hg _ [] ms) h
    | _ => cases h
termination_by structural v

theorem readAll_fill (hg : g.content ≠ .null) (vs : List Value) (s : Shape) {ds : List Datum}
    (h : readAll vs s = .ok ds) : readAll (Value.fillAll g vs) s = .ok (Datum.fillAll g ds) := by
  cases vs with
  | nil =>
    cases h
    rfl
  | cons v vs =>
    simp only [readAll, bind_eq_ok] at h
    obtain ⟨d, hd, ds', hds, hpure⟩ := h
    cases hpure
    simp only [Value.fillAll, readAll, readShape_fill hg v s hd, readAll_fill hg vs s hds]
    rfl
termination_by structural vs

theorem readFields_fill (hg : g.content ≠ .null) (fs : List Field) (vs : List Value)
    {es : List (String × Datum)} (h : readFields fs vs = .ok es) :
    readFields fs (Value.fillAll g vs) = .ok (fillEntries g es) := by
  cases vs with
  | nil =>
    cases fs <;> cases h <;> rfl
  | cons v vs =>
    cases fs with
    | nil =>
      cases h
      rfl
    | cons f fs =>
      simp only [readFields_cons, bind_eq_ok] at h
      obtain ⟨d, hd, es', hes, hpure⟩ := h
      cases hpure
      simp only [Value.fillAll, readFields_cons, readFields_fill hg fs vs hes,
        readField_fill g hg (readShape_fill hg v f.shape) hd]
      rfl
termination_by structural vs

theorem readMembers_fill (hg : g.content ≠ .null) (fs : List Field)
    (seen : List (String × Datum)) (ms : List (String × Value)) {es : List (String × Datum)}
    (h : readMembers fs seen ms = .ok es) :
    readMembers fs (fillEntries g seen) (Value.fillMembers g ms) = .ok (fillEntries g es) := by
  cases ms with
  | nil =>
    cases h
    rfl
  | cons m ms =>
    obtain ⟨key, v⟩ := m
    rw [Value.fillMembers]
    cases hf : fs.find? (·.name == key) with
    | none =>
      simp only [readMembers, hf] at h ⊢
      exact readMembers_fill hg fs seen ms h
    | some f =>
      cases hseen : (seen.lookup key).isSome with
      | true =>
        simp only [readMembers, hf, hseen, if_true] at h
        cases h
      | false =>
        have hseen' := (isSome_lookup_fillEntries g seen key).trans hseen
        rw [readMembers_cons hf hseen, bind_eq_ok] at h
        obtain ⟨d, hd, hms⟩ := h
        rw [readMembers_cons hf hseen', readField_fill g hg (readShape_fill hg v f.shape) hd]
        exact readMembers_fill hg fs ((key, d) :: seen) ms hms
termination_by structural ms

end

/-- A document with the marked place filled decodes to the node with the
marked place filled. -/
theorem decode_fill (hg : g.content ≠ .null) {v : Value} {n : Node} (h : decode v = .ok n) :
    decode (v.fill g) = .ok (n.fill g) := by
  obtain ⟨d, hd, h⟩ := bind_eq_ok.mp h
  refine bind_eq_ok.mpr ⟨_, readShape_fill g hg v .node hd, ?_⟩
  cases d with
  | node m =>
    cases h
    rfl
  | _ => cases h

/-- The kind of the root is still given by a string. -/
theorem NamesKind.fill {v : Value} (h : NamesKind v) : NamesKind (v.fill g) := by
  cases v with
  | array vs =>
    cases vs with
    | nil => cases h
    | cons tag vs =>
      cases tag with
      | string name => trivial
      | _ => cases h
  | object ms =>
    intro v hv
    induction ms with
    | nil => cases hv
    | cons m ms ih =>
      obtain ⟨key, w⟩ := m
      rcases List.mem_cons.mp hv with hv | hv
      · cases hv
        obtain ⟨name, rfl⟩ := h w List.mem_cons_self
        exact ⟨name, rfl⟩
      · exact ih (fun w hw => h w (List.mem_cons_of_mem _ hw)) hv
  | _ => cases h

end Document

end TreeCheck
