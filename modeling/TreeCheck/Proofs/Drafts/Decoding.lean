/-
Drafts of one document decode alike.

A constant may be given by any value, and what is in an array or object
there is not looked at before the node is lowered, when no such value is
taken. So two drafts need not decode to the same node, but to nodes that
are the same up to the parts of the values of their constants: `blur`
leaves these parts out. That drafts are read alike goes by induction on
the value, at every shape it may be read at: items are read in their
order, and members in any.
-/
import TreeCheck.Proofs.Drafts.Members
import TreeCheck.Proofs.Loading.Root

namespace TreeCheck

/-- A value without its parts, which a constant does not have. -/
def Json.Value.blur : Json.Value → Json.Value
  | .array _ | .object _ => .null
  | v => v

namespace Document

open Json (Value)

variable {s : Shape} {v v' : Value} {fs : List Field}

-- ======================================================== single values

/-- What has no parts stays as it is in all drafts. -/
theorem Redraft.eq_iff (h : Redraft s v v') {w : Value} (hw : ¬ w.HasParts) :
    v = w ↔ v' = w := by
  cases h with
  | same => exact Iff.rfl
  | array => constructor <;> rintro rfl <;> exact absurd trivial hw
  | object => constructor <;> rintro rfl <;> exact absurd trivial hw

/-- A kind is given by a value without parts. -/
theorem Redraft.kindOfTag_alike (h : Redraft s v v') : Alike id (kindOfTag v) (kindOfTag v') := by
  cases h with
  | same => exact .refl id _
  | array => exact .failed _ _
  | object => exact .failed _ _

/-- A value is read alike in all its drafts, at every shape. -/
def ReadAlike (v : Value) : Prop :=
  ∀ s v', Redraft s v v' → Alike (Datum.map Value.blur) (readShape v s) (readShape v' s)

theorem ReadAlike.readField (h : ReadAlike v) {f : Field} (hv : Redraft f.shape v v') :
    Alike (Datum.map Value.blur) (readField f v) (readField f v') := by
  have hsame : v = .null ↔ v' = .null := hv.eq_iff id
  by_cases hnull : v = .null
  · rw [hnull, hsame.mp hnull]
    exact .refl _ _
  · rw [readField_of_ne_null f hnull, readField_of_ne_null f (mt hsame.mpr hnull)]
    exact h f.shape v' hv

-- =============================================================== parts

theorem length_of_redraftItems {ss : List Shape} {vs vs' : List Value}
    (h : RedraftItems ss vs vs') : vs.length = vs'.length := by
  induction vs generalizing ss vs' with
  | nil =>
    cases h
    rfl
  | cons v vs ih =>
    cases h with
    | cons _ hs => rw [List.length_cons, List.length_cons, ih hs]

/-- The items of a list are read alike. -/
theorem readAll_alike {vs vs' : List Value} (h : RedraftItems (vs.map fun _ => s) vs vs')
    (hread : ∀ v ∈ vs, ReadAlike v) :
    Alike (Datum.mapAll Value.blur) (readAll vs s) (readAll vs' s) := by
  induction vs generalizing vs' with
  | nil =>
    cases h
    exact .refl _ _
  | cons v vs ih =>
    obtain ⟨hv, hvs⟩ := List.forall_mem_cons.mp hread
    cases h with
    | cons h hs =>
      refine .bind (hv s _ h) fun d d' hd => .bind (ih hs hvs) fun ds ds' hds => .given ?_
      rw [Datum.mapAll, Datum.mapAll, hd, hds]

/-- The fields of a record given by an array are read alike. -/
theorem readFields_alike {vs vs' : List Value} (h : RedraftItems (fs.map (·.shape)) vs vs')
    (hread : ∀ v ∈ vs, ReadAlike v) :
    Alike (mapEntries Value.blur) (readFields fs vs) (readFields fs vs') := by
  induction vs generalizing fs vs' with
  | nil =>
    cases h
    exact .refl _ _
  | cons v vs ih =>
    obtain ⟨hv, hvs⟩ := List.forall_mem_cons.mp hread
    cases h with
    | cons h hs =>
      cases fs with
      | nil => exact .refl _ _
      | cons f fs =>
        rw [readFields_cons, readFields_cons]
        refine .bind (hv.readField h) fun d d' hd => .bind (ih hs hvs) fun es es' hes => .given ?_
        show (f.name, d.map _) :: mapEntries _ es = (f.name, d'.map _) :: mapEntries _ es'
        rw [hd, hes]

/-- The fields of a record given by an object are read alike, if no member moves. -/
theorem readMembers_alike {ms ms' : List (String × Value)} (h : RedraftMembers fs ms ms')
    (hread : ∀ m ∈ ms, ReadAlike m.2) {seen seen' : List (String × Datum)}
    (hseen : mapEntries Value.blur seen = mapEntries Value.blur seen') :
    Alike (mapEntries Value.blur) (readMembers fs seen ms) (readMembers fs seen' ms') := by
  induction ms generalizing ms' seen seen' with
  | nil =>
    cases h
    exact .given hseen
  | cons m ms ih =>
    obtain ⟨hm, hms⟩ := List.forall_mem_cons.mp hread
    cases h with
    | @cons _ key v v' _ ms' h hs =>
      cases hf : fieldNamed fs key with
      | none =>
        have hf' : fs.find? (·.name == key) = none := hf
        simp only [readMembers, hf']
        exact ih hs hms hseen
      | some f =>
        have hsame : (seen.lookup key).isSome = (seen'.lookup key).isSome := by
          have hlookup := congrArg (List.lookup key) hseen
          rw [lookup_mapEntries, lookup_mapEntries] at hlookup
          simpa only [Option.isSome_map] using congrArg Option.isSome hlookup
        cases hagain : (seen'.lookup key).isSome with
        | true =>
          rw [hagain] at hsame
          have hf' : fs.find? (·.name == key) = some f := hf
          simp only [readMembers, hf', hsame, hagain, if_true]
          exact .failed _ _
        | false =>
          rw [hagain] at hsame
          rw [memberShape, hf] at h
          rw [readMembers_cons hf hsame, readMembers_cons hf hagain]
          refine .bind (hm.readField h) fun d d' hd => ih hs hms ?_
          show (key, d.map _) :: mapEntries _ seen = (key, d'.map _) :: mapEntries _ seen'
          rw [hd, hseen]

-- ============================================================= records

/-- A way to put a record together that depends on what its fields hold, and that
parts of constants only get through. -/
structure Assembles {α : Type} (build : Slots → Except DecodeError α) (g : α → α) : Prop where
  blur : ∀ s : Slots, build (s.map Value.blur) = (build s).map g
  congr : ∀ {s s' : Slots}, s.Same s' → build s = build s'

theorem assembles_positionOf : Assembles positionOf id where
  blur s := by rw [positionOf_map, Except.map_id]; rfl
  congr := positionOf_congr

theorem assembles_paramOf : Assembles paramOf id where
  blur s := by rw [paramOf_map, Except.map_id]; rfl
  congr := paramOf_congr

theorem assembles_nodeOf (k : Kind) : Assembles (nodeOf · k) (Node.map Value.blur) where
  blur s := nodeOf_map Value.blur s k
  congr h := nodeOf_congr h k

section

variable {α : Type} {build : Slots → Except DecodeError α} {g : α → α}
  {missing : String → DecodeError} {r r' : Except DecodeError (List (String × Datum))}

/-- Records are put together alike from fields that are alike. -/
theorem Assembles.alike (h : Assembles build g) (hr : Alike (mapEntries Value.blur) r r') :
    Alike g (r >>= fun es => build ⟨es, missing⟩) (r' >>= fun es => build ⟨es, missing⟩) := by
  refine hr.bind fun es es' hes => ?_
  have hbuild : (build ⟨es, missing⟩).map g = (build ⟨es', missing⟩).map g := by
    rw [← h.blur, ← h.blur, Slots.map, Slots.map]
    simp only [hes]
  cases hb : build ⟨es, missing⟩ with
  | error e =>
    cases hb' : build ⟨es', missing⟩ with
    | error e' => exact .failed e e'
    | ok a' => rw [hb, hb'] at hbuild; cases hbuild
  | ok a =>
    cases hb' : build ⟨es', missing⟩ with
    | error e' => rw [hb, hb'] at hbuild; cases hbuild
    | ok a' =>
      rw [hb, hb'] at hbuild
      exact .given (Except.ok.inj hbuild)

/-- Records are put together alike from fields that hold the same. -/
theorem Assembles.held_alike (h : Assembles build g) (hr : Alike held r r') :
    Alike g (r >>= fun es => build ⟨es, missing⟩) (r' >>= fun es => build ⟨es, missing⟩) := by
  refine hr.bind fun es es' hes => ?_
  have hsame : Slots.Same ⟨es, missing⟩ ⟨es', missing⟩ := ⟨hes, rfl⟩
  rw [h.congr hsame]
  exact .refl g _

end

-- ============================================================= objects

theorem keys_of_redraftMembers {ms ms' : List (String × Value)} (h : RedraftMembers fs ms ms') :
    ms'.map Prod.fst = ms.map Prod.fst := by
  induction ms generalizing ms' with
  | nil =>
    cases h
    rfl
  | cons m ms ih =>
    cases h with
    | cons _ hs => rw [List.map_cons, List.map_cons, ih hs]

/-- Every member has its redraft under the same key. -/
theorem exists_redraft_of_mem {ms ms' : List (String × Value)} (h : RedraftMembers fs ms ms')
    {key : String} (hv : (key, v) ∈ ms) :
    ∃ v', (key, v') ∈ ms' ∧ Redraft (memberShape fs key) v v' := by
  induction ms generalizing ms' with
  | nil => cases hv
  | cons m ms ih =>
    cases h with
    | cons h hs =>
      rcases List.mem_cons.mp hv with hv | hv
      · cases hv
        exact ⟨_, List.mem_cons_self, h⟩
      · obtain ⟨v', hv', h⟩ := ih hs hv
        exact ⟨v', List.mem_cons_of_mem _ hv', h⟩

/-- Every redrafted member has come from one under the same key. -/
theorem exists_of_mem_redraft {ms ms' : List (String × Value)} (h : RedraftMembers fs ms ms')
    {key : String} (hv : (key, v') ∈ ms') :
    ∃ v, (key, v) ∈ ms ∧ Redraft (memberShape fs key) v v' := by
  induction ms generalizing ms' with
  | nil =>
    cases h
    cases hv
  | cons m ms ih =>
    cases h with
    | cons h hs =>
      rcases List.mem_cons.mp hv with hv | hv
      · cases hv
        exact ⟨_, List.mem_cons_self, h⟩
      · obtain ⟨v, hv, h⟩ := ih hs hv
        exact ⟨v, List.mem_cons_of_mem _ hv, h⟩

/-- No field is called `kind`. -/
theorem fieldNamed_kind (k : Except DecodeError Kind) : fieldNamed (fieldsOf k) "kind" = none := by
  cases k with
  | error e => rfl
  | ok k => cases k <;> rfl

section Objects

variable {ms ms' kept kept' dropped added : List (String × Value)}
  (hms : ms.Perm (kept ++ dropped)) (hdropped : ∀ m ∈ dropped, SaysAbsent fs m)
  (hkept : RedraftMembers fs kept kept') (hms' : ms'.Perm (kept' ++ added))
  (hkeys : (ms.map Prod.fst).Nodup)

include hms hkept hms' hkeys

/-- A key that is not among those added does not come twice. -/
theorem count_le_one_of_redraft {key : String} (hadded : key ∉ added.map Prod.fst) :
    (ms'.map Prod.fst).count key ≤ 1 := by
  have hcount : (ms'.map Prod.fst).count key = (kept.map Prod.fst).count key := by
    rw [(hms'.map Prod.fst).count_eq, List.map_append, List.count_append,
      keys_of_redraftMembers hkept, List.count_eq_zero.mpr hadded, Nat.add_zero]
  have hle : (kept.map Prod.fst).count key ≤ (ms.map Prod.fst).count key := by
    rw [(hms.map Prod.fst).count_eq, List.map_append, List.count_append]
    exact Nat.le_add_right _ _
  rw [hcount]
  exact Nat.le_trans hle (List.nodup_iff_count.mp hkeys key)

include hdropped

/-- A record given by an object is read alike in all drafts of the object. -/
theorem Assembles.redraftMembers {α : Type} {build : Slots → Except DecodeError α} {g : α → α}
    (h : Assembles build g) {missing : String → DecodeError} (wrap : α → Datum)
    (hwrap : ∀ a a', g a = g a' → (wrap a).map Value.blur = (wrap a').map Value.blur)
    (hadded : ∀ m ∈ added, fieldNamed fs m.1 = none) (hread : ∀ m ∈ ms, ReadAlike m.2) :
    Alike (Datum.map Value.blur)
      (do let es ← readMembers fs [] ms
          let a ← build ⟨es, missing⟩
          pure (wrap a))
      (do let es ← readMembers fs [] ms'
          let a ← build ⟨es, missing⟩
          pure (wrap a)) := by
  have honce : Once fs (ms.map Prod.fst) := fun key _ =>
    List.nodup_iff_count.mp hkeys key
  have honce' : Once fs (ms'.map Prod.fst) := by
    intro key hkey
    refine count_le_one_of_redraft hms hkept hms' hkeys fun hmem => ?_
    obtain ⟨m, hm, rfl⟩ := List.mem_map.mp hmem
    rw [hadded m hm] at hkey
    cases hkey
  have hfirst := readMembers_idle hms (fun m hm => .inl (hdropped m hm)) honce
  have hlast := readMembers_idle hms' (fun m hm => .inr (hadded m hm)) honce'
  have hmiddle : Alike (mapEntries Value.blur) (readMembers fs [] kept)
      (readMembers fs [] kept') :=
    readMembers_alike hkept (fun m hm => hread m (hms.mem_iff.mpr (List.mem_append_left _ hm))) rfl
  have hbuild : Alike g (readMembers fs [] ms >>= fun es => build ⟨es, missing⟩)
      (readMembers fs [] ms' >>= fun es => build ⟨es, missing⟩) :=
    ((h.held_alike hfirst).trans (h.alike hmiddle)).trans (h.held_alike hlast).symm
  have hwrapped : ∀ a a', g a = g a' → Alike (Datum.map Value.blur)
      (pure (wrap a) : Except DecodeError Datum) (pure (wrap a')) :=
    fun a a' ha => .given (hwrap a a' ha)
  simpa only [bind_assoc] using hbuild.bind hwrapped

end Objects

section Kinds

variable {k : Except DecodeError Kind} {ms ms' kept kept' dropped added : List (String × Value)}
  (hms : ms.Perm (kept ++ dropped)) (hkept : RedraftMembers (fieldsOf k) kept kept')
  (hms' : ms'.Perm (kept' ++ added))

theorem memberShape_kind (k : Except DecodeError Kind) :
    memberShape (fieldsOf k) "kind" = .json := by
  rw [memberShape, fieldNamed_kind]
  rfl

include hms hkept hms'

/-- A member that gives a kind is not dropped. -/
theorem exists_redraft_of_kind (hdropped : ∀ m ∈ dropped, SaysAbsent (fieldsOf k) m)
    (hv : ("kind", v) ∈ ms) : ∃ v', ("kind", v') ∈ ms' ∧ Redraft .json v v' := by
  rcases List.mem_append.mp (hms.mem_iff.mp hv) with hv | hv
  · obtain ⟨v', hv', h⟩ := exists_redraft_of_mem hkept hv
    rw [memberShape_kind] at h
    exact ⟨v', hms'.mem_iff.mpr (List.mem_append_left _ hv'), h⟩
  · obtain ⟨-, f, hf, -⟩ := hdropped _ hv
    rw [fieldNamed_kind] at hf
    cases hf

/-- A member that gives a kind is not added. -/
theorem exists_of_redraft_kind (hadded : "kind" ∉ added.map Prod.fst) (hv : ("kind", v') ∈ ms') :
    ∃ v, ("kind", v) ∈ ms ∧ Redraft .json v v' := by
  rcases List.mem_append.mp (hms'.mem_iff.mp hv) with hv | hv
  · obtain ⟨v, hv, h⟩ := exists_of_mem_redraft hkept hv
    rw [memberShape_kind] at h
    exact ⟨v, hms.mem_iff.mpr (List.mem_append_left _ hv), h⟩
  · exact absurd (List.mem_map_of_mem hv) hadded

/-- The kind of a node is the same in all drafts of it. -/
theorem kindOf_alike (hdropped : ∀ m ∈ dropped, SaysAbsent (fieldsOf k) m)
    (hkeys : (ms.map Prod.fst).Nodup) (hadded : "kind" ∉ added.map Prod.fst) :
    Alike id (kindOf ms) (kindOf ms') := by
  have hone : (ms.map Prod.fst).count "kind" ≤ 1 := List.nodup_iff_count.mp hkeys "kind"
  have hone' := count_le_one_of_redraft hms hkept hms' hkeys hadded
  have hsame : ∀ k, kindOf ms = .ok k ↔ kindOf ms' = .ok k := by
    intro k'
    rw [kindOf_eq_ok_iff hone, kindOf_eq_ok_iff hone']
    constructor
    · rintro ⟨v, hv, htag⟩
      obtain ⟨v', hv', h⟩ := exists_redraft_of_kind hms hkept hms' hdropped hv
      exact ⟨v', hv', h.kindOfTag_alike.eq_ok htag⟩
    · rintro ⟨v', hv', htag⟩
      obtain ⟨v, hv, h⟩ := exists_of_redraft_kind hms hkept hms' hadded hv'
      exact ⟨v, hv, h.kindOfTag_alike.symm.eq_ok htag⟩
  refine .of_exists (exists_congr hsame) fun k k' hk hk' => ?_
  rw [(hsame k).mp hk] at hk'
  exact Except.ok.inj hk'

end Kinds

theorem not_mem_of_not_meant {added : List (String × Value)}
    (hadded : ∀ m ∈ added, ¬ Meant .node fs m.1) : "kind" ∉ added.map Prod.fst := by
  intro hmem
  obtain ⟨m, hm, hname⟩ := List.mem_map.mp hmem
  exact hadded m hm (.inr ⟨rfl, hname⟩)

-- ============================================================== decoding

/-- A record given by an array is read alike in all drafts of the array. -/
theorem Assembles.redraftItems {α : Type} {build : Slots → Except DecodeError α} {g : α → α}
    (h : Assembles build g) {missing : String → DecodeError} (wrap : α → Datum)
    (hwrap : ∀ a a', g a = g a' → (wrap a).map Value.blur = (wrap a').map Value.blur)
    {vs vs' : List Value} (hvs : RedraftItems (fs.map (·.shape)) vs vs')
    (hread : ∀ v ∈ vs, ReadAlike v) :
    Alike (Datum.map Value.blur)
      (do let es ← readFields fs vs
          let a ← build ⟨es, missing⟩
          atMost fs vs (wrap a))
      (do let es ← readFields fs vs'
          let a ← build ⟨es, missing⟩
          atMost fs vs' (wrap a)) := by
  have hbuild : Alike g (readFields fs vs >>= fun es => build ⟨es, missing⟩)
      (readFields fs vs' >>= fun es => build ⟨es, missing⟩) := h.alike (readFields_alike hvs hread)
  have hmost : ∀ a a', g a = g a' →
      Alike (Datum.map Value.blur) (atMost fs vs (wrap a)) (atMost fs vs' (wrap a')) := by
    intro a a' ha
    unfold atMost
    rw [length_of_redraftItems hvs]
    split
    · exact .given (hwrap a a' ha)
    · exact .failed _ _
  simpa only [bind_assoc] using hbuild.bind hmost

/-- An array is read alike in all its drafts, at every shape. -/
theorem readShape_array_alike {vs vs' : List Value} (h : RedraftItems (itemShapes s vs) vs vs')
    (hread : ∀ v ∈ vs, ReadAlike v) :
    Alike (Datum.map Value.blur) (readShape (.array vs) s) (readShape (.array vs') s) := by
  cases s with
  | json =>
    rw [readShape_json, readShape_json]
    exact .given rfl
  | nodes =>
    exact (readAll_alike h hread).bind fun ds ds' hds => .given (congrArg Datum.list hds)
  | params =>
    exact (readAll_alike h hread).bind fun ds ds' hds => .given (congrArg Datum.list hds)
  | position =>
    exact assembles_positionOf.redraftItems Datum.position
      (fun a a' ha => congrArg Datum.position ha) h hread
  | param =>
    exact assembles_paramOf.redraftItems Datum.param (fun a a' ha => congrArg Datum.param ha) h
      hread
  | node =>
    cases h with
    | nil => exact .refl _ _
    | @cons _ tag tag' vs vs' htag hvs =>
      show Alike _ (kindOfTag tag >>= _) (kindOfTag tag' >>= _)
      rcases htag.kindOfTag_alike.cases_id with ⟨e, e', htag, htag'⟩ | ⟨k, htag, htag'⟩
      · rw [htag, htag']
        exact .failed _ _
      · rw [htag, htag']
        rw [itemShapes, htag] at hvs
        exact (assembles_nodeOf k).redraftItems Datum.node (fun a a' ha => congrArg Datum.node ha)
          hvs (List.forall_mem_cons.mp hread).2
  | count => exact .failed _ _
  | string => exact .failed _ _
  | bool => exact .failed _ _

/-- An object is read alike in all its drafts, at every shape. -/
theorem readShape_object_alike {ms ms' kept kept' dropped added : List (String × Value)}
    (hms : ms.Perm (kept ++ dropped)) (hdropped : ∀ m ∈ dropped, SaysAbsent (recordFields s ms) m)
    (hkept : RedraftMembers (recordFields s ms) kept kept')
    (hadded : ∀ m ∈ added, ¬ Meant s (recordFields s ms) m.1) (hms' : ms'.Perm (kept' ++ added))
    (hkeys : (ms.map Prod.fst).Nodup) (hread : ∀ m ∈ ms, ReadAlike m.2) :
    Alike (Datum.map Value.blur) (readShape (.object ms) s) (readShape (.object ms') s) := by
  have hunknown : ∀ m ∈ added, fieldNamed (recordFields s ms) m.1 = none := fun m hm =>
    Option.not_isSome_iff_eq_none.mp fun h => hadded m hm (.inl h)
  cases s with
  | json =>
    rw [readShape_json, readShape_json]
    exact .given rfl
  | position =>
    exact assembles_positionOf.redraftMembers hms hdropped hkept hms' hkeys Datum.position
      (fun a a' ha => congrArg Datum.position ha) hunknown hread
  | param =>
    exact assembles_paramOf.redraftMembers hms hdropped hkept hms' hkeys Datum.param
      (fun a a' ha => congrArg Datum.param ha) hunknown hread
  | node =>
    have hkinds := kindOf_alike hms hkept hms' hdropped hkeys (not_mem_of_not_meant hadded)
    show Alike _ (kindOf ms >>= _) (kindOf ms' >>= _)
    rw [recordFields] at hdropped hkept hunknown
    rcases hkinds.cases_id with ⟨e, e', hk, hk'⟩ | ⟨k, hk, hk'⟩
    · rw [hk, hk']
      exact .failed _ _
    · rw [hk] at hdropped hkept hunknown
      rw [hk, hk']
      exact (assembles_nodeOf k).redraftMembers hms hdropped hkept hms' hkeys Datum.node
        (fun a a' ha => congrArg Datum.node ha) hunknown hread
  | nodes => exact .failed _ _
  | params => exact .failed _ _
  | count => exact .failed _ _
  | string => exact .failed _ _
  | bool => exact .failed _ _

/-- A value is read alike in all its drafts if it has no key twice in any object. -/
theorem readAlike (v : Value) : v.distinctKeys = true → ReadAlike v := by
  induction v using Value.induction_parts with
  | null =>
    intro _ s v' h
    cases h
    exact .refl _ _
  | bool b =>
    intro _ s v' h
    cases h
    exact .refl _ _
  | number n =>
    intro _ s v' h
    cases h
    exact .refl _ _
  | string t =>
    intro _ s v' h
    cases h
    exact .refl _ _
  | array vs ih =>
    intro hdistinct s v' h
    have hread := fun v hv => ih v hv (Value.distinctKeys_array.mp hdistinct v hv)
    cases h with
    | same => exact .refl _ _
    | array h => exact readShape_array_alike h hread
  | object ms ih =>
    intro hdistinct s v' h
    obtain ⟨hkeys, hvalues⟩ := Value.distinctKeys_object.mp hdistinct
    have hread := fun m hm => ih m hm (hvalues m hm)
    cases h with
    | same => exact .refl _ _
    | object hms hdropped hkept hadded hms' =>
      exact readShape_object_alike hms hdropped hkept hadded hms' hkeys hread

/-- Drafts of one document decode alike. -/
theorem Redraft.decode_alike (h : Redraft .node v v') (hdistinct : v.distinctKeys = true) :
    Alike (Node.map Value.blur) (decode v) (decode v') := by
  unfold decode
  refine (readAlike v hdistinct .node v' h).bind fun d d' hd => ?_
  cases d with
  | node n =>
    cases d' with
    | node n' => exact .given (Datum.node.inj hd)
    | _ => cases hd
  | _ =>
    cases d' with
    | node n' => cases hd
    | _ => exact .failed _ _

end Document

end TreeCheck
