/-
What reading gives, and where it ends.

The readers of values carry with their result the proof that they have
moved on, which is what they recurse by and nothing else. `Ends` leaves
it out: for each way to put readers together there is one equivalence,
and with these each reader of values is what its grammar rule says,
to be used from left to right and from right to left.
-/
import TreeCheck.Json.Reader

namespace TreeCheck.Json

/-- A reading gives a result and ends at a cursor. -/
def Ends {α : Type} {c : Cursor} (r : Reading α c) (a : α) (d : Cursor) : Prop :=
  ∃ h, r = .ok (a, ⟨d, h⟩)

section

variable {α β : Type} {c d e : Cursor} {a : α} {b : β}

theorem not_ends_error {x : SyntaxError} : ¬ Ends (.error x : Reading α c) a d := nofun

theorem ends_ok {f : c.Further} {a' : α} : Ends (.ok (a', f)) a d ↔ a' = a ∧ f.1 = d := by
  constructor
  · rintro ⟨h, hok⟩
    cases hok
    exact ⟨rfl, rfl⟩
  · rintro ⟨rfl, rfl⟩
    exact ⟨f.2, rfl⟩

theorem ends_map {r : Reading α c} {f : α → β} :
    Ends (r.map f) b d ↔ ∃ a, f a = b ∧ Ends r a d := by
  cases r with
  | error x => exact ⟨fun h => absurd h not_ends_error, fun ⟨_, _, h⟩ => absurd h not_ends_error⟩
  | ok p =>
    constructor
    · intro h
      obtain ⟨rfl, rfl⟩ := ends_ok.mp h
      exact ⟨p.1, rfl, ends_ok.mpr ⟨rfl, rfl⟩⟩
    · rintro ⟨a, rfl, h⟩
      obtain ⟨rfl, rfl⟩ := ends_ok.mp h
      exact ends_ok.mpr ⟨rfl, rfl⟩

theorem ends_widen {r : Reading α e} {hle : e.remaining ≤ c.remaining} :
    Ends (r.widen hle) a d ↔ Ends r a d := by
  cases r with
  | error x => exact iff_of_false not_ends_error not_ends_error
  | ok p =>
    constructor
    · intro h
      obtain ⟨rfl, rfl⟩ := ends_ok.mp h
      exact ends_ok.mpr ⟨rfl, rfl⟩
    · intro h
      obtain ⟨rfl, rfl⟩ := ends_ok.mp h
      exact ends_ok.mpr ⟨rfl, rfl⟩

theorem ends_of {r : Except SyntaxError (α × Cursor)}
    {hlt : ∀ a d, r = .ok (a, d) → d.remaining < c.remaining} :
    Ends (Reading.of r hlt) a d ↔ r = .ok (a, d) := by
  cases r with
  | error x => exact iff_of_false not_ends_error nofun
  | ok p =>
    refine ends_ok.trans ⟨fun ⟨ha, hd⟩ => ?_, fun h => ?_⟩
    · rw [← ha, ← hd]
    · cases h
      exact ⟨rfl, rfl⟩

theorem ends_andThen {r : Reading α c}
    {k : α → (d : Cursor) → d.remaining < c.remaining → Reading β d} :
    Ends (r.andThen k) b e ↔ ∃ a d h, r = .ok (a, ⟨d, h⟩) ∧ Ends (k a d h) b e := by
  cases r with
  | error x => exact ⟨fun h => absurd h not_ends_error, fun ⟨_, _, _, h, _⟩ => nomatch h⟩
  | ok p =>
    obtain ⟨a, d, h⟩ := p
    have hwiden : Ends ((k a d h).widen (Nat.le_of_lt h)) b e ↔ Ends (k a d h) b e := ends_widen
    constructor
    · intro hk
      exact ⟨a, d, h, rfl, hwiden.mp hk⟩
    · rintro ⟨a, d, h, hr, hk⟩
      cases hr
      exact hwiden.mpr hk

end

section Readers

variable {first : Bool} {c d : Cursor} {v : Value} {vs : List Value} {ms : List (String × Value)}

/-- The bracket after any blanks decides how a value goes on. -/
theorem ends_readValue {b : UInt8} {bs : List UInt8} (hb : c.skipBlanks.rest = b :: bs) :
    Ends (readValue c) v d ↔
      if b = byte '[' then ∃ vs, .array vs = v ∧ Ends (readItems true c.skipBlanks.step) vs d
      else if b = byte '\x7b' then
        ∃ ms, .object ms = v ∧ Ends (readMembers true c.skipBlanks.step) ms d
      else readScalar c.skipBlanks = .ok (v, d) := by
  have hb : (c.skipWhile isBlank).rest = b :: bs := hb
  rw [readValue]
  split
  · next h => rw [hb] at h; cases h
  · next h =>
    rw [hb] at h
    cases h
    split
    · exact ends_widen.trans ends_map
    · split
      · exact ends_widen.trans ends_map
      · exact ends_widen.trans ends_of

theorem not_ends_readValue (h : c.skipBlanks.rest = []) : ¬ Ends (readValue c) v d := by
  have h : (c.skipWhile isBlank).rest = [] := h
  rw [readValue]
  split
  · exact not_ends_error
  · next h' => rw [h] at h'; cases h'

/-- The items of an array are none, or a value and the other items. -/
theorem ends_readItems :
    Ends (readItems first c) vs d ↔
      (readItemStart first c = .ok (false, d) ∧ vs = []) ∨
      ∃ s v e vs', readItemStart first c = .ok (true, s) ∧ Ends (readValue s) v e
        ∧ Ends (readItems false e) vs' d ∧ vs = v :: vs' := by
  rw [readItems]
  split
  · next h =>
    refine iff_of_false not_ends_error ?_
    rintro (⟨h', -⟩ | ⟨_, _, _, _, h', -⟩) <;> rw [h] at h' <;> cases h'
  · next s h =>
    refine ends_ok.trans ⟨?_, ?_⟩
    · rintro ⟨rfl, rfl⟩
      exact .inl ⟨h, rfl⟩
    · rintro (⟨h', rfl⟩ | ⟨_, _, _, _, h', -⟩) <;> rw [h] at h' <;> cases h'
      exact ⟨rfl, rfl⟩
  · next s h =>
    refine ends_widen.trans (ends_andThen.trans ⟨?_, ?_⟩)
    · rintro ⟨v, e, he, hv, hvs⟩
      obtain ⟨vs', rfl, hvs'⟩ := ends_map.mp hvs
      exact .inr ⟨s, v, e, vs', h, ⟨he, hv⟩, hvs', rfl⟩
    · rintro (⟨h', rfl⟩ | ⟨_, v, e, vs', h', ⟨he, hv⟩, hvs, rfl⟩) <;> rw [h] at h' <;> cases h'
      exact ⟨v, e, he, hv, ends_map.mpr ⟨vs', rfl, hvs⟩⟩

/-- The members of an object are none, or a key, a colon, a value and the other members. -/
theorem ends_readMembers :
    Ends (readMembers first c) ms d ↔
      (readKeyStart first c = .ok (false, d) ∧ ms = []) ∨
      ∃ s key k e v f ms', readKeyStart first c = .ok (true, s) ∧ readString s = .ok (key, k)
        ∧ readColon k = .ok e ∧ Ends (readValue e) v f ∧ Ends (readMembers false f) ms' d
        ∧ ms = (key, v) :: ms' := by
  rw [readMembers]
  split
  · next h =>
    refine iff_of_false not_ends_error ?_
    rintro (⟨h', -⟩ | ⟨_, _, _, _, _, _, _, h', -⟩) <;> rw [h] at h' <;> cases h'
  · next s h =>
    refine ends_ok.trans ⟨?_, ?_⟩
    · rintro ⟨rfl, rfl⟩
      exact .inl ⟨h, rfl⟩
    · rintro (⟨h', rfl⟩ | ⟨_, _, _, _, _, _, _, h', -⟩) <;> rw [h] at h' <;> cases h'
      exact ⟨rfl, rfl⟩
  · next s h =>
    split
    · next hs =>
      refine iff_of_false not_ends_error ?_
      rintro (⟨h', -⟩ | ⟨_, _, _, _, _, _, _, h', hs', -⟩) <;> rw [h] at h' <;> cases h'
      rw [hs] at hs'
      cases hs'
    · next key k hs =>
      split
      · next hk =>
        refine iff_of_false not_ends_error ?_
        rintro (⟨h', -⟩ | ⟨_, _, _, _, _, _, _, h', hs', hk', -⟩) <;> rw [h] at h' <;> cases h'
        rw [hs] at hs'
        cases hs'
        rw [hk] at hk'
        cases hk'
      · next e hk =>
        refine ends_widen.trans (ends_andThen.trans ⟨?_, ?_⟩)
        · rintro ⟨v, f, hf, hv, hms⟩
          obtain ⟨ms', rfl, hms'⟩ := ends_map.mp hms
          exact .inr ⟨s, key, k, e, v, f, ms', h, hs, hk, ⟨hf, hv⟩, hms', rfl⟩
        · rintro (⟨h', rfl⟩ | ⟨_, _, _, _, v, f, ms', h', hs', hk', ⟨hf, hv⟩, hms, rfl⟩) <;>
            rw [h] at h' <;> cases h'
          rw [hs] at hs'
          cases hs'
          rw [hk] at hk'
          cases hk'
          exact ⟨v, f, hf, hv, ends_map.mpr ⟨ms', rfl, hms⟩⟩

end Readers

end TreeCheck.Json
