/-
Where a text and a stream see the same error.

A stop keeps two places, one by the count of a text and one by that of a
stream. `Near` says that a step of reading stops, if it does, where the
second is the first or one byte further. Every error is placed either in
what has been consumed or in the byte ahead, and at both of these places
the two counts are near (`near_stop`, `near_stopAhead`); no step that
follows another changes where that one stopped. So there is one lemma
for each reader, and the two that recurse follow their own recursion.
-/
import TreeCheck.Json.Reader

namespace TreeCheck.Json

/-- A place and the ones that a stream can count in its stead: itself, and the place
one byte further. -/
inductive Location.Ahead (l : Location) : Location → Prop where
  | here : Ahead l l
  | further (b : UInt8) : Ahead l (l.after b)

/-- One byte further is the next column, or the beginning of the next line. -/
theorem Location.Ahead.cases_eq {l l' : Location} (h : l.Ahead l') :
    l' = l ∨ l' = ⟨l.line, l.column + 1⟩ ∨ l' = ⟨l.line + 1, 0⟩ := by
  cases h with
  | here => exact .inl rfl
  | further b =>
    refine .inr ?_
    unfold after
    split
    · exact .inr rfl
    · exact .inl rfl

/-- The two places of a stop: the stream's is at most one byte further. -/
def Stop.Near (s : Stop) : Prop := s.inText.Ahead s.inStream

theorem Cursor.near_stop (c : Cursor) : c.stop.Near := by
  unfold stop Stop.Near next
  cases c.peeked with
  | false => exact .here
  | true =>
    cases c.rest.head? with
    | none => exact .here
    | some b => exact .further b

theorem Cursor.near_stopAhead (c : Cursor) : c.stopAhead.Near := .here

-- ============================================================= sequences

section

variable {τ υ α β : Type}

/-- If reading stops, then where the counts of text and stream are near. -/
def Near (r : Except (Located τ) α) : Prop := ∀ e, r = .error e → e.stop.Near

theorem near_ok (a : α) : Near (.ok a : Except (Located τ) α) := nofun

theorem near_error {what : τ} {s : Stop} (h : s.Near) :
    Near (.error ⟨what, s⟩ : Except (Located τ) α) := by
  intro e he
  cases he
  exact h

theorem Near.error {r : Except (Located τ) α} {e : Located τ} (h : Near r) (hr : r = .error e) :
    Near (.error e : Except (Located τ) β) := near_error (h e hr)

/-- What is done with a result does not matter to where reading stopped. -/
theorem near_bind {r : Except (Located τ) α} {k : α → Except (Located τ) β} (h : Near r)
    (hk : ∀ a, r = .ok a → Near (k a)) : Near (r >>= k) := by
  cases r with
  | error e => exact h.error rfl
  | ok a => exact hk a rfl

theorem near_map {r : Except (Located τ) α} (h : Near r) (f : α → β) : Near (r.map f) := by
  cases r with
  | error e => exact h.error rfl
  | ok a => exact near_ok _

end

section Readings

variable {α β : Type} {c d : Cursor}

theorem near_reading_map {r : Reading α c} (h : Near r) (f : α → β) : Near (r.map f) := by
  cases r with
  | error e => exact h.error rfl
  | ok a => exact near_ok _

theorem near_widen {r : Reading α d} (h : Near r) (hle : d.remaining ≤ c.remaining) :
    Near (r.widen hle) := by
  cases r with
  | error e => exact h.error rfl
  | ok a => exact near_ok _

theorem near_andThen {r : Reading α c}
    {k : α → (d : Cursor) → d.remaining < c.remaining → Reading β d} (h : Near r)
    (hk : ∀ a d hd, Near (k a d hd)) : Near (r.andThen k) := by
  cases r with
  | error e => exact h.error rfl
  | ok a =>
    obtain ⟨a, d, hd⟩ := a
    exact near_widen (hk a d hd) (Nat.le_of_lt hd)

theorem near_of {r : Except SyntaxError (α × Cursor)} (h : Near r)
    (hr : ∀ a d, r = .ok (a, d) → d.remaining < c.remaining) : Near (Reading.of r hr) := by
  cases r with
  | error e => exact h.error rfl
  | ok a => exact near_ok _

end Readings

-- ================================================================ scalars

theorem near_readWord (letters : List Char) (c : Cursor) : Near (readWord letters c) := by
  induction letters generalizing c with
  | nil => exact near_ok c
  | cons l ls ih =>
    rw [readWord]
    split
    · exact near_error c.near_stop
    · split
      · exact ih c.step
      · exact near_error c.step.near_stop

theorem near_readWhole (c : Cursor) : Near (readWhole c) := by
  unfold readWhole
  split
  · exact near_error c.near_stop
  · dsimp only
    split
    · split
      · exact near_error (Cursor.near_stopAhead _)
      · exact near_ok _
    · split
      · exact near_ok _
      · exact near_error c.step.near_stop

theorem near_readFraction (whole : Digits) (c : Cursor) : Near (readFraction whole c) := by
  unfold readFraction
  split
  · dsimp only
    split
    · exact near_error (Cursor.near_stopAhead _)
    · exact near_ok _
  · exact near_ok _

theorem near_readExponentDigits_go (bounded : Bool) (bs : List UInt8) (l : Location) (n : Nat) :
    Near (readExponentDigits.go bounded bs l n) := by
  induction bs generalizing l n with
  | nil => exact near_ok _
  | cons b bs ih =>
    rw [readExponentDigits.go]
    split
    · dsimp only
      split
      · exact near_error .here
      · exact ih _ _
    · exact near_ok _

theorem near_readExponent (zero : Bool) (c : Cursor) : Near (readExponent zero c) := by
  unfold readExponent
  split
  · dsimp only
    split
    · exact near_error (Cursor.near_stop _)
    · split
      · split
        · next h => exact (near_readExponentDigits_go _ _ _ _).error h
        · exact near_ok _
      · exact near_error (Cursor.near_stop _)
  · exact near_ok _

theorem near_readNumber (c : Cursor) : Near (readNumber c) := by
  refine near_bind (near_readWhole _) fun w _ => ?_
  refine near_bind (near_readFraction _ _) fun f _ => ?_
  refine near_bind (near_readExponent _ _) fun e _ => ?_
  dsimp only
  split
  · exact near_ok _
  · exact near_error (Cursor.near_stop _)

theorem near_readHex (c : Cursor) : Near (readHex c) := by
  unfold readHex
  dsimp only
  split
  · exact near_error (Cursor.near_stop _)
  · split
    · exact near_ok _
    · exact near_error (Cursor.near_stop _)

theorem near_readPairByte (expected : Char) (c : Cursor) : Near (readPairByte expected c) := by
  unfold readPairByte
  split
  · exact near_error c.near_stop
  · split
    · exact near_ok _
    · exact near_error c.step.near_stop

theorem near_readCodePoint (c : Cursor) : Near (readCodePoint c) := by
  refine near_bind (near_readHex c) fun high _ => ?_
  dsimp only
  split
  · exact near_error (Cursor.near_stop _)
  · split
    · refine near_bind (near_readPairByte _ _) fun d _ => ?_
      refine near_bind (near_readPairByte _ _) fun e _ => ?_
      refine near_bind (near_readHex e) fun low _ => ?_
      split
      · exact near_ok _
      · exact near_error (Cursor.near_stop _)
    · exact near_ok _

theorem near_readEscape (c : Cursor) : Near (readEscape c) := by
  unfold readEscape
  split
  · exact near_error c.near_stop
  · split
    · exact near_ok _
    · split
      · exact near_bind (near_readCodePoint _) fun _ _ => near_ok _
      · exact near_error c.step.near_stop

theorem near_readBytes (c : Cursor) : Near (readBytes c) := by
  fun_induction readBytes c with
  | case1 c => exact near_error c.near_stop
  | case2 => exact near_ok _
  | case3 c _ e he => exact (near_readEscape _).error he
  | case4 c _ _ _ _ _ _ _ _ ih => exact near_map ih _
  | case5 c => exact near_error c.step.near_stop
  | case6 c b bs hc hstep hquote hslash hcontrol ih => exact near_map ih _

/-- Bytes that are no text are placed alike by both. -/
theorem near_readString (c : Cursor) : Near (readString c) := by
  unfold readString
  split
  · next h => exact (near_readBytes c).error h
  · split
    · exact near_ok _
    · exact near_error .here

theorem near_readScalar (c : Cursor) : Near (readScalar c) := by
  unfold readScalar
  split
  · exact near_error c.near_stopAhead
  · split
    · exact near_map (near_readString _) _
    · split
      · exact near_map (near_readNumber _) _
      · split
        · exact near_map (near_readWord _ _) _
        · split
          · exact near_map (near_readWord _ _) _
          · split
            · exact near_map (near_readWord _ _) _
            · exact near_error c.near_stopAhead

-- ================================================================= values

theorem near_readItemStart (first : Bool) (c : Cursor) : Near (readItemStart first c) := by
  unfold readItemStart
  dsimp only
  split
  · exact near_error (Cursor.near_stopAhead _)
  · split
    · exact near_ok _
    · split
      · exact near_ok _
      · split
        · split
          · exact near_error (Cursor.near_stopAhead _)
          · split
            · exact near_error (Cursor.near_stopAhead _)
            · exact near_ok _
        · exact near_error (Cursor.near_stopAhead _)

theorem near_readKeyStart (first : Bool) (c : Cursor) : Near (readKeyStart first c) := by
  unfold readKeyStart
  dsimp only
  split
  · exact near_error (Cursor.near_stopAhead _)
  · split
    · exact near_ok _
    · split
      · split
        · exact near_ok _
        · exact near_error (Cursor.near_stopAhead _)
      · split
        · split
          · exact near_error (Cursor.near_stopAhead _)
          · split
            · exact near_ok _
            · split <;> exact near_error (Cursor.near_stopAhead _)
        · exact near_error (Cursor.near_stopAhead _)

theorem near_readColon (c : Cursor) : Near (readColon c) := by
  unfold readColon
  dsimp only
  split
  · exact near_error (Cursor.near_stopAhead _)
  · split
    · exact near_ok _
    · exact near_error (Cursor.near_stopAhead _)

mutual

theorem near_readValue (c : Cursor) : Near (readValue c) := by
  rw [readValue]
  split
  · exact near_error (Cursor.near_stopAhead _)
  · next b bs hb =>
    have hs := Cursor.remaining_skipWhile_le isBlank c
    have hstep := Cursor.remaining_step_lt hb
    split
    · exact near_widen (near_reading_map (near_readItems true _) _) _
    · split
      · exact near_widen (near_reading_map (near_readMembers true _) _) _
      · exact near_widen (near_of (near_readScalar _) _) _
termination_by 2 * c.remaining

theorem near_readItems (first : Bool) (c : Cursor) : Near (readItems first c) := by
  rw [readItems]
  split
  · next h => exact (near_readItemStart first c).error h
  · exact near_ok _
  · next d h =>
    have hd := (readItemStart_remaining h).1
    refine near_widen (near_andThen (near_readValue d) fun v e he => ?_) _
    exact near_reading_map (near_readItems false e) _
termination_by 2 * c.remaining + 1

theorem near_readMembers (first : Bool) (c : Cursor) : Near (readMembers first c) := by
  rw [readMembers]
  split
  · next h => exact (near_readKeyStart first c).error h
  · exact near_ok _
  · next d h =>
    have hd := readKeyStart_remaining h
    split
    · next hk => exact (near_readString d).error hk
    · next key k hk =>
      have hk := readString_remaining hk
      split
      · next hc => exact (near_readColon k).error hc
      · next v hc =>
        have hc := readColon_remaining hc
        refine near_widen (near_andThen (near_readValue v) fun value e he => ?_) _
        exact near_reading_map (near_readMembers false e) _
termination_by 2 * c.remaining + 1

end

theorem near_finish (c : Cursor) : Near (finish c) := by
  unfold finish
  dsimp only
  split
  · exact near_ok _
  · exact near_error (Cursor.near_stopAhead _)

end TreeCheck.Json
