/-
Reading strings and whole values.

Every value read leaves a cursor that is strictly further on, which is
what the recursion of values in values ends by; no limit is set to how
deep they nest. A reader that needs more than the values, such as their
places, is put together from the same pieces: `readItemStart`,
`readKeyStart`, `readColon`, `readValue` and `finish`.
-/
import TreeCheck.Json.Scalar

namespace TreeCheck.Json

/-- A result with the proof that its cursor has moved on. -/
def Reading.of {α : Type} {c : Cursor} (r : Except SyntaxError (α × Cursor))
    (h : ∀ a d, r = .ok (a, d) → d.remaining < c.remaining) : Reading α c :=
  match r, h with
  | .error e, _ => .error e
  | .ok (a, d), h => .ok (a, ⟨d, h a d rfl⟩)

-- =============================================================== strings

/-- Reads the bytes of a string up to its closing quote, which is
consumed. -/
def readBytes (c : Cursor) : Except SyntaxError (List UInt8 × Cursor) :=
  match h : c.rest with
  | [] => .error ⟨.endInString, c.stop⟩
  | b :: _ =>
    have _hstep := Cursor.remaining_step_lt h
    if b = byte '"' then .ok ([], c.step)
    else if b = byte '\\' then
      match he : readEscape c.step with
      | .error e => .error e
      | .ok (bytes, d) =>
        have _hesc := readEscape_remaining he
        (readBytes d).map fun (more, d) => (bytes ++ more, d)
    else if b < 32 then .error ⟨.controlCharacter, c.step.stop⟩
    else (readBytes c.step).map fun (more, d) => (b :: more, d)
termination_by c.remaining

theorem readBytes_remaining {c d : Cursor} {b : List UInt8}
    (h : readBytes c = .ok (b, d)) : d.remaining < c.remaining := by
  fun_induction readBytes c generalizing b d with
  | case1 => contradiction
  | case2 =>
    cases h
    assumption
  | case3 => contradiction
  | case4 c _ _ e _ _ _ _ _ ih =>
    cases hr : readBytes e with
    | error err => simp [hr, Except.map] at h
    | ok p =>
      simp only [hr, Except.map, Except.ok.injEq, Prod.mk.injEq] at h
      have := ih (b := p.1) (d := d) (by rw [hr, ← h.2])
      omega
  | case5 => contradiction
  | case6 c _ _ _ _ _ _ _ ih =>
    cases hr : readBytes c.step with
    | error err => simp [hr, Except.map] at h
    | ok p =>
      simp only [hr, Except.map, Except.ok.injEq, Prod.mk.injEq] at h
      have := ih (b := p.1) (d := d) (by rw [hr, ← h.2])
      omega

/-- A place that many columns before another on its line. -/
def Location.back (l : Location) (columns : Nat) : Location :=
  { l with column := l.column - columns }

/-- Reads a string after its opening quote. Bytes that are no text are
noticed at the closing quote; the error is placed as far before it as
the string goes on after its last good character. -/
def readString (c : Cursor) : Except SyntaxError (String × Cursor) :=
  match readBytes c with
  | .error e => .error e
  | .ok (bytes, d) =>
    match Utf8.decode bytes with
    | (cs, []) => .ok (String.ofList cs, d)
    | (_, tail) => .error ⟨.badText, ⟨d.location.back tail.length, d.location.back tail.length⟩⟩

theorem readString_remaining {c d : Cursor} {s : String} (h : readString c = .ok (s, d)) :
    d.remaining < c.remaining := by
  unfold readString at h
  split at h
  · contradiction
  · rename_i hb
    split at h
    · cases h
      exact readBytes_remaining hb
    · contradiction

-- ================================================================ values

/-- Reads a word that begins with the byte ahead, and gives what it
stands for. -/
def readNamed (letters : List Char) (v : Value) (s : Cursor) :
    Except SyntaxError (Value × Cursor) :=
  (readWord letters s.step).map (v, ·)

/-- Reads a value without parts from its first byte on. -/
def readScalar (s : Cursor) : Except SyntaxError (Value × Cursor) :=
  match s.rest with
  | [] => .error ⟨.endInValue, s.stopAhead⟩
  | b :: _ =>
    if b = byte '"' then (readString s.step).map fun (t, d) => (.string t, d)
    else if b = byte '-' ∨ isDigit b then (readNumber s).map fun (n, d) => (.number n, d)
    else if b = byte 'n' then readNamed ['u', 'l', 'l'] .null s
    else if b = byte 't' then readNamed ['r', 'u', 'e'] (.bool true) s
    else if b = byte 'f' then readNamed ['a', 'l', 's', 'e'] (.bool false) s
    else .error ⟨.noValue, s.stopAhead⟩

theorem readNamed_remaining {ls : List Char} {v w : Value} {s d : Cursor}
    (h : readNamed ls v s = .ok (w, d)) : d.remaining ≤ s.step.remaining := by
  unfold readNamed at h
  cases hw : readWord ls s.step with
  | error e => simp [hw, Except.map] at h
  | ok e =>
    simp only [hw, Except.map, Except.ok.injEq, Prod.mk.injEq] at h
    rw [← h.2]
    exact readWord_remaining hw

theorem readScalar_remaining {s d : Cursor} {v : Value} (h : readScalar s = .ok (v, d)) :
    d.remaining < s.remaining := by
  unfold readScalar at h
  split at h
  · contradiction
  · rename_i b bs hrest
    have hstep := Cursor.remaining_step_lt hrest
    split at h
    · cases hr : readString s.step with
      | error e => simp [hr, Except.map] at h
      | ok p =>
        simp only [hr, Except.map, Except.ok.injEq, Prod.mk.injEq] at h
        have := readString_remaining (c := s.step) (d := p.2) (s := p.1) hr
        rw [← h.2]
        omega
    · split at h
      · cases hr : readNumber s with
        | error e => simp [hr, Except.map] at h
        | ok p =>
          simp only [hr, Except.map, Except.ok.injEq, Prod.mk.injEq] at h
          rw [← h.2]
          exact readNumber_remaining (n := p.1) hr
      · split at h
        · exact Nat.lt_of_le_of_lt (readNamed_remaining h) hstep
        · split at h
          · exact Nat.lt_of_le_of_lt (readNamed_remaining h) hstep
          · split at h
            · exact Nat.lt_of_le_of_lt (readNamed_remaining h) hstep
            · contradiction

/-- Where the next item of an array begins, or the cursor after the
array. The first item follows the bracket, each other one a comma. -/
def readItemStart (first : Bool) (c : Cursor) : Except SyntaxError (Bool × Cursor) :=
  let s := c.skipBlanks
  match s.rest with
  | [] => .error ⟨.endInList, s.stopAhead⟩
  | b :: _ =>
    if b = byte ']' then .ok (false, s.step)
    else if first then .ok (true, s)
    else if b = byte ',' then
      let t := s.step.skipBlanks
      match t.rest with
      | [] => .error ⟨.endInValue, t.stopAhead⟩
      | b' :: _ =>
        if b' = byte ']' then .error ⟨.trailingComma, t.stopAhead⟩ else .ok (true, t)
    else .error ⟨.noListEnd, s.stopAhead⟩

/-- Where the next key of an object begins, after its opening quote, or
the cursor after the object. -/
def readKeyStart (first : Bool) (c : Cursor) : Except SyntaxError (Bool × Cursor) :=
  let s := c.skipBlanks
  match s.rest with
  | [] => .error ⟨.endInObject, s.stopAhead⟩
  | b :: _ =>
    if b = byte '\x7d' then .ok (false, s.step)
    else if first then
      if b = byte '"' then .ok (true, s.step) else .error ⟨.keyNotString, s.stopAhead⟩
    else if b = byte ',' then
      let t := s.step.skipBlanks
      match t.rest with
      | [] => .error ⟨.endInValue, t.stopAhead⟩
      | b' :: _ =>
        if b' = byte '"' then .ok (true, t.step)
        else if b' = byte '\x7d' then .error ⟨.trailingComma, t.stopAhead⟩
        else .error ⟨.keyNotString, t.stopAhead⟩
    else .error ⟨.noObjectEnd, s.stopAhead⟩

/-- Reads the colon after a key. -/
def readColon (c : Cursor) : Except SyntaxError Cursor :=
  let s := c.skipBlanks
  match s.rest with
  | [] => .error ⟨.endInObject, s.stopAhead⟩
  | b :: _ => if b = byte ':' then .ok s.step else .error ⟨.noColon, s.stopAhead⟩

theorem readItemStart_remaining {first more : Bool} {c d : Cursor}
    (h : readItemStart first c = .ok (more, d)) :
    d.remaining ≤ c.remaining ∧ (more = false → d.remaining < c.remaining) := by
  have hs : c.skipBlanks.remaining ≤ c.remaining := Cursor.remaining_skipWhile_le _ _
  unfold readItemStart at h
  simp only at h
  split at h
  · contradiction
  · rename_i b bs hrest
    have hstep := Cursor.remaining_step_lt hrest
    split at h
    · cases h
      exact ⟨by omega, fun _ => by omega⟩
    · split at h
      · cases h
        exact ⟨hs, nofun⟩
      · split at h
        · have ht : c.skipBlanks.step.skipBlanks.remaining ≤ c.skipBlanks.step.remaining :=
            Cursor.remaining_skipWhile_le _ _
          split at h
          · contradiction
          · split at h
            · contradiction
            · cases h
              exact ⟨by omega, nofun⟩
        · contradiction

theorem readKeyStart_remaining {first more : Bool} {c d : Cursor}
    (h : readKeyStart first c = .ok (more, d)) : d.remaining < c.remaining := by
  have hs : c.skipBlanks.remaining ≤ c.remaining := Cursor.remaining_skipWhile_le _ _
  unfold readKeyStart at h
  simp only at h
  split at h
  · contradiction
  · rename_i b bs hrest
    have hstep := Cursor.remaining_step_lt hrest
    split at h
    · cases h
      omega
    · split at h
      · split at h
        · cases h
          omega
        · contradiction
      · split at h
        · have ht : c.skipBlanks.step.skipBlanks.remaining ≤ c.skipBlanks.step.remaining :=
            Cursor.remaining_skipWhile_le _ _
          split at h
          · contradiction
          · rename_i b' bs' hrest'
            have hstep' := Cursor.remaining_step_lt hrest'
            split at h
            · cases h
              omega
            · split at h <;> contradiction
        · contradiction

theorem readColon_remaining {c d : Cursor} (h : readColon c = .ok d) :
    d.remaining ≤ c.remaining := by
  have hs : c.skipBlanks.remaining ≤ c.remaining := Cursor.remaining_skipWhile_le _ _
  unfold readColon at h
  simp only at h
  split at h
  · contradiction
  · split at h
    · cases h
      exact Nat.le_trans (Cursor.remaining_step_le _) hs
    · contradiction

mutual

/-- Reads a value after any white space. -/
def readValue (c : Cursor) : Reading Value c :=
  have hs := Cursor.remaining_skipWhile_le isBlank c
  match h : (c.skipWhile isBlank).rest with
  | [] => .error ⟨.endInValue, (c.skipWhile isBlank).stopAhead⟩
  | b :: _ =>
    have hb := Nat.lt_of_lt_of_le (Cursor.remaining_step_lt h) hs
    if b = byte '[' then
      ((readItems true (c.skipWhile isBlank).step).map Value.array).widen (Nat.le_of_lt hb)
    else if b = byte '\x7b' then
      ((readMembers true (c.skipWhile isBlank).step).map Value.object).widen (Nat.le_of_lt hb)
    else (Reading.of (readScalar (c.skipWhile isBlank)) fun _ _ => readScalar_remaining).widen hs
termination_by 2 * c.remaining

/-- Reads the items of an array that are still to come, and its end. -/
def readItems (first : Bool) (c : Cursor) : Reading (List Value) c :=
  match h : readItemStart first c with
  | .error e => .error e
  | .ok (false, d) => .ok ([], ⟨d, (readItemStart_remaining h).2 rfl⟩)
  | .ok (true, d) =>
    have hd := (readItemStart_remaining h).1
    ((readValue d).andThen fun v e _ => (readItems false e).map (v :: ·)).widen hd
termination_by 2 * c.remaining + 1

/-- Reads the members of an object that are still to come, and its end. -/
def readMembers (first : Bool) (c : Cursor) : Reading (List (String × Value)) c :=
  match h : readKeyStart first c with
  | .error e => .error e
  | .ok (false, d) => .ok ([], ⟨d, readKeyStart_remaining h⟩)
  | .ok (true, d) =>
    have hd := readKeyStart_remaining h
    match hk : readString d with
    | .error e => .error e
    | .ok (key, k) =>
      have hk := readString_remaining hk
      match hc : readColon k with
      | .error e => .error e
      | .ok v =>
        have hc := readColon_remaining hc
        ((readValue v).andThen fun value e _ =>
          (readMembers false e).map ((key, value) :: ·)).widen (by omega)
termination_by 2 * c.remaining + 1

end

/-- Makes sure that only white space follows a document. -/
def finish (c : Cursor) : Except SyntaxError Unit :=
  let s := c.skipBlanks
  if s.rest.isEmpty then .ok () else .error ⟨.trailingCharacters, s.stopAhead⟩

/-- Reads a document that is one value. -/
def read (bytes : List UInt8) : Except SyntaxError Value := do
  let (v, c) ← readValue { rest := bytes }
  finish c
  pure v

end TreeCheck.Json
