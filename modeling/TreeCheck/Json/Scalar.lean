/-
Reading words, numbers and strings.

A number keeps being read while it can go on, so the byte after it has
been looked at when it ends. Errors inside a number or a string lie
either in the byte just consumed or in the byte ahead, as stated at
each of them.
-/
import TreeCheck.Json.Cursor
import TreeCheck.Json.Value
import TreeCheck.Text.Utf8

namespace TreeCheck.Json

/-- The byte of an ASCII character. -/
def byte (c : Char) : UInt8 := c.toUInt8

/-- White space between tokens. -/
def isBlank (b : UInt8) : Bool :=
  b = byte ' ' || b = byte '\t' || b = byte '\n' || b = byte '\r'

/-- Decimal digits. -/
def isDigit (b : UInt8) : Bool := byte '0' ≤ b && b ≤ byte '9'

/-- The value of a decimal digit. -/
def digitValue (b : UInt8) : Nat := b.toNat - 48

/-- Skips white space and looks at what follows. -/
def Cursor.skipBlanks (c : Cursor) : Cursor := c.skipWhile isBlank

-- ================================================================= words

/-- Reads the letters of a word. -/
def readWord : List Char → Cursor → Except SyntaxError Cursor
  | [], c => .ok c
  | l :: ls, c =>
    match c.rest with
    | [] => .error ⟨.endInValue, c.stop⟩
    | b :: _ => if b = byte l then readWord ls c.step else .error ⟨.badWord, c.step.stop⟩

-- =============================================================== numbers

/-- The greatest significand that is kept, one less than 2^64. -/
def greatestSignificand : Nat := 0xFFFFFFFFFFFFFFFF

/-- A row of digits, kept as a significand times a power of ten. -/
structure Digits where
  significand : Nat := 0
  exponent : Int := 0
  /-- Whether a digit has been left out, and with it all that follow. -/
  full : Bool := false
  count : Nat := 0
deriving DecidableEq, Repr

namespace Digits

/-- The significand with one more digit. -/
def grown (ds : Digits) (b : UInt8) : Nat := ds.significand * 10 + digitValue b

/-- Whether one more digit is kept. -/
def fits (ds : Digits) (b : UInt8) : Bool := !ds.full && ds.grown b ≤ greatestSignificand

/-- A row with one more digit before the point. One that is left out
counts as a zero. -/
def pushWhole (ds : Digits) (b : UInt8) : Digits :=
  if ds.fits b then { ds with significand := ds.grown b, count := ds.count + 1 }
  else { ds with exponent := ds.exponent + 1, full := true, count := ds.count + 1 }

/-- A row with one more digit after the point. -/
def pushFraction (ds : Digits) (b : UInt8) : Digits :=
  if ds.fits b then
    { ds with significand := ds.grown b, exponent := ds.exponent - 1, count := ds.count + 1 }
  else { ds with full := true, count := ds.count + 1 }

end Digits

/-- Reads the digits ahead onto a row, and looks at what follows. -/
def readDigits (push : Digits → UInt8 → Digits) (ds : Digits) (c : Cursor) : Digits × Cursor :=
  go ds c.rest c.location
where
  /-- Walks over bytes while they are digits. -/
  go (ds : Digits) : List UInt8 → Location → Digits × Cursor
    | [], l => (ds, ⟨[], l, true⟩)
    | b :: bs, l =>
      if isDigit b then go (push ds b) bs (l.after b) else (ds, ⟨b :: bs, l, true⟩)

/-- Reads the digits before a point or an exponent. A leading zero stands
alone. -/
def readWhole (c : Cursor) : Except SyntaxError (Digits × Cursor) :=
  match c.rest with
  | [] => .error ⟨.endInValue, c.stop⟩
  | b :: _ =>
    let first := ({} : Digits).pushWhole b
    let d := c.step.peek
    if b = byte '0' then
      if d.rest.head?.any isDigit then .error ⟨.badNumber, d.stopAhead⟩
      else .ok (first, d)
    else if isDigit b then .ok (readDigits Digits.pushWhole first c.step)
    else .error ⟨.badNumber, c.step.stop⟩

/-- Reads the point and the digits after it onto those before it, and says
whether there is a point. At least one digit must follow it. Room for
them is looked for anew, whatever has been left out before the point. -/
def readFraction (whole : Digits) (c : Cursor) : Except SyntaxError (Digits × Bool × Cursor) :=
  if c.rest.head? = some (byte '.') then
    let (all, d) := readDigits Digits.pushFraction { whole with full := false } c.step
    if all.count = whole.count then
      .error ⟨if d.rest.isEmpty then .endInValue else .badNumber, d.stopAhead⟩
    else .ok (all, true, d)
  else .ok (whole, false, c)

/-- The greatest exponent that is looked at in full. -/
def greatestExponent : Nat := 0x7FFFFFFF

/-- Reads the digits of an exponent onto its value. An exponent beyond all
bounds ends the reading on the spot, unless it cannot make the number
infinite. -/
def readExponentDigits (bounded : Bool) (c : Cursor) (value : Nat) :
    Except SyntaxError (Nat × Cursor) :=
  go c.rest c.location value
where
  /-- Walks over the digits of the exponent. -/
  go : List UInt8 → Location → Nat → Except SyntaxError (Nat × Cursor)
    | [], l, value => .ok (value, ⟨[], l, true⟩)
    | b :: bs, l, value =>
      if isDigit b then
        let grown := value * 10 + digitValue b
        let here := l.after b
        if bounded && greatestExponent < grown then .error ⟨.numberOutOfRange, ⟨here, here⟩⟩
        else go bs here grown
      else .ok (value, ⟨b :: bs, l, true⟩)

/-- Reads an exponent, if there is one, after digits of which `zero` says
whether they are all zero. -/
def readExponent (zero : Bool) (c : Cursor) : Except SyntaxError (Option Int × Cursor) :=
  if c.rest.head? = some (byte 'e') ∨ c.rest.head? = some (byte 'E') then
    let e := c.step.peek
    let negative := e.rest.head? = some (byte '-')
    let d := if negative ∨ e.rest.head? = some (byte '+') then e.step else e
    match d.rest with
    | [] => .error ⟨.endInValue, d.stop⟩
    | b :: _ =>
      if isDigit b then
        match readExponentDigits (!zero && !negative) d.step (digitValue b) with
        | .error err => .error err
        | .ok (n, f) => .ok (some (if negative then -(n : Int) else n), f)
      else .error ⟨.badNumber, d.step.stop⟩
  else .ok (none, c)

/-- The number of a sign, its digits, whether there is a point among them,
and an exponent; `none` if it is infinite. A negative zero is no integer. -/
def numberOf? (negative : Bool) (digits : Digits) (pointed : Bool) (exponent : Option Int) :
    Option Number :=
  let value : Int := if negative then -digits.significand else digits.significand
  let isInteger := !pointed && exponent.isNone && !digits.full
    && !(negative && digits.significand == 0)
  if isInteger && (Number.least ≤ value && value ≤ Number.greatest) then some (.int value)
  else (Binary64.ofParts? negative digits.significand (digits.exponent + exponent.getD 0)).map .float

/-- Reads a number from its sign or first digit on. -/
def readNumber (c : Cursor) : Except SyntaxError (Number × Cursor) := do
  let negative := c.rest.head? == some (byte '-')
  let (whole, c) ← readWhole (if negative then c.step else c)
  let (digits, pointed, c) ← readFraction whole c
  let (exponent, c) ← readExponent (digits.significand = 0) c
  match numberOf? negative digits pointed exponent with
  | some n => .ok (n, c)
  | none => .error ⟨.numberOutOfRange, c.stop⟩

-- =============================================================== strings

/-- The value of a hexadecimal digit. -/
def hexValue? (b : UInt8) : Option Nat :=
  if isDigit b then some (digitValue b)
  else if byte 'a' ≤ b && b ≤ byte 'f' then some (b.toNat - 87)
  else if byte 'A' ≤ b && b ≤ byte 'F' then some (b.toNat - 55)
  else none

/-- Reads four hexadecimal digits. Four bytes are consumed before they are
looked at. -/
def readHex (c : Cursor) : Except SyntaxError (Nat × Cursor) :=
  let d := Cursor.steps 4 c
  if c.remaining < 4 then .error ⟨.endInString, d.stop⟩
  else match (c.rest.take 4).mapM hexValue? with
    | some ds => .ok (ds.foldl (fun n d => n * 16 + d) 0, d)
    | none => .error ⟨.badEscape, d.stop⟩

/-- Consumes one byte that the second half of an escaped pair begins with. -/
def readPairByte (expected : Char) (c : Cursor) : Except SyntaxError Cursor :=
  match c.rest with
  | [] => .error ⟨.endInString, c.stop⟩
  | b :: _ =>
    if b = byte expected then .ok c.step else .error ⟨.endOfHexEscape, c.step.stop⟩

/-- Reads the code point of an escape whose four digits come next. A pair
of surrogates is one code point, and neither may stand alone. -/
def readCodePoint (c : Cursor) : Except SyntaxError (Nat × Cursor) := do
  let (high, c) ← readHex c
  if 0xDC00 ≤ high && high ≤ 0xDFFF then .error ⟨.loneSurrogate, c.stop⟩
  else if 0xD800 ≤ high && high ≤ 0xDBFF then
    let c ← readPairByte '\\' c
    let c ← readPairByte 'u' c
    let (low, c) ← readHex c
    if 0xDC00 ≤ low && low ≤ 0xDFFF then
      .ok ((high - 0xD800) * 0x400 + (low - 0xDC00) + 0x10000, c)
    else .error ⟨.loneSurrogate, c.stop⟩
  else .ok (high, c)

/-- The character that a one-letter escape stands for. -/
def shortEscape? (b : UInt8) : Option Char :=
  if b = byte '"' then some '"'
  else if b = byte '\\' then some '\\'
  else if b = byte '/' then some '/'
  else if b = byte 'b' then some '\x08'
  else if b = byte 'f' then some '\x0c'
  else if b = byte 'n' then some '\n'
  else if b = byte 'r' then some '\r'
  else if b = byte 't' then some '\t'
  else none

/-- Reads an escape after its backslash, and gives the bytes it stands
for. -/
def readEscape (c : Cursor) : Except SyntaxError (List UInt8 × Cursor) :=
  match c.rest with
  | [] => .error ⟨.endInString, c.stop⟩
  | b :: _ =>
    match shortEscape? b with
    | some ch => .ok (String.utf8EncodeChar ch, c.step)
    | none =>
      if b = byte 'u' then do
        let (code, d) ← readCodePoint c.step
        .ok (String.utf8EncodeChar (Char.ofNat code), d)
      else .error ⟨.badEscape, c.step.stop⟩

-- ============================================================== progress

theorem readWord_remaining {ls : List Char} {c d : Cursor} (h : readWord ls c = .ok d) :
    d.remaining ≤ c.remaining := by
  induction ls generalizing c with
  | nil => simp [readWord] at h; simp [h]
  | cons l ls ih =>
    rw [readWord] at h
    split at h
    · contradiction
    · split at h
      · exact Nat.le_trans (ih h) (Cursor.remaining_step_le c)
      · contradiction

theorem readDigits_go_remaining (push : Digits → UInt8 → Digits) (ds : Digits) (bs : List UInt8)
    (l : Location) : (readDigits.go push ds bs l).2.remaining ≤ bs.length := by
  induction bs generalizing ds l with
  | nil => simp [readDigits.go, Cursor.remaining]
  | cons b bs ih =>
    rw [readDigits.go]
    split
    · exact Nat.le_succ_of_le (ih _ _)
    · simp [Cursor.remaining]

theorem readDigits_remaining (push : Digits → UInt8 → Digits) (ds : Digits) (c : Cursor) :
    (readDigits push ds c).2.remaining ≤ c.remaining :=
  readDigits_go_remaining push ds c.rest c.location

theorem readWhole_remaining {c d : Cursor} {ds : Digits} (h : readWhole c = .ok (ds, d)) :
    d.remaining < c.remaining := by
  unfold readWhole at h
  split at h
  · contradiction
  · rename_i b bs hc
    have hlt := Cursor.remaining_step_lt hc
    simp only at h
    split at h
    · split at h
      · contradiction
      · cases h
        exact hlt
    · split at h
      · have hle := readDigits_remaining Digits.pushWhole (({} : Digits).pushWhole b) c.step
        rw [Except.ok.injEq] at h
        rw [h] at hle
        exact Nat.lt_of_le_of_lt hle hlt
      · contradiction

theorem readFraction_remaining {whole ds : Digits} {pointed : Bool} {c d : Cursor}
    (h : readFraction whole c = .ok (ds, pointed, d)) : d.remaining ≤ c.remaining := by
  unfold readFraction at h
  split at h
  · have hle := readDigits_remaining Digits.pushFraction { whole with full := false } c.step
    simp only at h
    split at h
    · contradiction
    · cases h
      exact Nat.le_trans hle (Cursor.remaining_step_le c)
  · cases h
    exact Nat.le_refl _

theorem readExponentDigits_go_remaining {bounded : Bool} {bs : List UInt8} {l : Location}
    {v n : Nat} {d : Cursor} (h : readExponentDigits.go bounded bs l v = .ok (n, d)) :
    d.remaining ≤ bs.length := by
  induction bs generalizing v l with
  | nil =>
    cases h
    simp [Cursor.remaining]
  | cons b bs ih =>
    rw [readExponentDigits.go] at h
    split at h
    · simp only at h
      split at h
      · contradiction
      · exact Nat.le_succ_of_le (ih h)
    · cases h
      simp [Cursor.remaining]

theorem readExponentDigits_remaining {bounded : Bool} {c d : Cursor} {v n : Nat}
    (h : readExponentDigits bounded c v = .ok (n, d)) : d.remaining ≤ c.remaining :=
  readExponentDigits_go_remaining h

theorem readExponent_remaining {zero : Bool} {c d : Cursor} {e : Option Int}
    (h : readExponent zero c = .ok (e, d)) : d.remaining ≤ c.remaining := by
  unfold readExponent at h
  split at h
  · simp only at h
    split at h
    · contradiction
    · split at h
      · split at h
        · contradiction
        · rename_i n f hf
          cases h
          have h₁ := readExponentDigits_remaining hf
          refine Nat.le_trans h₁ (Nat.le_trans (Cursor.remaining_step_le _) ?_)
          split
          · exact Nat.le_trans (Cursor.remaining_step_le _) (Cursor.remaining_step_le c)
          · exact Cursor.remaining_step_le c
      · contradiction
  · cases h
    exact Nat.le_refl _

theorem readNumber_remaining {c d : Cursor} {n : Number} (h : readNumber c = .ok (n, d)) :
    d.remaining < c.remaining := by
  unfold readNumber at h
  simp only [bind, Except.bind] at h
  split at h
  · contradiction
  · rename_i w hw
    split at h
    · contradiction
    · rename_i f hf
      split at h
      · contradiction
      · rename_i e he
        split at h
        · cases h
          have hfrac := readFraction_remaining hf
          have hexp := readExponent_remaining he
          have hwhole := readWhole_remaining hw
          have hsign : (if (c.rest.head? == some (byte '-')) = true then c.step else c).remaining
              ≤ c.remaining := by
            split
            · exact Cursor.remaining_step_le c
            · exact Nat.le_refl _
          omega
        · contradiction

theorem readHex_remaining {c d : Cursor} {n : Nat} (h : readHex c = .ok (n, d)) :
    d.remaining ≤ c.remaining := by
  unfold readHex at h
  simp only at h
  split at h
  · contradiction
  · split at h
    · cases h
      exact Cursor.remaining_steps_le 4 c
    · contradiction

theorem readPairByte_remaining {ch : Char} {c d : Cursor} (h : readPairByte ch c = .ok d) :
    d.remaining ≤ c.remaining := by
  unfold readPairByte at h
  split at h
  · contradiction
  · split at h
    · cases h
      exact Cursor.remaining_step_le c
    · contradiction

theorem readCodePoint_remaining {c d : Cursor} {n : Nat} (h : readCodePoint c = .ok (n, d)) :
    d.remaining ≤ c.remaining := by
  unfold readCodePoint at h
  simp only [bind, Except.bind] at h
  split at h
  · contradiction
  · rename_i p hp
    have hhigh := readHex_remaining hp
    split at h
    · contradiction
    · split at h
      · split at h
        · contradiction
        · rename_i c₁ h₁
          split at h
          · contradiction
          · rename_i c₂ h₂
            split at h
            · contradiction
            · rename_i q hq
              split at h
              · cases h
                have := readPairByte_remaining h₁
                have := readPairByte_remaining h₂
                have := readHex_remaining hq
                omega
              · contradiction
      · cases h
        exact hhigh

theorem readEscape_remaining {c d : Cursor} {bytes : List UInt8}
    (h : readEscape c = .ok (bytes, d)) : d.remaining ≤ c.remaining := by
  unfold readEscape at h
  split at h
  · contradiction
  · split at h
    · cases h
      exact Cursor.remaining_step_le c
    · split at h
      · simp only [bind, Except.bind] at h
        split at h
        · contradiction
        · rename_i p hp
          cases h
          exact Nat.le_trans (readCodePoint_remaining hp) (Cursor.remaining_step_le c)
      · contradiction

end TreeCheck.Json
