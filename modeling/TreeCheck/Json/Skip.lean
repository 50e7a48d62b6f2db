/-
Passing over values that nobody wants.

A value that is skipped is looked at less closely than one that is
read: numbers are not evaluated, escaped surrogates need no partner,
and after a comma simply the next value or key is called for.
-/
import TreeCheck.Json.Reader

namespace TreeCheck.Json

/-- Skips digits, and looks at what follows. -/
def Cursor.skipDigits (c : Cursor) : Cursor := c.skipWhile isDigit

/-- Skips one digit and those after it. -/
def skipSomeDigits (c : Cursor) : Except SyntaxError Cursor :=
  match c.rest with
  | [] => .error ⟨.badNumber, c.stop⟩
  | b :: _ => if isDigit b then .ok c.step.skipDigits else .error ⟨.badNumber, c.step.stop⟩

/-- Skips an exponent, if there is one. -/
def skipExponent (c : Cursor) : Except SyntaxError Cursor :=
  if c.rest.head? = some (byte 'e') ∨ c.rest.head? = some (byte 'E') then
    let e := c.step.peek
    let signed := e.rest.head? = some (byte '-') ∨ e.rest.head? = some (byte '+')
    skipSomeDigits (if signed then e.step else e)
  else .ok c

/-- Skips a point and the digits after it, if there is a point. -/
def skipFraction (c : Cursor) : Except SyntaxError Cursor :=
  if c.rest.head? = some (byte '.') then
    let d := c.step.peek
    if d.rest.head?.any isDigit then .ok d.skipDigits else .error ⟨.badNumber, d.stopAhead⟩
  else .ok c

/-- Skips a number from its sign or first digit on. -/
def skipNumber (c : Cursor) : Except SyntaxError Cursor := do
  let c := if c.rest.head? = some (byte '-') then c.step else c
  let whole ←
    if c.rest.head? = some (byte '0') then
      let d := c.step.peek
      if d.rest.head?.any isDigit then .error ⟨.badNumber, d.stopAhead⟩ else .ok d
    else skipSomeDigits c
  skipExponent (← skipFraction whole)

/-- Skips an escape after its backslash. -/
def skipEscape (c : Cursor) : Except SyntaxError Cursor :=
  match c.rest with
  | [] => .error ⟨.endInString, c.stop⟩
  | b :: _ =>
    if (shortEscape? b).isSome then .ok c.step
    else if b = byte 'u' then (readHex c.step).map (·.2)
    else .error ⟨.badEscape, c.step.stop⟩

theorem skipEscape_remaining {c d : Cursor} (h : skipEscape c = .ok d) :
    d.remaining ≤ c.remaining := by
  unfold skipEscape at h
  split at h
  · contradiction
  · split at h
    · cases h
      exact Cursor.remaining_step_le c
    · split at h
      · cases hr : readHex c.step with
        | error e => simp [hr, Except.map] at h
        | ok p =>
          simp only [hr, Except.map, Except.ok.injEq] at h
          rw [← h]
          exact Nat.le_trans (readHex_remaining (n := p.1) hr) (Cursor.remaining_step_le c)
      · contradiction

/-- Skips a string after its opening quote. -/
def skipString (c : Cursor) : Except SyntaxError Cursor :=
  match h : c.rest with
  | [] => .error ⟨.endInString, c.stop⟩
  | b :: _ =>
    have _hstep := Cursor.remaining_step_lt h
    if b = byte '"' then .ok c.step
    else if b = byte '\\' then
      match he : skipEscape c.step with
      | .error e => .error e
      | .ok d =>
        have _hesc := skipEscape_remaining he
        skipString d
    else if b < 32 then .error ⟨.controlCharacter, c.stop⟩
    else skipString c.step
termination_by c.remaining

/-- Skips a value without parts from its first byte on. -/
def skipScalar (s : Cursor) : Except SyntaxError Cursor :=
  match s.rest with
  | [] => .error ⟨.endInValue, s.stopAhead⟩
  | b :: _ =>
    if b = byte '"' then skipString s.step
    else if b = byte '-' ∨ isDigit b then skipNumber s
    else if b = byte 'n' then readWord ['u', 'l', 'l'] s.step
    else if b = byte 't' then readWord ['r', 'u', 'e'] s.step
    else if b = byte 'f' then readWord ['a', 'l', 's', 'e'] s.step
    else .error ⟨.noValue, s.stopAhead⟩

/-- Skips a key and the colon after it. -/
def skipKey (c : Cursor) : Except SyntaxError Cursor :=
  let s := c.skipBlanks
  match s.rest with
  | [] => .error ⟨.endInObject, s.stopAhead⟩
  | b :: _ =>
    if b = byte '"' then do readColon (← skipString s.step)
    else .error ⟨.keyNotString, s.stopAhead⟩

/-- What is open around a value that is being skipped. -/
inductive Enclosing where
  | list
  | object
deriving DecidableEq, Repr

/-- What closes something open. -/
def Enclosing.closing : Enclosing → UInt8
  | .list => byte ']'
  | .object => byte '\x7d'

/-- What is wrong where the document ends inside something open. -/
def Enclosing.atEnd : Enclosing → SyntaxCause
  | .list => .endInList
  | .object => .endInObject

/-- What is wrong where neither a comma nor the end of something open
follows. -/
def Enclosing.noEnd : Enclosing → SyntaxCause
  | .list => .noListEnd
  | .object => .noObjectEnd

/-- A step of skipping: everything is skipped, or a value is still to come
inside what is open. -/
inductive SkipStep where
  | done (c : Cursor)
  | value (enclosing : List Enclosing) (c : Cursor)

/-- Goes to the next value inside what is open, innermost first. Directly
after an opening bracket no comma is expected. -/
def nextValue (opened : Bool) : List Enclosing → Cursor → Except SyntaxError SkipStep
  | [], c => .ok (.done c)
  | e :: outer, c =>
    let s := c.skipBlanks
    let enter (d : Cursor) : Except SyntaxError SkipStep :=
      match e with
      | .list => .ok (.value (e :: outer) d)
      | .object => (skipKey d).map (.value (e :: outer))
    match s.rest with
    | [] => .error ⟨e.atEnd, s.stopAhead⟩
    | b :: _ =>
      if b = e.closing then nextValue false outer s.step
      else if opened then enter s
      else if b = byte ',' then enter s.step
      else .error ⟨e.noEnd, s.stopAhead⟩

/-- Skips values until nothing is open any more. Each value takes up at
least one byte, so the number of bytes bounds the number of values. -/
def skipValues : Nat → List Enclosing → Cursor → Except SyntaxError Cursor
  | 0, _, c => .error ⟨.endInValue, c.stopAhead⟩
  | n + 1, enclosing, c => do
    let s := c.skipBlanks
    let step ← match s.rest with
      | [] => .error ⟨.endInValue, s.stopAhead⟩
      | b :: _ =>
        if b = byte '[' then nextValue true (.list :: enclosing) s.step
        else if b = byte '\x7b' then nextValue true (.object :: enclosing) s.step
        else do nextValue false enclosing (← skipScalar s)
    match step with
    | .done d => pure d
    | .value enclosing d => skipValues n enclosing d

/-- Skips a value after any white space. -/
def skipValue (c : Cursor) : Except SyntaxError Cursor := skipValues (c.remaining + 1) [] c

end TreeCheck.Json
