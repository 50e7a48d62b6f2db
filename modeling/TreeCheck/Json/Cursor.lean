/-
Reading positions in a document, and where an error is said to be.

A document may be read from a text that is there as a whole or from a
stream that arrives byte by byte. Both read the same documents and find
the same errors; they differ only in how they count where an error is.
A text counts the bytes consumed, and one more where the error lies in
the byte ahead. A stream counts the bytes it was asked for, which
includes a byte looked at and not consumed. A stop keeps both counts, so
reading itself need not know its source.
-/

namespace TreeCheck.Json

/-- A place in a document: the line from one, and the number of bytes of
that line before the place. -/
structure Location where
  line : Nat := 1
  column : Nat := 0
deriving DecidableEq, Repr

/-- The place after one more byte. -/
def Location.after (l : Location) (b : UInt8) : Location :=
  if b = 10 then ⟨l.line + 1, 0⟩ else ⟨l.line, l.column + 1⟩

/-- Where reading stopped, by the count of a text and of a stream. -/
structure Stop where
  inText : Location
  inStream : Location
deriving DecidableEq, Repr

/-- How a document reaches its reader. -/
inductive Source where
  | text
  | stream
deriving DecidableEq, Repr

/-- Where a source says that reading stopped. -/
def Stop.location (s : Stop) : Source → Location
  | .text => s.inText
  | .stream => s.inStream

/-- Something said about a place of the document. -/
structure Located (α : Type) where
  what : α
  stop : Stop
deriving DecidableEq, Repr

/-- Why a document is no JSON. -/
inductive SyntaxCause where
  | endInValue
  | endInString
  | endInList
  | endInObject
  | badWord
  | noValue
  | badNumber
  | numberOutOfRange
  | controlCharacter
  | badEscape
  | loneSurrogate
  | endOfHexEscape
  | badText
  | trailingComma
  | noListEnd
  | noObjectEnd
  | noColon
  | keyNotString
  | trailingCharacters
deriving DecidableEq, Repr

/-- The text of a syntax error. -/
def SyntaxCause.message : SyntaxCause → String
  | .endInValue => "EOF while parsing a value"
  | .endInString => "EOF while parsing a string"
  | .endInList => "EOF while parsing a list"
  | .endInObject => "EOF while parsing an object"
  | .badWord => "expected ident"
  | .noValue => "expected value"
  | .badNumber => "invalid number"
  | .numberOutOfRange => "number out of range"
  | .controlCharacter => "control character (\\u0000-\\u001F) found while parsing a string"
  | .badEscape => "invalid escape"
  | .loneSurrogate => "lone leading surrogate in hex escape"
  | .endOfHexEscape => "unexpected end of hex escape"
  | .badText => "invalid unicode code point"
  | .trailingComma => "trailing comma"
  | .noListEnd => "expected `,` or `]`"
  | .noObjectEnd => "expected `,` or `\x7d`"
  | .noColon => "expected `:`"
  | .keyNotString => "key must be a string"
  | .trailingCharacters => "trailing characters"

/-- The end of a message that names a place. -/
def Location.phrase (l : Location) : String := s!" at line {l.line} column {l.column}"

/-- A position in a document: the bytes ahead, where it is, and whether
the next byte has been looked at. -/
structure Cursor where
  rest : List UInt8
  location : Location := {}
  peeked : Bool := false
deriving Repr

namespace Cursor

/-- The number of bytes ahead. -/
def remaining (c : Cursor) : Nat := c.rest.length

/-- The place after the next byte, if there is one. -/
def next (c : Cursor) : Location := c.rest.head?.elim c.location c.location.after

/-- A stop for an error in what has been consumed. -/
def stop (c : Cursor) : Stop := ⟨c.location, if c.peeked then c.next else c.location⟩

/-- A stop for an error in the next byte, which has been looked at. -/
def stopAhead (c : Cursor) : Stop := ⟨c.next, c.next⟩

/-- Looks at the next byte. -/
def peek (c : Cursor) : Cursor := { c with peeked := true }

/-- Consumes the next byte, if there is one. -/
def step (c : Cursor) : Cursor :=
  match c.rest with
  | [] => c
  | b :: bs => ⟨bs, c.location.after b, false⟩

/-- Consumes a number of bytes, or all that are left. -/
def steps : Nat → Cursor → Cursor
  | 0, c => c
  | n + 1, c => steps n c.step

/-- Consumes all bytes with a property, and looks at the next. -/
def skipWhile (p : UInt8 → Bool) (c : Cursor) : Cursor :=
  go c.rest c.location
where
  /-- Walks over bytes while they have the property. -/
  go : List UInt8 → Location → Cursor
    | [], l => ⟨[], l, true⟩
    | b :: bs, l => if p b then go bs (l.after b) else ⟨b :: bs, l, true⟩

theorem remaining_step_lt {c : Cursor} {b : UInt8} {bs : List UInt8} (h : c.rest = b :: bs) :
    c.step.remaining < c.remaining := by
  simp [step, h, remaining]

theorem remaining_step_le (c : Cursor) : c.step.remaining ≤ c.remaining := by
  cases h : c.rest with
  | nil => simp [step, h]
  | cons b bs => exact Nat.le_of_lt (remaining_step_lt h)

theorem remaining_steps_le (n : Nat) (c : Cursor) : (steps n c).remaining ≤ c.remaining := by
  induction n generalizing c with
  | zero => exact Nat.le_refl _
  | succ n ih => exact Nat.le_trans (ih c.step) (remaining_step_le c)

theorem remaining_skipWhile_go_le (p : UInt8 → Bool) (bs : List UInt8) (l : Location) :
    (skipWhile.go p bs l).remaining ≤ bs.length := by
  induction bs generalizing l with
  | nil => simp [skipWhile.go, remaining]
  | cons b bs ih =>
    rw [skipWhile.go]
    split
    · exact Nat.le_succ_of_le (ih _)
    · simp [remaining]

theorem remaining_skipWhile_le (p : UInt8 → Bool) (c : Cursor) :
    (c.skipWhile p).remaining ≤ c.remaining :=
  remaining_skipWhile_go_le p c.rest c.location

/-- A cursor that has moved on. -/
abbrev Further (c : Cursor) := { d : Cursor // d.remaining < c.remaining }

end Cursor

/-- An error in the text of a document. -/
abbrev SyntaxError := Located SyntaxCause

/-- What reading from a cursor gives: a result, and the cursor moved on. -/
abbrev Reading (α : Type) (c : Cursor) := Except SyntaxError (α × c.Further)

namespace Reading

/-- Changes the result of a reading. -/
def map {α β : Type} {c : Cursor} (f : α → β) (r : Reading α c) : Reading β c :=
  match r with
  | .error e => .error e
  | .ok (a, d) => .ok (f a, d)

/-- A reading that began at or after a cursor, seen from that cursor. -/
def widen {α : Type} {c d : Cursor} (h : d.remaining ≤ c.remaining) (r : Reading α d) :
    Reading α c :=
  match r with
  | .error e => .error e
  | .ok (a, ⟨d', h'⟩) => .ok (a, ⟨d', Nat.lt_of_lt_of_le h' h⟩)

/-- Reads on from where a reading ended. -/
def andThen {α β : Type} {c : Cursor} (r : Reading α c)
    (k : α → (d : Cursor) → d.remaining < c.remaining → Reading β d) : Reading β c :=
  match r with
  | .error e => .error e
  | .ok (a, ⟨d, h⟩) => (k a d h).widen (Nat.le_of_lt h)

end Reading

end TreeCheck.Json
