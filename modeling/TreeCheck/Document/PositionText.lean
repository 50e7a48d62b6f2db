/-
Positions written as documents of their own.

Here every error has a place, so fields are decoded as they are read:
the first thing wrong in the text is what is reported, be it the text or
its content.
-/
import TreeCheck.Document.Root
import TreeCheck.Document.Decode
import TreeCheck.Json.Skip

namespace TreeCheck.Document

open Json

/-- Reading part of a position. -/
abbrev PositionReading := Except (Located RootError)

/-- An error of content at a stop. -/
def decodeError {α : Type} (e : DecodeError) (s : Stop) : PositionReading α :=
  .error ⟨.decode e, s⟩

/-- Lets a syntax error be what is wrong with a position. -/
def orSyntax {α : Type} (r : Except SyntaxError α) : PositionReading α :=
  r.mapError ofSyntax

/-- Reads a line or a column. An array or object in its place is refused
at its first byte. -/
def readCount (c : Cursor) : PositionReading (Nat × Cursor) := do
  let s := c.skipBlanks
  if s.rest.head? = some (byte '[') then decodeError (.wrongType (.array []) .count) s.stop
  else if s.rest.head? = some (byte '\x7b') then
    decodeError (.wrongType (.object []) .count) s.stop
  else
    let (v, d) ← orSyntax (readScalar s)
    match v with
    | .number (.int z) =>
      match countOf z with
      | .ok n => .ok (n, d)
      | .error e => decodeError e d.stop
    | v => decodeError (.wrongType v .count) d.stop

/-- Reads the item of an array at some place, which must not be its end. -/
def readCountItem (index : Nat) (c : Cursor) : PositionReading (Nat × Cursor) := do
  match ← orSyntax (readItemStart (index = 0) c) with
  | (true, d) => readCount d
  | (false, d) => decodeError (.wrongLength index .fieldsOfPosition) d.stop

/-- Reads the end of an array of which nothing more is wanted. -/
def readListEnd (c : Cursor) : PositionReading Cursor :=
  let s := c.skipBlanks
  match s.rest with
  | [] => .error ⟨.malformed .endInList, s.stopAhead⟩
  | b :: _ =>
    if b = byte ']' then .ok s.step
    else if b = byte ',' then
      let t := s.step.skipBlanks
      if t.rest.head? = some (byte ']') then .error ⟨.malformed .trailingComma, t.stopAhead⟩
      else .error ⟨.malformed .trailingCharacters, t.stopAhead⟩
    else .error ⟨.malformed .trailingCharacters, s.stopAhead⟩

/-- Reads the members of a position, each of which takes up at least one
byte, with what has been read of it so far. -/
def readCounts : Nat → Bool → Option Nat → Option Nat → Cursor → PositionReading (Position × Cursor)
  | 0, _, _, _, c => .error ⟨.malformed .endInObject, c.stopAhead⟩
  | n + 1, first, line, column, c => do
    match ← orSyntax (readKeyStart first c) with
    | (false, d) =>
      match line, column with
      | some line, some column => .ok (⟨line, column⟩, d)
      | none, _ => decodeError (.missingField "line") d.stop
      | _, none => decodeError (.missingField "column") d.stop
    | (true, d) =>
      let (key, k) ← orSyntax (readString d)
      if key = "line" ∧ line.isSome ∨ key = "column" ∧ column.isSome then
        decodeError (.duplicateField key) (repeatedKindStop k)
      else
        let v ← orSyntax (readColon k)
        if key = "line" then
          let (m, e) ← readCount v
          readCounts n false (some m) column e
        else if key = "column" then
          let (m, e) ← readCount v
          readCounts n false line (some m) e
        else
          readCounts n false line column (← orSyntax (skipValue v))

/-- Reads a position. -/
def readPosition (c : Cursor) : PositionReading (Position × Cursor) := do
  let s := c.skipBlanks
  if s.rest.head? = some (byte '[') then
    let (line, d) ← readCountItem 0 s.step
    let (column, e) ← readCountItem 1 d
    pure (⟨line, column⟩, ← readListEnd e)
  else if s.rest.head? = some (byte '\x7b') then
    readCounts (s.remaining + 1) true none none s.step
  else
    let (v, d) ← orSyntax (readScalar s)
    decodeError (.wrongType v .position) d.stop

/-- What is wrong with a text that should be a position, with its place. -/
structure PositionError where
  error : RootError
  location : Location

/-- The text of what is wrong with a position. -/
def PositionError.message (e : PositionError) : String := e.error.message ++ e.location.phrase

/-- The position that a text stands for. -/
def positionOfText (text : String) : Except PositionError Position :=
  let result : PositionReading Position := do
    let (p, c) ← readPosition { rest := Utf8.encode text }
    orSyntax (finish c)
    pure p
  result.mapError fun e => ⟨e.what, e.stop.location .text⟩

end TreeCheck.Document
