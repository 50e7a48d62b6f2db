/-
Bytes as text. The decoder reads as many well-formed characters as it
can and gives back the bytes it stopped at, so a caller learns both the
text and how far it is well formed.
-/

namespace TreeCheck.Utf8

/-- The bytes of a text. -/
def encode (s : String) : List UInt8 := s.toList.flatMap String.utf8EncodeChar

/-- Whether a byte can stand after the first of a character. -/
def isContinuation (b : UInt8) : Bool := b &&& 0xC0 == 0x80

/-- The six bits that a continuation byte carries. -/
def payload (b : UInt8) : Nat := (b &&& 0x3F).toNat

/-- The character of a code point within bounds. Bounds exclude long
forms of shorter characters, and no surrogate is a character. -/
def charIn? (low high : Nat) (code : Nat) : Option Char :=
  if low ≤ code ∧ code ≤ high then
    if h : code.isValidChar then some (Char.ofNatAux code h) else none
  else none

/-- The character at the front of some bytes, with its length. -/
def first? : List UInt8 → Option (Char × Nat)
  | [] => none
  | a :: rest =>
    if a < 0x80 then (charIn? 0 0x7F a.toNat).map (·, 1)
    else if a &&& 0xE0 == 0xC0 then
      match rest with
      | b :: _ =>
        if isContinuation b then
          (charIn? 0x80 0x7FF ((a &&& 0x1F).toNat * 64 + payload b)).map (·, 2)
        else none
      | _ => none
    else if a &&& 0xF0 == 0xE0 then
      match rest with
      | b :: c :: _ =>
        if isContinuation b && isContinuation c then
          (charIn? 0x800 0xFFFF
            (((a &&& 0x0F).toNat * 64 + payload b) * 64 + payload c)).map (·, 3)
        else none
      | _ => none
    else if a &&& 0xF8 == 0xF0 then
      match rest with
      | b :: c :: d :: _ =>
        if isContinuation b && isContinuation c && isContinuation d then
          (charIn? 0x10000 0x10FFFF
            ((((a &&& 0x07).toNat * 64 + payload b) * 64 + payload c) * 64 + payload d)).map
              (·, 4)
        else none
      | _ => none
    else none

/-- The characters of the longest well-formed start of some bytes, and
what follows it. `skip` bytes belong to a character already read. -/
def decodeFrom (skip : Nat) : List UInt8 → List Char × List UInt8
  | [] => ([], [])
  | b :: rest =>
    match skip with
    | k + 1 => decodeFrom k rest
    | 0 =>
      match first? (b :: rest) with
      | some (c, n) =>
        let (cs, tail) := decodeFrom (n - 1) rest
        (c :: cs, tail)
      | none => ([], b :: rest)

/-- The characters of the longest well-formed start of some bytes, and
what follows it. -/
def decode (bytes : List UInt8) : List Char × List UInt8 := decodeFrom 0 bytes

/-- The text of some bytes, if all of them are well formed. -/
def decode? (bytes : List UInt8) : Option String :=
  match decode bytes with
  | (cs, []) => some (String.ofList cs)
  | _ => none

end TreeCheck.Utf8
