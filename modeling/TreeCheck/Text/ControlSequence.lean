/-
What a text shows on a plain output, where control sequences say nothing.

A sequence begins with an escape character, and what follows decides how
far it goes. Between sequences every character is shown but the controls
that are no white space. White space inside an escape sequence or a
control sequence is shown, and so is all that follows it up to the next
control, where the sequence goes on if that control starts no other.
-/

namespace TreeCheck.ControlSequence

/-- What the characters read last belong to. -/
inductive Mode where
  /-- Text between sequences. -/
  | text
  /-- An escape sequence after its first character. -/
  | escape
  /-- An escape sequence after an intermediate character. -/
  | escapeMore
  /-- A control sequence. -/
  | control
  /-- The start of a device control string. -/
  | device
  /-- The parameters of a device control string. -/
  | deviceParameters
  /-- The intermediate characters of a device control string. -/
  | deviceMore
  /-- The body of a device control string or of another string without
  an effect. -/
  | string
  /-- A command to the operating system. -/
  | command
deriving DecidableEq, Repr

/-- Controls that count as white space. -/
def isBlankControl (c : Char) : Bool := c = '\t' || c = '\n' || c = '\x0c' || c = '\r'

/-- Whether the encoding of a character contains the byte that ends a
string. -/
def endsString (c : Char) : Bool := (String.utf8EncodeChar c).contains 0x9C

/-- The mode after the first character of an escape sequence. -/
def afterEscape (c : Char) : Mode :=
  if c = '[' then .control
  else if c = ']' then .command
  else if c = 'P' then .device
  else if c = 'X' ∨ c = '^' ∨ c = '_' then .string
  else if ' ' ≤ c ∧ c ≤ '/' then .escapeMore
  else if '0' ≤ c ∧ c ≤ '~' then .text
  else .escape

/-- The mode after a character of the head of a device control string that
is neither a parameter nor an intermediate. -/
def afterDevice (m : Mode) (c : Char) : Mode := if '@' ≤ c ∧ c ≤ '~' then .string else m

/-- The mode after a character that belongs to a sequence or to the text.
Three controls have the same effect everywhere. -/
def Mode.next (m : Mode) (c : Char) : Mode :=
  if c = '\x18' ∨ c = '\x1a' then .text
  else if c = '\x1b' then .escape
  else match m with
    | .text => .text
    | .escape => afterEscape c
    | .escapeMore => if '0' ≤ c ∧ c ≤ '~' then .text else .escapeMore
    | .control => if '@' ≤ c ∧ c ≤ '~' then .text else .control
    | .device =>
      if ' ' ≤ c ∧ c ≤ '/' then .deviceMore
      else if '0' ≤ c ∧ c ≤ '?' then .deviceParameters
      else afterDevice .device c
    | .deviceParameters =>
      if ' ' ≤ c ∧ c ≤ '/' then .deviceMore
      else if '<' ≤ c ∧ c ≤ '?' then .string
      else afterDevice .deviceParameters c
    | .deviceMore => if '0' ≤ c ∧ c ≤ '?' then .string else afterDevice .deviceMore c
    | .string => if endsString c then .text else .string
    | .command => if c = '\x07' then .text else .command

/-- Whether a character is shown in the text. -/
def isShown (c : Char) : Bool := isBlankControl c || (' ' ≤ c && c ≠ '\x7f')

/-- Whether a character ends the hiding in a mode. -/
def Mode.shows (m : Mode) (c : Char) : Bool :=
  match m with
  | .text => isShown c
  | .escape | .escapeMore | .control => isBlankControl c
  | _ => false

/-- The characters of a text that are shown, given the mode and whether the
character before is shown. While characters are shown the mode of a
sequence that white space broke off is kept. -/
def visible (m : Mode) : Bool → List Char → List Char
  | _, [] => []
  | false, c :: cs =>
    if m.shows c then c :: visible m true cs else visible (m.next c) false cs
  | true, c :: cs =>
    if isShown c then c :: visible (if c.toNat < 0x80 then m else .text) true cs
    else visible (m.next c) false cs

/-- A text without its control sequences. -/
def strip (s : String) : String := String.ofList (visible .text false s.toList)

end TreeCheck.ControlSequence
