/-
Text in quotes as messages show it: a quote, a backslash and the usual
controls behind a backslash, and every other character that cannot be
seen by its code point.
-/
import TreeCheck.Text.CodePoint.Printable

namespace TreeCheck.Quoted

/-- A character between quotes. -/
def encodeChar (c : Char) : List Char :=
  if c = '"' || c = '\\' then ['\\', c]
  else if c.toNat = 0 then ['\\', '0']
  else if c = '\t' then ['\\', 't']
  else if c = '\n' then ['\\', 'n']
  else if c = '\r' then ['\\', 'r']
  else if CodePoint.isPrintable c then [c]
  else ['\\', 'u', '\x7b'] ++ Nat.toDigits 16 c.toNat ++ ['\x7d']

/-- A text in quotes. -/
def encode (s : String) : String :=
  String.ofList ('"' :: (s.toList.flatMap encodeChar ++ ['"']))

end TreeCheck.Quoted
