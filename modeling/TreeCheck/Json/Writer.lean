/-
JSON values as text, in two layouts. The compact one is for messages:
no blanks, members sorted by key, the last of repeated members standing
for all. The spread one is for reports: one item or member a line, in
the order of the value.
-/
import Std.Data.TreeMap
import TreeCheck.Json.Value

namespace TreeCheck.Json

/-- The two hexadecimal digits of a control character. -/
def hexPair (n : Nat) : List Char := [Nat.digitChar (n / 16), Nat.digitChar (n % 16)]

/-- A character inside quotes. Only quotes, backslashes and control
characters are escaped. -/
def escapeChar (c : Char) : List Char :=
  if c = '"' then ['\\', '"']
  else if c = '\\' then ['\\', '\\']
  else if c.toNat = 8 then ['\\', 'b']
  else if c.toNat = 9 then ['\\', 't']
  else if c.toNat = 10 then ['\\', 'n']
  else if c.toNat = 12 then ['\\', 'f']
  else if c.toNat = 13 then ['\\', 'r']
  else if c.toNat < 32 then ['\\', 'u', '0', '0'] ++ hexPair c.toNat
  else [c]

/-- A string in quotes. -/
def quote (s : String) : String :=
  String.ofList ('"' :: (s.toList.flatMap escapeChar ++ ['"']))

/-- Texts between brackets, separated by commas. -/
def bracketed (opening : String) (texts : List String) (closing : String) : String :=
  opening ++ String.intercalate "," texts ++ closing

/-- Texts by key, the last of several with one key, in the order of keys. -/
def sortedByKey (texts : List (String × String)) : List (String × String) :=
  (texts.foldl (fun m (k, t) => m.insert k t) (∅ : Std.TreeMap String String)).toList

mutual

/-- The compact text of a value. -/
def Value.compact : Value → String
  | .null => "null"
  | .bool b => toString b
  | .number n => n.render
  | .string s => quote s
  | .array vs => bracketed "[" (Value.compactItems vs) "]"
  | .object ms =>
    bracketed "\x7b" ((sortedByKey (Value.compactMembers ms)).map fun (k, t) => quote k ++ ":" ++ t)
      "\x7d"
termination_by structural v => v

/-- The compact texts of the items of an array. -/
def Value.compactItems : List Value → List String
  | [] => []
  | v :: vs => v.compact :: Value.compactItems vs
termination_by structural vs => vs

/-- The keys of an object with the compact texts of their values. -/
def Value.compactMembers : List (String × Value) → List (String × String)
  | [] => []
  | (k, v) :: ms => (k, v.compact) :: Value.compactMembers ms
termination_by structural ms => ms

end

/-- Lines of a spread list: brackets on lines of their own, items
indented by two columns a level, `[]` if there are none. -/
def spreadList (opening closing : String) (level : Nat) (texts : List String) : String :=
  let indent (n : Nat) : String := "\n" ++ String.ofList (List.replicate (2 * n) ' ')
  match texts with
  | [] => opening ++ closing
  | _ =>
    opening ++ indent (level + 1)
      ++ String.intercalate ("," ++ indent (level + 1)) texts ++ indent level ++ closing

mutual

/-- The spread text of a value that begins on a line indented to a level. -/
def Value.spread (level : Nat) : Value → String
  | .null => "null"
  | .bool b => toString b
  | .number n => n.render
  | .string s => quote s
  | .array vs => spreadList "[" "]" level (Value.spreadItems (level + 1) vs)
  | .object ms => spreadList "\x7b" "\x7d" level (Value.spreadMembers (level + 1) ms)
termination_by structural v => v

/-- The spread texts of the items of an array. -/
def Value.spreadItems (level : Nat) : List Value → List String
  | [] => []
  | v :: vs => v.spread level :: Value.spreadItems level vs
termination_by structural vs => vs

/-- The spread texts of the members of an object. -/
def Value.spreadMembers (level : Nat) : List (String × Value) → List String
  | [] => []
  | (k, v) :: ms => (quote k ++ ": " ++ v.spread level) :: Value.spreadMembers level ms
termination_by structural ms => ms

end

end TreeCheck.Json
