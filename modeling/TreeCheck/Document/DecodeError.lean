/-
Why a well-formed JSON value is no node: what was found and what should
have been there, in the words in which it is reported.
-/
import TreeCheck.Document.Kind
import TreeCheck.Json.Value
import TreeCheck.Text.Quoted

namespace TreeCheck.Document

/-- What a value has to be at some place of a document. -/
inductive Expected where
  | node
  | kindName
  | kindNumber
  | position
  | param
  | count
  | string
  | bool
  | sequence
  | fieldsOf (kind : Kind)
  | fieldsOfPosition
  | fieldsOfParam
  | items (n : Nat)
deriving DecidableEq, Repr

/-- The words for what was expected. -/
def Expected.phrase : Expected → String
  | .node => "internally tagged enum RawNode"
  | .kindName => "variant identifier"
  | .kindNumber => s!"variant index 0 <= i < {Kind.all.length}"
  | .position => "struct Position"
  | .param => "struct RawParam"
  | .count => "u32"
  | .string => "a string"
  | .bool => "a boolean"
  | .sequence => "a sequence"
  | .fieldsOf k => s!"struct variant RawNode::{k.name} with {k.fields.length} elements"
  | .fieldsOfPosition => s!"struct Position with {positionFields.length} elements"
  | .fieldsOfParam => s!"struct RawParam with {paramFields.length} elements"
  | .items n => s!"{n} elements in sequence"

/-- The words for a value that was found. The parts of arrays and objects
are not named. -/
def describe : Json.Value → String
  | .null => "null"
  | .bool b => s!"boolean `{b}`"
  | .number (.int z) => s!"integer `{z}`"
  | .number (.float x) => s!"floating point `{x.render}`"
  | .string s => s!"string {Quoted.encode s}"
  | .array _ => "sequence"
  | .object _ => "map"

/-- Why a JSON value is no node. -/
inductive DecodeError where
  | wrongType (found : Json.Value) (expected : Expected)
  | wrongValue (found : Int) (expected : Expected)
  | wrongLength (found : Nat) (expected : Expected)
  | unknownKind (name : String)
  | missingField (name : String)
  | duplicateField (name : String)
deriving Repr

/-- The text of a decoding error. -/
def DecodeError.message : DecodeError → String
  | .wrongType found expected => s!"invalid type: {describe found}, expected {expected.phrase}"
  | .wrongValue found expected => s!"invalid value: integer `{found}`, expected {expected.phrase}"
  | .wrongLength found expected => s!"invalid length {found}, expected {expected.phrase}"
  | .unknownKind name =>
    let known := String.intercalate ", " (Kind.all.map fun k => s!"`{k.name}`")
    s!"unknown variant `{name}`, expected one of {known}"
  | .missingField name => s!"missing field `{name}`"
  | .duplicateField name => s!"duplicate field `{name}`"

end TreeCheck.Document
