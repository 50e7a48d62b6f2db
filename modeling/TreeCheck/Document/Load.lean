/-
Loading: from the bytes of a document to a program, in four steps that
each can fail — the root is read, decoded, nothing may follow it, and
the nodes are lowered. The first step to fail decides what is reported.
-/
import TreeCheck.Document.Decode
import TreeCheck.Failure

namespace TreeCheck.Document

/-- Loads a program from the bytes of a document that comes from some
source. -/
def load (source : Json.Source) (bytes : List UInt8) : Except DocumentError Program :=
  match readRoot { rest := bytes } with
  | .error e => .error (.root e.what (e.stop.location source))
  | .ok (v, rest) =>
    match decode v with
    | .error e => .error (.decode e)
    | .ok node =>
      match Json.finish rest with
      | .error e => .error (.root (.malformed e.what) (e.stop.location source))
      | .ok () => (lower node).mapError .lower

/-- Loads a program from a text. -/
def loadText (text : String) : Except DocumentError Program := load .text (Utf8.encode text)

/-- Loads a program from bytes that arrive one by one. -/
def loadStream (bytes : List UInt8) : Except DocumentError Program := load .stream bytes

end TreeCheck.Document
