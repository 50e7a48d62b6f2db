/-
Reading the root of a document.

The kind of the root is checked as it is read, so what is wrong with it
is reported with its place and before anything that follows it. Its
other fields are kept as they are, and looked at when the whole root has
been read. A root that is accepted here is the value that reading
without the check gives.
-/
import TreeCheck.Document.DecodeError
import TreeCheck.Json.Reader

namespace TreeCheck.Document

open Json

/-- What can be wrong with a root while it is read. -/
inductive RootError where
  | malformed (cause : SyntaxCause)
  | decode (error : DecodeError)

/-- The text of what is wrong with a root. -/
def RootError.message : RootError → String
  | .malformed c => c.message
  | .decode e => e.message

/-- A syntax error as an error of the root. -/
def ofSyntax (e : SyntaxError) : Located RootError := ⟨.malformed e.what, e.stop⟩

/-- Reads the name of the root's kind, which here is no number. An array
or object in its place is refused at its first byte. -/
def readKindName (c : Cursor) : Except (Located RootError) (String × Cursor) :=
  let s := c.skipBlanks
  match s.rest with
  | [] => .error ⟨.malformed .endInValue, s.stopAhead⟩
  | b :: _ =>
    if b = byte '[' then .error ⟨.decode (.wrongType (.array []) .kindName), s.stop⟩
    else if b = byte '\x7b' then .error ⟨.decode (.wrongType (.object []) .kindName), s.stop⟩
    else match readScalar s with
      | .error e => .error (ofSyntax e)
      | .ok (.string name, d) =>
        if (Kind.ofName? name).isSome then .ok (name, d)
        else .error ⟨.decode (.unknownKind name), d.stop⟩
      | .ok (v, d) => .error ⟨.decode (.wrongType v .kindName), d.stop⟩

theorem readKindName_remaining {c d : Cursor} {name : String}
    (h : readKindName c = .ok (name, d)) : d.remaining < c.remaining := by
  have hs : c.skipBlanks.remaining ≤ c.remaining := Cursor.remaining_skipWhile_le _ _
  unfold readKindName at h
  simp only at h
  split at h
  · contradiction
  · split at h
    · contradiction
    · split at h
      · contradiction
      · split at h
        · contradiction
        · rename_i hr
          split at h
          · cases h
            exact Nat.lt_of_lt_of_le (readScalar_remaining hr) hs
          · contradiction
        · contradiction

/-- Where a second kind is noticed: once the blanks after its key have
been skipped, and also a bracket that ends the object there. -/
def repeatedKindStop (c : Cursor) : Stop :=
  let s := c.skipBlanks
  if s.rest.head? = some (byte '\x7d') then s.step.stop else s.stop

/-- Reads the members of a root object that are still to come, and its
end. `found` says whether its kind has been read. -/
def readRootMembers (found first : Bool) (c : Cursor) :
    Except (Located RootError) (List (String × Value) × Cursor) :=
  match h : readKeyStart first c with
  | .error e => .error (ofSyntax e)
  | .ok (false, d) =>
    if found then .ok ([], d) else .error ⟨.decode (.missingField "kind"), d.stop⟩
  | .ok (true, d) =>
    match hs : readString d with
    | .error e => .error (ofSyntax e)
    | .ok (key, k) =>
      if key = "kind" ∧ found then .error ⟨.decode (.duplicateField "kind"), repeatedKindStop k⟩
      else match hc : readColon k with
        | .error e => .error (ofSyntax e)
        | .ok v =>
          have hv : v.remaining < c.remaining := Nat.lt_of_le_of_lt (readColon_remaining hc)
            (Nat.lt_trans (readString_remaining hs) (readKeyStart_remaining h))
          if key = "kind" then
            match hk : readKindName v with
            | .error e => .error e
            | .ok (name, e) =>
              have _he := Nat.lt_trans (readKindName_remaining hk) hv
              (readRootMembers true false e).map fun (ms, f) => ((key, .string name) :: ms, f)
          else
            match readValue v with
            | .error e => .error (ofSyntax e)
            | .ok (value, ⟨e, he⟩) =>
              have _he := Nat.lt_trans he hv
              (readRootMembers found false e).map fun (ms, f) => ((key, value) :: ms, f)
termination_by c.remaining

/-- Reads the root of a document. -/
def readRoot (c : Cursor) : Except (Located RootError) (Value × Cursor) :=
  let s := c.skipBlanks
  match s.rest with
  | [] => .error ⟨.malformed .endInValue, s.stopAhead⟩
  | b :: _ =>
    if b = byte '\x7b' then (readRootMembers false true s.step).map fun (ms, d) => (.object ms, d)
    else if b = byte '[' then
      match readItemStart true s.step with
      | .error e => .error (ofSyntax e)
      | .ok (false, d) => .error ⟨.decode (.missingField "kind"), d.stop⟩
      | .ok (true, d) =>
        match readKindName d with
        | .error e => .error e
        | .ok (name, e) =>
          match readItems false e with
          | .error e => .error (ofSyntax e)
          | .ok (vs, ⟨f, _⟩) => .ok (.array (.string name :: vs), f)
    else match readScalar s with
      | .error e => .error (ofSyntax e)
      | .ok (v, d) => .error ⟨.decode (.wrongType v .node), d.stop⟩

end TreeCheck.Document
