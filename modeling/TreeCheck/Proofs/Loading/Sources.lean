/-
A document is loaded alike from a text and from a stream.

Loading looks at its source in one place only, where an error of the text
or of the root is given its place. So what is loaded, and what is wrong
with a document that is not, cannot depend on the source, and the places
are those of one stop, by its two counts. The root is put together from
the readers of JSON, so its stops are near for the reasons theirs are.

A stream counts a byte that it has looked at. Where that byte is a line
feed, its count is on the next line already: the two places need not be
on one line.
-/
import Mathlib.Data.List.Infix
import TreeCheck.Document.Load
import TreeCheck.Proofs.Json.Stops

namespace TreeCheck.Document

open Json

-- =============================================================== the root

theorem near_ofSyntax {α β : Type} {r : Except SyntaxError α} {e : SyntaxError} (h : Near r)
    (hr : r = .error e) : Near (.error (ofSyntax e) : Except (Located RootError) β) :=
  near_error (h e hr)

theorem near_readKindName (c : Cursor) : Near (readKindName c) := by
  unfold readKindName
  dsimp only
  split
  · exact near_error (Cursor.near_stopAhead _)
  · split
    · exact near_error (Cursor.near_stop _)
    · split
      · exact near_error (Cursor.near_stop _)
      · split
        · next h => exact near_ofSyntax (near_readScalar _) h
        · split
          · exact near_ok _
          · exact near_error (Cursor.near_stop _)
        · exact near_error (Cursor.near_stop _)

theorem near_repeatedKindStop (c : Cursor) : (repeatedKindStop c).Near := by
  unfold repeatedKindStop
  dsimp only
  split
  · exact Cursor.near_stop _
  · exact Cursor.near_stop _

theorem near_readRootMembers (found first : Bool) (c : Cursor) :
    Near (readRootMembers found first c) := by
  rw [readRootMembers]
  split
  · next h => exact near_ofSyntax (near_readKeyStart first c) h
  · split
    · exact near_ok _
    · exact near_error (Cursor.near_stop _)
  · next d hd =>
    split
    · next h => exact near_ofSyntax (near_readString d) h
    · next key k hk =>
      split
      · exact near_error (near_repeatedKindStop k)
      · split
        · next h => exact near_ofSyntax (near_readColon k) h
        · next v hv =>
          have hlt : v.remaining < c.remaining := Nat.lt_of_le_of_lt (readColon_remaining hv)
            (Nat.lt_trans (readString_remaining hk) (readKeyStart_remaining hd))
          split
          · split
            · next h => exact (near_readKindName v).error h
            · next he =>
              have := readKindName_remaining he
              exact near_map (near_readRootMembers true false _) _
          · split
            · next h => exact near_ofSyntax (near_readValue v) h
            · next e he _ => exact near_map (near_readRootMembers found false e) _
termination_by c.remaining

theorem near_readRoot (c : Cursor) : Near (readRoot c) := by
  unfold readRoot
  dsimp only
  split
  · exact near_error (Cursor.near_stopAhead _)
  · split
    · exact near_map (near_readRootMembers _ _ _) _
    · split
      · split
        · next h => exact near_ofSyntax (near_readItemStart _ _) h
        · exact near_error (Cursor.near_stop _)
        · split
          · next h => exact (near_readKindName _).error h
          · split
            · next h => exact near_ofSyntax (near_readItems _ _) h
            · exact near_ok _
      · split
        · next h => exact near_ofSyntax (near_readScalar _) h
        · exact near_error (Cursor.near_stop _)

-- ================================================================ loading

/-- Two loadings that give the same program, or fail with one message, but
for the places at its end, which are in some relation. -/
inductive LoadedAlike (R : Location → Location → Prop) :
    Except DocumentError Program → Except DocumentError Program → Prop where
  | program (p : Program) : LoadedAlike R (.ok p) (.ok p)
  | failure {e e' : DocumentError}
      (h : (Failure.malformed e).message = (Failure.malformed e').message) :
      LoadedAlike R (.error e) (.error e')
  | placed {e e' : DocumentError} (words : String) {l l' : Location} (h : R l l')
      (hl : (Failure.malformed e).message = words ++ l.phrase)
      (hl' : (Failure.malformed e').message = words ++ l'.phrase) :
      LoadedAlike R (.error e) (.error e')

theorem LoadedAlike.mono {R S : Location → Location → Prop} (h : ∀ {l l'}, R l l' → S l l')
    {a b : Except DocumentError Program} (hab : LoadedAlike R a b) : LoadedAlike S a b := by
  cases hab with
  | program p => exact .program p
  | failure h => exact .failure h
  | placed words hR hl hl' => exact .placed words (h hR) hl hl'

theorem message_root (what : RootError) (l : Location) :
    (Failure.malformed (.root what l)).message = "malformed input: " ++ what.message ++ l.phrase :=
  String.append_assoc.symm

/-- One error of the root, at two places. -/
theorem LoadedAlike.root {R : Location → Location → Prop} {l l' : Location} (h : R l l')
    (what : RootError) : LoadedAlike R (.error (.root what l)) (.error (.root what l')) :=
  .placed _ h (message_root what l) (message_root what l')

/-- The same bytes are loaded alike by both readers: the place that the
stream gives to an error is the text's, or one byte further. -/
theorem load_sources (bytes : List UInt8) :
    LoadedAlike Location.Ahead (load .text bytes) (load .stream bytes) := by
  unfold load
  cases hroot : readRoot { rest := bytes } with
  | error e => exact .root (near_readRoot _ e hroot) e.what
  | ok r =>
    obtain ⟨v, rest⟩ := r
    dsimp only
    cases decode v with
    | error e => exact .failure rfl
    | ok node =>
      dsimp only
      cases hfinish : finish rest with
      | error e => exact .root (near_finish _ e hfinish) (.malformed e.what)
      | ok u =>
        cases lower node with
        | error e => exact .failure rfl
        | ok p => exact .program p

/-- Every text and its bytes are loaded alike. Where both fail, the messages
are equal up to a place at their end, and there the stream's place is the
text's, the next column, or the beginning of the next line. -/
theorem loadText_alike_loadStream (text : String) :
    LoadedAlike (fun l l' => l' = l ∨ l' = ⟨l.line, l.column + 1⟩ ∨ l' = ⟨l.line + 1, 0⟩)
      (loadText text) (loadStream (Utf8.encode text)) :=
  (load_sources (Utf8.encode text)).mono Location.Ahead.cases_eq

/-- A message that ends in a place begins with all that is before the column. -/
theorem prefix_of_placed {message words : String} {l : Location} (h : message = words ++ l.phrase) :
    (words ++ " at line " ++ toString l.line ++ " column ").toList <+: message.toList := by
  refine ⟨(toString l.column).toList, ?_⟩
  rw [← String.toList_append, h]
  simp only [Location.phrase, String.append_assoc]
  rfl

/-- A number out of range with a line feed after it: the stream has looked
at the line feed, and is on the next line. -/
theorem loadStream_nextLine :
    ¬ LoadedAlike (fun l l' => l.line = l'.line)
      (loadText "1e999\n") (loadStream (Utf8.encode "1e999\n")) := by
  have htext : loadText "1e999\n" =
      .error (.root (.malformed .numberOutOfRange) ⟨1, 5⟩) := rfl
  have hstream : loadStream (Utf8.encode "1e999\n") =
      .error (.root (.malformed .numberOutOfRange) ⟨2, 0⟩) := rfl
  -- the two messages part at the number of the line, before any column is named
  have hpart : ∀ pre ∈ "malformed input: number out of range at line 1 column 5".toList.inits,
      " column ".toList <:+ pre →
      ¬ pre <+: "malformed input: number out of range at line 2 column 0".toList := by
    decide +kernel
  rw [htext, hstream]
  intro h
  cases h with
  | failure h => exact absurd h (by decide)
  | @placed _ _ words l l' hline hl hl' =>
    have hl := prefix_of_placed hl
    have hl' := prefix_of_placed hl'
    rw [← hline] at hl'
    refine hpart _ ((List.mem_inits _ _).2 hl) ?_ hl'
    rw [String.toList_append]
    exact List.suffix_append _ _

end TreeCheck.Document
