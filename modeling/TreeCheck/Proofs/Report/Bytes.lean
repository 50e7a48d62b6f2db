/-
Which bytes of a text a line has.

The lines of a text for indexing are all of it, cut into pieces: in front
of a line there is text with as many bytes as the line's place says, and
behind it there is the rest (`exists_around`). So a line ends within the
text, and the byte at a place of an ASCII line is the character there,
whatever the lines around it are written in.
-/
import TreeCheck.Proofs.Report.Lines
import TreeCheck.Text.Utf8

namespace TreeCheck.Lines

/-- The bytes of some characters. -/
def bytes (cs : List Char) : List UInt8 := cs.flatMap String.utf8EncodeChar

-- ======================================================== characters

theorem bytes_append (cs ds : List Char) : bytes (cs ++ ds) = bytes cs ++ bytes ds :=
  List.flatMap_append

theorem length_bytes (cs : List Char) : (bytes cs).length = byteLength cs := by
  induction cs with
  | nil => rfl
  | cons c cs ih =>
      rw [bytes, List.flatMap_cons, List.length_append, String.length_utf8EncodeChar, ← bytes,
        ih]
      rfl

theorem byteLength_append (cs ds : List Char) :
    byteLength (cs ++ ds) = byteLength cs + byteLength ds := by
  rw [← length_bytes, bytes_append, List.length_append, length_bytes, length_bytes]

/-- An ASCII character is one byte. -/
theorem encode_of_ascii {c : Char} (h : c.toNat < 128) :
    String.utf8EncodeChar c = [c.toUInt8] := by
  have hsize : c.utf8Size = 1 := Char.utf8Size_eq_one_iff.mpr (Nat.le_of_lt_succ h)
  exact String.utf8EncodeChar_eq_singleton hsize

theorem bytes_of_ascii {cs : List Char} (h : ∀ c ∈ cs, c.toNat < 128) :
    bytes cs = cs.map Char.toUInt8 := by
  induction cs with
  | nil => rfl
  | cons c cs ih =>
      obtain ⟨hc, hcs⟩ := List.forall_mem_cons.mp h
      rw [bytes, List.flatMap_cons, encode_of_ascii hc, ← bytes, ih hcs]
      rfl

theorem byteLength_of_ascii {cs : List Char} (h : ∀ c ∈ cs, c.toNat < 128) :
    byteLength cs = cs.length := by
  rw [← length_bytes, bytes_of_ascii h, List.length_map]

-- ============================================================= lines

theorem flatten_pieces (cs : List Char) : (pieces cs).flatten = cs := by
  induction cs with
  | nil => rfl
  | cons c cs ih =>
      unfold pieces
      split
      case isTrue => rw [List.flatten_cons, ih, List.singleton_append]
      case isFalse =>
        cases hpieces : pieces cs with
        | nil =>
            rw [hpieces, List.flatten_nil] at ih
            rw [← ih]
            rfl
        | cons p ps =>
            rw [hpieces] at ih
            rw [List.flatten_cons, List.cons_append, ← List.flatten_cons, ih]

/-- Around a piece there is the rest of all pieces, and its place counts the bytes in
front of it. -/
theorem exists_around {start : Nat} {ps : List (List Char)} {i : Nat} {l : Line}
    (hl : (locate start ps)[i]? = some l) :
    ∃ before after, ps.flatten = before ++ (l.text ++ after)
      ∧ l.start = start + byteLength before := by
  induction ps generalizing start i with
  | nil => cases hl
  | cons p ps ih =>
      cases i with
      | zero =>
          cases hl
          exact ⟨[], ps.flatten, List.flatten_cons, rfl⟩
      | succ i =>
          rw [locate, List.getElem?_cons_succ] at hl
          obtain ⟨before, after, htext, hstart⟩ := ih hl
          refine ⟨p ++ before, after, ?_, ?_⟩
          · rw [List.flatten_cons, htext, List.append_assoc]
          · rw [hstart, byteLength_append, Nat.add_assoc]

section

variable {text : String} {i : Nat} {l : Line}

/-- A line of a text, with the bytes around it. -/
theorem exists_bytes_around (hl : (index text)[i]? = some l) :
    ∃ before after, Utf8.encode text = before ++ (bytes l.text ++ after)
      ∧ before.length = l.start := by
  obtain ⟨before, after, htext, hstart⟩ := exists_around hl
  rw [flatten_pieces] at htext
  refine ⟨bytes before, bytes after, ?_, ?_⟩
  · rw [← bytes_append, ← bytes_append, ← htext]
    rfl
  · rw [length_bytes, hstart, Nat.zero_add]

/-- A line ends within the text. -/
theorem stop_le_length (hl : (index text)[i]? = some l) :
    l.stop ≤ (Utf8.encode text).length := by
  obtain ⟨before, after, htext, hstart⟩ := exists_bytes_around hl
  rw [htext, List.length_append, List.length_append, hstart, length_bytes, ← Nat.add_assoc]
  exact Nat.le_add_right l.stop after.length

/-- The byte at a place of an ASCII line is the character there. -/
theorem extract_of_ascii (hl : (index text)[i]? = some l) (hascii : ∀ c ∈ l.text, c.toNat < 128)
    {k : Nat} {c : Char} (hc : l.text[k]? = some c) :
    (Utf8.encode text).extract (l.start + k) (l.start + k + 1) = [c.toUInt8] := by
  obtain ⟨before, after, htext, hstart⟩ := exists_bytes_around hl
  have hbyte : (bytes l.text ++ after)[k]? = some c.toUInt8 := by
    have hmap : (l.text.map Char.toUInt8)[k]? = some c.toUInt8 := by
      rw [List.getElem?_map, hc, Option.map_some]
    rw [bytes_of_ascii hascii,
      List.getElem?_append_left (List.getElem?_eq_some_iff.mp hmap).1, hmap]
  rw [List.extract_eq_take_drop, Nat.add_sub_cancel_left, htext, ← hstart,
    List.drop_length_add_append, List.take_one, List.head?_drop, hbyte, Option.toList_some]

end

end TreeCheck.Lines
