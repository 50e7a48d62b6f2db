/-
A diagnostic is shown with a snippet or inline, and all of it in one way.

The range of a position is computed if the file has its line, and it then
lies in that line (`SourceFile.marks_of_byteRange`). A diagnostic has one
or two positions, and a snippet needs a range for each
(`exists_labels_iff`); where one is missing, the whole is told inline.

Which of both has happened can be read off the text. A heading that tells
a diagnostic inline goes on with the name of the file and a colon. Above
a snippet it goes on with a title, which has no colon, and only below it
come the name and a colon. So the first colon comes later there, whatever
the name is (`inline_ne_snippet`).
-/
import Mathlib.Data.List.Forall2
import TreeCheck.Proofs.Report.Bytes
import TreeCheck.Proofs.Report.Snippet

namespace TreeCheck

open Lines

-- ============================================================= ranges

namespace SourceFile

variable {f : SourceFile} {p : Position} {r : ByteRange}

/-- A range of bytes marks a column of a line of a file: it has at most one byte, it is
in the line and so in the text, and if the line is ASCII and has that column, it is
the byte there. -/
structure MarksIn (f : SourceFile) (l : Line) (column : Nat) (r : ByteRange) : Prop where
  start_le_start : l.start ≤ r.start
  start_le_stop : r.start ≤ r.stop
  stop_le_stop : r.stop ≤ l.stop
  stop_le_length : r.stop ≤ (Utf8.encode f.text).length
  atMostOne : r.stop ≤ r.start + 1
  byte_of_ascii : (∀ c ∈ l.text, c.toNat < 128) → 0 < column →
    ∀ c ∈ l.text[column - 1]?, r = ⟨l.start + (column - 1), l.start + column⟩
      ∧ (Utf8.encode f.text).extract r.start r.stop = [c.toUInt8]

/-- A range of bytes marks a position of a file. -/
def Marks (f : SourceFile) (p : Position) (r : ByteRange) : Prop :=
  ∃ l, f.lines[p.line - 1]? = some l ∧ f.MarksIn l p.column r

theorem byteRange?_eq_some (h : f.byteRange? p = some r) :
    0 < p.line ∧ ∃ l, f.lines[p.line - 1]? = some l
      ∧ r.start = min (l.start + (p.column - 1)) l.stop ∧ r.stop = min (r.start + 1) l.stop := by
  unfold byteRange? at h
  split at h
  case isTrue => cases h
  case isFalse hpositive =>
    obtain ⟨l, hl, rfl⟩ := Option.map_eq_some_iff.mp h
    exact ⟨Nat.pos_of_ne_zero hpositive, l, hl, rfl, rfl⟩

/-- There is a range for a position if the file has its line. -/
theorem exists_byteRange_iff : (∃ r, f.byteRange? p = some r) ↔ f.HasLine p := by
  constructor
  · rintro ⟨r, hr⟩
    obtain ⟨hpositive, l, hl, -⟩ := byteRange?_eq_some hr
    have hlt := (List.getElem?_eq_some_iff.mp hl).1
    exact ⟨hpositive, by omega⟩
  · intro h
    obtain ⟨l, hl⟩ := exists_line h
    obtain ⟨r, hr, -⟩ := exists_byteRange h hl
    exact ⟨r, hr⟩

/-- The range that is computed for a position marks it. -/
theorem marks_of_byteRange (h : f.byteRange? p = some r) : f.Marks p r := by
  obtain ⟨-, l, hl, hstart, hstop⟩ := byteRange?_eq_some h
  have hline : l.start ≤ l.stop := Nat.le_add_right l.start (byteLength l.text)
  have hend : r.stop ≤ l.stop := hstop ▸ Nat.min_le_right _ _
  refine ⟨l, hl, by omega, by omega, hend, Nat.le_trans hend (stop_le_length hl), by omega, ?_⟩
  intro hascii hcolumn c hc
  have hcolumns := (List.getElem?_eq_some_iff.mp hc).1
  have hbytes : l.stop = l.start + l.text.length := by rw [← byteLength_of_ascii hascii]; rfl
  have hrange : r = ⟨l.start + (p.column - 1), l.start + (p.column - 1) + 1⟩ := by
    cases r
    simp only [ByteRange.mk.injEq] at hstart hstop ⊢
    omega
  have hcolumn' : l.start + p.column = l.start + (p.column - 1) + 1 := by omega
  subst hrange
  exact ⟨by rw [hcolumn'], extract_of_ascii hl hascii hc⟩

end SourceFile

-- ============================================================= labels

/-- The places that a diagnostic is about: its own, and that of what explains it. -/
def Diagnostic.positions (d : Diagnostic) : List Position :=
  d.position :: d.related.toList.map (·.position)

/-- What a diagnostic says at its places, with whether the place is its own. -/
def Diagnostic.remarks (d : Diagnostic) : List (Bool × String) :=
  (true, d.message) :: d.related.toList.map fun r => (false, r.message)

namespace Report

variable {f : SourceFile} {d : Diagnostic} {labels : List Snippet.Label}

/-- A diagnostic has labels in a file that has all its lines. -/
theorem exists_labels_iff :
    (∃ labels, labels? f d = some labels) ↔ ∀ p ∈ d.positions, f.HasLine p := by
  simp only [labels?, Option.bind_eq_bind, Diagnostic.positions, List.forall_mem_cons,
    ← SourceFile.exists_byteRange_iff]
  cases d.related with
  | none | some r => simp [Option.bind_eq_some_iff]

/-- The labels of a diagnostic say what it says, each on the range of its place. -/
theorem labels?_eq_some (h : labels? f d = some labels) :
    labels.map (fun m => (m.primary, m.message)) = d.remarks
      ∧ List.Forall₂ (fun p r => f.byteRange? p = some r) d.positions
        (labels.map (·.range)) := by
  obtain ⟨r, hr, h⟩ := Option.bind_eq_some_iff.mp h
  unfold Diagnostic.positions Diagnostic.remarks
  cases hrelated : d.related with
  | none =>
      rw [hrelated] at h
      obtain rfl := Option.some.inj h
      exact ⟨rfl, .cons hr .nil⟩
  | some related =>
      rw [hrelated] at h
      obtain ⟨r', hr', h⟩ := Option.bind_eq_some_iff.mp h
      obtain rfl := Option.some.inj h
      exact ⟨rfl, .cons hr (.cons hr' .nil)⟩

-- ============================================================ what is shown

/-- A diagnostic with a snippet of a file in which labels are drawn. -/
def snippet (f : SourceFile) (d : Diagnostic) (labels : List Snippet.Label) : String :=
  text (diagnosticHeading d d.kind.title :: Snippet.render f labels)

theorem toList_text_cons (line : String) (lines : List String) :
    (text (line :: lines)).toList = line.toList ++ '\n' :: (text lines).toList := by
  simp [text, String.toList_join]

theorem diagnosticHeading_eq (d : Diagnostic) (message : String) :
    diagnosticHeading d message = diagnosticHeading d "" ++ message := by
  simp [diagnosticHeading, heading]

/-- What is told inline: how bad it is, its code, the file and the place in it, and the
message; then in the same way what explains it, as a note. -/
theorem inline_eq (name : String) (d : Diagnostic) :
    inline name d
      = s!"{d.severity.display}[{d.kind.code}]: {name}:{d.position.line}:{d.position.column}: "
        ++ d.message ++ "\n"
        ++ text (d.related.elim [] fun r =>
          note s!"{name}:{r.position.line}:{r.position.column}: {r.message}") := by
  apply String.toList_inj.mp
  rw [inline, toList_text_cons, diagnosticHeading, heading]
  simp [Position.display, toString, String.append_assoc]

/-- Told inline, a diagnostic goes on after its heading with the name of the file and a
colon. -/
theorem exists_toList_inline (name : String) (d : Diagnostic) :
    ∃ s, (inline name d).toList = (diagnosticHeading d "").toList ++ (name.toList ++ ':' :: s) := by
  refine ⟨(d.position.display ++ ": " ++ d.message).toList ++ '\n' :: (text (d.related.elim []
    fun r => note s!"{name}:{r.position.display}: {r.message}")).toList, ?_⟩
  rw [inline, toList_text_cons, diagnosticHeading_eq, String.toList_append, List.append_assoc]
  show _ ++ ((name ++ ":" ++ d.position.display ++ ": " ++ d.message).toList ++ _) = _
  simp

theorem colon_notMem_title (k : DiagnosticKind) : ':' ∉ k.title.toList := by
  cases k <;> decide

/-- Shown with a snippet, it has something without a colon in front of these. -/
theorem exists_toList_snippet (f : SourceFile) (d : Diagnostic) (labels : List Snippet.Label) :
    ∃ pre s, ':' ∉ pre ∧ pre ≠ []
      ∧ (snippet f d labels).toList
        = (diagnosticHeading d "").toList ++ (pre ++ (f.name.toList ++ ':' :: s)) := by
  obtain ⟨y, place, below, hrender⟩ : ∃ y place below, Snippet.render f labels
      = (Snippet.Layout.blank y ++ "┌─ " ++ f.name ++ ":" ++ Position.display place) :: below :=
    ⟨_, _, _, rfl⟩
  refine ⟨d.kind.title.toList ++ '\n' :: (y.blank ++ "┌─ ").toList,
    place.display.toList ++ '\n' :: (text below).toList, ?_, ?_, ?_⟩
  · simp [colon_notMem_title, Snippet.Layout.blank]
  · simp
  · rw [snippet, hrender, toList_text_cons, toList_text_cons, diagnosticHeading_eq]
    simp

/-- The first colon of a text with a name and a colon comes later if something that has
no colon is put in front. -/
theorem append_colon_ne {name pre s t : List Char} (hpre : ':' ∉ pre) (hne : pre ≠ []) :
    name ++ ':' :: s ≠ pre ++ (name ++ ':' :: t) := by
  intro h
  have hplaces := congrArg (List.idxOf ':') h
  rw [List.idxOf_append_of_notMem hpre, List.idxOf_append, List.idxOf_append,
    List.idxOf_cons_self, List.idxOf_cons_self] at hplaces
  have hlength := List.length_pos_iff.mpr hne
  omega

/-- What is told inline is not shown with a snippet of the same file. -/
theorem inline_ne_snippet (f : SourceFile) (d : Diagnostic) (labels : List Snippet.Label) :
    inline f.name d ≠ snippet f d labels := by
  intro h
  obtain ⟨s, hinline⟩ := exists_toList_inline f.name d
  obtain ⟨pre, t, hpre, hne, hsnippet⟩ := exists_toList_snippet f d labels
  rw [h, hsnippet] at hinline
  exact append_colon_ne hpre hne (List.append_cancel_left hinline).symm

-- ========================================================== the result

section

variable {files : List SourceFile} {id : Nat}

/-- In a file that has the lines of its positions a diagnostic is shown with a snippet. -/
theorem diagnostic_of_lines (hf : files[id]? = some f) (h : ∀ p ∈ d.positions, f.HasLine p) :
    ∃ labels, labels? f d = some labels ∧ diagnostic files (.file id) d = snippet f d labels := by
  obtain ⟨labels, hlabels⟩ := exists_labels_iff.mpr h
  refine ⟨labels, hlabels, ?_⟩
  rw [diagnostic, hf, Option.elim_some, inFile, hlabels, snippet]

/-- Without a file, or without a line for one of its positions, it is told inline. -/
theorem diagnostic_of_no_lines (h : ¬ ∃ f ∈ files[id]?, ∀ p ∈ d.positions, f.HasLine p) :
    diagnostic files (.file id) d = inline (files[id]?.elim "" (·.name)) d := by
  rw [diagnostic]
  cases hf : files[id]? with
  | none => rfl
  | some f =>
      have hlabels : labels? f d = none := by
        rw [Option.eq_none_iff_forall_ne_some]
        intro labels hlabels
        exact h ⟨f, hf, exists_labels_iff.mp ⟨labels, hlabels⟩⟩
      rw [Option.elim_some, Option.elim_some, inFile, hlabels]

end

/-- Rendering is all or nothing and in bounds. A diagnostic is shown with a snippet of
a file exactly if the file is registered and has the line of each of its
positions, the related one included; otherwise all of it is told inline, with
the name of the file or with none: severity, code, place and message, and a
note about what explains it. In a snippet everything that it says has a
label, and each label is on a range that marks its position. -/
theorem rendered_all_or_nothing (files : List SourceFile) (id : Nat) (d : Diagnostic) :
    ((∃ f ∈ files[id]?, ∃ labels, diagnostic files (.file id) d = snippet f d labels)
        ↔ ∃ f ∈ files[id]?, ∀ p ∈ d.positions, f.HasLine p)
      ∧ ((¬ ∃ f ∈ files[id]?, ∀ p ∈ d.positions, f.HasLine p) →
        diagnostic files (.file id) d = inline (files[id]?.elim "" (·.name)) d)
      ∧ (∀ name, inline name d
        = s!"{d.severity.display}[{d.kind.code}]: {name}:{d.position.line}:{d.position.column}: "
          ++ d.message ++ "\n"
          ++ text (d.related.elim [] fun r =>
            note s!"{name}:{r.position.line}:{r.position.column}: {r.message}"))
      ∧ ∀ f ∈ files[id]?, (∀ p ∈ d.positions, f.HasLine p) →
        ∃ labels, labels? f d = some labels
          ∧ diagnostic files (.file id) d = snippet f d labels
          ∧ labels.map (fun m => (m.primary, m.message)) = d.remarks
          ∧ List.Forall₂ f.Marks d.positions (labels.map (·.range)) := by
  refine ⟨⟨?snippet, ?lines⟩, diagnostic_of_no_lines, fun name => inline_eq name d, ?labels⟩
  case snippet =>
    rintro ⟨f, hf, labels, hshown⟩
    by_contra hlines
    rw [diagnostic_of_no_lines hlines, hf, Option.elim_some] at hshown
    exact inline_ne_snippet f d labels hshown
  case lines =>
    rintro ⟨f, hf, hlines⟩
    obtain ⟨labels, -, hshown⟩ := diagnostic_of_lines hf hlines
    exact ⟨f, hf, labels, hshown⟩
  case labels =>
    intro f hf hlines
    obtain ⟨labels, hlabels, hshown⟩ := diagnostic_of_lines hf hlines
    obtain ⟨hremarks, hranges⟩ := labels?_eq_some hlabels
    exact ⟨labels, hlabels, hshown, hremarks,
      hranges.imp fun _ _ => SourceFile.marks_of_byteRange⟩

/-- A file whose first line is not ASCII and whose last line has no newline. -/
def accented : SourceFile := ⟨"accented.src", "é = 1;\nx = 2"⟩

/-- A complaint about the last line, explained at some place. -/
def complaintAt (p : Position) : Diagnostic :=
  ⟨.error, .typeMismatch, "mismatch", ⟨2, 5⟩, some ⟨"declared here", p⟩⟩

/-- The digit on the last line is the thirteenth byte. If the explanation is about a line
that is not there, or the file is not registered, all is told inline. -/
theorem rendered_all_or_nothing_accented :
    (∃ labels, diagnostic [accented] (.file 0) (complaintAt ⟨1, 1⟩)
        = snippet accented (complaintAt ⟨1, 1⟩) labels
      ∧ (labels.map (·.range)).head? = some ⟨12, 13⟩)
      ∧ diagnostic [accented] (.file 0) (complaintAt ⟨3, 1⟩)
        = "error[E0003]: accented.src:2:5: mismatch\n = accented.src:3:1: declared here\n\n"
      ∧ diagnostic [accented] (.file 0) (complaintAt ⟨0, 1⟩)
        = "error[E0003]: accented.src:2:5: mismatch\n = accented.src:0:1: declared here\n\n"
      ∧ diagnostic [accented] (.file 1) (complaintAt ⟨1, 1⟩)
        = "error[E0003]: :2:5: mismatch\n = :1:1: declared here\n\n" := by
  have hall := rendered_all_or_nothing [accented]
  refine ⟨?_, ((hall 0 _).2.1 (by decide)).trans (by decide +kernel),
    ((hall 0 _).2.1 (by decide)).trans (by decide +kernel),
    ((hall 1 _).2.1 (by decide)).trans (by decide +kernel)⟩
  obtain ⟨labels, -, hshown, -, hmarks⟩ :=
    (hall 0 (complaintAt ⟨1, 1⟩)).2.2.2 accented rfl (by decide)
  refine ⟨labels, hshown, ?_⟩
  have hline : accented.lines[1]? = some ⟨8, "x = 2".toList⟩ := by decide
  have hascii : ∀ c ∈ "x = 2".toList, c.toNat < 128 := by simp
  cases hranges : labels.map (·.range) with
  | nil =>
      rw [hranges] at hmarks
      cases hmarks
  | cons r rs =>
      rw [hranges] at hmarks
      obtain ⟨⟨l, hl, hmarked⟩, -⟩ := List.forall₂_cons.mp hmarks
      obtain rfl := Option.some.inj (hline.symm.trans hl)
      obtain ⟨hrange, -⟩ := hmarked.byte_of_ascii hascii (by decide) '2' rfl
      rw [hrange]
      rfl

end Report

end TreeCheck
