/-
The line that a snippet points at.

A snippet takes the line in its header and the numbers beside its source
lines from the place where a label starts (`Snippet.pointsAt_place`), so
it points at the line of a position if the place that is computed for the
position is in that line. The place is the byte that the column selects,
but no later than where the line stops, its terminator included. For the
last line this is still a place of the line. For any other line it is the
first place of the next one, and the snippet points there
(`SourceFile.showsAt_next`).
-/
import TreeCheck.Proofs.Report.Lines
import TreeCheck.Report.Human

namespace TreeCheck

open Lines

namespace Snippet

-- ============================================================ what is drawn

theorem mem_insertLabel {l m : Label} {ls : List Label} :
    m ∈ insertLabel l ls ↔ m = l ∨ m ∈ ls := by
  induction ls with
  | nil => exact List.mem_cons
  | cons k ls ih =>
    unfold insertLabel
    split
    · rw [List.mem_cons, ih, List.mem_cons]
      exact or_left_comm
    · exact List.mem_cons

theorem mem_foldl_insertLabel {m : Label} {ls drawn : List Label} :
    m ∈ ls.foldl (fun ls l => insertLabel l ls) drawn ↔ m ∈ ls ∨ m ∈ drawn := by
  induction ls generalizing drawn with
  | nil => simp only [List.foldl_nil, List.not_mem_nil, false_or]
  | cons l ls ih =>
    rw [List.foldl_cons, ih, mem_insertLabel, List.mem_cons, or_assoc]
    exact or_left_comm

theorem mem_touched {placed : List Placed} {p : Placed} (h : p ∈ placed) :
    p.firstLine ∈ touched placed := by
  unfold touched
  rw [List.mem_eraseDups, List.mem_mergeSort, List.mem_flatMap]
  exact ⟨p, h, List.mem_cons_self⟩

/-- The lines of a snippet are drawn each with its number and its text. -/
theorem sourceLine_mem_body (y : Layout) (f : SourceFile) (placed : List Placed) {i : Nat}
    {is : List Nat} (h : i ∈ is) :
    sourceLine y (lineWith f placed i) ∈ body y f placed is := by
  induction is with
  | nil => cases h
  | cons j is ih =>
    simp only [body]
    rcases List.mem_cons.mp h with rfl | h
    · rw [List.append_assoc]
      exact List.mem_append_left _ List.mem_cons_self
    · exact List.mem_append_right _ (ih h)

/-- A label begins on a line of a snippet: carets are drawn under it there, or an
arc goes out from it. -/
def AnnotatedLine.Begins (l : AnnotatedLine) (m : Label) : Prop :=
  (∃ m' ∈ l.labels, m'.primary = m.primary ∧ m'.message = m.message)
    ∨ ∃ a ∈ l.arcs, a.primary = m.primary ∧ ∃ start, a.edge = .top start

theorem begins_lineWith (f : SourceFile) {placed : List Placed} {p : Placed} (h : p ∈ placed) :
    (lineWith f placed p.firstLine).Begins p.label := by
  cases hsingle : p.isSingle with
  | true =>
    refine .inl ⟨{ p.label with range := ⟨p.start, max p.stop (p.start + 1)⟩ }, ?_, rfl, rfl⟩
    unfold lineWith
    rw [mem_foldl_insertLabel, List.mem_map]
    refine .inl ⟨p, ?_, rfl⟩
    rw [List.mem_filter]
    exact ⟨h, by simp [hsingle]⟩
  | false =>
    have hmulti : p ∈ placed.filter (!·.isSingle) :=
      List.mem_filter.mpr ⟨h, by simp [hsingle]⟩
    obtain ⟨column, hcolumn⟩ := List.mem_iff_getElem?.mp hmulti
    refine .inr ⟨⟨column, p.label.primary, .top p.start⟩, ?_, rfl, p.start, rfl⟩
    refine List.mem_flatMap.mpr ⟨(p, column), List.mk_mem_zipIdx_iff_getElem?.mpr hcolumn, ?_⟩
    show _ ∈ p.arcs column p.firstLine
    unfold Placed.arcs
    rw [if_pos rfl]
    exact List.mem_append_left _ List.mem_cons_self

/-- A snippet points at a line for a label: the header says so, and the label
begins on a source line with this number. -/
def PointsAt (f : SourceFile) (labels : List Label) (label : Label) (line : Nat) : Prop :=
  ∃ (y : Layout) (column : Nat) (below : List String),
    render f labels
        = (y.blank ++ "┌─ " ++ f.name ++ ":" ++ Position.display ⟨line, column⟩) :: below
      ∧ ∃ l : AnnotatedLine, l.number = line ∧ l.Begins label ∧ sourceLine y l ∈ below

/-- A snippet is its header, with the place where the first label starts, and the
lines that labels touch. -/
theorem render_cons (f : SourceFile) (label : Label) (rest : List Label) :
    ∃ y gutter, render f (label :: rest)
      = (y.blank ++ "┌─ " ++ f.name ++ ":" ++ (f.location label.range.start).display) :: gutter
        :: body y f ((label :: rest).map (place f)) (touched ((label :: rest).map (place f))) :=
  ⟨_, _, rfl⟩

/-- A snippet points at the line that its first label starts in. -/
theorem pointsAt_place (f : SourceFile) (label : Label) (rest : List Label) :
    PointsAt f (label :: rest) label (lineOf f.lines label.range.start + 1) := by
  obtain ⟨y, gutter, hrender⟩ := render_cons f label rest
  have hline : (f.location label.range.start).line = lineOf f.lines label.range.start + 1 := by
    unfold SourceFile.location
    dsimp only
    split <;> rfl
  have hmem : place f label ∈ (label :: rest).map (place f) := List.mem_cons_self
  have hsource :=
    sourceLine_mem_body y f ((label :: rest).map (place f)) (mem_touched hmem)
  refine ⟨y, (f.location label.range.start).column, _, ?_, _, rfl, begins_lineWith f hmem,
    List.mem_cons_of_mem gutter hsource⟩
  rw [hrender, ← hline]

end Snippet

-- =========================================================== positions

namespace SourceFile

variable {f : SourceFile} {p : Position}

/-- A file has the line of a position. -/
def HasLine (f : SourceFile) (p : Position) : Prop := 0 < p.line ∧ p.line ≤ f.lines.length

/-- The column of a position is past all bytes of its line, the terminator
included, and the line is not the last. -/
def Overruns (f : SourceFile) (p : Position) : Prop :=
  ∃ l ∈ f.lines[p.line - 1]?, byteLength l.text ≤ p.column - 1 ∧ p.line < f.lines.length

instance : Decidable (f.HasLine p) :=
  inferInstanceAs (Decidable (0 < p.line ∧ p.line ≤ f.lines.length))

instance : Decidable (f.Overruns p) :=
  inferInstanceAs (Decidable (∃ l ∈ f.lines[p.line - 1]?,
    byteLength l.text ≤ p.column - 1 ∧ p.line < f.lines.length))

/-- Diagnostics at a position are shown at a line of a file: the range that is
computed for the position starts in that line, and a snippet with such a
diagnostic points at it. -/
def ShowsAt (f : SourceFile) (p : Position) (line : Nat) : Prop :=
  ∃ r l, f.byteRange? p = some r
    ∧ f.lines[line - 1]? = some l ∧ Holds f.lines (line - 1) l r.start
    ∧ ∀ d labels, d.position = p → Report.labels? f d = some labels →
      Snippet.PointsAt f labels ⟨true, r, d.message⟩ line

theorem exists_line (h : f.HasLine p) : ∃ l, f.lines[p.line - 1]? = some l := by
  obtain ⟨hpositive, hle⟩ := h
  exact ⟨f.lines[p.line - 1], List.getElem?_eq_getElem (by omega)⟩

/-- The first label of a diagnostic is on the range of its position. -/
theorem labels_eq_cons {d : Diagnostic} {labels : List Snippet.Label} {r : ByteRange}
    (hr : f.byteRange? d.position = some r) (h : Report.labels? f d = some labels) :
    ∃ rest, labels = ⟨true, r, d.message⟩ :: rest := by
  simp only [Report.labels?, Option.bind_eq_bind, hr, Option.bind_some] at h
  split at h
  · cases h
    exact ⟨[], rfl⟩
  · obtain ⟨range, -, h⟩ := Option.bind_eq_some_iff.mp h
    cases h
    exact ⟨_, rfl⟩

/-- What starts in a line is shown there. -/
theorem showsAt_of_holds {r : ByteRange} {i : Nat} {l : Line}
    (hr : f.byteRange? p = some r) (hl : f.lines[i]? = some l)
    (h : Holds f.lines i l r.start) : f.ShowsAt p (i + 1) := by
  refine ⟨r, l, hr, hl, h, ?_⟩
  rintro d labels rfl hlabels
  obtain ⟨rest, rfl⟩ := labels_eq_cons hr hlabels
  have hpoints := Snippet.pointsAt_place f ⟨true, r, d.message⟩ rest
  rw [show lineOf f.lines r.start = i from lineOf_eq hl h] at hpoints
  exact hpoints

/-- The range of a position starts at its column, or else where its line
stops. -/
theorem exists_byteRange {l : Line} (h : f.HasLine p) (hl : f.lines[p.line - 1]? = some l) :
    ∃ r, f.byteRange? p = some r ∧ r.start = min (l.start + (p.column - 1)) l.stop := by
  have hne : ¬ p.line = 0 := Nat.ne_of_gt h.1
  unfold byteRange?
  rw [if_neg hne, hl, Option.map_some]
  exact ⟨_, rfl, rfl⟩

/-- A column past the bytes of a line selects the place where it stops. -/
theorem exists_byteRange_stop {l : Line} (h : f.HasLine p) (hl : f.lines[p.line - 1]? = some l)
    (hcolumn : byteLength l.text ≤ p.column - 1) :
    ∃ r, f.byteRange? p = some r ∧ r.start = l.stop := by
  obtain ⟨r, hr, hstart⟩ := exists_byteRange h hl
  refine ⟨r, hr, ?_⟩
  rw [hstart]
  exact Nat.min_eq_right (Nat.add_le_add_left hcolumn l.start)

/-- Where the column is past the bytes of a line that is not the last, a
diagnostic is shown at the next line. -/
theorem showsAt_next (h : f.HasLine p) (hoverruns : f.Overruns p) :
    f.ShowsAt p (p.line + 1) := by
  obtain ⟨l, hl, hcolumn, hlast⟩ := hoverruns
  obtain ⟨m, hm⟩ : ∃ m, f.lines[p.line]? = some m := ⟨_, List.getElem?_eq_getElem hlast⟩
  obtain ⟨r, hr, hstart⟩ := exists_byteRange_stop h hl hcolumn
  have hnext : p.line - 1 + 1 = p.line := Nat.sub_add_cancel h.1
  have hstop : l.stop = m.start := by
    rw [← hnext] at hm
    exact stop_eq_start hl hm
  refine showsAt_of_holds hr hm ?_
  rw [hstart, hstop]
  exact holds_start hm

/-- Such a diagnostic is not shown at the line of its position. -/
theorem not_showsAt_line (h : f.HasLine p) (hoverruns : f.Overruns p) :
    ¬ f.ShowsAt p p.line := by
  obtain ⟨l, hl, hcolumn, hlast⟩ := hoverruns
  rintro ⟨r, m, hr, hm, ⟨-, hin⟩, -⟩
  obtain rfl := Option.some.inj (hl.symm.trans hm)
  obtain ⟨r', hr', hstart⟩ := exists_byteRange_stop h hl hcolumn
  obtain rfl := Option.some.inj (hr.symm.trans hr')
  have hpositive := h.1
  omega

/-- A diagnostic at a position is shown at the line of the position, for every
position whose line the file has, except where the column is past the
bytes of its line and another line follows. -/
theorem showsAt_line_iff (h : f.HasLine p) : f.ShowsAt p p.line ↔ ¬ f.Overruns p := by
  constructor
  · intro hshows hoverruns
    exact not_showsAt_line h hoverruns hshows
  · intro hwithin
    obtain ⟨l, hl⟩ := exists_line h
    obtain ⟨r, hr, hstart⟩ := exists_byteRange h hl
    have hnext : p.line - 1 + 1 = p.line := Nat.sub_add_cancel h.1
    have hholds : Holds f.lines (p.line - 1) l r.start := by
      rw [hstart]
      refine ⟨by simp only [Line.stop]; omega, ?_⟩
      by_cases hcolumn : byteLength l.text ≤ p.column - 1
      · have hlast : ¬ p.line < f.lines.length := fun hlt => hwithin ⟨l, hl, hcolumn, hlt⟩
        have hle := h.2
        refine .inr ⟨?_, by omega⟩
        exact Nat.min_eq_right (Nat.add_le_add_left hcolumn l.start)
      · refine .inl ?_
        simp only [Line.stop]
        omega
    have hshows := showsAt_of_holds hr hl hholds
    rwa [hnext] at hshows

/-- A line of four bytes and one of two, the first with a newline. -/
def twoLines : SourceFile := ⟨"two.src", "one\nto"⟩

/-- The newline is on its own line, and a column past the end of the text on the
last one. -/
theorem showsAt_line_twoLines :
    twoLines.HasLine ⟨1, 4⟩ ∧ twoLines.ShowsAt ⟨1, 4⟩ 1
      ∧ twoLines.HasLine ⟨2, 9⟩ ∧ twoLines.ShowsAt ⟨2, 9⟩ 2 := by
  have hfirst : twoLines.HasLine ⟨1, 4⟩ := by decide
  have hlast : twoLines.HasLine ⟨2, 9⟩ := by decide
  exact ⟨hfirst, (showsAt_line_iff hfirst).mpr (by decide), hlast,
    (showsAt_line_iff hlast).mpr (by decide)⟩

/-- A column past the newline is shown on the line below. -/
theorem overrun_twoLines :
    twoLines.HasLine ⟨1, 9⟩ ∧ ¬ twoLines.ShowsAt ⟨1, 9⟩ 1 ∧ twoLines.ShowsAt ⟨1, 9⟩ 2 :=
  ⟨by decide, not_showsAt_line (by decide) (by decide), showsAt_next (by decide) (by decide)⟩

end SourceFile

end TreeCheck
