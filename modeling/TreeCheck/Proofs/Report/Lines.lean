/-
Which line of a text a byte is in.

The lines of a text for indexing stand one behind the other: each starts
where the one before it stops (`locate`). So the lines that do not start
after a byte of a line are this line and those before it, and their
number gives the line back (`lineOf_eq`). The place behind the last byte
of the text counts as one of the last line.
-/
import TreeCheck.Report.Source

namespace TreeCheck.Lines

/-- A place is in a line if it is one of its bytes, or the line is the last
and the place is where it stops. -/
def Holds (ls : List Line) (i : Nat) (l : Line) (place : Nat) : Prop :=
  l.start ≤ place ∧ (place < l.stop ∨ place = l.stop ∧ i + 1 = ls.length)

-- ================================================================= order

theorem le_start_of_mem_locate {start : Nat} {ps : List (List Char)} {l : Line}
    (h : l ∈ locate start ps) : start ≤ l.start := by
  induction ps generalizing start with
  | nil => cases h
  | cons p ps ih =>
    rw [locate, List.mem_cons] at h
    rcases h with rfl | h
    · exact Nat.le_refl start
    · exact Nat.le_trans (Nat.le_add_right start (byteLength p)) (ih h)

/-- A line that is followed by another one stops where that one starts. -/
theorem stop_eq_start {start : Nat} {ps : List (List Char)} {i : Nat} {l m : Line}
    (hl : (locate start ps)[i]? = some l) (hm : (locate start ps)[i + 1]? = some m) :
    l.stop = m.start := by
  induction ps generalizing start i with
  | nil => cases hl
  | cons p ps ih =>
    rw [locate, List.getElem?_cons_succ] at hm
    cases i with
    | zero =>
      cases ps with
      | nil => cases hm
      | cons q ps =>
        cases hl
        cases hm
        rfl
    | succ i =>
      rw [locate, List.getElem?_cons_succ] at hl
      exact ih hl hm

theorem length_locate (start : Nat) (ps : List (List Char)) :
    (locate start ps).length = ps.length := by
  induction ps generalizing start with
  | nil => rfl
  | cons p ps ih => rw [locate, List.length_cons, ih, List.length_cons]

/-- Each line is a piece of the text. -/
theorem piece_of_locate {start : Nat} {ps : List (List Char)} {i : Nat} {l : Line}
    (hl : (locate start ps)[i]? = some l) : ps[i]? = some l.text := by
  induction ps generalizing start i with
  | nil => cases hl
  | cons p ps ih =>
    cases i with
    | zero =>
      cases hl
      rfl
    | succ i =>
      rw [locate, List.getElem?_cons_succ] at hl
      rw [List.getElem?_cons_succ]
      exact ih hl

/-- A piece of a text that is not the last has a character, its newline. -/
theorem ne_nil_of_pieces {cs p : List Char} {i : Nat} (hp : (pieces cs)[i]? = some p)
    (hi : i + 1 < (pieces cs).length) : p ≠ [] := by
  induction cs generalizing i p with
  | nil =>
    rw [pieces, List.length_singleton] at hi
    omega
  | cons c cs ih =>
    unfold pieces at hp hi
    split at hp
    · rename_i hnewline
      rw [if_pos hnewline, List.length_cons] at hi
      cases i with
      | zero =>
        cases hp
        exact List.cons_ne_nil c []
      | succ i =>
        rw [List.getElem?_cons_succ] at hp
        exact ih hp (by omega)
    · rename_i hnewline
      rw [if_neg hnewline] at hi
      cases hpieces : pieces cs with
      | nil =>
        rw [hpieces, List.length_singleton] at hi
        omega
      | cons q qs =>
        rw [hpieces] at hp hi ih
        rw [List.length_cons] at hi
        cases i with
        | zero =>
          cases hp
          exact List.cons_ne_nil c q
        | succ i =>
          rw [List.getElem?_cons_succ] at hp
          refine ih (i := i + 1) ?_ ?_
          · rw [List.getElem?_cons_succ]
            exact hp
          · rw [List.length_cons]
            exact hi

/-- A line holds the place where it starts. -/
theorem holds_start {text : String} {i : Nat} {l : Line} (hl : (index text)[i]? = some l) :
    Holds (index text) i l l.start := by
  refine ⟨Nat.le_refl l.start, ?_⟩
  have hi := (List.getElem?_eq_some_iff.mp hl).1
  have hpiece := piece_of_locate hl
  rw [index, length_locate] at hi ⊢
  unfold Line.stop
  cases htext : l.text with
  | nil =>
    rw [htext] at hpiece
    have hlast : ¬ i + 1 < (pieces text.toList).length := fun hlt => ne_nil_of_pieces hpiece hlt rfl
    exact .inr ⟨rfl, by omega⟩
  | cons c cs =>
    have hpositive := c.utf8Size_pos
    refine .inl ?_
    rw [byteLength, List.foldr_cons]
    omega

/-- The lines that do not start after a place are those up to its own. -/
theorem countP_locate {start : Nat} {ps : List (List Char)} {i : Nat} {l : Line} {place : Nat}
    (hl : (locate start ps)[i]? = some l) (h : Holds (locate start ps) i l place) :
    (locate start ps).countP (·.start ≤ place) = i + 1 := by
  induction ps generalizing start i with
  | nil => cases hl
  | cons p ps ih =>
    obtain ⟨hstart, hstop⟩ := h
    rw [locate] at hl hstop ⊢
    have hmem := List.mem_of_getElem? hl
    rw [List.length_cons] at hstop
    have hfirst : start ≤ place := by
      rw [← locate] at hmem
      exact Nat.le_trans (le_start_of_mem_locate hmem) hstart
    rw [List.countP_cons_of_pos (by simpa using hfirst)]
    cases i with
    | zero =>
      cases hl
      have hrest : (locate (start + byteLength p) ps).countP (·.start ≤ place) = 0 := by
        rw [List.countP_eq_zero]
        intro m hm
        have hle := le_start_of_mem_locate hm
        rcases hstop with hlt | ⟨-, hlast⟩
        · simp only [Line.stop] at hlt
          simp only [decide_eq_true_eq]
          omega
        · have hempty : (locate (start + byteLength p) ps).length = 0 := by omega
          rw [List.length_eq_zero_iff.mp hempty] at hm
          cases hm
      rw [hrest]
    | succ i =>
      rw [List.getElem?_cons_succ] at hl
      rw [ih hl ⟨hstart, ?_⟩]
      rcases hstop with hlt | ⟨heq, hlast⟩
      · exact .inl hlt
      · exact .inr ⟨heq, by omega⟩

/-- The line that a place is found in is the one that it is in. -/
theorem lineOf_eq {text : String} {i : Nat} {l : Line} {place : Nat}
    (hl : (index text)[i]? = some l) (h : Holds (index text) i l place) :
    lineOf (index text) place = i := by
  unfold lineOf
  rw [index] at hl h ⊢
  rw [countP_locate hl h, Nat.add_sub_cancel]

end TreeCheck.Lines
