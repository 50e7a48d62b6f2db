/-
The grammar of documents, and that a document is read as the value it
spells.

`Spells` says which text spells which value, with white space wherever
the grammar allows it: before an item, a key, a comma, a colon, the
value of a member and a closing bracket. A text that spells a value
neither begins nor ends with white space, so where it stands in a
larger text is clear, and a reader that has already passed over the
blanks before it is at its first byte.

That the reader follows the grammar goes by the grammar's derivations:
one lemma for each rule, and the value that is read is the one that the
derivation builds.
-/
import Mathlib.Data.List.TakeWhile
import TreeCheck.Proofs.Json.Tokens

namespace TreeCheck.Json

-- =============================================================== grammar

/-- White space. -/
def Blanks (ws : List UInt8) : Prop := ∀ b ∈ ws, isBlank b

/-- What stands between what came before and an item or a key: white
space, around a comma unless the item or key is the first. -/
inductive Separates : Bool → List UInt8 → Prop where
  | first {ws : List UInt8} (h : Blanks ws) : Separates true ws
  | next {ws ws' : List UInt8} (h : Blanks ws) (h' : Blanks ws') :
    Separates false (ws ++ byte ',' :: ws')

mutual

/-- A text spells a value. -/
inductive Spells : List UInt8 → Value → Prop where
  | scalar {bs : List UInt8} {v : Value} (h : ScalarText bs v) : Spells bs v
  | array {bs : List UInt8} {vs : List Value} (h : SpellsItems true bs vs) :
    Spells (byte '[' :: bs) (.array vs)
  | object {bs : List UInt8} {ms : List (String × Value)} (h : SpellsMembers true bs ms) :
    Spells (byte '\x7b' :: bs) (.object ms)

/-- A text spells the items of an array that are still to come, and its
end. -/
inductive SpellsItems : Bool → List UInt8 → List Value → Prop where
  | nil {first : Bool} {ws : List UInt8} (h : Blanks ws) : SpellsItems first (ws ++ [byte ']']) []
  | cons {first : Bool} {sep bs more : List UInt8} {v : Value} {vs : List Value}
    (hsep : Separates first sep) (hv : Spells bs v) (hvs : SpellsItems false more vs) :
    SpellsItems first (sep ++ (bs ++ more)) (v :: vs)

/-- A text spells the members of an object that are still to come, and its
end. -/
inductive SpellsMembers : Bool → List UInt8 → List (String × Value) → Prop where
  | nil {first : Bool} {ws : List UInt8} (h : Blanks ws) :
    SpellsMembers first (ws ++ [byte '\x7d']) []
  | cons {first : Bool} {sep ks ws ws' bs more : List UInt8} {key : String} {v : Value}
    {ms : List (String × Value)} (hsep : Separates first sep) (hkey : StringText ks key)
    (h : Blanks ws) (h' : Blanks ws') (hv : Spells bs v) (hms : SpellsMembers false more ms) :
    SpellsMembers first (sep ++ byte '"' :: (ks ++ (ws ++ byte ':' :: (ws' ++ (bs ++ more)))))
      ((key, v) :: ms)

end

-- ============================================================== blanks

theorem blanks_nil : Blanks [] := fun _ h => nomatch h

theorem rest_skipWhile_go (p : UInt8 → Bool) (bs : List UInt8) (l : Location) :
    (Cursor.skipWhile.go p bs l).rest = bs.dropWhile p := by
  induction bs generalizing l with
  | nil => rfl
  | cons b bs ih =>
    rw [Cursor.skipWhile.go, List.dropWhile_cons]
    split
    · exact ih _
    · rfl

/-- Blanks are passed over up to a byte that is none. -/
theorem rest_skipBlanks {c : Cursor} {ws bs : List UInt8} {b : UInt8} (hws : Blanks ws)
    (hb : isBlank b = false) (hc : c.rest = ws ++ b :: bs) : c.skipBlanks.rest = b :: bs := by
  show (Cursor.skipWhile.go isBlank c.rest c.location).rest = _
  rw [rest_skipWhile_go, hc, List.dropWhile_append_of_pos hws, List.dropWhile_cons, hb]
  rfl

theorem rest_step {c : Cursor} {b : UInt8} {bs : List UInt8} (hc : c.rest = b :: bs) :
    c.step.rest = bs := by
  simp [Cursor.step, hc]

/-- Behind a document only blanks are left. -/
theorem finish_blanks {c : Cursor} (h : Blanks c.rest) : finish c = .ok () := by
  have hrest : c.skipBlanks.rest = [] := by
    show (Cursor.skipWhile.go isBlank c.rest c.location).rest = _
    rw [rest_skipWhile_go]
    exact List.dropWhile_eq_nil_iff.mpr h
  simp only [finish, hrest, List.isEmpty_nil, if_true]

-- ========================================================= what is given

/-- A reading gives a result and leaves a text ahead. -/
def Gives {α : Type} {c : Cursor} (r : Reading α c) (a : α) (more : List UInt8) : Prop :=
  ∃ d, r = .ok (a, d) ∧ d.1.rest = more

namespace Gives

variable {α β : Type} {c d : Cursor} {more : List UInt8} {a : α} {b : β}

theorem of {r : Except SyntaxError (α × Cursor)} (hr : r = .ok (a, d)) (hd : d.rest = more)
    (hlt : ∀ a d, r = .ok (a, d) → d.remaining < c.remaining) :
    Gives (Reading.of r hlt) a more := by
  subst hr
  exact ⟨_, rfl, hd⟩

theorem map {r : Reading α c} (h : Gives r a more) (f : α → β) : Gives (r.map f) (f a) more := by
  obtain ⟨d, rfl, hd⟩ := h
  exact ⟨d, rfl, hd⟩

theorem widen {r : Reading α d} (h : Gives r a more) (hle : d.remaining ≤ c.remaining) :
    Gives (r.widen hle) a more := by
  obtain ⟨e, rfl, he⟩ := h
  exact ⟨_, rfl, he⟩

theorem andThen {r : Reading α c} {k : α → (d : Cursor) → d.remaining < c.remaining → Reading β d}
    {left : List UInt8} (h : Gives r a left)
    (hk : ∀ d hd, d.rest = left → Gives (k a d hd) b more) : Gives (r.andThen k) b more := by
  obtain ⟨⟨d, hlt⟩, rfl, hd⟩ := h
  exact (hk d hlt hd).widen (Nat.le_of_lt hlt)

end Gives

-- ============================================== items, keys and colons

theorem readItemStart_end {ws more : List UInt8} (hws : Blanks ws) {c : Cursor}
    (hc : c.rest = ws ++ byte ']' :: more) (first : Bool) :
    ∃ d, readItemStart first c = .ok (false, d) ∧ d.rest = more := by
  have hs := rest_skipBlanks hws (by decide) hc
  refine ⟨c.skipBlanks.step, ?_, rest_step hs⟩
  simp only [readItemStart, hs, if_true]

theorem readItemStart_item {first : Bool} {sep bs : List UInt8} {b : UInt8}
    (hsep : Separates first sep) (hb : isBlank b = false) (hne : b ≠ byte ']') {c : Cursor}
    (hc : c.rest = sep ++ b :: bs) :
    ∃ d, readItemStart first c = .ok (true, d) ∧ d.rest = b :: bs := by
  cases hsep with
  | first hws =>
    have hs := rest_skipBlanks hws hb hc
    refine ⟨c.skipBlanks, ?_, hs⟩
    simp only [readItemStart, hs, if_neg hne, if_true]
  | @next ws ws' hws hws' =>
    rw [List.append_assoc, List.cons_append] at hc
    have hs := rest_skipBlanks hws (by decide) hc
    have ht := rest_skipBlanks hws' hb (rest_step hs)
    have hcomma : byte ',' ≠ byte ']' := by decide
    refine ⟨c.skipBlanks.step.skipBlanks, ?_, ht⟩
    simp only [readItemStart, hs, ht, if_neg hne, if_neg hcomma, Bool.false_eq_true, if_false,
      if_true]

theorem readKeyStart_end {ws more : List UInt8} (hws : Blanks ws) {c : Cursor}
    (hc : c.rest = ws ++ byte '\x7d' :: more) (first : Bool) :
    ∃ d, readKeyStart first c = .ok (false, d) ∧ d.rest = more := by
  have hs := rest_skipBlanks hws (by decide) hc
  refine ⟨c.skipBlanks.step, ?_, rest_step hs⟩
  simp only [readKeyStart, hs, if_true]

theorem readKeyStart_key {first : Bool} {sep bs : List UInt8} (hsep : Separates first sep)
    {c : Cursor} (hc : c.rest = sep ++ byte '"' :: bs) :
    ∃ d, readKeyStart first c = .ok (true, d) ∧ d.rest = bs := by
  have hquote : byte '"' ≠ byte '\x7d' := by decide
  cases hsep with
  | first hws =>
    have hs := rest_skipBlanks hws (by decide) hc
    refine ⟨c.skipBlanks.step, ?_, rest_step hs⟩
    simp only [readKeyStart, hs, if_neg hquote, if_true]
  | @next ws ws' hws hws' =>
    rw [List.append_assoc, List.cons_append] at hc
    have hs := rest_skipBlanks hws (by decide) hc
    have ht := rest_skipBlanks hws' (by decide) (rest_step hs)
    have hcomma : byte ',' ≠ byte '\x7d' := by decide
    refine ⟨c.skipBlanks.step.skipBlanks.step, ?_, rest_step ht⟩
    simp only [readKeyStart, hs, ht, if_neg hcomma, Bool.false_eq_true, if_false, if_true]

theorem readColon_colon {ws more : List UInt8} (hws : Blanks ws) {c : Cursor}
    (hc : c.rest = ws ++ byte ':' :: more) : ∃ d, readColon c = .ok d ∧ d.rest = more := by
  have hs := rest_skipBlanks hws (by decide) hc
  refine ⟨c.skipBlanks.step, ?_, rest_step hs⟩
  simp only [readColon, hs, if_true]

-- ================================================= following the grammar

/-- The first byte of a value is no blank and closes nothing. -/
theorem Spells.exists_cons {bs : List UInt8} {v : Value} (h : Spells bs v) :
    ∃ b bs', bs = b :: bs' ∧ isBlank b = false ∧ b ≠ byte ']' := by
  cases h with
  | scalar h =>
    obtain ⟨b, bs', hbs, hblank, hclose, -⟩ := h.exists_cons
    exact ⟨b, bs', hbs, hblank, hclose⟩
  | array h => exact ⟨_, _, rfl, by decide, by decide⟩
  | object h => exact ⟨_, _, rfl, by decide, by decide⟩

theorem delimited_blanks {ws bs : List UInt8} (hws : Blanks ws) {b : UInt8} (hb : endsValue b) :
    Delimited (ws ++ b :: bs) := by
  cases ws with
  | nil => exact delimited_cons hb
  | cons w ws =>
    refine delimited_cons ?_
    simp only [endsValue, hws w List.mem_cons_self, Bool.true_or]

theorem Separates.delimited {sep : List UInt8} (h : Separates false sep) (bs : List UInt8) :
    Delimited (sep ++ bs) := by
  cases h with
  | next hws hws' =>
    rw [List.append_assoc]
    exact delimited_blanks hws (by decide)

theorem SpellsItems.delimited {bs : List UInt8} {vs : List Value} (h : SpellsItems false bs vs)
    (more : List UInt8) : Delimited (bs ++ more) := by
  cases h with
  | nil hws =>
    rw [List.append_assoc]
    exact delimited_blanks hws (by decide)
  | cons hsep hv hvs =>
    rw [List.append_assoc]
    exact hsep.delimited _

theorem SpellsMembers.delimited {bs : List UInt8} {ms : List (String × Value)}
    (h : SpellsMembers false bs ms) (more : List UInt8) : Delimited (bs ++ more) := by
  cases h with
  | nil hws =>
    rw [List.append_assoc]
    exact delimited_blanks hws (by decide)
  | cons hsep hkey hws hws' hv hms =>
    rw [List.append_assoc]
    exact hsep.delimited _

mutual

/-- A text that spells a value is read as that value. -/
theorem Spells.gives {bs : List UInt8} {v : Value} (h : Spells bs v) {c : Cursor}
    {ws more : List UInt8} (hws : Blanks ws) (hc : c.rest = ws ++ (bs ++ more))
    (hmore : Delimited more) : Gives (readValue c) v more := by
  cases h with
  | scalar h =>
    obtain ⟨b, bs', rfl, hblank, -, hlist, hobject⟩ := h.exists_cons
    have hs : (c.skipWhile isBlank).rest = b :: bs' ++ more := rest_skipBlanks hws hblank hc
    obtain ⟨d, hd, hrest⟩ := h _ more hs hmore
    rw [readValue]
    split
    · next h' => rw [hs] at h'; cases h'
    · next h' =>
      rw [hs] at h'
      cases h'
      rw [if_neg hlist, if_neg hobject]
      exact (Gives.of hd hrest _).widen _
  | @array bs vs h =>
    have hs : (c.skipWhile isBlank).rest = byte '[' :: (bs ++ more) :=
      rest_skipBlanks hws (by decide) hc
    rw [readValue]
    split
    · next h' => rw [hs] at h'; cases h'
    · next h' =>
      rw [hs] at h'
      cases h'
      rw [if_pos rfl]
      exact ((SpellsItems.gives h (rest_step hs)).map _).widen _
  | @object bs ms h =>
    have hs : (c.skipWhile isBlank).rest = byte '\x7b' :: (bs ++ more) :=
      rest_skipBlanks hws (by decide) hc
    have hne : byte '\x7b' ≠ byte '[' := by decide
    rw [readValue]
    split
    · next h' => rw [hs] at h'; cases h'
    · next h' =>
      rw [hs] at h'
      cases h'
      rw [if_neg hne, if_pos rfl]
      exact ((SpellsMembers.gives h (rest_step hs)).map _).widen _

theorem SpellsItems.gives {first : Bool} {bs : List UInt8} {vs : List Value}
    (h : SpellsItems first bs vs) {c : Cursor} {more : List UInt8} (hc : c.rest = bs ++ more) :
    Gives (readItems first c) vs more := by
  cases h with
  | nil hws =>
    rw [List.append_assoc] at hc
    obtain ⟨d, hd, hrest⟩ := readItemStart_end hws hc first
    rw [readItems]
    split
    · next h => rw [hd] at h; cases h
    · next h => rw [hd] at h; cases h; exact ⟨_, rfl, hrest⟩
    · next h => rw [hd] at h; cases h
  | @cons _ sep bs left v vs hsep hv hvs =>
    obtain ⟨b, bs', rfl, hblank, hclose⟩ := hv.exists_cons
    rw [List.append_assoc, List.append_assoc] at hc
    obtain ⟨d, hd, hrest⟩ := readItemStart_item hsep hblank hclose hc
    rw [readItems]
    split
    · next h => rw [hd] at h; cases h
    · next h => rw [hd] at h; cases h
    · next h =>
      rw [hd] at h
      cases h
      have hgives := Spells.gives hv blanks_nil hrest (hvs.delimited more)
      refine (hgives.andThen fun e _ he => ?_).widen _
      exact (SpellsItems.gives hvs he).map _

theorem SpellsMembers.gives {first : Bool} {bs : List UInt8} {ms : List (String × Value)}
    (h : SpellsMembers first bs ms) {c : Cursor} {more : List UInt8} (hc : c.rest = bs ++ more) :
    Gives (readMembers first c) ms more := by
  cases h with
  | nil hws =>
    rw [List.append_assoc] at hc
    obtain ⟨d, hd, hrest⟩ := readKeyStart_end hws hc first
    rw [readMembers]
    split
    · next h => rw [hd] at h; cases h
    · next h => rw [hd] at h; cases h; exact ⟨_, rfl, hrest⟩
    · next h => rw [hd] at h; cases h
  | @cons _ sep ks ws ws' bs left key v ms hsep hkey hws hws' hv hms =>
    simp only [List.append_assoc, List.cons_append] at hc
    obtain ⟨d, hd, hd'⟩ := readKeyStart_key hsep hc
    obtain ⟨k, hk, hk'⟩ := hkey d _ hd'
    obtain ⟨e, he, he'⟩ := readColon_colon hws hk'
    rw [readMembers]
    split
    · next h => rw [hd] at h; cases h
    · next h => rw [hd] at h; cases h
    · next h =>
      rw [hd] at h
      cases h
      split
      · next h => rw [hk] at h; cases h
      · next h =>
        rw [hk] at h
        cases h
        split
        · next h => rw [he] at h; cases h
        · next h =>
          rw [he] at h
          cases h
          have hgives := Spells.gives hv hws' he' (hms.delimited more)
          refine (hgives.andThen fun f _ hf => ?_).widen _
          exact (SpellsMembers.gives hms hf).map _

end

-- ========================================================= compact texts

/-- A string of plain characters as it is written. -/
def quoted (s : String) : List UInt8 := byte '"' :: (s.toList.map byte ++ [byte '"'])

/-- What stands before an item or a key where no white space is written. -/
def comma (first : Bool) : List UInt8 := if first then [] else [byte ',']

theorem separates_comma (first : Bool) : Separates first (comma first) := by
  cases first with
  | true => exact .first blanks_nil
  | false => exact .next blanks_nil blanks_nil

theorem Spells.quoted {s : String} (h : s.toList.all isPlain) : Spells (quoted s) (.string s) :=
  .scalar (StringText.plain h).scalar

theorem SpellsMembers.compact (first : Bool) (key : String) (hkey : key.toList.all isPlain)
    {bs more : List UInt8} {v : Value} {ms : List (String × Value)} (hv : Spells bs v)
    (hms : SpellsMembers false more ms) :
    SpellsMembers first (comma first ++ (Json.quoted key ++ byte ':' :: (bs ++ more)))
      ((key, v) :: ms) := by
  have h := SpellsMembers.cons (separates_comma first) (StringText.plain hkey) blanks_nil blanks_nil
    hv hms
  simpa only [Json.quoted, List.cons_append, List.nil_append, List.append_assoc] using h

theorem SpellsItems.compact (first : Bool) {bs more : List UInt8} {v : Value} {vs : List Value}
    (hv : Spells bs v) (hvs : SpellsItems false more vs) :
    SpellsItems first (comma first ++ (bs ++ more)) (v :: vs) :=
  .cons (separates_comma first) hv hvs

end TreeCheck.Json
