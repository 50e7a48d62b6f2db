/-
The texts of values without parts, and of integers in particular.

A scalar ends where it cannot go on, so its text is what is read off
whatever may follow a value: nothing, white space, a comma or a closing
bracket. None of these bytes goes on with a number, which is all that
makes the end of a number different from that of a string or a word.

Most strings are their own text: a plain character is one byte, which
neither ends the string nor begins an escape.

An integer is a sign and a row of digits. It is read digit by digit
onto a row that keeps the value so far, so the value read is that of
the digits in their order, and neither a fraction nor an exponent is
found behind them.
-/
import TreeCheck.Json.Reader

namespace TreeCheck.Json

-- ============================================================ what follows

/-- The bytes that may follow a value directly. -/
def endsValue (b : UInt8) : Bool :=
  isBlank b || b == byte ',' || b == byte ']' || b == byte '\x7d'

/-- The text ahead ends a value: there is none, or its first byte does. -/
def Delimited (more : List UInt8) : Prop := ∀ b ∈ more.head?, endsValue b

theorem delimited_nil : Delimited [] := fun _ h => nomatch h

theorem delimited_cons {b : UInt8} {more : List UInt8} (h : endsValue b) :
    Delimited (b :: more) := by
  intro b' hb
  cases hb
  exact h

/-- A byte that ends a value is none that a number goes on with. -/
theorem not_digit_of_endsValue {b : UInt8} (h : endsValue b) :
    isDigit b = false ∧ b ≠ byte '.' ∧ b ≠ byte 'e' ∧ b ≠ byte 'E' := by
  simp only [endsValue, isBlank, Bool.or_eq_true, beq_iff_eq, decide_eq_true_eq] at h
  rcases h with (((((rfl | rfl) | rfl) | rfl) | rfl) | rfl) | rfl <;> decide

/-- A scalar is read from its text wherever a value may end behind it. -/
def ScalarText (bs : List UInt8) (v : Value) : Prop :=
  ∀ c more, c.rest = bs ++ more → Delimited more →
    ∃ d, readScalar c = .ok (v, d) ∧ d.rest = more

/-- A string is read from its text behind the opening quote. -/
def StringText (bs : List UInt8) (s : String) : Prop :=
  ∀ c more, c.rest = bs ++ more → ∃ d, readString c = .ok (s, d) ∧ d.rest = more

/-- The bytes of a scalar: the first is one that a scalar begins with. -/
theorem ScalarText.exists_cons {bs : List UInt8} {v : Value} (h : ScalarText bs v) :
    ∃ b bs', bs = b :: bs' ∧ isBlank b = false ∧ b ≠ byte ']' ∧ b ≠ byte '[' ∧
      b ≠ byte '\x7b' := by
  obtain ⟨d, hd, -⟩ := h ⟨bs, {}, false⟩ [] (by simp) delimited_nil
  cases bs with
  | nil => simp only [readScalar] at hd; cases hd
  | cons b bs' =>
    refine ⟨b, bs', rfl, ?_⟩
    have hne : ∀ b' : UInt8, b = b' → b' ≠ byte '"' ∧ b' ≠ byte '-' ∧ isDigit b' = false ∧
        b' ≠ byte 'n' ∧ b' ≠ byte 't' ∧ b' ≠ byte 'f' → False := by
      rintro b' rfl ⟨h₁, h₂, h₃, h₄, h₅, h₆⟩
      simp only [readScalar, h₁, h₂, h₃, h₄, h₅, h₆, if_false, or_self, Bool.false_eq_true] at hd
      cases hd
    refine ⟨?_, fun hb => hne _ hb (by decide), fun hb => hne _ hb (by decide),
      fun hb => hne _ hb (by decide)⟩
    rw [← Bool.not_eq_true]
    intro hb
    simp only [isBlank, Bool.or_eq_true, decide_eq_true_eq] at hb
    rcases hb with ((hb | hb) | hb) | hb <;> exact hne _ hb (by decide)

/-- A value with parts. -/
def Value.HasParts : Value → Prop
  | .array _ | .object _ => True
  | _ => False

theorem not_hasParts_of_readNamed {letters : List Char} {v w : Value} {c d : Cursor}
    (hv : ¬ v.HasParts) (h : readNamed letters v c = .ok (w, d)) : ¬ w.HasParts := by
  unfold readNamed at h
  cases hw : readWord letters c.step with
  | error e => rw [hw] at h; cases h
  | ok e => rw [hw] at h; cases h; exact hv

/-- What is read as a scalar is one. -/
theorem not_hasParts_of_readScalar {c d : Cursor} {v : Value} (h : readScalar c = .ok (v, d)) :
    ¬ v.HasParts := by
  unfold readScalar at h
  split at h
  · cases h
  · split at h
    · cases hr : readString c.step with
      | error e => rw [hr] at h; cases h
      | ok r => rw [hr] at h; cases h; exact id
    · split at h
      · cases hr : readNumber c with
        | error e => rw [hr] at h; cases h
        | ok r => rw [hr] at h; cases h; exact id
      · split at h
        · exact not_hasParts_of_readNamed id h
        · split at h
          · exact not_hasParts_of_readNamed id h
          · split at h
            · exact not_hasParts_of_readNamed id h
            · cases h

theorem ScalarText.not_hasParts {bs : List UInt8} {v : Value} (h : ScalarText bs v) :
    ¬ v.HasParts := by
  obtain ⟨d, hd, -⟩ := h ⟨bs, {}, false⟩ [] (by simp) delimited_nil
  exact not_hasParts_of_readScalar hd

theorem StringText.scalar {bs : List UInt8} {s : String} (h : StringText bs s) :
    ScalarText (byte '"' :: bs) (.string s) := by
  intro c more hc _
  obtain ⟨d, hd, hmore⟩ := h c.step more (by simp [Cursor.step, hc])
  refine ⟨d, ?_, hmore⟩
  simp only [readScalar, hc, List.cons_append, if_true, hd, Except.map]

-- ================================================================= strings

/-- The characters that stand for themselves in a string: printable ASCII
but the quote and the backslash. -/
def isPlain (c : Char) : Bool := ' ' ≤ c && c < '\x7f' && c != '"' && c != '\\'

theorem toNat_byte {c : Char} (h : isPlain c) :
    (byte c).toNat = c.toNat ∧ 32 ≤ c.toNat ∧ c.toNat < 127 := by
  simp only [isPlain, Bool.and_eq_true, decide_eq_true_eq] at h
  have hlow : 32 ≤ c.toNat := h.1.1.1
  have hhigh : c.toNat < 127 := h.1.1.2
  have hbyte : (byte c).toNat = c.toNat % 256 := UInt32.toNat_toUInt8 _
  omega

theorem byte_ne {b c : Char} (hb : isPlain b) (hc : (byte c).toNat = c.toNat) (hne : b ≠ c) :
    byte b ≠ byte c := by
  intro h
  have := congrArg UInt8.toNat h
  rw [(toNat_byte hb).1, hc] at this
  exact hne (Char.toNat_inj.mp this)

theorem charIn?_toNat {c : Char} (h : c.toNat ≤ 0x7F) : Utf8.charIn? 0 0x7F c.toNat = some c := by
  have hvalid : c.toNat.isValidChar := c.valid
  rw [Utf8.charIn?, if_pos ⟨Nat.zero_le _, h⟩, dif_pos hvalid]
  rfl

theorem first?_byte {c : Char} (h : isPlain c) (rest : List UInt8) :
    Utf8.first? (byte c :: rest) = some (c, 1) := by
  obtain ⟨hbyte, -, hhigh⟩ := toNat_byte h
  have hlt : byte c < 0x80 := by
    rw [UInt8.lt_iff_toNat_lt, hbyte]
    exact Nat.lt_of_lt_of_le hhigh (by decide)
  have hchar : Utf8.charIn? 0 0x7F c.toNat = some c := charIn?_toNat (by omega)
  simp only [Utf8.first?, if_pos hlt, hbyte, hchar, Option.map_some]

theorem decode_plain {cs : List Char} (h : ∀ c ∈ cs, isPlain c) :
    Utf8.decode (cs.map byte) = (cs, []) := by
  unfold Utf8.decode
  induction cs with
  | nil => rfl
  | cons c cs ih =>
    have hc := first?_byte (h c List.mem_cons_self) (cs.map byte)
    have ih := ih fun c hc => h c (List.mem_cons_of_mem _ hc)
    simp only [List.map_cons, Utf8.decodeFrom, hc, Nat.sub_self, ih]

theorem readBytes_plain {cs : List Char} (h : ∀ c ∈ cs, isPlain c) {more : List UInt8} {c : Cursor}
    (hc : c.rest = cs.map byte ++ byte '"' :: more) :
    ∃ d, readBytes c = .ok (cs.map byte, d) ∧ d.rest = more := by
  induction cs generalizing c with
  | nil =>
    refine ⟨c.step, ?_, by simp [Cursor.step, hc]⟩
    rw [readBytes]
    split
    · next h' => rw [hc] at h'; cases h'
    · next h' => rw [hc] at h'; cases h'; rfl
  | cons b cs ih =>
    have hb := h b List.mem_cons_self
    obtain ⟨hbyte, hlow, -⟩ := toNat_byte hb
    have hquote : byte b ≠ byte '"' := byte_ne hb rfl fun hq => by subst hq; cases hb
    have hslash : byte b ≠ byte '\\' := byte_ne hb rfl fun hq => by subst hq; cases hb
    have hcontrol : ¬ byte b < 32 := by
      rw [UInt8.lt_iff_toNat_lt, hbyte]
      exact Nat.not_lt.mpr hlow
    have hstep : c.step.rest = cs.map byte ++ byte '"' :: more := by simp [Cursor.step, hc]
    obtain ⟨d, hd, hrest⟩ := ih (fun c hc => h c (List.mem_cons_of_mem _ hc)) hstep
    refine ⟨d, ?_, hrest⟩
    rw [readBytes]
    split
    · next h' => rw [hc] at h'; cases h'
    · next h' =>
      rw [hc] at h'
      cases h'
      rw [if_neg hquote, if_neg hslash, if_neg hcontrol, hd]
      rfl

/-- A string of plain characters is written as it is, and a quote. -/
theorem StringText.plain {s : String} (h : s.toList.all isPlain) :
    StringText (s.toList.map byte ++ [byte '"']) s := by
  intro c more hc
  rw [List.append_assoc] at hc
  have h := List.all_eq_true.mp h
  obtain ⟨d, hd, hrest⟩ := readBytes_plain h hc
  refine ⟨d, ?_, hrest⟩
  simp only [readString, hd, decode_plain h, String.ofList_toList]
-- ================================================================ integers

/-- An integer as it is written: an optional minus, and digits of which
the first is a zero only if it stands alone. -/
structure IntegerText where
  negative : Bool
  digits : List UInt8
  nonempty : digits ≠ []
  decimal : digits.all isDigit
  noLeadingZero : digits.head? = some (byte '0') → digits.length = 1

namespace IntegerText

theorem isDigit_of_mem (t : IntegerText) {b : UInt8} (hb : b ∈ t.digits) : isDigit b :=
  List.all_eq_true.mp t.decimal b hb

/-- The bytes of an integer. -/
def bytes (t : IntegerText) : List UInt8 :=
  if t.negative then byte '-' :: t.digits else t.digits

/-- The value of the digits. -/
def magnitude (t : IntegerText) : Nat := t.digits.foldl (fun n b => n * 10 + digitValue b) 0

/-- The integer that is written. -/
def value (t : IntegerText) : Int := if t.negative then -t.magnitude else t.magnitude

/-- The row that the digits are read onto. -/
def row (t : IntegerText) : Digits := t.digits.foldl Digits.pushWhole {}

/-- The number that is read, unless it is infinite. -/
def number? (t : IntegerText) : Option Number := numberOf? t.negative t.row false none

end IntegerText

theorem le_foldl_digits (bs : List UInt8) (n : Nat) :
    n ≤ bs.foldl (fun n b => n * 10 + digitValue b) n := by
  induction bs generalizing n with
  | nil => exact Nat.le_refl n
  | cons b bs ih => exact Nat.le_trans (by omega) (ih (n * 10 + digitValue b))

/-- While a row has room for all digits, its significand is their value. -/
theorem foldl_pushWhole (bs : List UInt8) (ds : Digits) (hfull : ds.full = false)
    (hfits : bs.foldl (fun n b => n * 10 + digitValue b) ds.significand ≤ greatestSignificand) :
    (bs.foldl Digits.pushWhole ds).full = false ∧
      (bs.foldl Digits.pushWhole ds).significand
        = bs.foldl (fun n b => n * 10 + digitValue b) ds.significand := by
  induction bs generalizing ds with
  | nil => exact ⟨hfull, rfl⟩
  | cons b bs ih =>
    have hgrown : ds.grown b ≤ greatestSignificand :=
      Nat.le_trans (le_foldl_digits bs (ds.grown b)) hfits
    have hfit : ds.fits b = true := by
      simp only [Digits.fits, hfull, hgrown, Bool.not_false, decide_true, Bool.and_self]
    have hpush : ds.pushWhole b
        = { ds with significand := ds.grown b, count := ds.count + 1 } := if_pos hfit
    rw [List.foldl_cons, hpush]
    exact ih { ds with significand := ds.grown b, count := ds.count + 1 } hfull hfits

/-- Digits are read onto a row one by one, up to a byte that is none. -/
theorem readDigits_go (push : Digits → UInt8 → Digits) (bs : List UInt8) {more : List UInt8}
    (hbs : ∀ b ∈ bs, isDigit b) (hmore : ∀ b ∈ more.head?, isDigit b = false) (ds : Digits)
    (l : Location) :
    ∃ d, readDigits.go push ds (bs ++ more) l = (bs.foldl push ds, d) ∧ d.rest = more := by
  induction bs generalizing ds l with
  | nil =>
    cases more with
    | nil => exact ⟨_, rfl, rfl⟩
    | cons b more =>
      have hb : isDigit b = false := hmore b rfl
      refine ⟨⟨b :: more, l, true⟩, ?_, rfl⟩
      simp only [List.nil_append, readDigits.go, hb, List.foldl_nil]
      rfl
  | cons b bs ih =>
    have hb : isDigit b := hbs b List.mem_cons_self
    have hbs' : ∀ b ∈ bs, isDigit b := fun b hb => hbs b (List.mem_cons_of_mem _ hb)
    obtain ⟨d, hd, hrest⟩ := ih hbs' (push ds b) (l.after b)
    refine ⟨d, ?_, hrest⟩
    simp only [List.cons_append, readDigits.go, hb, if_true, hd, List.foldl_cons]

theorem readWhole_digits {bs : List UInt8} {more : List UInt8} (hne : bs ≠ [])
    (hbs : ∀ b ∈ bs, isDigit b) (hzero : bs.head? = some (byte '0') → bs.length = 1)
    (hmore : Delimited more) {c : Cursor} (hc : c.rest = bs ++ more) :
    ∃ d, readWhole c = .ok (bs.foldl Digits.pushWhole {}, d) ∧ d.rest = more := by
  have hdigit : ∀ b ∈ more.head?, isDigit b = false := fun b hb =>
    (not_digit_of_endsValue (hmore b hb)).1
  cases bs with
  | nil => exact absurd rfl hne
  | cons b bs =>
    rw [List.cons_append] at hc
    have hstep : c.step = ⟨bs ++ more, c.location.after b, false⟩ := by simp [Cursor.step, hc]
    by_cases hb : b = byte '0'
    · obtain rfl : bs = [] := by simpa [hb] using hzero
      have hany : more.head?.any isDigit = false := by
        cases hm : more.head? with
        | none => rfl
        | some b' => exact hdigit b' hm
      refine ⟨c.step.peek, ?_, by simp [hstep, Cursor.peek]⟩
      simp only [readWhole, hc, if_pos hb]
      simp [Cursor.peek, hstep, hany]
    · have hfirst : isDigit b := hbs b List.mem_cons_self
      obtain ⟨d, hd, hrest⟩ := readDigits_go Digits.pushWhole bs
        (fun b hb => hbs b (List.mem_cons_of_mem _ hb)) hdigit (({} : Digits).pushWhole b)
        (c.location.after b)
      refine ⟨d, ?_, hrest⟩
      simp only [readWhole, hc, if_neg hb, hfirst, if_true, readDigits, hstep, hd,
        List.foldl_cons]

theorem readFraction_delimited {more : List UInt8} (hmore : Delimited more) {c : Cursor}
    (hc : c.rest = more) (ds : Digits) : readFraction ds c = .ok (ds, false, c) := by
  unfold readFraction
  refine if_neg fun h => ?_
  exact (not_digit_of_endsValue (hmore _ (hc ▸ h))).2.1 rfl

theorem readExponent_delimited {more : List UInt8} (hmore : Delimited more) {c : Cursor}
    (hc : c.rest = more) (zero : Bool) : readExponent zero c = .ok (none, c) := by
  unfold readExponent
  refine if_neg ?_
  rintro (h | h)
  · exact (not_digit_of_endsValue (hmore _ (hc ▸ h))).2.2.1 rfl
  · exact (not_digit_of_endsValue (hmore _ (hc ▸ h))).2.2.2 rfl

namespace IntegerText

variable {t : IntegerText}

/-- A minus is read off exactly the integers that have one. -/
theorem head_bytes (t : IntegerText) (more : List UInt8) :
    ((t.bytes ++ more).head? == some (byte '-')) = t.negative := by
  unfold bytes
  cases hneg : t.negative with
  | true => rfl
  | false =>
    cases hd : t.digits with
    | nil => exact absurd hd t.nonempty
    | cons b bs =>
      have hb : isDigit b := t.isDigit_of_mem (by rw [hd]; exact List.mem_cons_self)
      have hne : b ≠ byte '-' := fun h => by
        rw [h] at hb
        exact absurd hb (by decide)
      simpa using hne

/-- The first byte of an integer is one that a number begins with. -/
theorem exists_bytes (t : IntegerText) :
    ∃ b bs, t.bytes = b :: bs ∧ (b = byte '-' ∨ isDigit b) ∧ b ≠ byte '"' := by
  unfold bytes
  cases t.negative with
  | true => exact ⟨byte '-', t.digits, rfl, .inl rfl, by decide⟩
  | false =>
    cases hd : t.digits with
    | nil => exact absurd hd t.nonempty
    | cons b bs =>
      have hb : isDigit b := t.isDigit_of_mem (by rw [hd]; exact List.mem_cons_self)
      refine ⟨b, bs, rfl, .inr hb, fun h => ?_⟩
      rw [h] at hb
      exact absurd hb (by decide)

/-- An integer is read as the number it is. -/
theorem readNumber_eq {n : Number} (hn : t.number? = some n) {more : List UInt8}
    (hmore : Delimited more) {c : Cursor} (hc : c.rest = t.bytes ++ more) :
    ∃ d, readNumber c = .ok (n, d) ∧ d.rest = more := by
  have hneg : (c.rest.head? == some (byte '-')) = t.negative := hc ▸ t.head_bytes more
  have hdigits : (if t.negative then c.step else c).rest = t.digits ++ more := by
    unfold bytes at hc
    cases h : t.negative with
    | true =>
      rw [h, if_pos rfl] at hc
      simp [Cursor.step, hc]
    | false =>
      rw [h] at hc
      exact hc
  obtain ⟨d, hwhole, hrest⟩ :=
    readWhole_digits t.nonempty (fun b hb => t.isDigit_of_mem hb) t.noLeadingZero hmore hdigits
  have hnumber : numberOf? t.negative (t.digits.foldl Digits.pushWhole {}) false none = some n := hn
  refine ⟨d, ?_, hrest⟩
  simp only [readNumber, hneg, hwhole, readFraction_delimited hmore hrest,
    readExponent_delimited hmore hrest, hnumber, bind, Except.bind]

theorem scalar {n : Number} (hn : t.number? = some n) : ScalarText t.bytes (.number n) := by
  intro c more hc hmore
  obtain ⟨d, hd, hrest⟩ := readNumber_eq hn hmore hc
  obtain ⟨b, bs, hbytes, hfirst, hquote⟩ := t.exists_bytes
  rw [hbytes, List.cons_append] at hc
  refine ⟨d, ?_, hrest⟩
  simp only [readScalar, hc, if_neg hquote, if_pos hfirst, hd, Except.map]

/-- An integer within the bounds of those that are kept is kept, unless it
is a zero with a minus. -/
theorem number?_eq_int (hzero : ¬ (t.negative ∧ t.magnitude = 0))
    (hleast : Number.least ≤ t.value) (hgreatest : t.value ≤ Number.greatest) :
    t.number? = some (.int t.value) := by
  have hfits : t.magnitude ≤ greatestSignificand := by
    unfold value at hleast hgreatest
    cases hneg : t.negative with
    | true =>
      rw [hneg] at hleast
      have hmagnitude : Number.least ≤ -(t.magnitude : Int) := hleast
      have hbelow : -(greatestSignificand : Int) ≤ Number.least := by decide
      omega
    | false =>
      rw [hneg] at hgreatest
      have hmagnitude : (t.magnitude : Int) ≤ greatestSignificand := hgreatest
      omega
  obtain ⟨hfull, hsignificand⟩ := foldl_pushWhole t.digits {} rfl hfits
  have hfull : t.row.full = false := hfull
  have hsignificand : t.row.significand = t.magnitude := hsignificand
  have hsign : (t.negative && t.magnitude == 0) = false := by simpa using hzero
  unfold value at hleast hgreatest
  simp only [number?, numberOf?, value, hfull, hsignificand, hsign, hleast, hgreatest,
    Option.isNone_none, Bool.not_false, decide_true, Bool.and_self, if_true]

end IntegerText

end TreeCheck.Json
