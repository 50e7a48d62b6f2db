/-
What is written tells the value.

A value in its spread layout stands before a comma, a new line or the
end of the text. If two values are written, with anything of that kind
behind them, and the texts are the same, then so are the values and
what is behind them (`spread_append_inj`). The first character tells
what sort of value it is; words and brackets are the same then and can
be cancelled; a number ends where no digit follows; and the characters
of a string are read back one by one, since an escape tells the
character it stands for.

Floating-point numbers are left out. Reports have none.
-/
import Mathlib.Data.List.TakeWhile
import Std.Data.String.ToInt
import TreeCheck.Json.Writer

namespace TreeCheck.Json

-- ============================================================= strings

/-- The value of a hexadecimal digit. -/
def hexDigitValue (c : Char) : Nat := if c.isDigit then c.toNat - 48 else c.toNat - 87

/-- The character that an escape without its backslash stands for, and what
is behind it. -/
def unescapeLetter? : List Char → Option (Char × List Char)
  | 'b' :: more => some ('\x08', more)
  | 't' :: more => some ('\t', more)
  | 'n' :: more => some ('\n', more)
  | 'f' :: more => some ('\x0c', more)
  | 'r' :: more => some ('\r', more)
  | 'u' :: _ :: _ :: high :: low :: more =>
    some (Char.ofNat (hexDigitValue high * 16 + hexDigitValue low), more)
  | c :: more => some (c, more)
  | [] => none

/-- The first character inside quotes and what is behind it, unless the
string ends there. -/
def unescape? : List Char → Option (Char × List Char)
  | [] => none
  | c :: more =>
    if c = '"' then none else if c = '\\' then unescapeLetter? more else some (c, more)

theorem hexDigitValue_hexPair {n : Nat} (h : n < 32) :
    ∃ high low, hexPair n = [high, low] ∧ hexDigitValue high * 16 + hexDigitValue low = n := by
  refine ⟨_, _, rfl, ?_⟩
  have hdigits : ∀ n < 32, hexDigitValue (Nat.digitChar (n / 16)) * 16
      + hexDigitValue (Nat.digitChar (n % 16)) = n := by decide
  exact hdigits n h

/-- An escaped character is read back, whatever is behind it. -/
theorem unescape?_escapeChar (c : Char) (more : List Char) :
    unescape? (escapeChar c ++ more) = some (c, more) := by
  have hcode {d : Char} (h : c.toNat = d.toNat) : c = d := Char.toNat_inj.mp h
  unfold escapeChar
  split
  · next h => rw [h]; rfl
  split
  · next h => rw [h]; rfl
  split
  · next h => rw [hcode (d := '\x08') h]; rfl
  split
  · next h => rw [hcode (d := '\t') h]; rfl
  split
  · next h => rw [hcode (d := '\n') h]; rfl
  split
  · next h => rw [hcode (d := '\x0c') h]; rfl
  split
  · next h => rw [hcode (d := '\r') h]; rfl
  split
  · next h =>
    obtain ⟨high, low, hpair, hvalue⟩ := hexDigitValue_hexPair h
    rw [hpair]
    show some (Char.ofNat (hexDigitValue high * 16 + hexDigitValue low), more) = _
    rw [hvalue, Char.ofNat_toNat]
  · next hquote hslash _ _ _ _ _ _ =>
    simp only [List.singleton_append, unescape?, if_neg hquote, if_neg hslash]

/-- What stands inside quotes is told up to the closing one. -/
theorem escaped_append_inj (cs ds : List Char) {s t : List Char}
    (h : cs.flatMap escapeChar ++ '"' :: s = ds.flatMap escapeChar ++ '"' :: t) :
    cs = ds ∧ s = t := by
  induction cs generalizing ds with
  | nil =>
    cases ds with
    | nil => exact ⟨rfl, (List.cons.inj h).2⟩
    | cons d ds =>
      rw [List.flatMap_cons, List.append_assoc] at h
      have hread := congrArg unescape? h
      rw [unescape?_escapeChar] at hread
      cases hread
  | cons c cs ih =>
    cases ds with
    | nil =>
      rw [List.flatMap_cons, List.append_assoc] at h
      have hread := congrArg unescape? h
      rw [unescape?_escapeChar] at hread
      cases hread
    | cons d ds =>
      rw [List.flatMap_cons, List.flatMap_cons, List.append_assoc, List.append_assoc] at h
      have hread := congrArg unescape? h
      rw [unescape?_escapeChar, unescape?_escapeChar] at hread
      obtain ⟨rfl, hmore⟩ := Prod.mk.inj (Option.some.inj hread)
      obtain ⟨rfl, hrest⟩ := ih ds hmore
      exact ⟨rfl, hrest⟩

theorem toList_quote (s : String) :
    (quote s).toList = '"' :: (s.toList.flatMap escapeChar ++ ['"']) := String.toList_ofList

theorem quote_append_inj {a b : String} {s t : List Char}
    (h : (quote a).toList ++ s = (quote b).toList ++ t) : a = b ∧ s = t := by
  simp only [toList_quote, List.cons_append, List.append_assoc, List.nil_append] at h
  obtain ⟨hchars, hrest⟩ := escaped_append_inj _ _ (List.cons.inj h).2
  exact ⟨String.toList_inj.mp hchars, hrest⟩

-- ============================================================= numbers

/-- The characters of an integer. -/
def isNumeral (c : Char) : Bool := c.isDigit || c == '-'

/-- No number goes on in a text. -/
def EndsNumber (s : List Char) : Prop := ∀ c ∈ s.head?, isNumeral c = false

theorem endsNumber_cons {c : Char} {s : List Char} (h : isNumeral c = false) :
    EndsNumber (c :: s) := by
  intro c' hc
  cases hc
  exact h

theorem isNumeral_of_mem_toDigits {n : Nat} {c : Char} (h : c ∈ (Nat.repr n).toList) :
    isNumeral c = true := by
  rw [Nat.repr_eq_ofList_toDigits, String.toList_ofList] at h
  have hdigit : c.isDigit = true := Nat.isDigit_of_mem_toDigits (by decide) (by decide) h
  rw [isNumeral, hdigit, Bool.true_or]

theorem isNumeral_of_mem_repr {z : Int} {c : Char} (h : c ∈ z.repr.toList) :
    isNumeral c = true := by
  cases z with
  | ofNat n => exact isNumeral_of_mem_toDigits h
  | negSucc n =>
    have h : c ∈ ("-" ++ Nat.repr n.succ).toList := h
    rw [String.toList_append, List.mem_append] at h
    rcases h with h | h
    · obtain rfl := List.mem_singleton.mp h
      rfl
    · exact isNumeral_of_mem_toDigits h

theorem repr_ne_nil (z : Int) : z.repr.toList ≠ [] := by
  intro hz
  cases z with
  | ofNat n =>
    have hz : (Nat.repr n).toList = [] := hz
    rw [Nat.repr_eq_ofList_toDigits, String.toList_ofList] at hz
    exact Nat.toDigits_ne_nil hz
  | negSucc n =>
    have hz : ("-" ++ Nat.repr n.succ).toList = [] := hz
    rw [String.toList_append] at hz
    cases List.append_eq_nil_iff.mp hz |>.1

/-- An integer ends where no numeral follows. -/
theorem int_append_inj {a b : Int} {s t : List Char} (hs : EndsNumber s) (ht : EndsNumber t)
    (h : a.repr.toList ++ s = b.repr.toList ++ t) : a = b ∧ s = t := by
  have htake {z : Int} {u : List Char} (hu : EndsNumber u) :
      (z.repr.toList ++ u).takeWhile isNumeral = z.repr.toList := by
    rw [List.takeWhile_append_of_pos fun c hc => isNumeral_of_mem_repr hc]
    cases u with
    | nil => exact List.append_nil _
    | cons c u => rw [List.takeWhile_cons, hu c rfl]; exact List.append_nil _
  have hdigits : a.repr.toList = b.repr.toList := by
    have heq := congrArg (List.takeWhile isNumeral) h
    rwa [htake hs, htake ht] at heq
  refine ⟨Int.repr_inj.mp (String.toList_inj.mp hdigits), ?_⟩
  rw [hdigits] at h
  exact List.append_cancel_left h

-- ============================================================== lists

/-- A new line, indented to a level. -/
def newLine (level : Nat) : List Char := '\n' :: List.replicate (2 * level) ' '

/-- What is behind an item of a spread list: the other items, each after a
comma on a new line, and the end. -/
def spreadMore (closing : String) (level : Nat) : List String → List Char
  | [] => newLine level ++ closing.toList
  | t :: ts => ',' :: (newLine (level + 1) ++ (t.toList ++ spreadMore closing level ts))

/-- What is behind the opening of a spread list. -/
def spreadFirst (closing : String) (level : Nat) : List String → List Char
  | [] => closing.toList
  | t :: ts => newLine (level + 1) ++ (t.toList ++ spreadMore closing level ts)

theorem toList_spreadList (opening closing : String) (level : Nat) (texts : List String) :
    (spreadList opening closing level texts).toList
      = opening.toList ++ spreadFirst closing level texts := by
  have hindent (n : Nat) :
      ("\n" ++ String.ofList (List.replicate (2 * n) ' ')).toList = newLine n := by
    simp only [String.toList_append, String.toList_ofList, newLine]
    rfl
  have hmore (t : String) (ts : List String) :
      (String.intercalate ("," ++ ("\n" ++ String.ofList (List.replicate (2 * (level + 1)) ' ')))
        (t :: ts)).toList ++ (newLine level ++ closing.toList)
        = t.toList ++ spreadMore closing level ts := by
    induction ts generalizing t with
    | nil => rw [String.intercalate_singleton]; rfl
    | cons u us ih =>
      rw [String.intercalate_cons_cons]
      simp only [String.toList_append, hindent, List.append_assoc, ih, spreadMore]
      rfl
  cases texts with
  | nil => exact String.toList_append
  | cons t ts =>
    simp only [spreadList, String.toList_append, hindent, List.append_assoc, hmore, spreadFirst]

/-- Where a list is written behind its opening, it could stand behind an item
as well: neither is taken for the other kind. -/
theorem spreadMore_eq_of_spreadFirst {closing : String} {level : Nat} {c : Char}
    (hclosing : closing.toList = [c]) (hc : c ≠ '\n') {ts us : List String} {s t : List Char}
    (h : spreadFirst closing level ts ++ s = spreadFirst closing level us ++ t) :
    spreadMore closing level ts ++ s = spreadMore closing level us ++ t := by
  cases ts with
  | nil =>
    cases us with
    | nil =>
      rw [spreadMore, List.append_assoc, List.append_assoc]
      exact congrArg _ h
    | cons u us =>
      rw [spreadFirst, hclosing] at h
      exact absurd (List.cons.inj h).1 hc
  | cons t' ts =>
    cases us with
    | nil =>
      rw [spreadFirst, spreadFirst, hclosing] at h
      exact absurd (List.cons.inj h).1.symm hc
    | cons u us => exact congrArg (',' :: ·) h

/-- What is behind an item is no number that goes on. -/
theorem endsNumber_spreadMore (closing : String) (level : Nat) (texts : List String)
    (s : List Char) : EndsNumber (spreadMore closing level texts ++ s) := by
  cases texts with
  | nil => exact endsNumber_cons rfl
  | cons t ts => exact endsNumber_cons rfl

-- ============================================================= values

mutual

/-- Whether a value is without floating-point numbers. -/
def Value.isWhole : Value → Bool
  | .null | .bool _ | .number (.int _) | .string _ => true
  | .number (.float _) => false
  | .array vs => Value.allWhole vs
  | .object ms => Value.membersWhole ms

/-- Whether the items of an array are without floating-point numbers. -/
def Value.allWhole : List Value → Bool
  | [] => true
  | v :: vs => v.isWhole && Value.allWhole vs

/-- Whether the members of an object are without floating-point numbers. -/
def Value.membersWhole : List (String × Value) → Bool
  | [] => true
  | (_, v) :: ms => v.isWhole && Value.membersWhole ms

end

theorem Value.allWhole_map {α : Type} {f : α → Value} (h : ∀ a, (f a).isWhole = true) :
    (as : List α) → Value.allWhole (as.map f) = true
  | [] => rfl
  | a :: as => by
      rw [List.map_cons, allWhole, h a, allWhole_map h as]
      rfl

/-- The sorts of values, numbered. -/
def Value.sort : Value → Nat
  | .null => 0
  | .bool _ => 1
  | .number _ => 2
  | .string _ => 3
  | .array _ => 4
  | .object _ => 5

/-- The sort of the value that begins with a character. -/
def sortOf (c : Char) : Nat :=
  if c = 'n' then 0
  else if c = 't' ∨ c = 'f' then 1
  else if isNumeral c then 2
  else if c = '"' then 3
  else if c = '[' then 4
  else 5

/-- The first character of a value tells its sort. -/
theorem exists_spread_cons (level : Nat) {v : Value} (hv : v.isWhole = true) :
    ∃ c cs, (v.spread level).toList = c :: cs ∧ sortOf c = v.sort := by
  cases v with
  | null => exact ⟨'n', ['u', 'l', 'l'], by simp [Value.spread], rfl⟩
  | bool b => cases b with
    | true => exact ⟨'t', ['r', 'u', 'e'], by simp [Value.spread, toString], rfl⟩
    | false => exact ⟨'f', ['a', 'l', 's', 'e'], by simp [Value.spread, toString], rfl⟩
  | number n => cases n with
    | float x => cases hv
    | int z =>
      obtain ⟨c, cs, hz⟩ := List.exists_cons_of_ne_nil (repr_ne_nil z)
      have hc : isNumeral c = true := isNumeral_of_mem_repr (hz ▸ List.mem_cons_self)
      have hne {d : Char} (hd : isNumeral d = false) : c ≠ d := by
        rintro rfl
        rw [hd] at hc
        cases hc
      refine ⟨c, cs, hz, ?_⟩
      simp only [sortOf, hne (d := 'n') rfl, hne (d := 't') rfl, hne (d := 'f') rfl, hc,
        or_self, if_false, if_true]
      rfl
  | string s => exact ⟨'"', _, toList_quote s, rfl⟩
  | array vs => exact ⟨'[', _, toList_spreadList _ _ _ _, rfl⟩
  | object ms => exact ⟨'\x7b', _, toList_spreadList _ _ _ _, rfl⟩

theorem sort_eq_of_append {level : Nat} {v w : Value} (hv : v.isWhole = true)
    (hw : w.isWhole = true) {s t : List Char}
    (h : (v.spread level).toList ++ s = (w.spread level).toList ++ t) : v.sort = w.sort := by
  obtain ⟨c, cs, hc, hsort⟩ := exists_spread_cons level hv
  obtain ⟨d, ds, hd, hsort'⟩ := exists_spread_cons level hw
  rw [hc, hd] at h
  rw [← hsort, ← hsort', (List.cons.inj h).1]

mutual

/-- A value as it is written, with something behind it that no number goes on
with, tells the value and where its text ends. -/
theorem spread_append_inj (level : Nat) : (v w : Value) → v.isWhole = true → w.isWhole = true →
    {s t : List Char} → EndsNumber s → EndsNumber t →
    (v.spread level).toList ++ s = (w.spread level).toList ++ t → v = w ∧ s = t
  | .null => by
      intro w hv hw s t hs ht h
      have hsort := sort_eq_of_append hv hw h
      cases w with
      | null => exact ⟨rfl, List.append_cancel_left h⟩
      | bool | number | string | array | object => cases hsort
  | .bool b => by
      intro w hv hw s t hs ht h
      have hsort := sort_eq_of_append hv hw h
      cases w with
      | bool b' =>
        obtain rfl : b = b' := by cases b <;> cases b' <;> simp [Value.spread, toString] at h ⊢
        exact ⟨rfl, List.append_cancel_left h⟩
      | null | number | string | array | object => cases hsort
  | .number (.int z) => by
      intro w hv hw s t hs ht h
      have hsort := sort_eq_of_append hv hw h
      cases w with
      | number n => cases n with
        | float x => cases hw
        | int z' =>
          obtain ⟨rfl, hrest⟩ := int_append_inj hs ht h
          exact ⟨rfl, hrest⟩
      | null | bool | string | array | object => cases hsort
  | .number (.float x) => by
      intro w hv
      cases hv
  | .string a => by
      intro w hv hw s t hs ht h
      have hsort := sort_eq_of_append hv hw h
      cases w with
      | string b =>
        obtain ⟨rfl, hrest⟩ := quote_append_inj h
        exact ⟨rfl, hrest⟩
      | null | bool | number | array | object => cases hsort
  | .array vs => by
      intro w hv hw s t hs ht h
      have hsort := sort_eq_of_append hv hw h
      cases w with
      | array ws =>
        simp only [Value.spread, toList_spreadList, List.append_assoc] at h
        have hitems := spreadMore_eq_of_spreadFirst (c := ']') (by simp) (by decide)
          (List.append_cancel_left h)
        obtain ⟨rfl, hrest⟩ := spreadItems_append_inj level vs ws hv hw hitems
        exact ⟨rfl, hrest⟩
      | null | bool | number | string | object => cases hsort
  | .object ms => by
      intro w hv hw s t hs ht h
      have hsort := sort_eq_of_append hv hw h
      cases w with
      | object ms' =>
        simp only [Value.spread, toList_spreadList, List.append_assoc] at h
        have hmembers := spreadMore_eq_of_spreadFirst (c := '\x7d') (by simp) (by decide)
          (List.append_cancel_left h)
        obtain ⟨rfl, hrest⟩ := spreadMembers_append_inj level ms ms' hv hw hmembers
        exact ⟨rfl, hrest⟩
      | null | bool | number | string | array => cases hsort

/-- The items of an array are told up to its end. -/
theorem spreadItems_append_inj (level : Nat) : (vs ws : List Value) → Value.allWhole vs = true →
    Value.allWhole ws = true → {s t : List Char} →
    spreadMore "]" level (Value.spreadItems (level + 1) vs) ++ s
      = spreadMore "]" level (Value.spreadItems (level + 1) ws) ++ t → vs = ws ∧ s = t
  | [], [], _, _, s, t, h => ⟨rfl, List.append_cancel_left h⟩
  | [], w :: ws, _, _, s, t, h => by cases (List.cons.inj h).1
  | v :: vs, [], _, _, s, t, h => by cases (List.cons.inj h).1
  | v :: vs, w :: ws, hvs, hws, s, t, h => by
      rw [Value.allWhole, Bool.and_eq_true] at hvs hws
      simp only [Value.spreadItems, spreadMore, List.cons_append, List.append_assoc] at h
      obtain ⟨rfl, hmore⟩ := spread_append_inj (level + 1) v w hvs.1 hws.1
        (endsNumber_spreadMore _ _ _ _) (endsNumber_spreadMore _ _ _ _)
        (List.append_cancel_left (List.cons.inj h).2)
      obtain ⟨rfl, hrest⟩ := spreadItems_append_inj level vs ws hvs.2 hws.2 hmore
      exact ⟨rfl, hrest⟩

/-- The members of an object are told up to its end. -/
theorem spreadMembers_append_inj (level : Nat) : (ms ns : List (String × Value)) →
    Value.membersWhole ms = true → Value.membersWhole ns = true → {s t : List Char} →
    spreadMore "\x7d" level (Value.spreadMembers (level + 1) ms) ++ s
      = spreadMore "\x7d" level (Value.spreadMembers (level + 1) ns) ++ t → ms = ns ∧ s = t
  | [], [], _, _, s, t, h => ⟨rfl, List.append_cancel_left h⟩
  | [], n :: ns, _, _, s, t, h => by cases (List.cons.inj h).1
  | m :: ms, [], _, _, s, t, h => by cases (List.cons.inj h).1
  | (k, v) :: ms, (l, w) :: ns, hms, hns, s, t, h => by
      rw [Value.membersWhole, Bool.and_eq_true] at hms hns
      simp only [Value.spreadMembers, spreadMore, String.toList_append, List.cons_append,
        List.append_assoc] at h
      obtain ⟨rfl, hvalue⟩ := quote_append_inj (List.append_cancel_left (List.cons.inj h).2)
      obtain ⟨rfl, hmore⟩ := spread_append_inj (level + 1) v w hms.1 hns.1
        (endsNumber_spreadMore _ _ _ _) (endsNumber_spreadMore _ _ _ _)
        (List.append_cancel_left hvalue)
      obtain ⟨rfl, hrest⟩ := spreadMembers_append_inj level ms ns hms.2 hns.2 hmore
      exact ⟨rfl, hrest⟩

end

end TreeCheck.Json
