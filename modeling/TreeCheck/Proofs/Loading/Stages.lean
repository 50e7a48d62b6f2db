/-
Loading, stage by stage.

The root of a document is not read like any other value: its kind is
looked at on the way. What that can change is which error comes first
and where it is said to be. A root that is accepted is the value that is
there, with a kind given once and by a known name; that it is given once
and known is asked again when the value is decoded. So a program is
loaded exactly if the bytes are a value, the value names the kind of its
root, it decodes, and its node is lowered to the program.
-/
import TreeCheck.Proofs.Json.Endings
import TreeCheck.Proofs.Loading.Root

namespace TreeCheck.Document

open Json

variable {first : Bool} {c d : Cursor} {v : Value} {ms : List (String × Value)}

-- ========================================================= the members

/-- The name of a kind is a value like others, if it is a string and known. -/
theorem readKindName_eq_ok {name : String} :
    readKindName c = .ok (name, d) ↔
      Ends (readValue c) (.string name) d ∧ (Kind.ofName? name).isSome := by
  cases hb : c.skipBlanks.rest with
  | nil =>
    refine iff_of_false (fun h => ?_) fun h => not_ends_readValue hb h.1
    simp only [readKindName, hb] at h
    cases h
  | cons b bs =>
    rw [ends_readValue hb]
    simp only [readKindName, hb]
    by_cases hlist : b = byte '['
    · rw [if_pos hlist, if_pos hlist]
      constructor
      · intro h
        cases h
      · rintro ⟨⟨_, h, -⟩, -⟩
        cases h
    · rw [if_neg hlist, if_neg hlist]
      by_cases hobject : b = byte '\x7b'
      · rw [if_pos hobject, if_pos hobject]
        constructor
        · intro h
          cases h
        · rintro ⟨⟨_, h, -⟩, -⟩
          cases h
      · rw [if_neg hobject, if_neg hobject]
        constructor
        · intro h
          split at h
          · cases h
          · next t e hscalar =>
            split at h
            case isTrue hknown =>
              cases h
              exact ⟨hscalar, hknown⟩
            case isFalse => cases h
          · cases h
        · rintro ⟨hscalar, hknown⟩
          simp only [hscalar, hknown, if_true]

/-- One step of reading the members of a root. -/
theorem readRootMembers_eq_ok {found : Bool} :
    readRootMembers found first c = .ok (ms, d) ↔
      (readKeyStart first c = .ok (false, d) ∧ found = true ∧ ms = []) ∨
      ∃ s key k e v f ms', readKeyStart first c = .ok (true, s) ∧ readString s = .ok (key, k)
        ∧ readColon k = .ok e ∧ Ends (readValue e) v f
        ∧ readRootMembers (found || key = "kind") false f = .ok (ms', d) ∧ ms = (key, v) :: ms'
        ∧ (key = "kind" → found = false
            ∧ ∃ name, v = .string name ∧ (Kind.ofName? name).isSome) := by
  constructor
  · intro h
    rw [readRootMembers] at h
    split at h
    · cases h
    · next hstart =>
      split at h
      case isTrue hfound =>
        cases h
        exact .inl ⟨hstart, hfound, rfl⟩
      case isFalse => cases h
    · next s hstart =>
      split at h
      · cases h
      · next key k hkey =>
        split at h
        · cases h
        · next hrepeated =>
          split at h
          · cases h
          · next e hcolon =>
            split at h
            case isTrue hkind =>
              have hfound : found = false := by
                cases found with
                | false => rfl
                | true => exact absurd ⟨hkind, rfl⟩ hrepeated
              split at h
              · cases h
              · next name f hname =>
                obtain ⟨hv, hknown⟩ := readKindName_eq_ok.mp hname
                cases hms : readRootMembers true false f with
                | error x => rw [hms] at h; cases h
                | ok r =>
                  rw [hms] at h
                  cases h
                  refine .inr ⟨s, key, k, e, _, f, r.1, hstart, hkey, hcolon, hv, ?_, rfl,
                    fun _ => ⟨hfound, name, rfl, hknown⟩⟩
                  simp only [hkind, decide_true, Bool.or_true, hms]
            case isFalse hkind =>
              split at h
              · cases h
              · next v f hf hv =>
                cases hms : readRootMembers found false f with
                | error x => rw [hms] at h; cases h
                | ok r =>
                  rw [hms] at h
                  cases h
                  refine .inr ⟨s, key, k, e, v, f, r.1, hstart, hkey, hcolon, ⟨hf, hv⟩, ?_, rfl,
                    fun h => absurd h hkind⟩
                  simp only [hkind, decide_false, Bool.or_false, hms]
  · rintro (⟨hstart, rfl, rfl⟩ |
      ⟨s, key, k, e, v, f, ms', hstart, hkey, hcolon, hv, hms, rfl, hkind⟩)
    · rw [readRootMembers]
      split
      · next h => rw [hstart] at h; cases h
      · next h => rw [hstart] at h; cases h; rfl
      · next h => rw [hstart] at h; cases h
    · by_cases hname : key = "kind"
      · obtain ⟨rfl, name, rfl, hknown⟩ := hkind hname
        rw [readRootMembers_kind hstart hkey hcolon hname (readKindName_eq_ok.mpr ⟨hv, hknown⟩)]
        simp only [hname, decide_true, Bool.or_true] at hms ⊢
        rw [hms]
        rfl
      · obtain ⟨hf, hv⟩ := hv
        simp only [hname, decide_false, Bool.or_false] at hms
        rw [readRootMembers_other hstart hkey hcolon found hname hv, hms]
        rfl

theorem kindOfTag_string {name : String} {k : Kind} :
    kindOfTag (.string name) = .ok k ↔ Kind.ofName? name = some k := by
  simp only [kindOfTag]
  cases Kind.ofName? name with
  | none => constructor <;> intro h <;> cases h
  | some k' =>
    constructor <;> intro h <;> cases h <;> rfl

theorem kindOf_go_kind {w : Value} {k : Kind} (h : kindOfTag w = .ok k)
    (ms : List (String × Value)) :
    kindOf.go none (("kind", w) :: ms) = kindOf.go (some k) ms := by
  rw [kindOf.go, if_pos rfl]
  simp only [h]

/-- The members of a root are read like those of any object, if they give its kind once
and by a known name. -/
theorem readRootMembers_eq_ok_iff {found : Option Kind} :
    readRootMembers found.isSome first c = .ok (ms, d) ↔
      Ends (Json.readMembers first c) ms d ∧ (∃ k, kindOf.go found ms = .ok k)
        ∧ ∀ v, ("kind", v) ∈ ms → ∃ name, v = .string name := by
  induction ms generalizing first c found with
  | nil =>
    rw [readRootMembers_eq_ok, ends_readMembers]
    constructor
    · rintro (⟨hstart, hfound, -⟩ | ⟨_, _, _, _, _, _, _, _, _, _, _, _, h, _⟩)
      · obtain ⟨k, rfl⟩ := Option.isSome_iff_exists.mp hfound
        exact ⟨.inl ⟨hstart, rfl⟩, ⟨k, rfl⟩, nofun⟩
      · cases h
    · rintro ⟨⟨hstart, -⟩ | ⟨_, _, _, _, _, _, _, _, _, _, _, _, h⟩, ⟨k, hk⟩, -⟩
      · cases found with
        | none => cases hk
        | some k' => exact .inl ⟨hstart, rfl, rfl⟩
      · cases h
  | cons m ms ih =>
    rw [readRootMembers_eq_ok, ends_readMembers]
    constructor
    · rintro (⟨_, _, h⟩ | ⟨s, key, k, e, v, f, ms', hstart, hkey, hcolon, hv, hms, h, hkind⟩)
      · cases h
      · cases h
        by_cases hname : key = "kind"
        · obtain ⟨hfound, name, rfl, hknown⟩ := hkind hname
          obtain ⟨k', hk'⟩ := Option.isSome_iff_exists.mp hknown
          obtain rfl : found = none := Option.isNone_iff_eq_none.mp (by simpa using hfound)
          subst hname
          have hmore : readRootMembers (some k').isSome false f = .ok (ms, d) := hms
          obtain ⟨hends, ⟨k'', hgo⟩, hnames⟩ := ih.mp hmore
          refine ⟨.inr ⟨s, _, k, e, _, f, ms, hstart, hkey, hcolon, hv, hends, rfl⟩, ⟨k'', ?_⟩,
            fun w hw => ?_⟩
          · rw [kindOf_go_kind (kindOfTag_string.mpr hk'), hgo]
          · rcases List.mem_cons.mp hw with h | h
            · cases h
              exact ⟨name, rfl⟩
            · exact hnames w h
        · simp only [hname, decide_false, Bool.or_false] at hms
          obtain ⟨hends, ⟨k', hgo⟩, hnames⟩ := ih.mp hms
          refine ⟨.inr ⟨s, key, k, e, v, f, ms, hstart, hkey, hcolon, hv, hends, rfl⟩, ⟨k', ?_⟩,
            fun w hw => ?_⟩
          · rw [kindOf_go_other hname, hgo]
          · rcases List.mem_cons.mp hw with h | h
            · cases h
              exact absurd rfl hname
            · exact hnames w h
    · rintro ⟨⟨_, h⟩ | ⟨s, key, k, e, v, f, ms', hstart, hkey, hcolon, hv, hends, h⟩, ⟨k', hgo⟩,
        hnames⟩
      · cases h
      · cases h
        have hrest := fun w hw => hnames w (List.mem_cons_of_mem _ hw)
        refine .inr ⟨s, key, k, e, v, f, ms, hstart, hkey, hcolon, hv, ?_, rfl, fun hname => ?_⟩
        · by_cases hname : key = "kind"
          · subst hname
            obtain ⟨rfl, k'', -, hgo⟩ := kindOf_go_cons hgo
            show readRootMembers (some k'').isSome false f = .ok (ms, d)
            exact ih.mpr ⟨hends, ⟨k', hgo⟩, hrest⟩
          · rw [kindOf_go_other hname] at hgo
            simp only [hname, decide_false, Bool.or_false]
            exact ih.mpr ⟨hends, ⟨k', hgo⟩, hrest⟩
        · subst hname
          obtain ⟨name, rfl⟩ := hnames v List.mem_cons_self
          obtain ⟨rfl, k'', htag, -⟩ := kindOf_go_cons hgo
          exact ⟨rfl, name, rfl, Option.isSome_iff_exists.mpr ⟨k'', kindOfTag_string.mp htag⟩⟩

-- ============================================================= the root

/-- A root that decodes is read like any value, if it names its kind. -/
theorem readRoot_eq_ok_iff {n : Node} (hdecode : decode v = .ok n) :
    readRoot c = .ok (v, d) ↔ Ends (readValue c) v d ∧ NamesKind v := by
  cases hb : c.skipBlanks.rest with
  | nil =>
    refine iff_of_false (fun h => ?_) fun h => not_ends_readValue hb h.1
    simp only [readRoot, hb] at h
    cases h
  | cons b bs =>
    rw [ends_readValue hb]
    simp only [readRoot, hb]
    by_cases hobject : b = byte '\x7b'
    · have hlist : b ≠ byte '[' := by rw [hobject]; decide
      rw [if_pos hobject, if_neg hlist, if_pos hobject]
      constructor
      · intro h
        cases hms : readRootMembers false true c.skipBlanks.step with
        | error e => rw [hms] at h; cases h
        | ok r =>
          rw [hms] at h
          cases h
          have hms : readRootMembers (none : Option Kind).isSome true c.skipBlanks.step
              = .ok (r.1, r.2) := hms
          obtain ⟨hends, -, hnames⟩ := readRootMembers_eq_ok_iff.mp hms
          exact ⟨⟨r.1, rfl, hends⟩, hnames⟩
      · rintro ⟨⟨ms, rfl, hends⟩, hnames⟩
        have hms : readRootMembers (none : Option Kind).isSome true c.skipBlanks.step
            = .ok (ms, d) :=
          readRootMembers_eq_ok_iff.mpr ⟨hends, exists_kindOf_of_decode hdecode, hnames⟩
        rw [Option.isSome_none] at hms
        rw [hms]
        rfl
    · rw [if_neg hobject]
      by_cases hlist : b = byte '['
      · rw [if_pos hlist, if_pos hlist]
        constructor
        · intro h
          split at h
          · cases h
          · cases h
          · next s hstart =>
            split at h
            · cases h
            · next name e hname =>
              split at h
              · cases h
              · next vs f hf hvs =>
                cases h
                obtain ⟨htag, -⟩ := readKindName_eq_ok.mp hname
                exact ⟨⟨_, rfl, ends_readItems.mpr
                  (.inr ⟨s, _, e, vs, hstart, htag, ⟨hf, hvs⟩, rfl⟩)⟩, trivial⟩
        · rintro ⟨⟨vs, rfl, hends⟩, hnames⟩
          rcases ends_readItems.mp hends with
            ⟨-, rfl⟩ | ⟨s, tag, e, vs, hstart, htag, ⟨hf, hvs⟩, rfl⟩
          · cases hnames
          · cases tag with
            | string name =>
              obtain ⟨k, hk⟩ := exists_kindOfTag_of_decode hdecode
              have hname := readKindName_eq_ok.mpr ⟨htag, isSome_of_kindOfTag hk⟩
              simp only [hstart, hname, hvs]
            | _ => cases hnames
      · rw [if_neg hlist, if_neg hlist, if_neg hobject]
        refine iff_of_false (fun h => ?_) fun h => ?_
        · split at h <;> cases h
        · exact absurd h.2.hasParts (not_hasParts_of_readScalar h.1)

-- ============================================================= loading

theorem read_eq_ok {bytes : List UInt8} :
    Json.read bytes = .ok v ↔ ∃ d, Ends (readValue { rest := bytes }) v d ∧ finish d = .ok () := by
  unfold Json.read
  cases readValue { rest := bytes } with
  | error e => exact iff_of_false nofun fun ⟨_, h, _⟩ => not_ends_error h
  | ok r =>
    obtain ⟨w, d⟩ := r
    cases hd : finish d.1 with
    | error e =>
      refine iff_of_false (fun h => ?_) ?_
      · simp only [bind, Except.bind, hd] at h
        cases h
      · rintro ⟨d', hends, hd'⟩
        obtain ⟨-, rfl⟩ := ends_ok.mp hends
        rw [hd] at hd'
        cases hd'
    | ok u =>
      simp only [bind, Except.bind, hd]
      constructor
      · intro h
        cases h
        exact ⟨d.1, ends_ok.mpr ⟨rfl, rfl⟩, hd⟩
      · rintro ⟨d', hends, -⟩
        obtain ⟨rfl, -⟩ := ends_ok.mp hends
        rfl

/-- A program is loaded exactly if the bytes are a value which names the kind of its
root and decodes to a node which is lowered to the program. -/
theorem load_eq_ok_iff {source : Source} {bytes : List UInt8} {p : Program} :
    load source bytes = .ok p ↔
      ∃ v n, Json.read bytes = .ok v ∧ NamesKind v ∧ decode v = .ok n ∧ lower n = .ok p := by
  constructor
  · intro h
    unfold load at h
    split at h
    · cases h
    · next v d hroot =>
      split at h
      · cases h
      · next n hdecode =>
        split at h
        · cases h
        · next hfinish =>
          obtain ⟨hends, hnames⟩ := (readRoot_eq_ok_iff hdecode).mp hroot
          refine ⟨v, n, read_eq_ok.mpr ⟨d, hends, hfinish⟩, hnames, hdecode, ?_⟩
          cases hlower : lower n with
          | error e => rw [hlower] at h; cases h
          | ok p' => rw [hlower] at h; cases h; rfl
  · rintro ⟨v, n, hread, hnames, hdecode, hlower⟩
    obtain ⟨d, hends, hfinish⟩ := read_eq_ok.mp hread
    have hroot := (readRoot_eq_ok_iff hdecode).mpr ⟨hends, hnames⟩
    simp only [load, hroot, hdecode, hfinish, hlower]
    rfl

/-- What is loaded from bytes that are a value is a matter of the value. -/
theorem load_eq_ok_iff_of_read {source : Source} {bytes : List UInt8} {p : Program}
    (hread : Json.read bytes = .ok v) :
    load source bytes = .ok p ↔ NamesKind v ∧ ∃ n, decode v = .ok n ∧ lower n = .ok p := by
  rw [load_eq_ok_iff]
  constructor
  · rintro ⟨w, n, hw, hnames, hn⟩
    rw [hread] at hw
    cases hw
    exact ⟨hnames, n, hn⟩
  · rintro ⟨hnames, n, hn⟩
    exact ⟨v, n, hread, hnames, hn⟩

end TreeCheck.Document
