/-
Reading the root of a document that the grammar derives.

The root is read member by member, or item by item, with a check of its
kind on the way. Where the text spells a value that decodes to a node
and gives the kind by its name, the check passes: a kind that decodes
is a known one, and members that decode name a kind only once. What is
read is then the value that the text spells, so loading comes down to
decoding and lowering.
-/
import TreeCheck.Document.Load
import TreeCheck.Proofs.Json.Spelling

namespace TreeCheck.Document

open Json

/-- A value in which the kind of the root is given by a string, not by a
number. -/
def NamesKind : Value → Prop
  | .array (.string _ :: _) => True
  | .object ms => ∀ v, ("kind", v) ∈ ms → ∃ name, v = .string name
  | _ => False

/-- A text spells a document: white space, a value, white space. -/
def SpellsDocument (bs : List UInt8) (v : Value) : Prop :=
  ∃ ws text ws', bs = ws ++ (text ++ ws') ∧ Blanks ws ∧ Blanks ws' ∧ Spells text v

/-- A known name is read as the kind of the root. -/
theorem readKindName_name {ks ws more : List UInt8} {name : String} (h : Spells ks (.string name))
    (hname : (Kind.ofName? name).isSome) (hws : Blanks ws) (hmore : Delimited more) {c : Cursor}
    (hc : c.rest = ws ++ (ks ++ more)) :
    ∃ d, readKindName c = .ok (name, d) ∧ d.rest = more := by
  cases h with
  | scalar h =>
    obtain ⟨b, bs, rfl, hblank, -, hlist, hobject⟩ := h.exists_cons
    have hs := rest_skipBlanks hws hblank hc
    obtain ⟨d, hd, hrest⟩ := h _ more hs hmore
    refine ⟨d, ?_, hrest⟩
    simp only [readKindName, hs, if_neg hlist, if_neg hobject, hd, if_pos hname]

theorem isSome_of_kindOfTag {name : String} {k : Kind} (h : kindOfTag (.string name) = .ok k) :
    (Kind.ofName? name).isSome := by
  simp only [kindOfTag] at h
  cases hk : Kind.ofName? name with
  | none => rw [hk] at h; cases h
  | some k => rfl

/-- Where a kind has been looked for among members, it is found once. -/
theorem kindOf_go_cons {found : Option Kind} {v : Value} {ms : List (String × Value)} {k : Kind}
    (h : kindOf.go found (("kind", v) :: ms) = .ok k) :
    found = none ∧ ∃ k', kindOfTag v = .ok k' ∧ kindOf.go (some k') ms = .ok k := by
  cases found with
  | some k' =>
    rw [kindOf.go, if_pos rfl] at h
    cases h
  | none =>
    rw [kindOf.go, if_pos rfl] at h
    cases hv : kindOfTag v with
    | error e =>
      simp only [hv] at h
      cases h
    | ok k' =>
      simp only [hv] at h
      exact ⟨rfl, k', rfl, h⟩

theorem kindOf_go_other {key : String} (h : key ≠ "kind") (found : Option Kind) (v : Value)
    (ms : List (String × Value)) : kindOf.go found ((key, v) :: ms) = kindOf.go found ms := by
  cases found <;> rw [kindOf.go, if_neg h]

section Steps

variable {first : Bool} {c d k e f : Cursor} {key : String}
  (hd : readKeyStart first c = .ok (true, d)) (hk : readString d = .ok (key, k))
  (he : readColon k = .ok e)

include hd hk he

/-- The first kind among the members is read by its name. -/
theorem readRootMembers_kind {name : String} (hkey : key = "kind")
    (hf : readKindName e = .ok (name, f)) :
    readRootMembers false first c =
      (readRootMembers true false f).map fun (ms, g) => ((key, .string name) :: ms, g) := by
  rw [readRootMembers]
  split
  · next h => rw [hd] at h; cases h
  · next h => rw [hd] at h; cases h
  · next h =>
    rw [hd] at h
    cases h
    split
    · next h => rw [hk] at h; cases h
    · next h =>
      rw [hk] at h
      cases h
      rw [if_neg (by simp)]
      split
      · next h => rw [he] at h; cases h
      · next h =>
        rw [he] at h
        cases h
        rw [if_pos hkey]
        split
        · next h => rw [hf] at h; cases h
        · next h => rw [hf] at h; cases h; rfl

/-- Every other member is read with its value. -/
theorem readRootMembers_other {v : Value} {g : e.Further} (found : Bool) (hkey : key ≠ "kind")
    (hg : readValue e = .ok (v, g)) :
    readRootMembers found first c =
      (readRootMembers found false g.1).map fun (ms, g) => ((key, v) :: ms, g) := by
  rw [readRootMembers]
  split
  · next h => rw [hd] at h; cases h
  · next h => rw [hd] at h; cases h
  · next h =>
    rw [hd] at h
    cases h
    split
    · next h => rw [hk] at h; cases h
    · next h =>
      rw [hk] at h
      cases h
      rw [if_neg fun h => hkey h.1]
      split
      · next h => rw [he] at h; cases h
      · next h =>
        rw [he] at h
        cases h
        rw [if_neg hkey]
        split
        · next h => rw [hg] at h; cases h
        · next h => rw [hg] at h; cases h; rfl

end Steps

/-- The members of a root are read if they name one kind, by a string. -/
theorem readRootMembers_eq {ms : List (String × Value)} {first : Bool} {bs more : List UInt8}
    (h : SpellsMembers first bs ms) {found : Option Kind} {k : Kind}
    (hkind : kindOf.go found ms = .ok k) (hnames : ∀ v, ("kind", v) ∈ ms → ∃ name, v = .string name)
    {c : Cursor} (hc : c.rest = bs ++ more) :
    ∃ d, readRootMembers found.isSome first c = .ok (ms, d) ∧ d.rest = more := by
  induction ms generalizing first bs found c with
  | nil =>
    cases h with
    | nil hws =>
      rw [List.append_assoc] at hc
      obtain ⟨d, hd, hrest⟩ := readKeyStart_end hws hc first
      have hfound : found.isSome = true := by
        cases found with
        | none => cases hkind
        | some k => rfl
      refine ⟨d, ?_, hrest⟩
      rw [readRootMembers]
      split
      · next h => rw [hd] at h; cases h
      · next h => rw [hd] at h; cases h; rw [if_pos hfound]
      · next h => rw [hd] at h; cases h
  | cons m ms ih =>
    cases h with
    | @cons _ sep ks ws ws' bs left key v _ hsep hkey hws hws' hv hms =>
      simp only [List.append_assoc, List.cons_append] at hc
      obtain ⟨d, hd, hd'⟩ := readKeyStart_key hsep hc
      obtain ⟨k, hk, hk'⟩ := hkey d _ hd'
      obtain ⟨e, he, he'⟩ := readColon_colon hws hk'
      have hmore := hms.delimited more
      have hrest := fun v hv => hnames v (List.mem_cons_of_mem _ hv)
      by_cases hkind' : key = "kind"
      · subst hkind'
        obtain ⟨name, rfl⟩ := hnames v List.mem_cons_self
        obtain ⟨rfl, k', htag, hgo⟩ := kindOf_go_cons hkind
        obtain ⟨f, hf, hf'⟩ :=
          readKindName_name hv (isSome_of_kindOfTag htag) hws' hmore he'
        obtain ⟨g, hg, hg'⟩ := ih hms hgo hrest hf'
        refine ⟨g, ?_, hg'⟩
        rw [Option.isSome_none, readRootMembers_kind hd hk he rfl hf]
        simp only [Option.isSome_some] at hg
        rw [hg]
        rfl
      · rw [kindOf_go_other hkind'] at hkind
        obtain ⟨f, hf, hf'⟩ := hv.gives hws' he' hmore
        obtain ⟨g, hg, hg'⟩ := ih hms hkind hrest hf'
        refine ⟨g, ?_, hg'⟩
        rw [readRootMembers_other hd hk he _ hkind' hf, hg]
        rfl

theorem NamesKind.hasParts {v : Value} (h : NamesKind v) : v.HasParts := by
  cases v with
  | array vs => trivial
  | object ms => trivial
  | _ => cases h

/-- An object that decodes to a node has a kind. -/
theorem exists_kindOf_of_decode {ms : List (String × Value)} {n : Node}
    (h : decode (.object ms) = .ok n) : ∃ k, kindOf ms = .ok k := by
  cases hk : kindOf ms with
  | error e =>
    simp only [decode, readShape, hk] at h
    cases h
  | ok k => exact ⟨k, rfl⟩

/-- The first item of an array that decodes to a node is a kind. -/
theorem exists_kindOfTag_of_decode {tag : Value} {vs : List Value} {n : Node}
    (h : decode (.array (tag :: vs)) = .ok n) : ∃ k, kindOfTag tag = .ok k := by
  cases hk : kindOfTag tag with
  | error e =>
    simp only [decode, readShape, hk] at h
    cases h
  | ok k => exact ⟨k, rfl⟩

/-- A root that decodes and names its kind is read as the value that its
text spells. -/
theorem readRoot_eq {bs ws more : List UInt8} {v : Value} {n : Node} (h : Spells bs v)
    (hnames : NamesKind v) (hdecode : decode v = .ok n) (hws : Blanks ws) {c : Cursor}
    (hc : c.rest = ws ++ (bs ++ more)) :
    ∃ d, readRoot c = .ok (v, d) ∧ d.rest = more := by
  cases h with
  | scalar h => exact absurd hnames.hasParts h.not_hasParts
  | @array bs vs h =>
    have hs : c.skipBlanks.rest = byte '[' :: (bs ++ more) := rest_skipBlanks hws (by decide) hc
    have hne : byte '[' ≠ byte '\x7b' := by decide
    cases h with
    | nil => cases hnames
    | @cons _ sep ks left tag vs hsep hv hvs =>
      cases tag with
      | string name =>
        obtain ⟨k, hk⟩ := exists_kindOfTag_of_decode hdecode
        obtain ⟨b, ks', rfl, hblank, hclose⟩ := hv.exists_cons
        have hstep := rest_step hs
        rw [List.append_assoc, List.append_assoc] at hstep
        obtain ⟨d, hd, hd'⟩ := readItemStart_item hsep hblank hclose hstep
        obtain ⟨e, he, he'⟩ := readKindName_name hv (isSome_of_kindOfTag hk) blanks_nil
          (hvs.delimited more) hd'
        obtain ⟨f, hf, hf'⟩ := hvs.gives he'
        refine ⟨f.1, ?_, hf'⟩
        simp only [readRoot, hs, if_neg hne, if_true, hd, he, hf]
      | _ => cases hnames
  | @object bs ms h =>
    have hs := rest_skipBlanks hws (by decide) hc
    obtain ⟨k, hk⟩ := exists_kindOf_of_decode hdecode
    obtain ⟨d, hd, hrest⟩ := readRootMembers_eq h hk hnames (rest_step hs)
    refine ⟨d, ?_, hrest⟩
    simp only [Option.isSome_none] at hd
    simp only [readRoot, hs, if_true, hd, Except.map]

/-- A document that spells a value which decodes to a node, and names the
kind of its root, is loaded as that node is lowered. -/
theorem load_eq {bs : List UInt8} {v : Value} {n : Node} (h : SpellsDocument bs v)
    (hnames : NamesKind v) (hdecode : decode v = .ok n) (source : Source) :
    load source bs = (lower n).mapError .lower := by
  obtain ⟨ws, text, ws', rfl, hws, hws', htext⟩ := h
  obtain ⟨d, hd, hrest⟩ := readRoot_eq htext hnames hdecode hws
    (c := { rest := ws ++ (text ++ ws') }) rfl
  have hfinish : finish d = .ok () := finish_blanks (hrest ▸ hws')
  simp only [load, hd, hdecode, hfinish]

end TreeCheck.Document
