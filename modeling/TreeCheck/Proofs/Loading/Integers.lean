/-
Integers as constants of a document.

A site is a place in a text where the value of a constant stands, in a
document that is otherwise accepted. Whatever constant of the language
is written there becomes the constant of the program in that place, and
nothing else of the program depends on it. An integer that is kept as
one when it is read is therefore kept as a constant if it is within the
bounds of those, and refused at its position if it is not.

Integers further out, and a zero with a minus, are floating-point
numbers from the moment they are read, so they never come before the
check of the bounds: they are accepted, as other constants than the
ones that were written.
-/
import TreeCheck.Proofs.Loading.Constants

namespace TreeCheck.Document

open Json (IntegerText Spells SpellsMembers blanks_nil byte quoted comma)

-- ================================================================= sites

/-- A place in a text where the value of a constant stands. A constant
that the document has nowhere else marks the place: with it, the text
spells a value that decodes to a node, which is lowered to a program. -/
structure ConstantSite where
  before : List UInt8
  after : List UInt8
  mark : Binary64
  value : Json.Value
  node : Node
  program : Program
  earlier : List (Position × Literal)
  position : Position
  later : List (Position × Literal)
  spelled : ∀ text v, Spells text v →
    SpellsDocument (before ++ (text ++ after)) (value.fill ⟨mark, v⟩)
  named : NamesKind value
  decoded : decode value = .ok node
  lowered : lower node = .ok program
  constants : program.constants = earlier ++ (position, .float mark) :: later
  unmarked : ∀ c ∈ earlier ++ later, c.2 ≠ .float mark

namespace ConstantSite

variable (s : ConstantSite)

/-- The text with something written in the place. -/
def text (bs : List UInt8) : List UInt8 := s.before ++ (bs ++ s.after)

/-- The node with a value in the place. -/
def nodeWith (v : Json.Value) : Node := s.node.fill ⟨s.mark, v⟩

/-- The constants of the program, with another one in the place. -/
def constantsWith (l : Literal) : List (Position × Literal) :=
  s.earlier ++ (s.position, l) :: s.later

/-- An integer written in the place keeps its meaning: within bounds it is
the integer constant there, with everything else as the document has it,
and otherwise it is refused at its position. -/
def KeepsInteger (t : IntegerText) (source : Json.Source) : Prop :=
  (leastInt ≤ t.value ∧ t.value ≤ greatestInt →
    ∃ p, load source (s.text t.bytes) = .ok p ∧ p.constants = s.constantsWith (.int t.value) ∧
      p.document = (s.nodeWith (.number (.int t.value))).wrapped) ∧
  (¬ (leastInt ≤ t.value ∧ t.value ≤ greatestInt) →
    ∃ e : LowerError, load source (s.text t.bytes) = .error (.lower e) ∧
      (Failure.malformed (.lower e)).message =
        s!"malformed input: at {s.position.line}:{s.position.column}: " ++
          s!"integer literal {t.value} out of range")

-- ====================================================== what is loaded

theorem fits : ∀ st ∈ s.node.standing .root, st.Fits :=
  (exists_lower_iff s.node).mp ⟨s.program, s.lowered⟩

theorem load_text {bs : List UInt8} {v : Json.Value} (h : Spells bs v) (hv : v ≠ .null)
    (source : Json.Source) : load source (s.text bs) = (lower (s.nodeWith v)).mapError .lower :=
  load_eq (s.spelled bs v h) (s.named.fill _) (decode_fill _ hv s.decoded) source

/-- The marked constant is the one in the place, and no other. -/
theorem mem_constants_iff (q : Position) :
    (q, .number (.float s.mark)) ∈ s.node.constants ↔ q = s.position := by
  rw [← constants_of_lower s.lowered, s.constants]
  unfold documented
  rw [List.mem_map]
  constructor
  · rintro ⟨c, hc, heq⟩
    obtain ⟨rfl, hl⟩ := Prod.mk.inj heq
    have hmark : c.2 = .float s.mark := Literal.document_injective hl
    rcases List.mem_append.mp hc with hc | hc
    · exact absurd hmark (s.unmarked c (List.mem_append_left _ hc))
    · rcases List.mem_cons.mp hc with rfl | hc
      · rfl
      · exact absurd hmark (s.unmarked c (List.mem_append_right _ hc))
  · rintro rfl
    exact ⟨(s.position, .float s.mark), by simp, rfl⟩

theorem document_fill_of_ne {l : Literal} {m : Binary64} (h : l ≠ .float m) (v : Json.Value) :
    l.document.fill ⟨m, v⟩ = l.document := by
  cases l with
  | float x =>
    have hx : x ≠ m := fun hx => h (hx ▸ rfl)
    simp only [Literal.document, Json.Value.fill, if_neg hx]
  | _ => rfl

/-- To fill the place changes the one constant there. -/
theorem constants_nodeWith (l : Literal) :
    (s.nodeWith l.document).constants = documented (s.constantsWith l) := by
  have hsame : ∀ cs : List (Position × Literal), (∀ c ∈ cs, c.2 ≠ .float s.mark) →
      (documented cs).map (fun c => (c.1, c.2.fill ⟨s.mark, l.document⟩)) = documented cs := by
    intro cs hcs
    unfold documented
    rw [List.map_map]
    refine List.map_congr_left fun c hc => ?_
    exact congrArg (c.1, ·) (document_fill_of_ne (hcs c hc) l.document)
  have hmark : (Literal.float s.mark).document.fill ⟨s.mark, l.document⟩ = l.document := by
    simp only [Literal.document, Json.Value.fill, if_true]
  rw [nodeWith, Node.constants_fill, ← constants_of_lower s.lowered, s.constants, constantsWith,
    documented_append_cons, documented_append_cons, List.map_append, List.map_cons,
    hsame _ fun c hc => s.unmarked c (List.mem_append_left _ hc),
    hsame _ fun c hc => s.unmarked c (List.mem_append_right _ hc), hmark]

/-- A constant of the language that is written in the place is the
constant of the program there, and everything else is as it was. -/
theorem exists_load {bs : List UInt8} {l : Literal} (h : Spells bs l.document)
    (hl : IsConstant l.document) (source : Json.Source) :
    ∃ p, load source (s.text bs) = .ok p ∧ p.constants = s.constantsWith l ∧
      p.document = (s.nodeWith l.document).wrapped := by
  have hnull : l.document ≠ .null := by cases l <;> exact nofun
  obtain ⟨p, hp⟩ := exists_lower_fill ⟨s.mark, l.document⟩ s.fits hl
  refine ⟨p, ?_, ?_, document_of_lower hp⟩
  · rw [s.load_text h hnull, nodeWith, hp]
    rfl
  · apply documented_injective
    rw [constants_of_lower hp]
    exact s.constants_nodeWith l

/-- An integer that is kept as one when it is read keeps its meaning. -/
theorem integer_kept (t : IntegerText) (source : Json.Source)
    (hzero : ¬ (t.negative ∧ t.magnitude = 0)) (hleast : Json.Number.least ≤ t.value)
    (hgreatest : t.value ≤ Json.Number.greatest) : s.KeepsInteger t source := by
  have hspells : Spells t.bytes (.number (.int t.value)) :=
    .scalar (IntegerText.scalar (IntegerText.number?_eq_int hzero hleast hgreatest))
  refine ⟨fun hbounds => ?_, fun hbounds => ?_⟩
  · obtain ⟨p, hp⟩ := s.exists_load (l := .int t.value) hspells hbounds source
    exact ⟨p, hp⟩
  · refine ⟨⟨s.position, .integerOutOfRange t.value⟩, ?_, message_malformed _⟩
    rw [s.load_text hspells nofun, nodeWith,
      lower_fill_outOfRange _ s.fits rfl hbounds s.mem_constants_iff]
    rfl

/-- An integer that is read as a floating-point number is a floating-point
constant of the program, within bounds or not. -/
theorem not_keepsInteger {t : IntegerText} {x : Binary64} (hx : t.number? = some (.float x))
    (source : Json.Source) : ¬ s.KeepsInteger t source := by
  have hspells : Spells t.bytes (Literal.float x).document := .scalar (IntegerText.scalar hx)
  obtain ⟨p, hp, hconstants, -⟩ := s.exists_load hspells trivial source
  rintro ⟨hkept, hrefused⟩
  by_cases hbounds : leastInt ≤ t.value ∧ t.value ≤ greatestInt
  · obtain ⟨q, hq, hq', -⟩ := hkept hbounds
    rw [hp] at hq
    cases hq
    rw [hconstants] at hq'
    have hcons := List.append_cancel_left hq'
    cases hcons
  · obtain ⟨e, he, -⟩ := hrefused hbounds
    rw [hp] at he
    cases he

end ConstantSite

-- ======================================================= one constant alone

/-- The digits of the number one. -/
def oneText : IntegerText := ⟨false, [byte '1'], by decide, by decide, by decide⟩

/-- A document that is one constant at the start of the source. -/
def loneConstant (v : Json.Value) : Json.Value :=
  .object [("kind", .string "Program"), ("body", .array [.object [("kind", .string "Literal"),
    ("position", .object [("line", .number (.int 1)), ("column", .number (.int 1))]),
    ("value", v)]])]

/-- The text of such a document before the value. -/
def loneBefore : List UInt8 :=
  byte '\x7b' :: (quoted "kind" ++ byte ':' :: (quoted "Program" ++ byte ',' ::
    (quoted "body" ++ byte ':' :: byte '[' :: byte '\x7b' :: (quoted "kind" ++ byte ':' ::
      (quoted "Literal" ++ byte ',' :: (quoted "position" ++ byte ':' :: byte '\x7b' ::
        (quoted "line" ++ byte ':' :: byte '1' :: byte ',' :: (quoted "column" ++ byte ':' ::
          byte '1' :: byte '\x7d' :: byte ',' :: (quoted "value" ++ [byte ':'])))))))))

example : loneBefore = Utf8.encode
    ("\x7b\"kind\":\"Program\",\"body\":[\x7b\"kind\":\"Literal\"," ++
      "\"position\":\x7b\"line\":1,\"column\":1\x7d,\"value\":") := by
  decide

theorem spells_loneConstant {text : List UInt8} {v : Json.Value} (h : Spells text v) :
    Spells (loneBefore ++ (text ++ [byte '\x7d', byte ']', byte '\x7d'])) (loneConstant v) := by
  have hone : Spells oneText.bytes (.number (.int 1)) :=
    .scalar (IntegerText.scalar (n := .int 1) (by decide))
  have hend : SpellsMembers false [byte '\x7d'] [] := .nil blanks_nil
  have hcolumn := SpellsMembers.compact false "column" (by decide) hone hend
  have hposition := Spells.object (.compact true "line" (by decide) hone hcolumn)
  have hvalue := SpellsMembers.compact false "value" (by decide) h hend
  have hrest := SpellsMembers.compact false "position" (by decide) hposition hvalue
  have hliteral : Spells (quoted "Literal") (.string "Literal") := .quoted (by decide)
  have hconstant := Spells.object (.compact true "kind" (by decide) hliteral hrest)
  have hbody := Spells.array (.compact true hconstant (.nil blanks_nil))
  have hmembers := SpellsMembers.compact false "body" (by decide) hbody hend
  have hprogram : Spells (quoted "Program") (.string "Program") := .quoted (by decide)
  have hroot := Spells.object (.compact true "kind" (by decide) hprogram hmembers)
  have hbytes : oneText.bytes = [byte '1'] := rfl
  simp only [comma, hbytes, List.cons_append, List.append_assoc, List.nil_append, if_true,
    Bool.false_eq_true, if_false] at hroot
  simp only [loneBefore, List.cons_append, List.append_assoc, List.nil_append]
  exact hroot

/-- The place of the value in a document that is one constant, marked by a
zero. -/
def loneSite : ConstantSite where
  before := loneBefore
  after := [byte '\x7d', byte ']', byte '\x7d']
  mark := ⟨0⟩
  value := loneConstant (.number (.float ⟨0⟩))
  node := .program ⟨1, 1⟩ [.literal ⟨1, 1⟩ (.number (.float ⟨0⟩))]
  program := ⟨[.expr ⟨0, ⟨1, 1⟩⟩ (.literal ⟨1, ⟨1, 1⟩⟩ (.float ⟨0⟩))], ⟨1, 1⟩⟩
  earlier := []
  position := ⟨1, 1⟩
  later := []
  spelled text v h := ⟨[], _, [], by simp, blanks_nil, blanks_nil, spells_loneConstant h⟩
  named v hv := ⟨"Program", by simpa using hv⟩
  decoded := rfl
  lowered := rfl
  constants := rfl
  unmarked c hc := nomatch hc

/-- The digits of the greatest integer constant. -/
def greatestText : IntegerText :=
  ⟨false, "9223372036854775807".toList.map byte, by decide, by decide, by decide⟩

/-- The digits of the first integer that is no constant. -/
def tooGreatText : IntegerText :=
  ⟨false, "9223372036854775808".toList.map byte, by decide, by decide, by decide⟩

/-- The digits of the first integer that is not kept as one. -/
def unkeptText : IntegerText :=
  ⟨false, "18446744073709551616".toList.map byte, by decide, by decide, by decide⟩

theorem ConstantSite.integer_kept_atGreatest :
    (∃ p, load .text (loneSite.text greatestText.bytes) = .ok p ∧
      p.constants = [(⟨1, 1⟩, .int 9223372036854775807)]) ∧
    ∃ e : LowerError, load .text (loneSite.text tooGreatText.bytes) = .error (.lower e) ∧
      (Failure.malformed (.lower e)).message
        = "malformed input: at 1:1: integer literal 9223372036854775808 out of range" := by
  have hgreatest : loneSite.KeepsInteger greatestText .text :=
    loneSite.integer_kept greatestText .text (by decide) (by decide) (by decide)
  have htooGreat : loneSite.KeepsInteger tooGreatText .text :=
    loneSite.integer_kept tooGreatText .text (by decide) (by decide) (by decide)
  obtain ⟨p, hp, hconstants, -⟩ := hgreatest.1 (by decide)
  obtain ⟨e, he, hmessage⟩ := htooGreat.2 (by decide)
  exact ⟨⟨p, hp, hconstants⟩, e, he, hmessage.trans (by decide)⟩

/-- Two to the power of 64 is accepted as a floating-point constant, so
not every integer keeps its meaning. -/
theorem ConstantSite.unkept_accepted :
    ¬ ∀ (s : ConstantSite) (t : IntegerText) (source : Json.Source), s.KeepsInteger t source := by
  intro h
  have hfloat : unkeptText.number? = some (.float ⟨0x43F0000000000000⟩) := by decide +kernel
  exact loneSite.not_keepsInteger hfloat .text (h loneSite unkeptText .text)

end TreeCheck.Document
