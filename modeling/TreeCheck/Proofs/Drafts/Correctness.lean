/-
Documents are read up to irrelevant detail.

Loading asks three things of the value that a text is: that it names the
kind of its root, that it decodes, and that its node is lowered. Drafts
name their kinds alike, they decode to nodes that are the same but for
the parts of constants, and lowering does not take constants that have
parts. So all drafts of a document load to one program, or none does.
-/
import TreeCheck.Proofs.Drafts.Lowering
import TreeCheck.Proofs.Loading.Stages

namespace TreeCheck.Document

open Json (Value)

variable {s : Shape} {v v' : Value}

-- ============================================================= the root

theorem Redraft.string_iff (h : Redraft s v v') {t : String} : v = .string t ↔ v' = .string t :=
  h.eq_iff id

theorem namesKind_array {tag : Value} {vs : List Value} :
    NamesKind (.array (tag :: vs)) ↔ ∃ name, tag = .string name := by
  cases tag with
  | string name => exact iff_of_true trivial ⟨name, rfl⟩
  | _ => exact iff_of_false id nofun

/-- All drafts of a root name its kind, or none does. -/
theorem Redraft.namesKind_iff (h : Redraft .node v v') : NamesKind v ↔ NamesKind v' := by
  cases h with
  | same => exact Iff.rfl
  | array h =>
    cases h with
    | nil => exact Iff.rfl
    | cons htag _ =>
      rw [namesKind_array, namesKind_array]
      exact exists_congr fun name => htag.string_iff
  | object hms hdropped hkept hadded hms' =>
    constructor
    · intro hnames w' hw'
      obtain ⟨w, hw, h⟩ := exists_of_redraft_kind hms hkept hms' (not_mem_of_not_meant hadded) hw'
      exact (hnames w hw).imp fun name => h.string_iff.mp
    · intro hnames w hw
      obtain ⟨w', hw', h⟩ := exists_redraft_of_kind hms hkept hms' hdropped hw
      exact (hnames w' hw').imp fun name => h.string_iff.mpr

-- =========================================================== documents

/-- Documents are read up to irrelevant detail. A text is a value without repeated keys,
and another text is a draft of it: at any depth, the members of objects may be in another
order, there may be members that the kind of a node does not know, and optional values
that are null may be left out. Then both load to the same program, or neither loads. -/
theorem loadText_redraft {text text' : String} (hread : Json.read (Utf8.encode text) = .ok v)
    (hread' : Json.read (Utf8.encode text') = .ok v') (hkeys : v.distinctKeys = true)
    (hdraft : Redraft .node v v') (p : Program) :
    loadText text = .ok p ↔ loadText text' = .ok p := by
  unfold loadText
  rw [load_eq_ok_iff_of_read hread, load_eq_ok_iff_of_read hread']
  refine and_congr hdraft.namesKind_iff ?_
  exact (hdraft.decode_alike hkeys).exists_congr fun n n' hn => lower_congr_blur hn

/-- The text of a document that is one `return`, with nothing to return. -/
def returnText : String :=
  "\x7b\"kind\":\"Program\",\"body\":[\x7b\"kind\":\"Return\"," ++
    "\"position\":\x7b\"line\":1,\"column\":2\x7d,\"value\":null\x7d]\x7d"

/-- The same with every object the other way round, a note, and no word of a value. -/
def redraftedText : String :=
  "\x7b\"body\":[\x7b\"note\":[true],\"position\":\x7b\"column\":2,\"line\":1\x7d," ++
    "\"kind\":\"Return\"\x7d],\"kind\":\"Program\"\x7d"

/-- The members of its position. -/
def returnPlace : List (String × Value) :=
  [("line", .number (.int 1)), ("column", .number (.int 2))]

/-- The members of the node in the first text. -/
def returnMembers : List (String × Value) :=
  [("kind", .string "Return"), ("position", .object returnPlace), ("value", .null)]

/-- The members of the node in the second text, from the last to the first. -/
def redraftedMembers : List (String × Value) :=
  [("kind", .string "Return"), ("position", .object returnPlace.reverse),
    ("note", .array [.bool true])]

/-- The members of a program with one node. -/
def programMembers (ms : List (String × Value)) : List (String × Value) :=
  [("kind", .string "Program"), ("body", .array [.object ms])]

theorem redraft_returnMembers :
    Redraft .node (.object returnMembers) (.object redraftedMembers.reverse) := by
  have hplace : memberShape (recordFields .node returnMembers) "position" = .position := by decide
  have hdropped : SaysAbsent (recordFields .node returnMembers) ("value", .null) :=
    ⟨rfl, .orNull "value" .node, by decide, rfl⟩
  have hkept : RedraftMembers (recordFields .node returnMembers)
      [("kind", .string "Return"), ("position", .object returnPlace)]
      [("kind", .string "Return"), ("position", .object returnPlace.reverse)] := by
    refine .cons (.same _ _) (.cons ?_ (.nil _))
    rw [hplace]
    exact .perm .position (List.reverse_perm returnPlace)
  have hadded : ¬ Meant .node (recordFields .node returnMembers) "note" := by
    rintro (h | ⟨-, h⟩) <;> exact absurd h (by decide)
  exact .object (.refl _) (List.forall_mem_singleton.mpr hdropped) hkept
    (List.forall_mem_singleton.mpr hadded) (List.reverse_perm redraftedMembers)

/-- The two texts are drafts of one document. -/
theorem redraft_program : Redraft .node (.object (programMembers returnMembers))
    (.object (programMembers redraftedMembers.reverse).reverse) := by
  have hbody : memberShape (recordFields .node (programMembers returnMembers)) "body" = .nodes := by
    decide
  have hkept : RedraftMembers (recordFields .node (programMembers returnMembers))
      (programMembers returnMembers) (programMembers redraftedMembers.reverse) := by
    refine .cons (.same _ _) (.cons ?_ (.nil _))
    rw [hbody]
    exact .array (.cons redraft_returnMembers (.nil _))
  have hms : (programMembers returnMembers).Perm (programMembers returnMembers ++ []) := .refl _
  exact .object hms (List.forall_mem_nil _) hkept (List.forall_mem_nil _) (List.reverse_perm _)

/-- So they load to the same program. -/
theorem loadText_redraft_return :
    ∃ p, loadText returnText = .ok p ∧ loadText redraftedText = .ok p := by
  have hread : Json.read (Utf8.encode returnText) =
      .ok (.object (programMembers returnMembers)) := by
    with_unfolding_all rfl
  have hread' : Json.read (Utf8.encode redraftedText) =
      .ok (.object (programMembers redraftedMembers.reverse).reverse) := by
    with_unfolding_all rfl
  have hiff := loadText_redraft hread hread' (by decide) redraft_program
  have hload : (loadText returnText).toOption.isSome := by decide +kernel
  cases h : loadText returnText with
  | error e =>
    rw [h] at hload
    cases hload
  | ok p => exact ⟨p, rfl, (hiff p).mp h⟩

end TreeCheck.Document
