/-
Replacing a part of a program.

A slot is a statement without one of its parts: a block without its
statements, a function without its body, an `if` or a loop without a
branch. A way leads from a program down to one of its statements.
Together they are a program with a gap, which can be filled with any
content; what is around the gap stays as it is (`Way.perm_labels`), and
no identity around it is used inside again (`Way.not_mem_ids`).
-/
import Mathlib.Data.List.Perm.Basic
import TreeCheck.Proofs.Visits.Visit
import TreeCheck.Syntax.Returns

namespace TreeCheck

-- ================================================================= slots

/-- A statement with a scope for a list of statements, without the list. -/
inductive Body where
  | block (tag : Tag) (blockAt : Position)
  | function (tag : Tag) (name : String) (params : List Param)
      (result : Option TypeName) (bodyAt : Position)

/-- A statement with a branch, without the branch. -/
inductive Branch where
  | thenBranch (tag : Tag) (condition : Expr) (elseBranch : Option Stmt)
  | elseBranch (tag : Tag) (condition : Expr) (thenBranch : Stmt)
  | loop (tag : Tag) (condition : Expr)

/-- A statement without one of its parts. -/
inductive Slot where
  | body (b : Body)
  | branch (b : Branch)

def Body.fill : Body → List Stmt → Stmt
  | .block t q, ss => .block t q ss
  | .function t name params result q, body => .function t name params result q body

def Branch.fill : Branch → Stmt → Stmt
  | .thenBranch t c b, a => .ifElse t c a b
  | .elseBranch t c a, b => .ifElse t c a (some b)
  | .loop t c, body => .while t c body

/-- What fits into a slot. -/
abbrev Slot.Content : Slot → Type
  | .body _ => List Stmt
  | .branch _ => Stmt

def Slot.fill : (slot : Slot) → slot.Content → Stmt
  | .body b, ss => b.fill ss
  | .branch b, s => b.fill s

/-- The statements of a content. -/
def Slot.stmts : (slot : Slot) → slot.Content → List Stmt
  | .body _, ss => ss
  | .branch _, s => [s]

/-- A way down to a statement, from the list of a program through the slots of
statements. -/
inductive Way where
  | top (before behind : List Stmt) (position : Position)
  | body (w : Way) (b : Body) (before behind : List Stmt)
  | branch (w : Way) (b : Branch)

/-- The program with a statement at the end of a way. -/
def Way.fill : Way → Stmt → Program
  | .top before behind q, s => ⟨before ++ s :: behind, q⟩
  | .body w b before behind, s => w.fill (b.fill (before ++ s :: behind))
  | .branch w b, s => w.fill (b.fill s)

-- ============================================================ identities

/-- The identities of the nodes of statements, in pre-order. -/
def Stmt.idsAll (ss : List Stmt) : List NodeId :=
  (Stmt.outlines 0 .body ss).map (·.node.id)

/-- The identities of the nodes of a content. -/
def Slot.ids (slot : Slot) (x : slot.Content) : List NodeId :=
  Stmt.idsAll (slot.stmts x)

/-- What is a statement's own: its identity, and the nodes of its expressions. -/
def Stmt.label (s : Stmt) : NodeId × List Expr := (s.id, s.exprs)

/-- The identities in a label. -/
def labelIds (l : NodeId × List Expr) : List NodeId := l.1 :: l.2.map Expr.id

/-- The labels of statements, at any depth, in pre-order. -/
def Stmt.labels (ss : List Stmt) : List (NodeId × List Expr) :=
  ((Stmt.outlines 0 .body ss).filterMap (·.node.stmt?)).map Stmt.label

theorem Stmt.labels_outlines (d : Nat) (r : Role) (ss : List Stmt) :
    ((Stmt.outlines d r ss).filterMap (·.node.stmt?)).map Stmt.label
      = Stmt.labels ss := by
  rw [Stmt.stmts_outlines_eq d 0 r .body, Stmt.labels]

theorem Stmt.labels_outline (d : Nat) (r : Role) (s : Stmt) :
    ((s.outline d r).filterMap (·.node.stmt?)).map Stmt.label = Stmt.labels [s] := by
  rw [← Stmt.labels_outlines d r, Stmt.outlines, Stmt.outlines, List.append_nil]

theorem Stmt.labels_cons (s : Stmt) (ss : List Stmt) :
    Stmt.labels (s :: ss) = Stmt.labels [s] ++ Stmt.labels ss := by
  rw [← Stmt.labels_outline 0 .body s, Stmt.labels, Stmt.outlines,
    List.filterMap_append, List.map_append, Stmt.labels]

theorem Stmt.labels_append (ss ts : List Stmt) :
    Stmt.labels (ss ++ ts) = Stmt.labels ss ++ Stmt.labels ts := by
  induction ss with
  | nil => rfl
  | cons s ss ih =>
      rw [List.cons_append, Stmt.labels_cons, ih, Stmt.labels_cons s ss,
        List.append_assoc]

theorem Stmt.perm_labels_among (before behind : List Stmt) (s : Stmt) :
    (Stmt.labels (before ++ s :: behind)).Perm
      (Stmt.labels (before ++ behind) ++ Stmt.labels [s]) := by
  rw [Stmt.labels_append, Stmt.labels_cons, Stmt.labels_append, List.append_assoc]
  exact List.Perm.append_left _ List.perm_append_comm

-- ================================================================ around

/-- The labels of what is around a list in a statement. -/
def Body.outside : Body → List (NodeId × List Expr)
  | .block t _ | .function t _ _ _ _ => [(t.id, [])]

/-- The labels of what is around a branch in a statement. -/
def Branch.outside : Branch → List (NodeId × List Expr)
  | .thenBranch t c b => (t.id, c.nested) :: Stmt.labels b.toList
  | .elseBranch t c a => (t.id, c.nested) :: Stmt.labels [a]
  | .loop t c => [(t.id, c.nested)]

def Slot.outside : Slot → List (NodeId × List Expr)
  | .body b => b.outside
  | .branch b => b.outside

/-- The labels of what is around the end of a way. -/
def Way.outside : Way → List (NodeId × List Expr)
  | .top before behind _ => Stmt.labels (before ++ behind)
  | .body w b before behind =>
    w.outside ++ (b.outside ++ Stmt.labels (before ++ behind))
  | .branch w b => w.outside ++ b.outside

theorem Body.labels_fill (b : Body) (ss : List Stmt) :
    Stmt.labels [b.fill ss] = b.outside ++ Stmt.labels ss := by
  cases b with
  | block t q =>
      rw [← Stmt.labels_outline 0 .body, Body.fill, Stmt.outline, Outline.stmts_cons,
        List.map_cons, Stmt.labels_outlines]
      rfl
  | function t name params result q =>
      rw [← Stmt.labels_outline 0 .body, Body.fill, Stmt.outline, Outline.stmts_cons,
        List.map_cons, Stmt.labels_outlines]
      rfl

theorem Branch.perm_labels (b : Branch) (s : Stmt) :
    (Stmt.labels [b.fill s]).Perm (b.outside ++ Stmt.labels [s]) := by
  have hlabel (t : Tag) (c : Expr) : (t.id, [c].flatMap Expr.nested) = (t.id, c.nested) := by
    rw [List.flatMap_singleton]
  rw [← Stmt.labels_outline 0 .body]
  cases b with
  | thenBranch t c b =>
      cases b with
      | none =>
          rw [Branch.fill, Stmt.outline, Outline.stmts_cons, List.filterMap_append,
            Expr.stmts_outline, List.nil_append, List.map_cons, Stmt.labels_outline]
          exact .of_eq (congrArg (· :: _) (hlabel t c))
      | some b =>
          rw [Branch.fill, Stmt.outline, Outline.stmts_cons, List.filterMap_append,
            List.filterMap_append, Expr.stmts_outline, List.nil_append, List.map_cons,
            List.map_append, Stmt.labels_outline, Stmt.labels_outline]
          exact .trans (.of_eq (congrArg (· :: _) (hlabel t c)))
            (.cons _ List.perm_append_comm)
  | elseBranch t c a =>
      rw [Branch.fill, Stmt.outline, Outline.stmts_cons, List.filterMap_append,
        List.filterMap_append, Expr.stmts_outline, List.nil_append, List.map_cons,
        List.map_append, Stmt.labels_outline, Stmt.labels_outline]
      exact .of_eq (congrArg (· :: _) (hlabel t c))
  | loop t c =>
      rw [Branch.fill, Stmt.outline, Outline.stmts_cons, List.filterMap_append,
        Expr.stmts_outline, List.nil_append, List.map_cons, Stmt.labels_outline]
      exact .of_eq (congrArg (· :: _) (hlabel t c))

theorem Slot.perm_labels (slot : Slot) (x : slot.Content) :
    (Stmt.labels [slot.fill x]).Perm (slot.outside ++ Stmt.labels (slot.stmts x)) := by
  cases slot with
  | body b => exact .of_eq (b.labels_fill x)
  | branch b => exact b.perm_labels x

/-- What is around the end of a way does not depend on what is there. -/
theorem Way.perm_labels (w : Way) (s : Stmt) :
    (Stmt.labels (w.fill s).body).Perm (w.outside ++ Stmt.labels [s]) := by
  induction w generalizing s with
  | top before behind q => exact Stmt.perm_labels_among before behind s
  | body w b before behind ih =>
      refine (ih _).trans ?_
      rw [b.labels_fill, Way.outside, List.append_assoc, List.append_assoc]
      exact ((Stmt.perm_labels_among before behind s).append_left _).append_left _
  | branch w b ih =>
      refine (ih _).trans ?_
      rw [Way.outside, List.append_assoc]
      exact (b.perm_labels s).append_left _

-- ============================================================== distinct

/-- Where no two nodes share an identity, no two expressions do. -/
theorem Program.nodup_exprIds {p : Program} (h : p.ids.Nodup) :
    (p.exprs.map Expr.id).Nodup :=
  (List.nodup_append.mp (p.outline.perm_ids.nodup_iff.mp h)).2.1

theorem Stmt.perm_idsAll (ss : List Stmt) :
    (Stmt.idsAll ss).Perm ((Stmt.labels ss).flatMap labelIds) := by
  refine (Outline.perm_ids _).trans ?_
  rw [Stmt.exprs_outlines, List.map_flatMap, Stmt.labels, List.flatMap_map]
  exact List.map_append_flatMap_perm _ Stmt.id fun s => s.exprs.map Expr.id

theorem Program.exprs_eq_labels (p : Program) :
    p.exprs = (Stmt.labels p.body).flatMap (·.2) := by
  rw [p.exprs_eq_flatMap, Stmt.labels, List.flatMap_map]
  rfl

/-- The labels of what is around the content of a slot at the end of a way. -/
def Way.around (w : Way) (slot : Slot) : List (NodeId × List Expr) :=
  w.outside ++ slot.outside

section

variable {w : Way} {slot : Slot} {x y : slot.Content} {e : Expr}

theorem Way.perm_around (w : Way) (slot : Slot) (x : slot.Content) :
    (Stmt.labels (w.fill (slot.fill x)).body).Perm
      (w.around slot ++ Stmt.labels (slot.stmts x)) := by
  refine (w.perm_labels _).trans ?_
  rw [Way.around, List.append_assoc]
  exact (slot.perm_labels x).append_left _

/-- No identity around a content is used in it again. -/
theorem Way.not_mem_ids (hids : (w.fill (slot.fill x)).ids.Nodup)
    {l : NodeId × List Expr} (hl : l ∈ w.around slot) {id : NodeId}
    (hid : id ∈ labelIds l) : id ∉ slot.ids x := by
  have hperm := (Stmt.perm_idsAll (w.fill (slot.fill x)).body).trans
    ((w.perm_around slot x).flatMap_right labelIds)
  have hnodup := hperm.nodup_iff.mp hids
  rw [List.flatMap_append] at hnodup
  intro hinside
  refine (List.nodup_append.mp hnodup).2.2 id (List.mem_flatMap.mpr ⟨l, hl, hid⟩) id
    ?_ rfl
  exact (Stmt.perm_idsAll _).mem_iff.mp hinside

theorem Way.mem_exprs_iff : e ∈ (w.fill (slot.fill x)).exprs
    ↔ (∃ l ∈ w.around slot, e ∈ l.2)
      ∨ ∃ l ∈ Stmt.labels (slot.stmts x), e ∈ l.2 := by
  have hperm := (w.perm_around slot x).flatMap_right (·.2)
  rw [Program.exprs_eq_labels, hperm.mem_iff, List.flatMap_append, List.mem_append,
    List.mem_flatMap, List.mem_flatMap]

/-- An expression that is not in the content of a slot is around it. -/
theorem Way.exists_around (h : e ∈ (w.fill (slot.fill x)).exprs)
    (hid : e.id ∉ slot.ids x) : ∃ l ∈ w.around slot, e ∈ l.2 := by
  rcases Way.mem_exprs_iff.mp h with h | ⟨l, hl, he⟩
  · exact h
  · refine absurd ?_ hid
    refine (Stmt.perm_idsAll _).mem_iff.mpr (List.mem_flatMap.mpr ⟨l, hl, ?_⟩)
    exact List.mem_cons_of_mem _ (List.mem_map_of_mem he)

end

-- ============================================================== exchange

section

variable {slot : Slot} {x y : slot.Content}

theorem Stmt.anyReturnsValue_append (ss ts : List Stmt) :
    Stmt.anyReturnsValue (ss ++ ts)
      = (Stmt.anyReturnsValue ss || Stmt.anyReturnsValue ts) := by
  induction ss with
  | nil => rfl
  | cons s ss ih =>
      rw [List.cons_append, Stmt.anyReturnsValue, ih, Stmt.anyReturnsValue,
        Bool.or_assoc]

/-- Whether a statement returns a value depends on a content only by whether that
does. -/
theorem Slot.returnsValue_fill_congr
    (h : Stmt.anyReturnsValue (slot.stmts x) = Stmt.anyReturnsValue (slot.stmts y)) :
    (slot.fill x).returnsValue = (slot.fill y).returnsValue := by
  cases slot with
  | body b =>
      cases b with
      | block t q => exact h
      | function t name params result q => rfl
  | branch b =>
      have h : x.returnsValue = y.returnsValue := by
        simpa only [Slot.stmts, Stmt.anyReturnsValue, Bool.or_false] using h
      cases b with
      | thenBranch t c b =>
          cases b with
          | none => exact h
          | some b => exact congrArg (· || b.returnsValue) h
      | elseBranch t c a => exact congrArg (a.returnsValue || ·) h
      | loop t c => exact h

theorem Stmt.anyReturnsValue_among_congr (before behind : List Stmt) {s s' : Stmt}
    (h : s.returnsValue = s'.returnsValue) :
    Stmt.anyReturnsValue (before ++ s :: behind)
      = Stmt.anyReturnsValue (before ++ s' :: behind) := by
  rw [Stmt.anyReturnsValue_append, Stmt.anyReturnsValue_append, Stmt.anyReturnsValue,
    Stmt.anyReturnsValue, h]

end

end TreeCheck
