/-
Trees that are built in memory have distinct identities.

Who builds a tree has some nodes in hand, those that constructors have
returned and that no other has been given yet. A constructor is called
with some of them, which become the parts of a new node, and the new
node is in hand instead (`Workbench.Step`). What each constructor does
is one and the same: the node it makes has the nodes given for its
parts, in order, and the next number for its identity
(`Builder.Makes.spec`). So the invariant has one case for all of them:
the identities in hand, at any depth, are distinct and have been given
out, and a node has a greater one than all nodes below it
(`Workbench.Sound`).
-/
import Mathlib.Logic.Relation
import TreeCheck.Proofs.Building.Parts
import TreeCheck.Proofs.Modularity.Source
import TreeCheck.Proofs.Run.Failure
import TreeCheck.Syntax.Builder

namespace TreeCheck

-- ========================================================= constructors

namespace Builder

/-- A constructor, called with some nodes for the parts of a new one. -/
inductive Makes : List Node → Build Node → Prop where
  | literal (value : Literal) : Makes [] (.expr <$> literal value)
  | identifier (name : String) : Makes [] (.expr <$> identifier name)
  | binary (op : BinaryOp) (l r : Expr) :
      Makes [.expr l, .expr r] (.expr <$> binary op l r)
  | unary (op : UnaryOp) (e : Expr) : Makes [.expr e] (.expr <$> unary op e)
  | call (callee : Expr) (args : List Expr) :
      Makes (.expr callee :: args.map .expr) (.expr <$> call callee args)
  | declaration (name : String) (type : Option String) (init : Option Expr)
      (mutable : Bool) :
      Makes (init.toList.map .expr) (.stmt <$> declaration name type init mutable)
  | function (name : String) (params : List (String × Option String))
      (result : Option String) (body : List Stmt) :
      Makes (body.map .stmt) (.stmt <$> function name params result body)
  | assignment (target value : Expr) :
      Makes [.expr target, .expr value] (.stmt <$> assignment target value)
  | exprStmt (e : Expr) : Makes [.expr e] (.stmt <$> exprStmt e)
  | block (ss : List Stmt) : Makes (ss.map .stmt) (.stmt <$> block ss)
  | ifElse (c : Expr) (a : Stmt) (b : Option Stmt) :
      Makes (.expr c :: .stmt a :: b.toList.map .stmt) (.stmt <$> ifElse c a b)
  | whileLoop (c : Expr) (b : Stmt) :
      Makes [.expr c, .stmt b] (.stmt <$> whileLoop c b)
  | ret (value : Option Expr) : Makes (value.toList.map .expr) (.stmt <$> ret value)

/-- The node made has the nodes given for its parts and the next number for
its identity. -/
theorem Makes.spec {parts : List Node} {m : Build Node} (h : Makes parts m) (b : Builder) :
    (m.run b).1.parts = parts ∧ (m.run b).1.id = b.ids.next
      ∧ (m.run b).2.ids.next = b.ids.next + 1 := by
  cases h with
  | ifElse c a e => cases e <;> exact ⟨rfl, rfl, rfl⟩
  | declaration name type init m => exact ⟨List.append_nil _, rfl, rfl⟩
  | ret value => exact ⟨List.append_nil _, rfl, rfl⟩
  | _ => exact ⟨rfl, rfl, rfl⟩

end Builder

-- ============================================================ workbench

/-- A builder, and the nodes in hand. -/
structure Workbench where
  builder : Builder := {}
  hand : List Node := []

namespace Workbench

/-- The nodes in hand and all below them. -/
def nodes (w : Workbench) : List Node := w.hand.flatMap Node.nodes

/-- The builder is set to another position, or a constructor is called with
some of the nodes in hand, and the node it makes is in hand instead. -/
inductive Step : Workbench → Workbench → Prop where
  | move (w : Workbench) (q : Position) :
      Step w { w with builder := ((Builder.moveTo q).run w.builder).2 }
  | make {w : Workbench} {parts rest : List Node} {m : Builder.Build Node}
      (makes : Builder.Makes parts m) (given : w.hand.Perm (parts ++ rest)) :
      Step w ⟨(m.run w.builder).2, (m.run w.builder).1 :: rest⟩

/-- What can be reached from an empty workbench. -/
abbrev Reached (w : Workbench) : Prop := Relation.ReflTransGen Step {} w

/-- The identities in hand are distinct and have been given out, and each is
greater than those below it. -/
structure Sound (w : Workbench) : Prop where
  distinct : (w.nodes.map (·.id)).Nodup
  taken : ∀ n ∈ w.nodes, n.id < w.builder.ids.next
  falling : ∀ n ∈ w.nodes, ∀ m ∈ n.below, m.id < n.id

theorem Sound.empty : Sound {} where
  distinct := List.nodup_nil
  taken := nofun
  falling := nofun

/-- A new node has its parts below it, and no number of theirs. -/
theorem Sound.make {w : Workbench} {parts rest : List Node} {m : Builder.Build Node}
    (h : Sound w) (makes : Builder.Makes parts m) (given : w.hand.Perm (parts ++ rest)) :
    Sound ⟨(m.run w.builder).2, (m.run w.builder).1 :: rest⟩ := by
  obtain ⟨hparts, hid, hnext⟩ := makes.spec w.builder
  generalize (m.run w.builder).1 = n at hparts hid ⊢
  generalize (m.run w.builder).2 = b at hnext ⊢
  have hbelow : n.below = parts.flatMap Node.nodes := by rw [Node.below, hparts]
  have hnodes : Workbench.nodes ⟨b, n :: rest⟩
      = n :: (parts ++ rest).flatMap Node.nodes := by
    rw [nodes, List.flatMap_cons, n.nodes_eq_cons, hbelow, List.cons_append,
      List.flatMap_append]
  -- apart from the new node, all is as it was in hand
  have hperm : w.nodes.Perm ((parts ++ rest).flatMap Node.nodes) :=
    given.flatMap_right _
  have htaken : ∀ m ∈ (parts ++ rest).flatMap Node.nodes, m.id < n.id := by
    intro m hm
    rw [hid]
    exact h.taken m (hperm.mem_iff.mpr hm)
  refine ⟨?distinct, ?taken, ?falling⟩
  case distinct =>
    rw [hnodes, List.map_cons, List.nodup_cons]
    refine ⟨fun hmem => ?_, (hperm.map _).nodup_iff.mp h.distinct⟩
    obtain ⟨m, hm, heq⟩ := List.mem_map.mp hmem
    exact Nat.ne_of_lt (htaken m hm) heq
  case taken =>
    rw [hnodes, hnext, ← hid]
    refine List.forall_mem_cons.mpr ⟨Nat.lt_succ_self _, fun m hm => ?_⟩
    exact Nat.lt_succ_of_lt (htaken m hm)
  case falling =>
    rw [hnodes]
    refine List.forall_mem_cons.mpr ⟨fun m hm => htaken m ?_, fun m hm => ?_⟩
    · rw [hbelow] at hm
      rw [List.flatMap_append]
      exact List.mem_append_left _ hm
    · exact h.falling m (hperm.mem_iff.mpr hm)

theorem Sound.step {w w' : Workbench} (h : Sound w) (step : Step w w') : Sound w' := by
  cases step with
  | move q => exact ⟨h.distinct, h.taken, h.falling⟩
  | make makes given => exact h.make makes given

theorem Reached.sound {w : Workbench} (h : Reached w) : Sound w := by
  induction h with
  | refl => exact .empty
  | tail _ step ih => exact ih.step step

end Workbench

-- ============================================================= programs

/-- Trees are built with one builder, whose position is changed at will,
and every tree returned is used once or not at all, for a part or for a
statement of the program. Then the identities of the statements and
expressions of the program are distinct, each is greater than those of
all nodes below it, and an analysis fails only with some node nested
deeper than allowed. -/
theorem Builder.program_distinct {w : Workbench} {body : List Stmt} {rest : List Node}
    (reached : w.Reached) (given : w.hand.Perm (body.map .stmt ++ rest)) :
    (Builder.program body).ids.Nodup
      ∧ (∀ n ∈ (Builder.program body).outline, ∀ m ∈ n.node.below, m.id < n.node.id)
      ∧ ∀ config e, (Builder.program body).analyze config = .error e →
        ∃ n ∈ (Builder.program body).outline, config.maxDepth < n.depth + 1
          ∧ e = .tooDeep config.maxDepth n.node.position := by
  have sound := reached.sound
  have hperm : w.nodes.Perm
      ((body.map .stmt).flatMap Node.nodes ++ rest.flatMap Node.nodes) := by
    rw [← List.flatMap_append]
    exact given.flatMap_right _
  have houtline : (Builder.program body).outline.map (·.node)
      = (body.map .stmt).flatMap Node.nodes := Program.nodes_outline _
  have hids : (Builder.program body).ids.Nodup := by
    have hall := (hperm.map Node.id).nodup_iff.mp sound.distinct
    rw [List.map_append, ← houtline, List.map_map] at hall
    exact (List.nodup_append.mp hall).1
  refine ⟨hids, fun n hn => ?falling, fun config e hfailed => ?fails⟩
  case falling =>
    refine sound.falling n.node (hperm.mem_iff.mpr (List.mem_append_left _ ?_))
    rw [← houtline]
    exact List.mem_map_of_mem hn
  case fails =>
    have hexprs := Program.nodup_exprIds hids
    rcases Program.causes_of_analyze hfailed with ⟨n, hn, rfl⟩ | ⟨id, -, htwice⟩
    · have hdeep := List.find?_some hn
      simp only [decide_eq_true_eq] at hdeep
      exact ⟨n, Outline.mem_of_mem_visited (List.mem_of_find?_eq_some hn),
        Nat.lt_succ_of_le hdeep, rfl⟩
    · have honce := List.nodup_iff_count.mp hexprs id
      omega

/-- A sum of two constants, built from the right, with the position changed
in between, and used for a statement. -/
def Stmt.builtSum : Stmt :=
  .expr ⟨3, ⟨1, 2⟩⟩ (.binary ⟨2, ⟨1, 2⟩⟩ .add (.literal ⟨1, ⟨1, 1⟩⟩ (.int 1))
    (.literal ⟨0, ⟨1, 1⟩⟩ (.int 2)))

/-- The sum can be built, and an analysis of it fails for its depth only, as
it does where one level is allowed. -/
theorem Builder.program_distinct_builtSum :
    ∃ w : Workbench, w.Reached ∧ w.hand.Perm ([Stmt.builtSum].map .stmt ++ [])
      ∧ (Builder.program [Stmt.builtSum]).ids = [3, 2, 1, 0]
      ∧ (Builder.program [Stmt.builtSum]).analyze { maxDepth := 1 }
        = .error (.tooDeep 1 ⟨1, 2⟩)
      ∧ ∀ config e, (Builder.program [Stmt.builtSum]).analyze config = .error e →
        ∃ n ∈ (Builder.program [Stmt.builtSum]).outline, config.maxDepth < n.depth + 1
          ∧ e = .tooDeep config.maxDepth n.node.position := by
  have hright : Workbench.Reached ⟨⟨⟨1⟩, ⟨1, 1⟩⟩, [.expr (.literal ⟨0, ⟨1, 1⟩⟩ (.int 2))]⟩ :=
    .tail .refl (.make (.literal (.int 2)) (.refl ([] ++ [])))
  have hleft : Workbench.Reached ⟨⟨⟨2⟩, ⟨1, 1⟩⟩,
      [.expr (.literal ⟨1, ⟨1, 1⟩⟩ (.int 1)), .expr (.literal ⟨0, ⟨1, 1⟩⟩ (.int 2))]⟩ :=
    hright.tail (.make (.literal (.int 1)) (.refl _))
  have hsum := (hleft.tail (.move _ ⟨1, 2⟩)).tail
    (.make (.binary .add _ _) (.refl ([_, _] ++ [])))
  have hstmt : Workbench.Reached ⟨⟨⟨4⟩, ⟨1, 2⟩⟩, [.stmt Stmt.builtSum]⟩ :=
    hsum.tail (.make (.exprStmt _) (.refl ([_] ++ [])))
  have given : List.Perm [Node.stmt Stmt.builtSum] ([Stmt.builtSum].map .stmt ++ []) :=
    .refl _
  exact ⟨_, hstmt, given, by decide, rfl, (Builder.program_distinct hstmt given).2.2⟩

end TreeCheck
