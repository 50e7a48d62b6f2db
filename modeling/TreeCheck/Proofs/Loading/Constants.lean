/-
The constants of a document and of its program.

Lowering neither drops, adds nor moves a constant: in pre-order, those
of the program are those of the document, each at its position. To fill
a marked place changes one of them. Every node but that constant is
judged as before, so the filled document is accepted if the content is
a constant of the language, and otherwise the complaint is about the
content, where the mark was.
-/
import Mathlib.Data.List.Basic
import TreeCheck.Proofs.Loading.Filling
import TreeCheck.Proofs.Lowering.Recall
import TreeCheck.Syntax.Outline

namespace TreeCheck

-- ======================================================== the constants

/-- The position and the value of a constant. -/
def Node.constant? : Node → Option (Position × Literal)
  | .expr (.literal t l) => some (t.position, l)
  | _ => none

/-- The constants of a program in pre-order, each with its position. -/
def Program.constants (p : Program) : List (Position × Literal) :=
  p.outline.filterMap (·.node.constant?)

/-- The JSON values of constants. -/
def documented (cs : List (Position × Literal)) : List (Position × Json.Value) :=
  cs.map fun c => (c.1, c.2.document)

theorem documented_append_cons (cs cs' : List (Position × Literal)) (c : Position × Literal) :
    documented (cs ++ c :: cs') = documented cs ++ (c.1, c.2.document) :: documented cs' := by
  unfold documented
  rw [List.map_append, List.map_cons]

theorem Literal.document_injective {l l' : Literal} (h : l.document = l'.document) : l = l' := by
  cases l <;> cases l' <;> cases h <;> rfl

theorem documented_injective {cs cs' : List (Position × Literal)}
    (h : documented cs = documented cs') : cs = cs' := by
  refine (List.map_inj_right ?_).mp h
  intro c c' hc
  obtain ⟨hp, hl⟩ := Prod.mk.inj hc
  exact Prod.ext hp (Literal.document_injective hl)

/-- The JSON values of the constants on the lines of an outline. -/
def Outline.constants (o : Outline) : List (Position × Json.Value) :=
  documented (o.filterMap (·.node.constant?))

theorem Outline.constants_append (o o' : Outline) :
    Outline.constants (o ++ o') = Outline.constants o ++ Outline.constants o' := by
  rw [constants, List.filterMap_append, documented, List.map_append]
  rfl

namespace Document

/-- The position and the value of a constant. -/
def Standing.constant? : Standing → Option (Position × Json.Value)
  | ⟨_, .literal p v⟩ => some (p, v)
  | _ => none

/-- The constants among nodes. -/
def constantsOf (ss : List Standing) : List (Position × Json.Value) :=
  ss.filterMap Standing.constant?

/-- The constants of a document in pre-order, each with its position. -/
def Node.constants (n : Node) : List (Position × Json.Value) := constantsOf (n.standing .root)

theorem constantsOf_append (ss ss' : List Standing) :
    constantsOf (ss ++ ss') = constantsOf ss ++ constantsOf ss' :=
  List.filterMap_append

-- ================================================= lowering keeps them

/-- The lines of a part of a program have the constants of some nodes,
wherever the part is put. -/
def Keeps (ss : List Standing) (o : Nat → Role → Outline) : Prop :=
  ∀ d r, Outline.constants (o d r) = constantsOf ss

theorem Keeps.append {ss ss' : List Standing} {o o' : Nat → Role → Outline} (h : Keeps ss o)
    (h' : Keeps ss' o') (d d' : Nat) (r r' : Role) :
    Outline.constants (o d r ++ o' d' r') = constantsOf (ss ++ ss') := by
  rw [Outline.constants_append, constantsOf_append, h, h']

mutual

/-- The constants of a node are those of the expression it is lowered
to. -/
theorem keeps_lowerExpr (n : Node) :
    Yields (lowerExpr n) fun e => Keeps (n.standing .expression) (Expr.outline · · e) := by
  cases n with
  | literal p v =>
    refine .tag fun t ht => .bind (yields_lowerLiteral p v) fun l hl => .pure fun d r => ?_
    subst ht hl
    rfl
  | identifier p name => exact .tag fun t ht => .pure fun d r => rfl
  | binaryOp p op left right =>
    refine .tag fun t ht => .lookup fun o ho => .bind (keeps_lowerExpr left) fun l hl => ?_
    exact .bind (keeps_lowerExpr right) fun r hr => .pure fun d role => hl.append hr _ _ _ _
  | unaryOp p op operand =>
    refine .tag fun t ht => .lookup fun o ho => ?_
    exact .bind (keeps_lowerExpr operand) fun e he => .pure fun d r => he _ _
  | call p callee args =>
    refine .tag fun t ht => .bind (keeps_lowerExpr callee) fun f hf => ?_
    exact .bind (keeps_lowerExprs args) fun es hes => .pure fun d r => hf.append hes _ _ _ _
  | _ => exact .refuse _ _
termination_by structural n

theorem keeps_lowerExprs (ns : List Node) :
    Yields (lowerExprs ns) fun es => Keeps (innerAll .expression ns) (Expr.outlines · · es) := by
  cases ns with
  | nil => exact .pure fun d r => rfl
  | cons n ns =>
    refine .bind (keeps_lowerExpr n) fun e he => ?_
    exact .bind (keeps_lowerExprs ns) fun es hes => .pure fun d r => he.append hes _ _ _ _
termination_by structural ns

end

theorem keeps_lowerExpr? (n : Option Node) :
    Yields (lowerExpr? n) fun e =>
      Keeps (n.elim [] (·.standing .expression)) (Expr.outline? · · e) := by
  cases n with
  | none => exact .pure fun d r => rfl
  | some n => exact .bind (keeps_lowerExpr n) fun e he => .pure he

theorem keeps_lowerBare (n : Node) :
    Yields (lowerBare n.position n) fun s =>
      Keeps (n.standing .statement) (Stmt.outline · · s) := by
  refine .tag fun t ht => .bind (keeps_lowerExpr n) fun e he => .pure fun d r => ?_
  exact (he (d + 1) .expr).trans (by cases n <;> rfl)

mutual

/-- The constants of a node are those of the statement it is lowered to. -/
theorem keeps_lowerStmt (n : Node) :
    Yields (lowerStmt n) fun s => Keeps (n.standing .statement) (Stmt.outline · · s) := by
  cases n with
  | declaration p name type value mutable =>
    refine .tag fun t ht => .bind (keeps_lowerExpr? value) fun init hinit => .pure fun d r => ?_
    cases value <;> exact hinit (d + 1) .init
  | functionDef p name params result body =>
    by_cases h : body.kind = .block
    · cases body with
      | block q statements =>
        refine .tag fun t ht => .bind (keeps_lowerStmts statements) fun ss hss => ?_
        exact .pure fun d r => hss _ _
      | _ => cases h
    · rw [lowerStmt_functionDef h]
      exact .refuse _ _
  | assignment p target value =>
    refine .tag fun t ht => .bind (keeps_lowerExpr target) fun l hl => ?_
    exact .bind (keeps_lowerExpr value) fun v hv => .pure fun d r => hl.append hv _ _ _ _
  | block p statements =>
    refine .tag fun t ht => .bind (keeps_lowerStmts statements) fun ss hss => ?_
    exact .pure fun d r => hss _ _
  | ifElse p condition thenBranch elseBranch =>
    cases elseBranch with
    | none =>
      refine .tag fun t ht => .bind (keeps_lowerExpr condition) fun c hc => ?_
      exact .bind (keeps_lowerStmt thenBranch) fun a ha => .pure fun d r => hc.append ha _ _ _ _
    | some e =>
      refine .tag fun t ht => .bind (keeps_lowerExpr condition) fun c hc => ?_
      refine .bind (keeps_lowerStmt thenBranch) fun a ha => ?_
      refine .bind (keeps_lowerStmt e) fun b hb => .pure fun d r => ?_
      show Outline.constants ((c.outline _ _ ++ a.outline _ _) ++ b.outline _ _) =
        constantsOf (condition.standing .expression ++
          (thenBranch.standing .statement ++ e.standing .statement))
      rw [← List.append_assoc, Outline.constants_append, constantsOf_append, hc.append ha, hb]
  | «while» p condition body =>
    refine .tag fun t ht => .bind (keeps_lowerExpr condition) fun c hc => ?_
    exact .bind (keeps_lowerStmt body) fun b hb => .pure fun d r => hc.append hb _ _ _ _
  | ret p value =>
    refine .tag fun t ht => .bind (keeps_lowerExpr? value) fun v hv => .pure fun d r => ?_
    cases value <;> exact hv (d + 1) .value
  | expressionStatement p expression =>
    exact .tag fun t ht => .bind (keeps_lowerExpr expression) fun e he => .pure fun d r => he _ _
  | program p body => exact .refuse _ _
  | literal p v => exact keeps_lowerBare (.literal p v)
  | identifier p name => exact keeps_lowerBare (.identifier p name)
  | binaryOp p op l r => exact keeps_lowerBare (.binaryOp p op l r)
  | unaryOp p op e => exact keeps_lowerBare (.unaryOp p op e)
  | call p f args => exact keeps_lowerBare (.call p f args)
termination_by structural n

theorem keeps_lowerStmts (ns : List Node) :
    Yields (lowerStmts ns) fun ss => Keeps (innerAll .statement ns) (Stmt.outlines · · ss) := by
  cases ns with
  | nil => exact .pure fun d r => rfl
  | cons n ns =>
    refine .bind (keeps_lowerStmt n) fun s hs => ?_
    exact .bind (keeps_lowerStmts ns) fun ss hss => .pure fun d r => hs.append hss _ _ _ _
termination_by structural ns

end

/-- A program has the constants of its document. -/
theorem constants_of_lower {n : Node} {p : Program} (h : lower n = .ok p) :
    documented p.constants = n.constants := by
  obtain ⟨body, next, rfl, hbody⟩ := lower_eq_ok h
  exact keeps_lowerStmts body 0 p.body next hbody 0 .body

-- ======================================================= filled documents

variable (g : Filling)

@[simp] theorem Node.kind_fill (n : Node) : (n.fill g).kind = n.kind := by
  rw [fill_eq_map, kind_map]

/-- A node with its place, and the marked place filled. -/
def Standing.fill (g : Filling) (s : Standing) : Standing := ⟨s.place, s.node.fill g⟩

mutual

/-- To fill a marked place moves no node. -/
theorem Node.inner_fill (n : Node) : (n.fill g).inner = n.inner.map (Standing.fill g) := by
  cases n with
  | program p body => exact Node.innerAll_fill .statement body
  | literal p v => rfl
  | identifier p name => rfl
  | binaryOp p op left right =>
    simp only [Node.fill, Node.inner, Node.inner_fill left, Node.inner_fill right,
      List.map_append, List.map_cons, Standing.fill]
  | unaryOp p op operand =>
    simp only [Node.fill, Node.inner, Node.inner_fill operand, List.map_cons, Standing.fill]
  | call p callee args =>
    simp only [Node.fill, Node.inner, Node.inner_fill callee, Node.innerAll_fill .expression args,
      List.map_append, List.map_cons, Standing.fill]
  | assignment p target value =>
    simp only [Node.fill, Node.inner, Node.inner_fill target, Node.inner_fill value,
      List.map_append, List.map_cons, Standing.fill]
  | declaration p name type value mutable =>
    cases value with
    | none => rfl
    | some v => simp only [Node.fill, Node.inner, Node.inner_fill v, List.map_cons, Standing.fill]
  | functionDef p name params result body =>
    simp only [Node.fill, Node.inner, Node.inner_fill body, List.map_cons, Standing.fill]
  | block p statements => exact Node.innerAll_fill .statement statements
  | ifElse p condition thenBranch elseBranch =>
    cases elseBranch with
    | none =>
      simp only [Node.fill, Node.inner, Node.inner_fill condition, Node.inner_fill thenBranch,
        List.map_append, List.map_cons, Standing.fill]
    | some e =>
      simp only [Node.fill, Node.inner, Node.inner_fill condition, Node.inner_fill thenBranch,
        Node.inner_fill e, List.map_append, List.map_cons, Standing.fill]
  | «while» p condition body =>
    simp only [Node.fill, Node.inner, Node.inner_fill condition, Node.inner_fill body,
      List.map_append, List.map_cons, Standing.fill]
  | ret p value =>
    cases value with
    | none => rfl
    | some v => simp only [Node.fill, Node.inner, Node.inner_fill v, List.map_cons, Standing.fill]
  | expressionStatement p expression =>
    simp only [Node.fill, Node.inner, Node.inner_fill expression, List.map_cons, Standing.fill]
termination_by structural n

theorem Node.innerAll_fill (pl : Place) (ns : List Node) :
    innerAll pl (Node.fillAll g ns) = (innerAll pl ns).map (Standing.fill g) := by
  cases ns with
  | nil => rfl
  | cons n ns =>
    simp only [Node.fillAll, innerAll, Node.inner_fill n, Node.innerAll_fill pl ns,
      List.map_append, List.map_cons, Standing.fill]
termination_by structural ns

end

theorem Node.standing_fill (pl : Place) (n : Node) :
    (n.fill g).standing pl = (n.standing pl).map (Standing.fill g) := by
  rw [Node.standing, Node.inner_fill, Node.standing, List.map_cons, Standing.fill]

/-- The value of a constant with the marked place filled. -/
theorem Node.constants_fill (n : Node) :
    (n.fill g).constants = n.constants.map fun c => (c.1, c.2.fill g) := by
  unfold Node.constants constantsOf
  rw [Node.standing_fill, List.filterMap_map, List.map_filterMap]
  refine List.filterMap_congr fun s _ => ?_
  obtain ⟨pl, n⟩ := s
  cases n with
  | declaration p name type value mutable => cases value <;> rfl
  | ifElse p condition thenBranch elseBranch => cases elseBranch <;> rfl
  | ret p value => cases value <;> rfl
  | _ => rfl

/-- The constant that marks a place. -/
def Standing.IsMark (g : Filling) (s : Standing) : Prop :=
  ∃ p, s.node = .literal p (.number (.float g.mark))

/-- Only the content of the marked place can be complained about. -/
theorem Standing.Fits.fill {s : Standing} (h : s.Fits) (hmark : ¬ s.IsMark g) :
    (s.fill g).Fits := by
  obtain ⟨pl, n⟩ := s
  refine ⟨by simpa [Standing.fill] using h.admitted, ?_⟩
  have hsound : n.Sound := h.sound
  show (n.fill g).Sound
  cases n with
  | literal p v =>
    cases v with
    | number z =>
      cases z with
      | int z => exact hsound
      | float x =>
        by_cases hx : x = g.mark
        · exact absurd ⟨p, by rw [hx]⟩ hmark
        · simp only [Node.fill, Json.Value.fill, if_neg hx]
          exact hsound
    | _ => exact hsound
  | declaration p name type value mutable => cases value <;> exact hsound
  | ifElse p condition thenBranch elseBranch => cases elseBranch <;> exact hsound
  | ret p value => cases value <;> exact hsound
  | _ => exact hsound

theorem mem_constants_of_isMark {n : Node} {s : Standing} (hs : s ∈ n.standing .root) {p : Position}
    (hp : s.node = .literal p (.number (.float g.mark))) :
    (p, .number (.float g.mark)) ∈ n.constants := by
  refine List.mem_filterMap.mpr ⟨s, hs, ?_⟩
  obtain ⟨pl, m⟩ := s
  obtain rfl : m = .literal p (.number (.float g.mark)) := hp
  rfl

/-- A document that is accepted with the mark is accepted with a constant
of the language in its place. -/
theorem exists_lower_fill {n : Node} (h : ∀ s ∈ n.standing .root, s.Fits)
    (hg : IsConstant g.content) : ∃ p, lower (n.fill g) = .ok p := by
  rw [exists_lower_iff, Node.standing_fill]
  intro s' hs'
  obtain ⟨s, hs, rfl⟩ := List.mem_map.mp hs'
  by_cases hmark : s.IsMark g
  · obtain ⟨p, hp⟩ := hmark
    refine ⟨by simpa [Standing.fill] using (h s hs).admitted, ?_⟩
    simp only [Standing.fill, hp, Node.fill, Json.Value.fill, if_true]
    exact hg
  · exact (h s hs).fill g hmark

theorem findSome?_eq_of_unique {α β : Type} {f : α → Option β} {b : β} {as : List α}
    (h : ∀ a ∈ as, f a = none ∨ f a = some b) (hex : ∃ a ∈ as, f a = some b) :
    as.findSome? f = some b := by
  cases hs : as.findSome? f with
  | none =>
    obtain ⟨a, ha, hb⟩ := hex
    rw [List.findSome?_eq_none_iff.mp hs a ha] at hb
    cases hb
  | some b' =>
    obtain ⟨a, ha, hb⟩ := List.exists_of_findSome?_eq_some hs
    rcases h a ha with hn | hn <;> rw [hn] at hb <;> cases hb
    rfl

/-- A document that is accepted with the mark is refused, where the mark
was, with an integer out of range in its place. -/
theorem lower_fill_outOfRange {n : Node} (h : ∀ s ∈ n.standing .root, s.Fits) {z : Int}
    (hg : g.content = .number (.int z)) (hz : ¬ (leastInt ≤ z ∧ z ≤ greatestInt)) {p : Position}
    (hp : ∀ q, (q, .number (.float g.mark)) ∈ n.constants ↔ q = p) :
    lower (n.fill g) = .error ⟨p, .integerOutOfRange z⟩ := by
  have hcomplaint : ∀ s ∈ n.standing .root, s.IsMark g →
      (s.fill g).complaint? = some ⟨p, .integerOutOfRange z⟩ := by
    rintro s hs ⟨q, hq⟩
    obtain rfl := (hp q).mp (mem_constants_of_isMark g hs hq)
    have hadmitted : s.place.Admits (s.node.fill g).kind := by simpa using (h s hs).admitted
    rw [Standing.fill, complaint?_of_admits _ _ hadmitted, hq]
    simp only [Node.fill, Json.Value.fill, if_true, hg, Node.fault?, if_neg hz, Option.map_some,
      Node.position]
  rw [lower_eq_error_iff, Node.standing_fill]
  refine findSome?_eq_of_unique (fun s' hs' => ?_) ?_
  · obtain ⟨s, hs, rfl⟩ := List.mem_map.mp hs'
    by_cases hmark : s.IsMark g
    · exact .inr (hcomplaint s hs hmark)
    · exact .inl (Standing.complaint?_eq_none.mpr ((h s hs).fill g hmark))
  · obtain ⟨s, hs, hconst⟩ := List.mem_filterMap.mp ((hp p).mpr rfl)
    have hmark : s.IsMark g := by
      obtain ⟨pl, m⟩ := s
      cases m with
      | literal q v =>
        cases hconst
        exact ⟨p, rfl⟩
      | _ => cases hconst
    exact ⟨s.fill g, List.mem_map_of_mem hs, hcomplaint s hs hmark⟩

end Document

end TreeCheck
