/-
Programs under other labels.

The labels of a program are the names that it declares and uses, the
identities of its nodes, and its positions. A relabeling puts others in
their place, one for each, and leaves everything else as it is: the
shape, the constants, the operators, and the names of types, which are
not the program's own. The places of bodies and blocks are relabeled on
their own, since no analysis looks at them.

Relabelings that agree on the labels of a program come to the same
(`Program.relabel_congr`); one that changes none of them changes nothing
(`Program.relabel_eq_self`).
-/
import TreeCheck.Analysis.State
import TreeCheck.Syntax.Outline

namespace TreeCheck

-- ============================================================= relabeling

/-- Other labels. What is not given stays as it is. -/
structure Relabeling where
  name : String → String := id
  node : NodeId → NodeId := id
  position : Position → Position := id
  /-- The places of bodies, of blocks and of the program. -/
  brace : Position → Position := id

/-- A relabeling that keeps names and identities apart. -/
structure Relabeling.Faithful (T : Relabeling) : Prop where
  name : Function.Injective T.name
  node : Function.Injective T.node

section

variable (T : Relabeling)

/-- A tag under other labels. -/
def Tag.relabel (t : Tag) : Tag := ⟨T.node t.id, T.position t.position⟩

mutual

/-- An expression under other labels. -/
def Expr.relabel : Expr → Expr
  | .literal t v => .literal (t.relabel T) v
  | .identifier t x => .identifier (t.relabel T) (T.name x)
  | .binary t op l r => .binary (t.relabel T) op l.relabel r.relabel
  | .unary t op e => .unary (t.relabel T) op e.relabel
  | .call t f args => .call (t.relabel T) f.relabel (Expr.relabelAll args)
termination_by structural e => e

/-- Expressions under other labels. -/
def Expr.relabelAll : List Expr → List Expr
  | [] => []
  | e :: es => e.relabel :: Expr.relabelAll es
termination_by structural es => es

end

/-- An annotation at another position. The name of its type is kept. -/
def TypeName.relabel (a : TypeName) : TypeName := ⟨a.name, T.position a.position⟩

/-- A parameter under other labels. -/
def Param.relabel (p : Param) : Param :=
  ⟨T.name p.name, p.typeName.map (TypeName.relabel T), T.position p.position⟩

mutual

/-- A statement under other labels. -/
def Stmt.relabel : Stmt → Stmt
  | .declaration t x ann init m =>
    .declaration (t.relabel T) (T.name x) (ann.map (TypeName.relabel T))
      (init.map (Expr.relabel T)) m
  | .function t x params result q body =>
    .function (t.relabel T) (T.name x) (params.map (Param.relabel T))
      (result.map (TypeName.relabel T)) (T.brace q) (Stmt.relabelAll body)
  | .assignment t target value =>
    .assignment (t.relabel T) (target.relabel T) (value.relabel T)
  | .block t q ss => .block (t.relabel T) (T.brace q) (Stmt.relabelAll ss)
  | .ifElse t c a none => .ifElse (t.relabel T) (c.relabel T) a.relabel none
  | .ifElse t c a (some b) =>
    .ifElse (t.relabel T) (c.relabel T) a.relabel (some b.relabel)
  | .while t c b => .while (t.relabel T) (c.relabel T) b.relabel
  | .ret t value => .ret (t.relabel T) (value.map (Expr.relabel T))
  | .expr t e => .expr (t.relabel T) (e.relabel T)
termination_by structural s => s

/-- Statements under other labels. -/
def Stmt.relabelAll : List Stmt → List Stmt
  | [] => []
  | s :: ss => s.relabel :: Stmt.relabelAll ss
termination_by structural ss => ss

end

/-- A program under other labels. -/
def Program.relabel (p : Program) : Program :=
  ⟨Stmt.relabelAll T p.body, T.brace p.position⟩

/-- A cause that is about other names. -/
def Cause.rename (ν : String → String) : Cause → Cause
  | .duplicate x => .duplicate (ν x)
  | .undefined x => .undefined (ν x)
  | .unknownType a => .unknownType a
  | .voidVariable x => .voidVariable (ν x)
  | .badInitializer x declared found => .badInitializer (ν x) declared found
  | .voidInitializer x => .voidInitializer (ν x)
  | .notAVariable => .notAVariable
  | .assignToFunction x => .assignToFunction (ν x)
  | .assignToImmutable x => .assignToImmutable (ν x)
  | .badAssignment x declared found => .badAssignment (ν x) declared found
  | .badCondition c found => .badCondition c found
  | .returnOutside => .returnOutside
  | .badReturn expected found => .badReturn expected found
  | .missingReturn expected => .missingReturn expected
  | .badOperands op l r => .badOperands op l r
  | .badOperand op ty => .badOperand op ty
  | .notCallable found => .notCallable found
  | .wrongArity callee expected found => .wrongArity (callee.map ν) expected found
  | .badArgument callee i expected found => .badArgument (callee.map ν) i expected found
  | .unusedVariable x => .unusedVariable (ν x)
  | .unusedParameter x => .unusedParameter (ν x)

/-- A finding under other labels. -/
def Finding.relabel (f : Finding) : Finding :=
  ⟨f.cause.rename T.name, T.position f.position, f.related.map T.position⟩

/-- A binding under other labels. -/
def Binding.relabel (b : Binding) : Binding :=
  { b with name := T.name b.name, position := T.position b.position }

/-- A symbol under other labels. Its number is kept. -/
def Symbol.relabel (sym : Symbol) : Symbol := ⟨sym.toBinding.relabel T, sym.id⟩

/-- An analysis error about other labels. -/
def AnalysisError.relabel : AnalysisError → AnalysisError
  | .tooDeep limit q => .tooDeep limit (T.position q)
  | .repeatedNode id => .repeatedNode (T.node id)
  | .bind (.duplicate x q) => .bind (.duplicate (T.name x) (T.position q))
  | .bind .noScope => .bind .noScope
  | .leave e => .leave e
  | .stillOpen n => .stillOpen n

end

variable {T T' : Relabeling}

-- ============================================================ what is kept

@[simp] theorem Expr.position_relabel (e : Expr) :
    (e.relabel T).position = T.position e.position := by
  cases e <;> rfl

@[simp] theorem Expr.name?_relabel (e : Expr) :
    (e.relabel T).name? = e.name?.map T.name := by
  cases e <;> rfl

@[simp] theorem Expr.length_relabelAll (es : List Expr) :
    (Expr.relabelAll T es).length = es.length := by
  induction es with
  | nil => rfl
  | cons e es ih => exact congrArg (· + 1) ih

@[simp] theorem Stmt.isBlock_relabel (s : Stmt) : (s.relabel T).isBlock = s.isBlock := by
  cases s with
  | ifElse t c a b => cases b <;> rfl
  | declaration | function | assignment | block | «while» | ret | expr => rfl

mutual

/-- Whether a statement returns a value is no matter of labels. -/
theorem Stmt.returnsValue_relabel : (s : Stmt) →
    (s.relabel T).returnsValue = s.returnsValue
  | .declaration _ _ _ _ _ | .function _ _ _ _ _ _ | .assignment _ _ _ | .expr _ _ => rfl
  | .block t q ss => Stmt.anyReturnsValue_relabelAll ss
  | .ifElse t c a none => Stmt.returnsValue_relabel a
  | .ifElse t c a (some b) => by
      show ((a.relabel T).returnsValue || (b.relabel T).returnsValue) = _
      rw [Stmt.returnsValue_relabel a, Stmt.returnsValue_relabel b, Stmt.returnsValue]
  | .while t c b => Stmt.returnsValue_relabel b
  | .ret t value => by
      show (value.map (Expr.relabel T)).isSome = _
      rw [Option.isSome_map, Stmt.returnsValue]

theorem Stmt.anyReturnsValue_relabelAll : (ss : List Stmt) →
    Stmt.anyReturnsValue (Stmt.relabelAll T ss) = Stmt.anyReturnsValue ss
  | [] => rfl
  | s :: ss => by
      rw [Stmt.relabelAll, Stmt.anyReturnsValue, Stmt.anyReturnsValue,
        Stmt.returnsValue_relabel s, Stmt.anyReturnsValue_relabelAll ss]

end

@[simp] theorem Cause.kind_rename (ν : String → String) (c : Cause) :
    (c.rename ν).kind = c.kind := by
  cases c <;> rfl

@[simp] theorem Cause.severity_rename (ν : String → String) (c : Cause) :
    (c.rename ν).severity = c.severity := by
  cases c <;> rfl

@[simp] theorem Finding.kind_relabel (f : Finding) :
    (f.relabel T).cause.kind = f.cause.kind :=
  f.cause.kind_rename T.name

-- ================================================================== labels

/-- The positions of a parameter: its own and that of its annotation. -/
def Param.positions (p : Param) : List Position :=
  p.position :: (p.typeName.map (·.position)).toList

namespace Node

/-- The names that a node declares or uses. -/
def names : Node → List String
  | .expr (.identifier _ x) => [x]
  | .stmt (.declaration _ x _ _ _) => [x]
  | .stmt (.function _ x params _ _ _) => x :: params.map (·.name)
  | _ => []

/-- The positions of a node: its own, and those of its annotations and
parameters. -/
def positions (n : Node) : List Position :=
  n.position :: match n with
    | .stmt (.declaration _ _ ann _ _) => (ann.map (·.position)).toList
    | .stmt (.function _ _ params result _ _) =>
      params.flatMap (·.positions) ++ (result.map (·.position)).toList
    | _ => []

end Node

/-- The names that a program declares or uses. -/
def Program.names (p : Program) : List String := p.outline.flatMap (·.node.names)

/-- The positions of the nodes, parameters and annotations of a program. -/
def Program.positions (p : Program) : List Position :=
  p.outline.flatMap (·.node.positions)

/-- Two relabelings agree on the labels of a node. -/
structure Relabeling.AgreesOn (T T' : Relabeling) (n : Node) : Prop where
  names : ∀ x ∈ n.names, T.name x = T'.name x
  id : T.node n.id = T'.node n.id
  positions : ∀ q ∈ n.positions, T.position q = T'.position q

-- ============================================================== agreement

namespace Relabeling.AgreesOn

variable {n : Node}

theorem tag {t : Tag} (h : T.AgreesOn T' n) (ht : n.tag = t) :
    t.relabel T = t.relabel T' := by
  subst ht
  have hposition : T.position n.tag.position = T'.position n.tag.position :=
    h.positions _ List.mem_cons_self
  have hid : T.node n.tag.id = T'.node n.tag.id := h.id
  rw [Tag.relabel, hposition, hid]
  rfl

end Relabeling.AgreesOn

theorem TypeName.relabel_congr {a : TypeName}
    (h : T.position a.position = T'.position a.position) : a.relabel T = a.relabel T' := by
  rw [relabel, h, relabel]

theorem TypeName.map_relabel_congr {ann : Option TypeName}
    (h : ∀ q ∈ (ann.map (·.position)).toList, T.position q = T'.position q) :
    ann.map (TypeName.relabel T) = ann.map (TypeName.relabel T') := by
  cases ann with
  | none => rfl
  | some a => exact congrArg some (TypeName.relabel_congr (h _ (List.mem_singleton_self _)))

theorem Param.relabel_congr {p : Param} (hname : T.name p.name = T'.name p.name)
    (h : ∀ q ∈ p.positions, T.position q = T'.position q) :
    p.relabel T = p.relabel T' := by
  obtain ⟨hown, hann⟩ := List.forall_mem_cons.mp h
  rw [relabel, relabel, hname, hown, TypeName.map_relabel_congr hann]

theorem Param.map_relabel_congr {ps : List Param}
    (hnames : ∀ x ∈ ps.map (·.name), T.name x = T'.name x)
    (h : ∀ q ∈ ps.flatMap (·.positions), T.position q = T'.position q) :
    ps.map (Param.relabel T) = ps.map (Param.relabel T') := by
  refine List.map_congr_left fun p hp => Param.relabel_congr ?_ fun q hq => ?_
  · exact hnames _ (List.mem_map_of_mem hp)
  · exact h q (List.mem_flatMap.mpr ⟨p, hp, hq⟩)

mutual

theorem Expr.relabel_congr (d : Nat) (r : Role) : (e : Expr) →
    (∀ n ∈ e.outline d r, T.AgreesOn T' n.node) → e.relabel T = e.relabel T'
  | .literal t v, h => by
      have hown := h _ List.mem_cons_self
      rw [Expr.relabel, Expr.relabel, hown.tag (t := t) rfl]
  | .identifier t x, h => by
      have hown := h _ List.mem_cons_self
      rw [Expr.relabel, Expr.relabel, hown.tag (t := t) rfl,
        hown.names x (List.mem_singleton_self x)]
  | .binary t op a b, h => by
      rw [Expr.outline, List.forall_mem_cons, List.forall_mem_append] at h
      obtain ⟨hown, ha, hb⟩ := h
      rw [Expr.relabel, Expr.relabel, hown.tag (t := t) rfl,
        Expr.relabel_congr _ _ a ha, Expr.relabel_congr _ _ b hb]
  | .unary t op a, h => by
      rw [Expr.outline, List.forall_mem_cons] at h
      obtain ⟨hown, ha⟩ := h
      rw [Expr.relabel, Expr.relabel, hown.tag (t := t) rfl,
        Expr.relabel_congr _ _ a ha]
  | .call t f args, h => by
      rw [Expr.outline, List.forall_mem_cons, List.forall_mem_append] at h
      obtain ⟨hown, hf, hargs⟩ := h
      rw [Expr.relabel, Expr.relabel, hown.tag (t := t) rfl,
        Expr.relabel_congr _ _ f hf, Expr.relabelAll_congr _ _ args hargs]

theorem Expr.relabelAll_congr (d : Nat) (r : Role) : (es : List Expr) →
    (∀ n ∈ Expr.outlines d r es, T.AgreesOn T' n.node) →
    Expr.relabelAll T es = Expr.relabelAll T' es
  | [], _ => rfl
  | e :: es, h => by
      rw [Expr.outlines, List.forall_mem_append] at h
      rw [Expr.relabelAll, Expr.relabelAll, Expr.relabel_congr _ _ e h.1,
        Expr.relabelAll_congr _ _ es h.2]

end

theorem Expr.map_relabel_congr {d : Nat} {r : Role} {e : Option Expr}
    (h : ∀ n ∈ Expr.outline? d r e, T.AgreesOn T' n.node) :
    e.map (Expr.relabel T) = e.map (Expr.relabel T') := by
  cases e with
  | none => rfl
  | some e => exact congrArg some (e.relabel_congr d r h)

mutual

theorem Stmt.relabel_congr (hbrace : T.brace = T'.brace) (d : Nat) (r : Role) :
    (s : Stmt) → (∀ n ∈ s.outline d r, T.AgreesOn T' n.node) →
    s.relabel T = s.relabel T'
  | .declaration t x ann init m, h => by
      rw [Stmt.outline, List.forall_mem_cons] at h
      obtain ⟨hown, hinit⟩ := h
      rw [Stmt.relabel, Stmt.relabel, hown.tag (t := t) rfl,
        hown.names x (List.mem_singleton_self x), Expr.map_relabel_congr hinit,
        TypeName.map_relabel_congr fun q hq => hown.positions q (List.mem_cons_of_mem _ hq)]
  | .function t x params result q body, h => by
      rw [Stmt.outline, List.forall_mem_cons] at h
      obtain ⟨hown, hbody⟩ := h
      obtain ⟨hname, hparams⟩ := List.forall_mem_cons.mp hown.names
      obtain ⟨-, hpositions⟩ := List.forall_mem_cons.mp hown.positions
      obtain ⟨hplaces, hresult⟩ := List.forall_mem_append.mp hpositions
      rw [Stmt.relabel, Stmt.relabel, hown.tag (t := t) rfl, hname,
        Param.map_relabel_congr hparams hplaces, TypeName.map_relabel_congr hresult, hbrace,
        Stmt.relabelAll_congr hbrace _ _ body hbody]
  | .assignment t target value, h => by
      rw [Stmt.outline, List.forall_mem_cons, List.forall_mem_append] at h
      obtain ⟨hown, htarget, hvalue⟩ := h
      rw [Stmt.relabel, Stmt.relabel, hown.tag (t := t) rfl,
        target.relabel_congr _ _ htarget, value.relabel_congr _ _ hvalue]
  | .block t q ss, h => by
      rw [Stmt.outline, List.forall_mem_cons] at h
      obtain ⟨hown, hss⟩ := h
      rw [Stmt.relabel, Stmt.relabel, hown.tag (t := t) rfl, hbrace,
        Stmt.relabelAll_congr hbrace _ _ ss hss]
  | .ifElse t c a none, h => by
      rw [Stmt.outline, List.forall_mem_cons, List.forall_mem_append] at h
      obtain ⟨hown, hc, ha⟩ := h
      rw [Stmt.relabel, Stmt.relabel, hown.tag (t := t) rfl,
        c.relabel_congr _ _ hc, Stmt.relabel_congr hbrace _ _ a ha]
  | .ifElse t c a (some b), h => by
      rw [Stmt.outline, List.forall_mem_cons, List.forall_mem_append,
        List.forall_mem_append] at h
      obtain ⟨hown, ⟨hc, ha⟩, hb⟩ := h
      rw [Stmt.relabel, Stmt.relabel, hown.tag (t := t) rfl,
        c.relabel_congr _ _ hc, Stmt.relabel_congr hbrace _ _ a ha,
        Stmt.relabel_congr hbrace _ _ b hb]
  | .while t c b, h => by
      rw [Stmt.outline, List.forall_mem_cons, List.forall_mem_append] at h
      obtain ⟨hown, hc, hb⟩ := h
      rw [Stmt.relabel, Stmt.relabel, hown.tag (t := t) rfl,
        c.relabel_congr _ _ hc, Stmt.relabel_congr hbrace _ _ b hb]
  | .ret t value, h => by
      rw [Stmt.outline, List.forall_mem_cons] at h
      obtain ⟨hown, hvalue⟩ := h
      rw [Stmt.relabel, Stmt.relabel, hown.tag (t := t) rfl,
        Expr.map_relabel_congr hvalue]
  | .expr t e, h => by
      rw [Stmt.outline, List.forall_mem_cons] at h
      obtain ⟨hown, he⟩ := h
      rw [Stmt.relabel, Stmt.relabel, hown.tag (t := t) rfl,
        e.relabel_congr _ _ he]

theorem Stmt.relabelAll_congr (hbrace : T.brace = T'.brace) (d : Nat) (r : Role) :
    (ss : List Stmt) → (∀ n ∈ Stmt.outlines d r ss, T.AgreesOn T' n.node) →
    Stmt.relabelAll T ss = Stmt.relabelAll T' ss
  | [], _ => rfl
  | s :: ss, h => by
      rw [Stmt.outlines, List.forall_mem_append] at h
      rw [Stmt.relabelAll, Stmt.relabelAll, Stmt.relabel_congr hbrace _ _ s h.1,
        Stmt.relabelAll_congr hbrace _ _ ss h.2]

end

/-- Relabelings that agree on the labels of a program relabel it alike. -/
theorem Program.relabel_congr {p : Program} (hbrace : T.brace = T'.brace)
    (hname : ∀ x ∈ p.names, T.name x = T'.name x)
    (hnode : ∀ id ∈ p.ids, T.node id = T'.node id)
    (hposition : ∀ q ∈ p.positions, T.position q = T'.position q) :
    p.relabel T = p.relabel T' := by
  have hagree : ∀ n ∈ p.outline, T.AgreesOn T' n.node := by
    intro n hn
    refine ⟨fun x hx => ?_, ?_, fun q hq => ?_⟩
    · exact hname x (List.mem_flatMap.mpr ⟨n, hn, hx⟩)
    · exact hnode _ (List.mem_map_of_mem hn)
    · exact hposition q (List.mem_flatMap.mpr ⟨n, hn, hq⟩)
  rw [relabel, relabel, hbrace, Stmt.relabelAll_congr hbrace 0 .body p.body hagree]

-- =============================================================== identity

theorem TypeName.relabel_id : TypeName.relabel {} = id := rfl

theorem Param.relabel_id : Param.relabel {} = id := by
  funext p
  rw [relabel, TypeName.relabel_id, Option.map_id]
  rfl

mutual

theorem Expr.relabel_id : (e : Expr) → e.relabel {} = e
  | .literal t v => rfl
  | .identifier t x => rfl
  | .binary t op a b => by
      rw [Expr.relabel, Expr.relabel_id a, Expr.relabel_id b]
      rfl
  | .unary t op a => by
      rw [Expr.relabel, Expr.relabel_id a]
      rfl
  | .call t f args => by
      rw [Expr.relabel, Expr.relabel_id f, Expr.relabelAll_id args]
      rfl

theorem Expr.relabelAll_id : (es : List Expr) → Expr.relabelAll {} es = es
  | [] => rfl
  | e :: es => by rw [Expr.relabelAll, Expr.relabel_id e, Expr.relabelAll_id es]

end

theorem Expr.map_relabel_id (e : Option Expr) : e.map (Expr.relabel {}) = e := by
  cases e with
  | none => rfl
  | some e => exact congrArg some e.relabel_id

mutual

theorem Stmt.relabel_id : (s : Stmt) → s.relabel {} = s
  | .declaration t x ann init m => by
      rw [Stmt.relabel, Expr.map_relabel_id, TypeName.relabel_id, Option.map_id]
      rfl
  | .function t x params result q body => by
      rw [Stmt.relabel, Param.relabel_id, List.map_id, TypeName.relabel_id, Option.map_id,
        Stmt.relabelAll_id body]
      rfl
  | .assignment t target value => by
      rw [Stmt.relabel, target.relabel_id, value.relabel_id]
      rfl
  | .block t q ss => by
      rw [Stmt.relabel, Stmt.relabelAll_id ss]
      rfl
  | .ifElse t c a none => by
      rw [Stmt.relabel, c.relabel_id, Stmt.relabel_id a]
      rfl
  | .ifElse t c a (some b) => by
      rw [Stmt.relabel, c.relabel_id, Stmt.relabel_id a, Stmt.relabel_id b]
      rfl
  | .while t c b => by
      rw [Stmt.relabel, c.relabel_id, Stmt.relabel_id b]
      rfl
  | .ret t value => by
      rw [Stmt.relabel, Expr.map_relabel_id]
      rfl
  | .expr t e => by
      rw [Stmt.relabel, e.relabel_id]
      rfl

theorem Stmt.relabelAll_id : (ss : List Stmt) → Stmt.relabelAll {} ss = ss
  | [] => rfl
  | s :: ss => by rw [Stmt.relabelAll, Stmt.relabel_id s, Stmt.relabelAll_id ss]

end

theorem Program.relabel_id (p : Program) : p.relabel {} = p := by
  rw [relabel, Stmt.relabelAll_id]
  rfl

/-- A relabeling that changes no label of a program leaves it as it is. -/
theorem Program.relabel_eq_self {p : Program} (hbrace : T.brace = id)
    (hname : ∀ x ∈ p.names, T.name x = x) (hnode : ∀ id ∈ p.ids, T.node id = id)
    (hposition : ∀ q ∈ p.positions, T.position q = q) : p.relabel T = p := by
  have hsame : p.relabel T = p.relabel {} := relabel_congr hbrace hname hnode hposition
  rw [hsame, p.relabel_id]

end TreeCheck
