/-
The resolutions of an analysis are those of the scoping rule.

Three facts about the account of a program meet here. It resolves the
occurrences of the source to the places that the rule chooses
(Scoping/Resolution); what it resolves to it has bound (Scoping/Lookup);
and what it binds is numbered by place (Scoping/Numbering). Since the
identities of expressions are distinct, the table of resolutions keeps
every one of them.
-/
import Mathlib.Data.List.Nodup
import TreeCheck.Proofs.Run.Statements
import TreeCheck.Proofs.Scoping.Numbering
import TreeCheck.Proofs.Scoping.Resolution

namespace TreeCheck

open Analysis

-- ======================================================== identifiers

/-- The identifiers of an outline, in pre-order. -/
def Outline.identifiers (o : Outline) : List Expr :=
  (o.filterMap (·.node.expr?)).filter (·.name?.isSome)

namespace Outline

@[simp] theorem identifiers_append (o o' : Outline) :
    identifiers (o ++ o') = identifiers o ++ identifiers o' := by
  rw [identifiers, List.filterMap_append, List.filter_append]
  rfl

@[simp] theorem identifiers_stmt (d : Nat) (r : Role) (s : Stmt) (o : Outline) :
    identifiers (⟨d, r, .stmt s⟩ :: o) = identifiers o := rfl

theorem identifiers_expr (d : Nat) (r : Role) (e : Expr) (o : Outline) :
    identifiers (⟨d, r, .expr e⟩ :: o)
      = if e.name?.isSome then e :: identifiers o else identifiers o := by
  show (e :: o.filterMap (·.node.expr?)).filter (·.name?.isSome) = _
  rw [List.filter_cons]
  rfl

end Outline

/-- Identifiers as expressions. -/
def asExprs (names : List (Tag × String)) : List Expr :=
  names.map fun (t, x) => .identifier t x

theorem asExprs_append (names more : List (Tag × String)) :
    asExprs (names ++ more) = asExprs names ++ asExprs more := List.map_append

mutual

theorem Expr.identifiers_outline (d : Nat) (r : Role) : (e : Expr) →
    (e.outline d r).identifiers = asExprs e.identifiers
  | .literal t v => rfl
  | .identifier t x => rfl
  | .binary t op a b => by
      rw [Expr.outline, Outline.identifiers_expr, Outline.identifiers_append,
        Expr.identifiers_outline _ _ a, Expr.identifiers_outline _ _ b,
        Expr.identifiers, asExprs_append]
      rfl
  | .unary t op a => by
      rw [Expr.outline, Outline.identifiers_expr, Expr.identifiers_outline _ _ a,
        Expr.identifiers]
      rfl
  | .call t f args => by
      rw [Expr.outline, Outline.identifiers_expr, Outline.identifiers_append,
        Expr.identifiers_outline _ _ f, Expr.identifiers_outlines _ _ args,
        Expr.identifiers, asExprs_append]
      rfl

theorem Expr.identifiers_outlines (d : Nat) (r : Role) : (es : List Expr) →
    (Expr.outlines d r es).identifiers = asExprs (Expr.identifiersAll es)
  | [] => rfl
  | e :: es => by
      rw [Expr.outlines, Outline.identifiers_append,
        Expr.identifiers_outline _ _ e, Expr.identifiers_outlines _ _ es,
        Expr.identifiersAll, asExprs_append]

end

theorem Expr.identifiers_outline? (d : Nat) (r : Role) (e : Option Expr) :
    (Expr.outline? d r e).identifiers = asExprs (Expr.identifiers? e) := by
  cases e with
  | none => rfl
  | some e => exact e.identifiers_outline d r

theorem map_expr_occurring (scopes : List (Level Site))
    (names : List (Tag × String)) :
    (occurring scopes names).map Occurrence.expr = asExprs names := by
  rw [occurring, List.map_map]
  rfl

mutual

theorem Stmt.map_expr_occurrences (d : Nat) (r : Role) : (s : Stmt) →
    ∀ (here : Level Site) (around : List (Level Site)),
    (s.occurrences here around).map Occurrence.expr = (s.outline d r).identifiers
  | .declaration t name ann init m, here, around => by
      rw [Stmt.occurrences, map_expr_occurring, Stmt.outline,
        Outline.identifiers_stmt, Expr.identifiers_outline?]
  | .function t name params result p body, here, around => by
      rw [Stmt.occurrences, Stmt.outline, Outline.identifiers_stmt,
        Stmt.map_expr_occurrencesAll _ _ body]
  | .assignment t target value, here, around => by
      rw [Stmt.occurrences, map_expr_occurring, Stmt.outline,
        Outline.identifiers_stmt, Outline.identifiers_append,
        Expr.identifiers_outline, Expr.identifiers_outline, asExprs_append]
  | .block t p ss, here, around => by
      rw [Stmt.occurrences, Stmt.outline, Outline.identifiers_stmt,
        Stmt.map_expr_occurrencesAll _ _ ss]
  | .ifElse t c a none, here, around => by
      rw [Stmt.occurrences, List.map_append, map_expr_occurring, Stmt.outline,
        Outline.identifiers_stmt, Outline.identifiers_append,
        Expr.identifiers_outline, Stmt.map_expr_occurrences _ _ a]
  | .ifElse t c a (some b), here, around => by
      rw [Stmt.occurrences, List.map_append, List.map_append, map_expr_occurring,
        Stmt.outline, Outline.identifiers_stmt, Outline.identifiers_append,
        Outline.identifiers_append, Expr.identifiers_outline,
        Stmt.map_expr_occurrences _ _ a, Stmt.map_expr_occurrences _ _ b]
  | .while t c b, here, around => by
      rw [Stmt.occurrences, List.map_append, map_expr_occurring, Stmt.outline,
        Outline.identifiers_stmt, Outline.identifiers_append,
        Expr.identifiers_outline, Stmt.map_expr_occurrences _ _ b]
  | .ret t value, here, around => by
      rw [Stmt.occurrences, map_expr_occurring, Stmt.outline,
        Outline.identifiers_stmt, Expr.identifiers_outline?]
  | .expr t e, here, around => by
      rw [Stmt.occurrences, map_expr_occurring, Stmt.outline,
        Outline.identifiers_stmt, Expr.identifiers_outline]

theorem Stmt.map_expr_occurrencesAll (d : Nat) (r : Role) : (ss : List Stmt) →
    ∀ (here : Level Site) (around : List (Level Site)),
    (Stmt.occurrencesAll here around ss).map Occurrence.expr
      = (Stmt.outlines d r ss).identifiers
  | [], here, around => rfl
  | s :: ss, here, around => by
      rw [Stmt.occurrencesAll, List.map_append, Stmt.outlines,
        Outline.identifiers_append, Stmt.map_expr_occurrences _ _ s,
        Stmt.map_expr_occurrencesAll _ _ ss]

end

/-- The occurrences of a program are its identifiers, in pre-order. -/
theorem Program.map_expr_occurrences (p : Program) :
    p.occurrences.map Occurrence.expr = p.exprs.filter (·.name?.isSome) :=
  Stmt.map_expr_occurrencesAll 0 .body p.body _ _

-- ========================================================= correctness

/-- The resolutions that the scoping rule asks for, with the numbers of the
declarations. -/
def Program.resolutionsAsked (p : Program) : List (NodeId × SymbolId) :=
  p.occurrences.filterMap fun o =>
    o.declaration.map fun site => (o.tag.id, p.declarations.idxOf site)

/-- What an account binds is numbered by place. -/
theorem Program.idxOf_site_of_bound {config : Config} {p : Program}
    (h : p.ids.Nodup) {d : Declared}
    (hd : d ∈ (p.account config).filterMap Event.bound?) :
    d.site ∈ p.declarations ∧ p.declarations.idxOf d.site = d.id := by
  have hmem := declarations_of_bound hd
  obtain ⟨hlt, hget⟩ := List.getElem?_eq_some_iff.mp hmem
  have hidx := (Program.nodup_declarations h).idxOf_getElem d.id hlt
  rw [hget] at hidx
  exact ⟨List.mem_of_getElem? hmem, hidx⟩

theorem Program.resolutions_asked {config : Config} {p : Program}
    (h : p.ids.Nodup) :
    ((p.account config).filterMap Event.resolved?).map (fun r => (r.1, r.2.id))
      = p.resolutionsAsked := by
  have hnumber :
      ((p.account config).filterMap Event.resolved?).map (fun r => (r.1, r.2.id))
        = (((p.account config).filterMap Event.resolved?).map
            fun r => (r.1, r.2.site)).map
          fun r => (r.1, p.declarations.idxOf r.2) := by
    rw [List.map_map]
    refine List.map_congr_left fun r hr => ?_
    show (r.1, r.2.id) = (r.1, p.declarations.idxOf r.2.site)
    rw [(idxOf_site_of_bound h (p.resolved_bound config r hr)).2]
  have htells :
      ((p.account config).filterMap Event.resolved?).map
          (fun r => (r.1, r.2.site))
        = p.occurrences.filterMap Occurrence.resolution? := by
    rw [← p.tells_account config, List.map_filterMap]
    rfl
  rw [hnumber, htells, List.map_filterMap, resolutionsAsked]
  refine List.filterMap_congr fun o _ => ?_
  rw [Occurrence.resolution?, Option.map_map]
  rfl

theorem Program.nodup_occurrences {config : Config} {p : Program} {a : Analysis}
    (h : p.analyze config = .ok a) : (p.occurrences.map (·.tag.id)).Nodup := by
  have hids : p.occurrences.map (·.tag.id)
      = (p.exprs.filter (·.name?.isSome)).map Expr.id := by
    rw [← p.map_expr_occurrences, List.map_map]
    rfl
  rw [hids]
  exact (shallow_of_analyze h).2.sublist (List.filter_sublist.map Expr.id)

/-- The table of resolutions holds what the scoping rule asks for and
nothing else. -/
theorem Program.getElem?_resolutions {config : Config} {p : Program}
    {a : Analysis} (hids : p.ids.Nodup) (h : p.analyze config = .ok a)
    {o : Occurrence} (ho : o ∈ p.occurrences) :
    a.resolutions[o.tag.id]? = o.declaration.map p.declarations.idxOf := by
  have htable : a.resolutions
      = p.resolutionsAsked.foldl (fun m e => m.insert e.1 e.2) {} := by
    rw [analysis_eq_account hids h, ← resolutions_asked hids, List.foldl_map]
    exact resolutions_replay {} (p.account config)
  have hoccurrences := nodup_occurrences h
  rw [htable]
  cases hdecl : o.declaration with
  | none =>
      rw [getElem?_foldl_insert_of_not_mem]
      · exact Std.TreeMap.getElem?_emptyc
      · intro hmem
        simp only [resolutionsAsked, List.mem_map, List.mem_filterMap,
          Option.map_eq_some_iff] at hmem
        obtain ⟨_, ⟨o', ho', site, hsite, rfl⟩, hid⟩ := hmem
        obtain rfl := List.inj_on_of_nodup_map hoccurrences ho' ho hid
        rw [hdecl] at hsite
        cases hsite
  | some site =>
      refine getElem?_foldl_insert_of_mem ?_ ?_
      · rw [resolutionsAsked, List.Nodup, List.pairwise_map,
          List.pairwise_filterMap]
        refine (List.pairwise_map.mp hoccurrences).imp fun {o o'} hne => ?_
        intro r hr r' hr'
        obtain ⟨_, -, rfl⟩ := Option.map_eq_some_iff.mp hr
        obtain ⟨_, -, rfl⟩ := Option.map_eq_some_iff.mp hr'
        exact hne
      · refine List.mem_filterMap.mpr ⟨o, ho, ?_⟩
        rw [hdecl]
        rfl

/-- Lexical scoping with hoisting. In a completed analysis of a program
whose nodes have distinct identities, the occurrences are the
identifiers of the program, and each resolves to the declaration that
the scoping rule chooses, or to nothing if it chooses none. Declarations
have distinct places, and a resolution names the declaration by its
position among them. -/
theorem Program.resolutions_follow_scoping {config : Config} {p : Program}
    {a : Analysis} (hids : p.ids.Nodup) (h : p.analyze config = .ok a) :
    p.occurrences.map Occurrence.expr = p.exprs.filter (·.name?.isSome)
      ∧ p.declarations.Nodup
      ∧ ∀ o ∈ p.occurrences,
          (∀ site, o.declaration = some site → site ∈ p.declarations)
            ∧ a.resolutions[o.tag.id]?
              = o.declaration.map p.declarations.idxOf := by
  refine ⟨p.map_expr_occurrences, nodup_declarations hids, fun o ho => ⟨?_, ?_⟩⟩
  · intro site hsite
    have hmem : (o.tag.id, site)
        ∈ p.occurrences.filterMap Occurrence.resolution? := by
      refine List.mem_filterMap.mpr ⟨o, ho, ?_⟩
      rw [Occurrence.resolution?, hsite]
      rfl
    rw [← p.tells_account config] at hmem
    obtain ⟨e, he, hr⟩ := List.mem_filterMap.mp hmem
    obtain ⟨r, hr, heq⟩ := Option.map_eq_some_iff.mp hr
    injection heq with _ hsite
    rw [← hsite]
    have hbound := p.resolved_bound config r (List.mem_filterMap.mpr ⟨e, he, hr⟩)
    exact (idxOf_site_of_bound hids hbound).1
  · exact getElem?_resolutions hids h ho

/-- A variable, a function whose parameter has the name of the variable,
and a call that uses both names. -/
def Program.shadowed : Program :=
  ⟨[.declaration ⟨0, ⟨1, 1⟩⟩ "x" none
      (some (.literal ⟨1, ⟨1, 9⟩⟩ (.int 1))) false,
    .function ⟨2, ⟨2, 1⟩⟩ "f" [⟨"x", none, ⟨2, 8⟩⟩] none ⟨2, 11⟩
      [.ret ⟨3, ⟨3, 3⟩⟩ (some (.identifier ⟨4, ⟨3, 10⟩⟩ "x"))],
    .expr ⟨5, ⟨5, 1⟩⟩
      (.call ⟨6, ⟨5, 1⟩⟩ (.identifier ⟨7, ⟨5, 1⟩⟩ "f")
        [.identifier ⟨8, ⟨5, 3⟩⟩ "x"])],
    .start⟩

/-- The function is declared first, then the variable, then the
parameter, which hides the variable in the body. -/
theorem Program.resolutions_shadowed :
    shadowed.ids.Nodup ∧ ∃ a, shadowed.analyze {} = .ok a
      ∧ a.resolutions[4]? = some 2 ∧ a.resolutions[7]? = some 0
      ∧ a.resolutions[8]? = some 1 := by
  have hids : shadowed.ids.Nodup := by decide
  obtain ⟨a, ha⟩ : ∃ a, shadowed.analyze {} = .ok a :=
    analyze_ok (by decide) (by decide)
  have hoccurrences := (resolutions_follow_scoping hids ha).2.2
  refine ⟨hids, a, ha, ?_, ?_, ?_⟩
  · exact (hoccurrences shadowed.occurrences[0] (List.getElem_mem _)).2
  · exact (hoccurrences shadowed.occurrences[1] (List.getElem_mem _)).2
  · exact (hoccurrences shadowed.occurrences[2] (List.getElem_mem _)).2

end TreeCheck
