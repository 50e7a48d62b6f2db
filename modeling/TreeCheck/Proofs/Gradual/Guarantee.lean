/-
The static gradual guarantee.

A program that loses annotations is walked along with the program that
has them. Where the latter is clean, the former is clean, and its types
are less precise; so neither an error nor a failure of the analysis can
come from a missing annotation.
-/
import TreeCheck.Proofs.Gradual.Statements
import TreeCheck.Proofs.Run.Failure
import TreeCheck.Proofs.Run.Statements
import TreeCheck.Proofs.Typing.Scopes

namespace TreeCheck

open Analysis

variable {D : AnnotationSite → Bool}

/-- Hoisting sees the same names. -/
theorem Stmt.hoisted_erase (earlier : List String) (s : Stmt) :
    (s.erase D).isAhead earlier = s.isAhead earlier
      ∧ (s.erase D).variablesAfter earlier = s.variablesAfter earlier := by
  cases s with
  | declaration t name ann init m => cases init <;> exact ⟨rfl, rfl⟩
  | ifElse t c a b => cases b <;> exact ⟨rfl, rfl⟩
  | function | assignment | block | «while» | ret | expr => exact ⟨rfl, rfl⟩

-- ============================================================== scopes

/-- A scope relaxes a scope if its list does, once the functions declared
ahead are known to be valid. -/
theorem relaxes_scope (config : Config) (D : AnnotationSite → Bool)
    (function : NodeId) {ps' ps : List Param} {tys' tys : List Ty}
    {expected' expected : Option Ty} {outer' outer : Env} {ss : List Stmt}
    (n : SymbolId) (hps : Params.Erased ps' ps)
    (htys : List.Forall₂ Ty.LessPrecise tys' tys)
    (hfirst : ∀ ty ∈ tys, ty.FirstOrder)
    (hss : (∀ s ∈ Stmt.functionsAhead [] ss, s.Annotated) →
      ∀ {φ' φ : Frame} {m : SymbolId}, φ'.Below φ →
      (Stmt.walkAll config (Stmt.eraseAll D ss) expected' [] outer' φ' m).Relaxes
        (Stmt.walkAll config ss expected [] outer φ m)) :
    (((declaringParams function 0 ps' tys' [] n).andThen
        (hoisting [] (Stmt.eraseAll D ss))).andThen
          (Stmt.walkAll config (Stmt.eraseAll D ss) expected' [] outer')).Relaxes
      (((declaringParams function 0 ps tys [] n).andThen (hoisting [] ss)).andThen
          (Stmt.walkAll config ss expected [] outer)) := by
  have hparams := relaxes_declaringParams function 0 hps htys hfirst .nil n
  have hopened : ((declaringParams function 0 ps' tys' [] n).andThen
      (hoisting [] (Stmt.eraseAll D ss))).Relaxes
        ((declaringParams function 0 ps tys [] n).andThen (hoisting [] ss)) :=
    hparams.andThen fun _ => fun hφ => relaxes_hoisting D [] ss hφ _
  refine hopened.andThen fun hclean => fun hφ => hss ?_ hφ
  rw [Walk.events_andThen, clean_append] at hclean
  exact ((clean_hoisting [] ss _ _).mp hclean.2).1

-- ========================================================== statements

mutual

/-- A statement that loses annotations relaxes the statement. -/
theorem Stmt.relaxes_walk (config : Config) (D : AnnotationSite → Bool) :
    (s : Stmt) →
    ∀ {expected' expected : Option Ty} {ahead : Bool} {outer' outer : Env}
    {φ' φ : Frame} {n : SymbolId},
    ResultBelow expected' expected → (ahead = true → s.Annotated) →
    outer'.Below outer → φ'.Below φ →
    ((s.erase D).walk config expected' ahead outer' φ' n).Relaxes
      (s.walk config expected ahead outer φ n)
  | .declaration t name ann none m, expected', expected, ahead, outer', outer,
      φ', φ, n, hret, hahead, hΓ, hφ => by
      simp only [Stmt.erase, Stmt.walk]
      exact relaxes_uninitialized hφ t name ann _ m n
  | .declaration t name ann (some e) m, expected', expected, ahead, outer',
      outer, φ', φ, n, hret, hahead, hΓ, hφ => by
      simp only [Stmt.erase, Stmt.walk]
      exact relaxes_initialized (Env.Below.lookup (.cons hφ hΓ)) hφ t name
        ann e m n
  | .function t name params result p body, expected', expected, ahead, outer',
      outer, φ', φ, n, hret, hahead, hΓ, hφ => by
      simp only [Stmt.erase, Stmt.walk]
      refine Walk.Relaxes.andThen ?_ fun hclean => fun hψ => ?_
      · cases ahead with
        | true => exact .same hφ n
        | false =>
            exact relaxes_declaringFunction hφ D t name params result body n
      · have hann : (Stmt.function t name params result p body).Annotated := by
          cases ahead with
          | true => exact hahead rfl
          | false => exact (clean_reached.mp hclean).1 rfl
        have hfirst := Signature.firstOrder_of? hann.signature
        refine Walk.Relaxes.closed ?_ config hψ
        refine relaxes_scope config D t.id _ (Params.erased_mapIdx _ params)
          Signature.params_erased_less
            (fun ty hty => (hfirst.1 ty hty).firstOrder)
          fun hann => fun hφ => ?_
        exact Stmt.relaxes_walkAll config D body
          (.some ⟨hfirst.2.firstOrder, Signature.ret_erased_less⟩) hann
            (.cons hψ hΓ) hφ
  | .assignment t target value, expected', expected, ahead, outer', outer, φ',
      φ, n, hret, hahead, hΓ, hφ =>
      .events hφ n (below_assignmentEvents (Env.Below.lookup (.cons hφ hΓ)) t.id
        target value)
  | .block t p ss, expected', expected, ahead, outer', outer, φ', φ, n, hret,
      hahead, hΓ, hφ => by
      simp only [Stmt.erase, Stmt.walk]
      refine Walk.Relaxes.closed ?_ config hφ
      exact relaxes_scope config D 0 n .nil .nil nofun fun hann => fun hψ =>
        Stmt.relaxes_walkAll config D ss hret hann (.cons hφ hΓ) hψ
  | .ifElse t c a none, expected', expected, ahead, outer', outer, φ', φ, n,
      hret, hahead, hΓ, hφ => by
      simp only [Stmt.erase, Stmt.walk]
      refine Walk.Relaxes.after ?_
        (below_conditionEvents (Env.Below.lookup (.cons hφ hΓ)) t.id .ifElse c)
      exact relaxes_walkBranch config n a.isBlock_erase hΓ hφ fun hΓ hφ =>
        Stmt.relaxes_walk config D a hret nofun hΓ hφ
  | .ifElse t c a (some b), expected', expected, ahead, outer', outer, φ', φ, n,
      hret, hahead, hΓ, hφ => by
      simp only [Stmt.erase, Stmt.walk]
      refine Walk.Relaxes.after (Walk.Relaxes.andThen ?_ fun _ => fun hψ => ?_)
        (below_conditionEvents (Env.Below.lookup (.cons hφ hΓ)) t.id .ifElse c)
      · exact relaxes_walkBranch config n a.isBlock_erase hΓ hφ fun hΓ hφ =>
          Stmt.relaxes_walk config D a hret nofun hΓ hφ
      · exact relaxes_walkBranch config _ b.isBlock_erase hΓ hψ fun hΓ hφ =>
          Stmt.relaxes_walk config D b hret nofun hΓ hφ
  | .while t c b, expected', expected, ahead, outer', outer, φ', φ, n, hret,
      hahead, hΓ, hφ => by
      simp only [Stmt.erase, Stmt.walk]
      refine Walk.Relaxes.after ?_
        (below_conditionEvents (Env.Below.lookup (.cons hφ hΓ)) t.id .while c)
      exact relaxes_walkBranch config n b.isBlock_erase hΓ hφ fun hΓ hφ =>
        Stmt.relaxes_walk config D b hret nofun hΓ hφ
  | .ret t value, expected', expected, ahead, outer', outer, φ', φ, n, hret,
      hahead, hΓ, hφ =>
      .events hφ n (below_returningEvents (Env.Below.lookup (.cons hφ hΓ)) hret
        t value)
  | .expr t e, expected', expected, ahead, outer', outer, φ', φ, n, hret,
      hahead, hΓ, hφ =>
      .events hφ n fun hclean =>
        (e.events_below (Env.Below.lookup (.cons hφ hΓ)) hclean).1

theorem Stmt.relaxes_walkAll (config : Config) (D : AnnotationSite → Bool) :
    (ss : List Stmt) → ∀ {expected' expected : Option Ty} {earlier : List String}
    {outer' outer : Env} {φ' φ : Frame} {n : SymbolId},
    ResultBelow expected' expected →
    (∀ s ∈ Stmt.functionsAhead earlier ss, s.Annotated) →
    outer'.Below outer → φ'.Below φ →
    (Stmt.walkAll config (Stmt.eraseAll D ss) expected' earlier outer'
      φ' n).Relaxes (Stmt.walkAll config ss expected earlier outer φ n)
  | [], expected', expected, earlier, outer', outer, φ', φ, n, hret, hann, hΓ,
      hφ =>
      .same hφ n
  | s :: ss, expected', expected, earlier, outer', outer, φ', φ, n, hret, hann,
      hΓ, hφ => by
      rw [Stmt.functionsAhead] at hann
      have hhead : s.isAhead earlier = true → s.Annotated := by
        intro hahead
        rw [hahead] at hann
        exact hann s List.mem_cons_self
      simp only [Stmt.eraseAll, Stmt.walkAll]
      rw [(s.hoisted_erase earlier).1, (s.hoisted_erase earlier).2]
      refine (Stmt.relaxes_walk config D s hret hhead hΓ hφ).andThen fun _ =>
        fun hψ => ?_
      exact Stmt.relaxes_walkAll config D ss hret
        (fun s' hs' => hann s' (List.mem_append_right _ hs')) hΓ hψ

end

-- =========================================================== programs

theorem Program.account_erase_below (config : Config) (p : Program)
    (h : Clean (p.account config)) :
    EventsBelow ((p.erase D).account config) (p.account config) := by
  have hΓ : Env.Below [] [] := .nil
  have hrelaxes := relaxes_scope config D 0 0 .nil .nil nofun fun hann => fun hφ =>
    Stmt.relaxes_walkAll config D p.body .none hann hΓ hφ
  exact (hrelaxes h).events

/-- Tables that are filled in step with related entries are related. -/
theorem getElem?_foldl_insert_rel {β : Type} {R : β → β → Prop}
    {l' l : List (NodeId × β)}
    (h : List.Forall₂ (fun e' e => e'.1 = e.1 ∧ R e'.2 e.2) l' l)
    {m' m : Std.TreeMap NodeId β} (hm : ∀ k : NodeId, Option.Rel R m'[k]? m[k]?)
    (k : NodeId) :
    Option.Rel R (l'.foldl (fun m e => m.insert e.1 e.2) m')[k]?
      (l.foldl (fun m e => m.insert e.1 e.2) m)[k]? := by
  induction h generalizing m' m with
  | nil => exact hm k
  | cons he _ ih =>
      rw [List.foldl_cons, List.foldl_cons]
      refine ih fun k => ?_
      rw [Std.TreeMap.getElem?_insert, Std.TreeMap.getElem?_insert, he.1]
      split
      · exact .some he.2
      · exact hm k

/-- The static gradual guarantee. If an analysis completes without errors on
a program whose nodes have distinct identities, it does so after any of the
annotations that can be spared have been deleted. The program keeps its
expressions, and each gets the type it had or a less precise one. -/
theorem Program.gradual_guarantee {config : Config} {p : Program} {a : Analysis}
    (D : AnnotationSite → Bool) (hids : p.ids.Nodup)
    (h : p.analyze config = .ok a)
    (hclean : ∀ d ∈ a.diagnostics, d.severity ≠ .error) :
    (p.erase D).exprs = p.exprs
      ∧ ∃ a', (p.erase D).analyze config = .ok a'
        ∧ (∀ d ∈ a'.diagnostics, d.severity ≠ .error)
        ∧ ∀ e ∈ p.exprs, ∃ ty' ty, a'.types[e.id]? = some ty'
          ∧ a.types[e.id]? = some ty ∧ ty'.LessPrecise ty := by
  obtain ⟨hshallow, hnodup⟩ := shallow_of_analyze h
  obtain ⟨a', ha'⟩ := analyze_ok (p := p.erase D) (p.shallow_erase hshallow)
    (p.exprs_erase.symm ▸ hnodup)
  have hids' : (p.erase D).ids.Nodup := p.ids_erase.symm ▸ hids
  have hrun := analysis_eq_account hids h
  have hrun' := analysis_eq_account hids' ha'
  have hbelow := p.account_erase_below (D := D) config
    ((no_errors_replay_iff _).mp (hrun ▸ hclean))
  have htypes (k : NodeId) :
      Option.Rel Ty.LessPrecise a'.types[k]? a.types[k]? := by
    have hempty : ∀ k : NodeId, Option.Rel Ty.LessPrecise
        (∅ : TypeTable)[k]? (∅ : TypeTable)[k]? := by
      intro k
      rw [Std.TreeMap.getElem?_emptyc]
      exact .none
    have hfilled := getElem?_foldl_insert_rel hbelow.typed hempty k
    rw [hrun, hrun']
    show Option.Rel _ (replay {} _).types[k]? (replay {} _).types[k]?
    rw [types_replay, types_replay]
    exact hfilled
  refine ⟨p.exprs_erase, a', ha', ?_, fun e he => ?_⟩
  · rw [hrun']
    exact (no_errors_replay_iff _).mpr hbelow.clean
  · have hmem : e.id ∈ a.types :=
      (mem_types_of_analyze h e.id).mpr (List.mem_map_of_mem he)
    obtain ⟨ty, hty⟩ : ∃ ty, a.types[e.id]? = some ty :=
      Option.isSome_iff_exists.mp (Std.TreeMap.isSome_getElem?_iff_mem.mpr hmem)
    have hrel := htypes e.id
    rw [hty] at hrel
    generalize hty' : a'.types[e.id]? = found at hrel
    cases hrel with
    | some hless => exact ⟨_, ty, rfl, hty, hless⟩

/-- A function whose parameter and result are annotated, and a call of it. -/
def Program.annotated : Program :=
  ⟨[.function ⟨0, ⟨1, 1⟩⟩ "twice" [⟨"x", some ⟨"int", ⟨1, 13⟩⟩, ⟨1, 10⟩⟩]
      (some ⟨"int", ⟨1, 19⟩⟩) ⟨1, 23⟩
      [.ret ⟨1, ⟨2, 3⟩⟩ (some (.binary ⟨2, ⟨2, 10⟩⟩ .add
        (.identifier ⟨3, ⟨2, 10⟩⟩ "x") (.identifier ⟨4, ⟨2, 14⟩⟩ "x")))],
    .expr ⟨5, ⟨3, 1⟩⟩ (.call ⟨6, ⟨3, 1⟩⟩ (.identifier ⟨7, ⟨3, 1⟩⟩ "twice")
      [.literal ⟨8, ⟨3, 7⟩⟩ (.int 2)])],
    .start⟩

/-- Both annotations can be spared. -/
theorem Program.gradual_guarantee_annotated :
    annotated.ids.Nodup ∧ ∃ a, annotated.analyze {} = .ok a
      ∧ (∀ d ∈ a.diagnostics, d.severity ≠ .error)
      ∧ ∃ a', (annotated.erase fun _ => true).analyze {} = .ok a'
        ∧ ∀ d ∈ a'.diagnostics, d.severity ≠ .error := by
  have hids : annotated.ids.Nodup := by decide
  obtain ⟨a, ha⟩ : ∃ a, annotated.analyze {} = .ok a :=
    analyze_ok (by decide) (by decide)
  have hclean : ∀ d ∈ a.diagnostics, d.severity ≠ .error := by
    rw [analysis_eq_account hids ha, no_errors_replay_iff]
    decide
  obtain ⟨-, a', ha', hclean', -⟩ :=
    gradual_guarantee (fun _ => true) hids ha hclean
  exact ⟨hids, a, ha, hclean, a', ha', hclean'⟩

end TreeCheck
