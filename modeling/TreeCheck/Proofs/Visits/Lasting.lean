/-
What a course keeps true of the symbols it binds.

Symbols come from three kinds of declarations: variables, functions and
parameters. A property that each of them establishes lasts: it holds of
every symbol that is bound, and so of those in force at a visit.
Parameters take their types from a signature that was kept when their
function was declared, and so does the result that a `return` has to
meet, so a property of kept signatures is carried along.

A declaration may use what holds where it stands: that its statement is
visited, that the names in force there have the property already, what
the origin of its symbol is, and, for a function, that what is said
about its annotations is said in the course of the program.
-/
import TreeCheck.Proofs.Account.Binding
import TreeCheck.Proofs.Visits.Origins
import TreeCheck.Proofs.Visits.Recorded

namespace TreeCheck

open Analysis

-- ============================================================= symbols

/-- The symbol of a variable. -/
def Declared.ofVariable (ρ : Lookup) (t : Tag) (name : String)
    (ann : Option TypeName) (init : Option Expr) (mutable : Bool)
    (n : SymbolId) : Declared :=
  ⟨⟨⟨name, .variable,
    variableTypeOf (ann.map (·.valueType)) (init.map (·.typeIn ρ)), t.position,
    mutable⟩, n⟩, .stmt t.id⟩

/-- The symbol of a function. -/
def Declared.ofFunction (t : Tag) (name : String) (sig : Signature)
    (n : SymbolId) : Declared :=
  ⟨⟨⟨name, .function, .func sig.params sig.ret, t.position, false⟩, n⟩, .stmt t.id⟩

/-- The symbol of a parameter. -/
def Declared.ofParameter (function : NodeId) (index : Nat) (p : Param) (type : Ty)
    (n : SymbolId) : Declared :=
  ⟨⟨⟨p.name, .parameter, type, p.position, true⟩, n⟩, .param function index⟩

/-- A lookup finds only symbols with a property. -/
def Finds (D : Declared → Prop) (ρ : Lookup) : Prop :=
  ∀ x d, ρ x = some d → D d

theorem Finds.mono {D E : Declared → Prop} {ρ : Lookup} (h : Finds D ρ)
    (hDE : ∀ d, D d → E d) : Finds E ρ := fun x d hx => hDE d (h x d hx)

/-- A property of symbols, and one of the kept signatures, that every
declaration of a program establishes. -/
structure Program.Lasting (config : Config) (p : Program)
    (D : Declared → Prop) (S : NodeId → Signature → Prop) : Prop where
  ofVariable : ∀ {ρ expected t name ann init m n},
    ⟨.declaration t name ann init m, ρ, expected⟩ ∈ p.visits config →
    Finds D ρ → p.origins[n]? = some (.stmt (.declaration t name ann init m)) →
    D (.ofVariable ρ t name ann init m n)
  ofSignature : ∀ {t name params result q body},
    .function t name params result q body ∈ p.stmts →
    (∀ e ∈ signatureEvents t.id params result,
      e ∈ (p.course config).events) →
    S t.id (Signature.of params result body)
  ofFunction : ∀ {t name params result q body n},
    .function t name params result q body ∈ p.stmts →
    (∀ e ∈ signatureEvents t.id params result,
      e ∈ (p.course config).events) →
    p.origins[n]? = some (.stmt (.function t name params result q body)) →
    D (.ofFunction t name (Signature.of params result body) n)
  ofParameter : ∀ {t name params result q body sig i param type n},
    .function t name params result q body ∈ p.stmts → S t.id sig →
    params[i]? = some param → sig.params[i]? = some type →
    p.origins[n]? = some (.param (.function t name params result q body) i) →
    D (.ofParameter t.id i param type n)

-- ============================================================= keeping

/-- The symbols of an environment and the kept signatures have their
properties. -/
structure Keeps (D : Declared → Prop) (S : NodeId → Signature → Prop)
    (Γ : Env) (σ : Signatures) : Prop where
  symbols : ∀ φ ∈ Γ, ∀ d ∈ φ, D d
  signatures : ∀ id sig, σ[id]? = some sig → S id sig

section

variable {D : Declared → Prop} {S : NodeId → Signature → Prop} {Γ outer : Env}
  {φ : Frame} {σ σ' : Signatures}

namespace Keeps

theorem find (h : Keeps D S Γ σ) : Finds D Γ.find := by
  intro x d hx
  obtain ⟨φ, hφ, hfind⟩ := List.exists_of_findSome?_eq_some hx
  exact h.symbols φ hφ d (Frame.mem_of_find hfind)

/-- A scope is opened: nothing is bound in it yet. -/
theorem enter (h : Keeps D S Γ σ) : Keeps D S ([] :: Γ) σ where
  symbols := List.forall_mem_cons.mpr ⟨nofun, h.symbols⟩
  signatures := h.signatures

/-- A scope is left: its symbols are gone, its signatures are kept. -/
theorem leave (h : Keeps D S (φ :: Γ) σ) : Keeps D S Γ σ where
  symbols := (List.forall_mem_cons.mp h.symbols).2
  signatures := h.signatures

theorem bind {d : Declared} (h : Keeps D S (φ :: outer) σ) (hd : D d) :
    Keeps D S ((d :: φ) :: outer) σ where
  symbols := by
    obtain ⟨hφ, houter⟩ := List.forall_mem_cons.mp h.symbols
    exact List.forall_mem_cons.mpr
      ⟨List.forall_mem_cons.mpr ⟨hd, hφ⟩, houter⟩
  signatures := h.signatures

theorem keep {id : NodeId} {sig : Signature} (h : Keeps D S Γ σ)
    (hsig : S id sig) :
    Keeps D S Γ (σ.insert id sig) where
  symbols := h.symbols
  signatures := by
    intro id' sig' hget
    rw [Std.TreeMap.getElem?_insert] at hget
    split at hget
    case isTrue heq =>
      obtain rfl := Option.some.inj hget
      exact Std.LawfulEqCmp.eq_of_compare heq ▸ hsig
    case isFalse => exact h.signatures id' sig' hget

end Keeps

/-- After a walk the properties are kept, and what it has bound has the one
of symbols. -/
structure KeepsOn (D : Declared → Prop) (S : NodeId → Signature → Prop)
    (outer : Env) (w : Walk) (σ : Signatures) : Prop where
  keeps : Keeps D S (w.frame :: outer) σ
  bound : ∀ d ∈ w.events.filterMap Event.bound?, D d

namespace KeepsOn

variable {n : SymbolId} {w : Walk} {es : List Event}

theorem looks (h : Keeps D S (φ :: outer) σ) (hes : Looks es) :
    KeepsOn D S outer ⟨φ, n, es⟩ σ where
  keeps := h
  bound := by
    rw [show es.filterMap Event.bound? = [] from hes]
    exact nofun

theorem declaring {node : NodeId} {site : Site} {b : Binding}
    (h : Keeps D S (φ :: outer) σ) (hd : D ⟨⟨b, n⟩, site⟩) :
    KeepsOn D S outer (declaring node site b φ n) σ where
  keeps := h.bind hd
  bound := by
    rw [bound_declaring]
    exact List.forall_mem_singleton.mpr hd

theorem andThen {f : Frame → SymbolId → Walk} (h : KeepsOn D S outer w σ)
    (hf : KeepsOn D S outer (f w.frame w.next) σ') :
    KeepsOn D S outer (w.andThen f) σ' where
  keeps := hf.keeps
  bound := by
    rw [Walk.events_andThen, List.filterMap_append]
    exact List.forall_mem_append.mpr ⟨h.bound, hf.bound⟩

/-- A course is gone on with, from the signatures it has kept. -/
theorem goesOn {c : Course} {f : Frame → SymbolId → Signatures → Course}
    (h : KeepsOn D S outer c.toWalk c.signatures)
    (hf : KeepsOn D S outer (f c.frame c.next c.signatures).toWalk
      (f c.frame c.next c.signatures).signatures) :
    KeepsOn D S outer (c.andThen f).toWalk (c.andThen f).signatures :=
  andThen (f := fun φ n => (f φ n c.signatures).toWalk) h hf

theorem after (h : KeepsOn D S outer w σ) (hes : Looks es) :
    KeepsOn D S outer (w.after es) σ where
  keeps := h.keeps
  bound := by
    rw [Walk.events_after, List.filterMap_append, show es.filterMap _ = [] from hes]
    exact h.bound

theorem closed (h : KeepsOn D S (φ :: outer) w σ) (config : Config) :
    KeepsOn D S outer (w.closed config φ) σ where
  keeps := h.keeps.leave
  bound := by
    show ∀ d ∈ (w.events ++ leavingEvents config w).filterMap _, D d
    rw [List.filterMap_append, (reports_leavingEvents config w).bound, List.append_nil]
    exact h.bound

theorem keep {id : NodeId} {sig : Signature} (h : KeepsOn D S outer w σ)
    (hsig : S id sig) : KeepsOn D S outer w (σ.insert id sig) where
  keeps := h.keeps.keep hsig
  bound := h.bound

end KeepsOn

/-- The result type that a `return` has to meet is that of a kept signature. -/
def Promised (S : NodeId → Signature → Prop) (expected : Option Ty) : Prop :=
  ∀ ty, expected = some ty → ∃ id sig, S id sig ∧ sig.ret = ty

/-- The properties hold of what is in force at a visit. -/
structure Visit.Upholds (D : Declared → Prop) (S : NodeId → Signature → Prop)
    (v : Visit) : Prop where
  names : Finds D v.names
  result : Promised S v.expected

/-- After a course the properties are kept, and they hold of what is in force
at its visits. -/
structure Lasts (D : Declared → Prop) (S : NodeId → Signature → Prop)
    (outer : Env) (c : Course) (vs : List Visit) : Prop
    extends KeepsOn D S outer c.toWalk c.signatures where
  visits : ∀ v ∈ vs, v.Upholds D S

end

-- =========================================================== declaring

section

variable {config : Config} {p : Program} {D : Declared → Prop}
  {S : NodeId → Signature → Prop} {outer : Env} {φ : Frame} {n : SymbolId}
  {σ : Signatures}

theorem keepsOn_declaringFunction (h : p.Lasting config D S) {t : Tag}
    {name : String} {params : List Param} {result : Option TypeName}
    {q : Position} {body : List Stmt}
    (hstmt : .function t name params result q body ∈ p.stmts)
    (hevents : ∀ e ∈ (declaringFunction t name params result body φ n).events,
      e ∈ (p.course config).events)
    (horigin : p.origins[n]? = some (.stmt (.function t name params result q body)))
    (hkeeps : Keeps D S (φ :: outer) σ) :
    KeepsOn D S outer (declaringFunction t name params result body φ n)
      (σ.insert t.id (Signature.of params result body)) := by
  have hsig := (List.forall_mem_append.mp hevents).1
  refine .keep (.after ?_ (reports_signatureEvents _ _ _).looks) (h.ofSignature hstmt hsig)
  exact .declaring hkeeps (h.ofFunction hstmt hsig horigin)

/-- A function that is reached has the signature it was declared with, and
is declared now if it was not. -/
theorem keepsOn_reachingFunction (h : p.Lasting config D S) {t : Tag}
    {name : String} {params : List Param} {result : Option TypeName}
    {q : Position} {body : List Stmt}
    (hstmt : .function t name params result q body ∈ p.stmts)
    (hevents : ∀ e ∈ (reachingFunction t name params result body φ n σ).events,
      e ∈ (p.course config).events)
    (hnumbered : p.Numbered n
      (if t.id ∈ σ then []
        else [.stmt (.function t name params result q body)]))
    (hkeeps : Keeps D S (φ :: outer) σ) :
    KeepsOn D S outer (reachingFunction t name params result body φ n σ).toWalk
        (reachingFunction t name params result body φ n σ).signatures
      ∧ S t.id (σ[t.id]?.getD (Signature.of params result body)) := by
  unfold reachingFunction at hevents ⊢
  cases hσ : σ[t.id]? with
  | some sig =>
      have hmem : t.id ∈ σ :=
        Std.TreeMap.mem_iff_isSome_getElem?.mpr (by rw [hσ]; rfl)
      rw [if_pos hmem]
      exact ⟨.looks hkeeps rfl, hkeeps.signatures _ _ hσ⟩
  | none =>
      have hmem : t.id ∉ σ := by
        rw [Std.TreeMap.mem_iff_isSome_getElem?, hσ]
        exact Bool.false_ne_true
      rw [if_neg hmem] at hevents hnumbered ⊢
      refine ⟨keepsOn_declaringFunction h hstmt hevents hnumbered.head hkeeps, ?_⟩
      exact h.ofSignature hstmt (List.forall_mem_append.mp hevents).1

theorem keepsOn_hoisting (h : p.Lasting config D S) {ss : List Stmt}
    (earlier : List String) (hstmts : ∀ s ∈ ss, s ∈ p.stmts)
    (hevents : ∀ e ∈ (hoisting earlier ss φ n).events,
      e ∈ (p.course config).events)
    (hnumbered : p.Numbered n (originsAhead earlier ss))
    (hkeeps : Keeps D S (φ :: outer) σ) :
    KeepsOn D S outer (hoisting earlier ss φ n)
      (hoistedSignatures earlier ss σ) := by
  induction ss generalizing earlier φ n σ with
  | nil => exact .looks hkeeps rfl
  | cons s ss ih =>
      rw [List.forall_mem_cons] at hstmts
      cases s with
      | function t name params result q body =>
          unfold hoisting at hevents
          unfold originsAhead Stmt.functionsAhead at hnumbered
          unfold hoisting hoistedSignatures
          by_cases hmem : name ∈ earlier
          · simp only [hmem, if_true, Stmt.isAhead, Stmt.variablesAfter, not_true,
              decide_false, Bool.false_eq_true, if_false, List.nil_append]
              at hevents hnumbered ⊢
            exact ih earlier hstmts.2 hevents hnumbered hkeeps
          · simp only [hmem, if_false, Stmt.isAhead, Stmt.variablesAfter,
              not_false_eq_true, decide_true, if_true, Stmt.signed,
              List.singleton_append, List.map_cons] at hevents hnumbered ⊢
            obtain ⟨hown, hrest⟩ := List.forall_mem_append.mp hevents
            have hfirst := keepsOn_declaringFunction h hstmts.1 hown hnumbered.head
              hkeeps
            exact hfirst.andThen
              (ih earlier hstmts.2 hrest hnumbered.tail hfirst.keeps)
      | declaration | assignment | block | ifElse | «while» | ret | expr =>
          exact ih _ hstmts.2 hevents hnumbered hkeeps

theorem keepsOn_declaringParams (h : p.Lasting config D S) {t : Tag}
    {name : String} {params : List Param} {result : Option TypeName}
    {q : Position} {body : List Stmt} {sig : Signature}
    (hstmt : .function t name params result q body ∈ p.stmts)
    (hsig : S t.id sig) {i : Nat} {ps : List Param} {tys : List Ty}
    (hps : params.drop i = ps) (htys : sig.params.drop i = tys)
    (hnumbered : p.Numbered n
      (originsOfParams (.function t name params result q body) i
        (min ps.length tys.length)))
    (hkeeps : Keeps D S (φ :: outer) σ) :
    KeepsOn D S outer (declaringParams t.id i ps tys φ n) σ := by
  induction ps generalizing i tys φ n with
  | nil => exact .looks hkeeps rfl
  | cons param ps ih =>
      cases tys with
      | nil => exact .looks hkeeps rfl
      | cons type tys =>
          have hparam : params[i]? = some param := by
            rw [← List.head?_drop, hps]
            rfl
          have htype : sig.params[i]? = some type := by
            rw [← List.head?_drop, htys]
            rfl
          have hps' : params.drop (i + 1) = ps := by
            rw [← List.tail_drop, hps]
            rfl
          have htys' : sig.params.drop (i + 1) = tys := by
            rw [← List.tail_drop, htys]
            rfl
          rw [originsOfParams, List.length_cons, List.length_cons,
            Nat.add_min_add_right, List.range'_succ, List.map_cons] at hnumbered
          have hd := h.ofParameter hstmt hsig hparam htype hnumbered.head
          have hfirst : KeepsOn D S outer (declaring t.id (.param t.id i)
              ⟨param.name, .parameter, type, param.position, true⟩ φ n) σ :=
            .declaring hkeeps hd
          exact hfirst.andThen (ih hps' htys' hnumbered.tail hfirst.keeps)

-- ========================================================== statements

/-- The statements of a list are visited. -/
theorem Stmt.mem_of_visitsAll {ss : List Stmt} {expected : Option Ty}
    (hvisits : ∀ v ∈ Stmt.visitsAll config ss expected outer φ n σ,
      v ∈ p.visits config) : ∀ s ∈ ss, s ∈ p.stmts := by
  intro s hs
  have hmem := Stmt.mem_stmts_outlines 0 .body hs
  rw [← Stmt.stmts_visitsAll 0 .body ss expected outer φ n σ] at hmem
  obtain ⟨v, hv, rfl⟩ := List.mem_map.mp hmem
  rw [← p.stmts_visits config]
  exact List.mem_map_of_mem (hvisits v hv)

theorem Program.stmt_of_visit {v : Visit} (h : v ∈ p.visits config) :
    v.stmt ∈ p.stmts := by
  rw [← p.stmts_visits config]
  exact List.mem_map_of_mem h

theorem reckons_openingFunction (s : Stmt) (function : NodeId) (ps : List Param)
    (tys : List Ty) (body : List Stmt) (n : SymbolId) (σ : Signatures) :
    Reckons n (originsOfParams s 0 (min ps.length tys.length) ++ originsAhead [] body)
      (hoistedSignatures [] body σ) (openingFunction function ps tys body n σ) :=
  (reckons_declaringParams s function ps tys [] n σ).andThen
    (reckons_hoisting body _ _ σ)

theorem lasts_courseOfBranch {branch : Stmt} {os : List Origin}
    {course : Env → Frame → SymbolId → Signatures → Course}
    {visits : Env → Frame → SymbolId → Signatures → List Visit}
    (h : ∀ {outer φ},
      (∀ e ∈ (course outer φ n σ).events, e ∈ (p.course config).events) →
      (∀ v ∈ visits outer φ n σ, v ∈ p.visits config) → p.Numbered n os →
      Keeps D S (φ :: outer) σ →
      Lasts D S outer (course outer φ n σ) (visits outer φ n σ))
    (hevents : ∀ e ∈ (courseOfBranch config branch course outer φ n σ).events,
      e ∈ (p.course config).events)
    (hvisits : ∀ v ∈ visitsOfBranch branch visits outer φ n σ,
      v ∈ p.visits config)
    (hnumbered : p.Numbered n os) (hkeeps : Keeps D S (φ :: outer) σ) :
    Lasts D S outer (courseOfBranch config branch course outer φ n σ)
      (visitsOfBranch branch visits outer φ n σ) := by
  unfold courseOfBranch visitsOfBranch at *
  split
  case isTrue hblock =>
    rw [if_pos hblock] at hevents hvisits
    exact h hevents hvisits hnumbered hkeeps
  case isFalse hblock =>
    rw [if_neg hblock] at hevents hvisits
    have hinner := h (List.forall_mem_append.mp hevents).1 hvisits hnumbered
      hkeeps.enter
    exact ⟨hinner.toKeepsOn.closed config, hinner.visits⟩

mutual

/-- What lasts is kept along the course of a statement. -/
theorem Stmt.lasts_course (h : p.Lasting config D S) : (s : Stmt) →
    ∀ {expected : Option Ty} {outer : Env} {φ : Frame} {n : SymbolId}
      {σ : Signatures},
    (∀ e ∈ (s.course config expected outer φ n σ).events,
      e ∈ (p.course config).events) →
    (∀ v ∈ s.visits config expected outer φ n σ, v ∈ p.visits config) →
    p.Numbered n (s.origins σ) → Keeps D S (φ :: outer) σ → Promised S expected →
    Lasts D S outer (s.course config expected outer φ n σ)
      (s.visits config expected outer φ n σ)
  | .declaration t name ann init m, expected, outer, φ, n, σ, _, hvisits,
      hnumbered, hkeeps, hpromised => by
      have hd := h.ofVariable (hvisits _ List.mem_cons_self) hkeeps.find
        hnumbered.head
      refine ⟨.after (.declaring hkeeps hd) ?_,
        List.forall_mem_singleton.mpr ⟨hkeeps.find, hpromised⟩⟩
      exact (consults_declarationEvents t.id name ann init).looks
  | .function t name params result q body, expected, outer, φ, n, σ, hevents,
      hvisits, hnumbered, hkeeps, hpromised => by
      simp only [Stmt.course, Stmt.visits] at hevents hvisits ⊢
      simp only [Stmt.origins] at hnumbered
      obtain ⟨hown, hinside⟩ := List.forall_mem_append.mp hevents
      obtain ⟨hbody, -⟩ := List.forall_mem_append.mp hinside
      obtain ⟨hopening, hbody⟩ := List.forall_mem_append.mp hbody
      obtain ⟨-, hhoist⟩ := List.forall_mem_append.mp hopening
      obtain ⟨hvisit, hvisits⟩ := List.forall_mem_cons.mp hvisits
      have hstmt := Program.stmt_of_visit hvisit
      -- The numbers are taken by the function, its parameters, the functions
      -- of its body and the statements of its body, in this order.
      have hreach := reckons_reachingFunction t name params result q body φ n σ
      have hinside := hnumbered.right
      rw [← hreach.next, ← hreach.signatures] at hinside
      have hopen := reckons_openingFunction (.function t name params result q body)
        t.id params (σ[t.id]?.getD (Signature.of params result body)).params body
        (reachingFunction t name params result body φ n σ).next
        (reachingFunction t name params result body φ n σ).signatures
      have hhoistNumbered := hinside.left.right
      rw [originsOfParams, List.length_map, List.length_range',
        ← next_declaringParams t.id 0 params _ []] at hhoistNumbered
      have hbodyNumbered := hinside.right
      rw [← hopen.next, ← hopen.signatures] at hbodyNumbered
      obtain ⟨hreached, hsig⟩ := keepsOn_reachingFunction h hstmt hown hnumbered.left
        hkeeps
      have hparams := keepsOn_declaringParams h hstmt hsig (i := 0) List.drop_zero
        List.drop_zero hinside.left.left hreached.keeps.enter
      have hopened := keepsOn_hoisting h [] (Stmt.mem_of_visitsAll hvisits) hhoist
        hhoistNumbered hparams.keeps
      have hresult : Promised S
          (some (σ[t.id]?.getD (Signature.of params result body)).ret) := by
        intro ty hty
        exact ⟨t.id, _, hsig, Option.some.inj hty⟩
      have hlasts := Stmt.lasts_courseAll h body hbody hvisits hbodyNumbered
        hopened.keeps hresult
      have hscope := ((hparams.andThen hopened).goesOn hlasts.toKeepsOn).closed config
      exact ⟨hreached.goesOn hscope,
        List.forall_mem_cons.mpr ⟨⟨hkeeps.find, hpromised⟩, hlasts.visits⟩⟩
  | .assignment _ _ _, expected, outer, φ, n, σ, _, _, _, hkeeps, hpromised =>
      ⟨.looks hkeeps (consults_assignmentEvents _ _ _).looks,
        List.forall_mem_singleton.mpr ⟨hkeeps.find, hpromised⟩⟩
  | .block t q ss, expected, outer, φ, n, σ, hevents, hvisits, hnumbered,
      hkeeps, hpromised => by
      simp only [Stmt.course, Stmt.visits] at hevents hvisits ⊢
      simp only [Stmt.origins] at hnumbered
      obtain ⟨hbody, -⟩ := List.forall_mem_append.mp hevents
      obtain ⟨hhoist, hbody⟩ := List.forall_mem_append.mp hbody
      obtain ⟨-, hvisits⟩ := List.forall_mem_cons.mp hvisits
      have hbodyNumbered := hnumbered.right
      rw [← next_hoisting [] ss []] at hbodyNumbered
      have hopened := keepsOn_hoisting h [] (Stmt.mem_of_visitsAll hvisits) hhoist
        hnumbered.left hkeeps.enter
      have hlasts := Stmt.lasts_courseAll h ss hbody hvisits hbodyNumbered
        hopened.keeps hpromised
      exact ⟨(hopened.goesOn hlasts.toKeepsOn).closed config,
        List.forall_mem_cons.mpr ⟨⟨hkeeps.find, hpromised⟩, hlasts.visits⟩⟩
  | .ifElse t c a none, expected, outer, φ, n, σ, hevents, hvisits, hnumbered,
      hkeeps, hpromised => by
      simp only [Stmt.course, Stmt.visits] at hevents hvisits ⊢
      obtain ⟨-, hbranch⟩ := List.forall_mem_append.mp hevents
      obtain ⟨-, hvisits⟩ := List.forall_mem_cons.mp hvisits
      have hlasts := lasts_courseOfBranch
        (fun he hv hat hk => Stmt.lasts_course h a he hv hat hk hpromised) hbranch
        hvisits hnumbered hkeeps
      exact ⟨hlasts.toKeepsOn.after (consults_conditionEvents _ _ _).looks,
        List.forall_mem_cons.mpr ⟨⟨hkeeps.find, hpromised⟩, hlasts.visits⟩⟩
  | .ifElse t c a (some b), expected, outer, φ, n, σ, hevents, hvisits,
      hnumbered, hkeeps, hpromised => by
      simp only [Stmt.course, Stmt.visits] at hevents hvisits ⊢
      simp only [Stmt.origins] at hnumbered
      obtain ⟨-, hbranches⟩ := List.forall_mem_append.mp hevents
      obtain ⟨hthen, helse⟩ := List.forall_mem_append.mp hbranches
      obtain ⟨-, hvisits⟩ := List.forall_mem_cons.mp hvisits
      obtain ⟨hthenVisits, helseVisits⟩ := List.forall_mem_append.mp hvisits
      have ha : Reckons n (a.origins σ) (a.keeping σ)
          (courseOfBranch config a (a.course config expected) outer φ n σ) :=
        reckons_courseOfBranch
          (fun outer φ n => Stmt.reckons_course config a expected outer φ n σ)
          outer φ n
      have helseNumbered := hnumbered.right
      rw [← ha.next, ← ha.signatures] at helseNumbered
      have hthen := lasts_courseOfBranch
        (fun he hv hat hk => Stmt.lasts_course h a he hv hat hk hpromised) hthen
        hthenVisits hnumbered.left hkeeps
      have helse := lasts_courseOfBranch
        (fun he hv hat hk => Stmt.lasts_course h b he hv hat hk hpromised) helse
        helseVisits helseNumbered hthen.keeps
      refine ⟨(hthen.toKeepsOn.goesOn helse.toKeepsOn).after
          (consults_conditionEvents _ _ _).looks,
        List.forall_mem_cons.mpr ⟨⟨hkeeps.find, hpromised⟩, ?_⟩⟩
      exact List.forall_mem_append.mpr ⟨hthen.visits, helse.visits⟩
  | .while t c b, expected, outer, φ, n, σ, hevents, hvisits, hnumbered,
      hkeeps, hpromised => by
      simp only [Stmt.course, Stmt.visits] at hevents hvisits ⊢
      obtain ⟨-, hbranch⟩ := List.forall_mem_append.mp hevents
      obtain ⟨-, hvisits⟩ := List.forall_mem_cons.mp hvisits
      have hlasts := lasts_courseOfBranch
        (fun he hv hat hk => Stmt.lasts_course h b he hv hat hk hpromised) hbranch
        hvisits hnumbered hkeeps
      exact ⟨hlasts.toKeepsOn.after (consults_conditionEvents _ _ _).looks,
        List.forall_mem_cons.mpr ⟨⟨hkeeps.find, hpromised⟩, hlasts.visits⟩⟩
  | .ret _ _, expected, outer, φ, n, σ, _, _, _, hkeeps, hpromised =>
      ⟨.looks hkeeps (consults_returningEvents _ _ _).looks,
        List.forall_mem_singleton.mpr ⟨hkeeps.find, hpromised⟩⟩
  | .expr _ e, expected, outer, φ, n, σ, _, _, _, hkeeps, hpromised =>
      ⟨.looks hkeeps (e.consults_events _).looks,
        List.forall_mem_singleton.mpr ⟨hkeeps.find, hpromised⟩⟩

theorem Stmt.lasts_courseAll (h : p.Lasting config D S) : (ss : List Stmt) →
    ∀ {expected : Option Ty} {outer : Env} {φ : Frame} {n : SymbolId}
      {σ : Signatures},
    (∀ e ∈ (Stmt.courseAll config ss expected outer φ n σ).events,
      e ∈ (p.course config).events) →
    (∀ v ∈ Stmt.visitsAll config ss expected outer φ n σ,
      v ∈ p.visits config) →
    p.Numbered n (Stmt.originsAll ss σ) → Keeps D S (φ :: outer) σ →
    Promised S expected →
    Lasts D S outer (Stmt.courseAll config ss expected outer φ n σ)
      (Stmt.visitsAll config ss expected outer φ n σ)
  | [], expected, outer, φ, n, σ, _, _, _, hkeeps, _ => ⟨.looks hkeeps rfl, nofun⟩
  | s :: ss, expected, outer, φ, n, σ, hevents, hvisits, hnumbered, hkeeps,
      hpromised => by
      simp only [Stmt.courseAll, Stmt.visitsAll] at hevents hvisits ⊢
      obtain ⟨hfirst, hrest⟩ := List.forall_mem_append.mp hevents
      obtain ⟨hfirstVisits, hrestVisits⟩ := List.forall_mem_append.mp hvisits
      have hs := s.reckons_course config expected outer φ n σ
      have hrestNumbered := hnumbered.right
      rw [← hs.next, ← hs.signatures] at hrestNumbered
      have hfirst := Stmt.lasts_course h s hfirst hfirstVisits hnumbered.left hkeeps
        hpromised
      have hrest := Stmt.lasts_courseAll h ss hrest hrestVisits hrestNumbered
        hfirst.keeps hpromised
      exact ⟨hfirst.toKeepsOn.goesOn hrest.toKeepsOn,
        List.forall_mem_append.mpr ⟨hfirst.visits, hrest.visits⟩⟩

end

/-- What lasts is kept along the course of a program. -/
theorem Program.lasts_course (h : p.Lasting config D S) :
    Lasts D S [] (p.course config) (p.visits config) := by
  have hstart : Keeps D S [[]] {} := by
    refine ⟨?_, fun id sig hget => ?_⟩
    · intro φ hφ
      rw [List.mem_singleton.mp hφ]
      exact nofun
    · rw [Std.TreeMap.getElem?_emptyc] at hget
      cases hget
  have hevents : ∀ e ∈ (hoisting [] p.body [] 0).events ++ _,
      e ∈ (p.course config).events := fun e he => he
  obtain ⟨hhoist, hbody⟩ := List.forall_mem_append.mp hevents
  have hnumbered : p.Numbered 0 p.origins := List.prefix_rfl
  have hbodyNumbered := Program.Numbered.right hnumbered
  rw [← next_hoisting [] p.body []] at hbodyNumbered
  have hvisits : ∀ v ∈ p.visits config, v ∈ p.visits config := fun v hv => hv
  have hopened := keepsOn_hoisting h [] (Stmt.mem_of_visitsAll hvisits) hhoist
    hnumbered.left hstart
  have hlasts := Stmt.lasts_courseAll h p.body hbody hvisits hbodyNumbered
    hopened.keeps nofun
  exact ⟨hopened.goesOn hlasts.toKeepsOn, hlasts.visits⟩

/-- What lasts holds of all names in force at the visits of a program. -/
theorem Program.finds_of_visit (h : p.Lasting config D S) {v : Visit}
    (hv : v ∈ p.visits config) : Finds D v.names :=
  ((lasts_course h).visits v hv).names

/-- What lasts holds of all names in force at the expressions of a
program. -/
theorem Program.finds_of_node (h : p.Lasting config D S) {ρ : Lookup} {e : Expr}
    (hn : (ρ, e) ∈ p.nodes config) : Finds D ρ := by
  obtain ⟨v, hv, rfl, -⟩ := mem_nodes.mp hn
  exact finds_of_visit h hv

end

end TreeCheck
