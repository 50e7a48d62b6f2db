/-
What is checked about one statement, with less precise types.

Two things make types less precise here: the names around, and the
annotations of the statement itself, where they are deleted. An
annotation that is left out is not checked, and stands for `unknown`.
-/
import TreeCheck.Proofs.Gradual.Erasure
import TreeCheck.Proofs.Gradual.Walks
import TreeCheck.Proofs.Typing.Statements

namespace TreeCheck

open Analysis

-- ========================================================= annotations

/-- An annotation that is kept or left out. -/
theorem clean_spared {events : TypeName → List Event} {ann : Option TypeName}
    (delete : Bool) (h : Clean (ann.elim [] events)) :
    Clean ((spared delete ann).elim [] events) := by
  cases delete with
  | true => exact clean_nil
  | false => exact h

theorem spared_less {type : TypeName → Ty} (delete : Bool)
    (ann : Option TypeName) :
    ((spared delete ann).elim .unknown type).LessPrecise
      (ann.elim .unknown type) := by
  cases delete with
  | true => exact .unknown
  | false => exact .refl

/-- Parameters that have lost some annotations. -/
def Params.Erased (ps' ps : List Param) : Prop :=
  List.Forall₂ (fun p' p => ∃ delete, p' = Param.erase delete p) ps' ps

theorem Params.erased_mapIdx (f : Nat → Bool) (ps : List Param) :
    Params.Erased (ps.mapIdx fun i p => p.erase (f i)) ps := by
  induction ps generalizing f with
  | nil => exact .nil
  | cons p ps ih =>
      rw [List.mapIdx_cons]
      exact .cons ⟨f 0, rfl⟩ (ih fun i => f (i + 1))

theorem Params.Erased.types {ps' ps : List Param} (h : Params.Erased ps' ps) :
    List.Forall₂ Ty.LessPrecise (ps'.map (·.type)) (ps.map (·.type)) := by
  induction h with
  | nil => exact .nil
  | cons hp _ ih =>
      obtain ⟨delete, rfl⟩ := hp
      exact .cons (spared_less delete _) ih

theorem Params.Erased.clean {ps' ps : List Param} (h : Params.Erased ps' ps)
    (node : NodeId) (hclean : Clean (ps.flatMap (·.events node))) :
    Clean (ps'.flatMap (·.events node)) := by
  induction h with
  | nil => exact clean_nil
  | cons hp _ ih =>
      rw [List.flatMap_cons, clean_append] at hclean ⊢
      obtain ⟨delete, rfl⟩ := hp
      exact ⟨clean_spared delete hclean.1, ih hclean.2⟩

section

variable {D : AnnotationSite → Bool} {t : Tag} {params : List Param}
  {result : Option TypeName} {body : List Stmt}

/-- The signature that a function has without some of its annotations. -/
def Signature.erased (D : AnnotationSite → Bool) (t : Tag) (params : List Param)
    (result : Option TypeName) (body : List Stmt) : Signature :=
  .of (Param.eraseAll D t.id params)
    (spared (Stmt.anyReturnsValue body && D (.result t.id)) result)
    (Stmt.eraseAll D body)

theorem Signature.firstOrder_of {node : NodeId}
    (h : Clean (signatureEvents node params result)) :
    (Ty.func (Signature.of params result body).params
      (Signature.of params result body).ret).FirstOrder :=
  firstOrder_of? ((of?_eq_some node).mpr ⟨h, rfl⟩)

theorem Signature.params_erased_less :
    List.Forall₂ Ty.LessPrecise (Signature.erased D t params result body).params
      (Signature.of params result body).params :=
  (Params.erased_mapIdx _ params).types

/-- A result that is left out is `unknown`, since a value is returned. -/
theorem Signature.ret_erased_less :
    (Signature.erased D t params result body).ret.LessPrecise
      (Signature.of params result body).ret := by
  rw [Signature.erased, Signature.of, Signature.of, Stmt.anyReturnsValue_eraseAll]
  cases Stmt.anyReturnsValue body with
  | true => exact spared_less _ result
  | false => exact .refl

theorem clean_signatureEvents_erased {node : NodeId}
    (h : Clean (signatureEvents node params result)) :
    Clean (signatureEvents node (Param.eraseAll D t.id params)
      (spared (Stmt.anyReturnsValue body && D (.result t.id)) result)) := by
  rw [signatureEvents, clean_append] at h ⊢
  exact ⟨(Params.erased_mapIdx _ params).clean node h.1, clean_spared _ h.2⟩

end

-- ============================================================= binding

/-- A function is bound with a less precise type. -/
theorem relaxes_declaringFunction {φ' φ : Frame} (hφ : φ'.Below φ)
    (D : AnnotationSite → Bool) (t : Tag) (name : String) (params : List Param)
    (result : Option TypeName) (body : List Stmt) (n : SymbolId) :
    (declaringFunction t name (Param.eraseAll D t.id params)
        (spared (Stmt.anyReturnsValue body && D (.result t.id)) result)
        (Stmt.eraseAll D body) φ' n).Relaxes
      (declaringFunction t name params result body φ n) := by
  intro hclean
  have hsig : Clean (signatureEvents t.id params result) := by
    rw [declaringFunction, Walk.events_after, clean_append] at hclean
    exact hclean.1
  refine Walk.Relaxes.after (relaxes_declaring hφ t.id (.stmt t.id) _ n
    (Signature.firstOrder_of hsig) ?_) (fun _ => ?_) hclean
  · exact .func Signature.params_erased_less Signature.ret_erased_less
  · exact .reports (clean_signatureEvents_erased hsig)
      (reports_signatureEvents _ _ _) (reports_signatureEvents _ _ _)

theorem relaxes_hoisting (D : AnnotationSite → Bool) (earlier : List String)
    (ss : List Stmt) {φ' φ : Frame} (hφ : φ'.Below φ) (n : SymbolId) :
    (hoisting earlier (Stmt.eraseAll D ss) φ' n).Relaxes
      (hoisting earlier ss φ n) := by
  induction ss generalizing earlier φ' φ n with
  | nil => exact .same hφ n
  | cons s ss ih =>
      cases s with
      | declaration t name ann init m =>
          cases init with
          | none => exact ih (name :: earlier) hφ n
          | some e => exact ih (name :: earlier) hφ n
      | function t name params result p body =>
          simp only [Stmt.eraseAll, Stmt.erase, hoisting]
          split
          · exact ih earlier hφ n
          · have hfirst := relaxes_declaringFunction hφ D t name params result body n
            exact hfirst.andThen fun _ => fun hψ => ih earlier hψ _
      | ifElse t c a b =>
          cases b with
          | none => exact ih earlier hφ n
          | some b => exact ih earlier hφ n
      | assignment | block | «while» | ret | expr => exact ih earlier hφ n

theorem relaxes_declaringParams (function : NodeId) (i : Nat)
    {ps' ps : List Param} {tys' tys : List Ty} {φ' φ : Frame}
    (hps : Params.Erased ps' ps) (htys : List.Forall₂ Ty.LessPrecise tys' tys)
    (hfirst : ∀ ty ∈ tys, ty.FirstOrder) (hφ : φ'.Below φ) (n : SymbolId) :
    (declaringParams function i ps' tys' φ' n).Relaxes
      (declaringParams function i ps tys φ n) := by
  induction hps generalizing i tys' tys φ' φ n with
  | nil => exact .same hφ n
  | cons hp _ ih =>
      cases htys with
      | nil => exact .same hφ n
      | cons hty htys =>
          obtain ⟨delete, rfl⟩ := hp
          rw [List.forall_mem_cons] at hfirst
          refine Walk.Relaxes.andThen ?_ fun _ => fun hψ =>
            ih (i + 1) htys hfirst.2 hψ _
          exact relaxes_declaring hφ _ _ ⟨_, .parameter, _, _, true⟩ n
            hfirst.1 hty

-- ======================================================== own statements

section

variable {ρ' ρ : Lookup}

theorem reports_typeName (node : NodeId) (name : String) (ann : Option TypeName) :
    Reports (ann.elim [] (·.valueEvents node name)) := by
  cases ann with
  | none => exact reports_nil
  | some a => exact reports_valueEvents node name a

theorem firstOrder_valueType {node : NodeId} {name : String} {a : TypeName}
    (h : Clean (a.valueEvents node name)) : a.valueType.FirstOrder :=
  (TypeName.ground_of_valueType?
    ((a.valueType?_eq_some node).mpr ⟨h, rfl⟩)).firstOrder

/-- A variable without an initializer may lose its annotation. -/
theorem relaxes_uninitialized {φ' φ : Frame} (hφ : φ'.Below φ) (t : Tag)
    (name : String) (ann : Option TypeName) (delete m : Bool) (n : SymbolId) :
    (declaringVariable ρ' t name (spared delete ann) none m φ' n).Relaxes
      (declaringVariable ρ t name ann none m φ n) := by
  intro hclean
  have hann : Clean (ann.elim [] (·.valueEvents t.id name)) := by
    rw [declaringVariable, Walk.events_after, declarationEvents, clean_append,
      clean_append, clean_append] at hclean
    exact hclean.1.1.1
  have hless :
      (variableTypeOf ((spared delete ann).map (·.valueType)) none).LessPrecise
      (variableTypeOf (ann.map (·.valueType)) none) := by
    cases delete with
    | true => exact .unknown
    | false => exact .refl
  have hfirst : (variableTypeOf (ann.map (·.valueType)) none).FirstOrder := by
    cases ann with
    | none => trivial
    | some a => exact firstOrder_valueType hann
  refine Walk.Relaxes.after (relaxes_declaring hφ t.id (.stmt t.id)
    ⟨name, .variable, _, t.position, m⟩ n hfirst hless) (fun _ => ?_) hclean
  have hinit (a b : Option Ty) : EventsBelow (initializerEvents t.id name a none)
      (initializerEvents t.id name b none) := by
    cases a <;> cases b <;> exact .nil
  refine (EventsBelow.append ?_ .nil).append (hinit _ _)
  exact .reports (clean_spared delete hann) (reports_typeName _ _ _)
    (reports_typeName _ _ _)

/-- A variable with an initializer keeps its annotation. -/
theorem relaxes_initialized {φ' φ : Frame} (hρ : LookupBelow ρ' ρ)
    (hφ : φ'.Below φ) (t : Tag) (name : String) (ann : Option TypeName)
    (e : Expr) (m : Bool) (n : SymbolId) :
    (declaringVariable ρ' t name ann (some e) m φ' n).Relaxes
      (declaringVariable ρ t name ann (some e) m φ n) := by
  intro hclean
  have hparts := hclean
  rw [declaringVariable, Walk.events_after, declarationEvents, clean_append,
    clean_append, clean_append] at hparts
  obtain ⟨⟨⟨hann, hvalue⟩, hcheck⟩, -⟩ := hparts
  obtain ⟨hevents, hless⟩ := e.events_below hρ hvalue
  have hfirst := e.firstOrder_typeIn hρ.firstOrder hvalue
  have hwritten : EventsBelow (ann.elim [] (·.valueEvents t.id name))
      (ann.elim [] (·.valueEvents t.id name)) :=
    .reports hann (reports_typeName _ _ _) (reports_typeName _ _ _)
  cases ann with
  | none =>
      have hvoid : e.typeIn ρ ≠ .void :=
        bne_iff_ne.mp ((clean_complaint rfl).mp hcheck)
      have hvoid' : e.typeIn ρ' ≠ .void := by
        intro heq
        rw [heq] at hless
        exact hvoid hless.of_void
      have htype : (variableTypeOf none (some (e.typeIn ρ))) = e.typeIn ρ :=
        if_neg hvoid
      have htype' : (variableTypeOf none (some (e.typeIn ρ'))) = e.typeIn ρ' :=
        if_neg hvoid'
      refine Walk.Relaxes.after (relaxes_declaring hφ t.id (.stmt t.id)
        ⟨name, .variable, _, t.position, m⟩ n ?_ ?_) (fun _ => ?_) hclean
      · exact htype.symm ▸ hfirst
      · exact htype'.symm ▸ htype.symm ▸ hless
      · exact (hwritten.append hevents).append
          (.complaint (bne_iff_ne.mpr hvoid'))
  | some a =>
      have hdeclared := firstOrder_valueType hann
      refine Walk.Relaxes.after (relaxes_declaring hφ t.id (.stmt t.id)
        ⟨name, .variable, _, t.position, m⟩ n hdeclared .refl)
        (fun _ => ?_) hclean
      refine (hwritten.append hevents).append (.complaint ?_)
      exact Ty.accepts_mono ((clean_complaint rfl).mp hcheck) hdeclared hfirst
        .refl hless

theorem below_assignmentEvents (hρ : LookupBelow ρ' ρ) (node : NodeId)
    (target value : Expr)
    (hclean : Clean (assignmentEvents ρ node target value)) :
    EventsBelow (assignmentEvents ρ' node target value)
      (assignmentEvents ρ node target value) := by
  cases target with
  | identifier t x =>
      simp only [assignmentEvents] at hclean ⊢
      cases hd : ρ x with
      | none =>
          simp only [hd] at hclean
          have hfound := (clean_append.mp hclean).1
          exact (not_clean_found rfl (clean_cons.mpr
            ⟨(clean_cons.mp hfound).1, clean_nil⟩)).elim
      | some d =>
          obtain ⟨d', hd', hbelow⟩ := hρ.exists_of_find hd
          simp only [hd, clean_append, clean_storeEvents] at hclean
          obtain ⟨⟨-, hvalue⟩, htarget, hfits⟩ := hclean
          obtain ⟨hevents, hless⟩ := value.events_below hρ hvalue
          have hstored :
              Clean (storeEvents node t d' x (value.typeIn ρ')
                value.position) := by
            rw [clean_storeEvents, hbelow.same]
            exact ⟨htarget, Ty.accepts_mono hfits hbelow.firstOrder
              (value.firstOrder_typeIn hρ.firstOrder hvalue) hbelow.less hless⟩
          simp only [hd']
          refine (EventsBelow.append ?_ hevents).append ?_
          · exact .append
              (.untyped (by simp [Event.isError]) rfl rfl :
                EventsBelow [.resolved t.id d'] [.resolved t.id d])
              (.recorded hbelow.less)
          · exact .reports hstored (reports_storeEvents _ _ _ _ _ _)
              (reports_storeEvents _ _ _ _ _ _)
  | literal | binary | unary | call =>
      exact (not_clean_found rfl (clean_append.mp hclean).2).elim

theorem below_conditionEvents (hρ : LookupBelow ρ' ρ) (node : NodeId)
    (construct : Construct) (c : Expr)
    (hclean : Clean (conditionEvents ρ node construct c)) :
    EventsBelow (conditionEvents ρ' node construct c)
      (conditionEvents ρ node construct c) := by
  rw [conditionEvents, clean_append, clean_complaint rfl] at hclean
  obtain ⟨hevents, hless⟩ := c.events_below hρ hclean.1
  have hfirst := c.firstOrder_typeIn hρ.firstOrder hclean.1
  refine hevents.append (.complaint ?_)
  rw [Ty.isCondition_iff (hless.firstOrder hfirst)]
  exact ((Ty.isCondition_iff hfirst).mp hclean.2).mono Ty.ground_of_eq_bool hless

/-- The result types of the functions around, if any. -/
def ResultBelow : Option Ty → Option Ty → Prop :=
  Option.Rel fun r' r => r.FirstOrder ∧ r'.LessPrecise r

theorem below_returningEvents (hρ : LookupBelow ρ' ρ)
    {expected' expected : Option Ty} (hret : ResultBelow expected' expected)
    (t : Tag) (value : Option Expr)
    (hclean : Clean (returningEvents ρ t expected value)) :
    EventsBelow (returningEvents ρ' t expected' value)
      (returningEvents ρ t expected value) := by
  rw [returningEvents, clean_append] at hclean
  cases hret with
  | none => exact (not_clean_found rfl hclean.2).elim
  | some hresult =>
      obtain ⟨hfirst, hless⟩ := hresult
      cases value with
      | none =>
          refine EventsBelow.nil.append (.complaint ?_)
          have hbare := (clean_complaint rfl).mp hclean.2
          rw [Bool.or_eq_true, beq_iff_eq] at hbare ⊢
          rw [Ty.isPermissive_iff hfirst.ne_error] at hbare
          rw [Ty.isPermissive_iff (hless.firstOrder hfirst).ne_error]
          rcases hbare with rfl | rfl
          · exact hless.of_ground trivial
          · exact .inr hless.eq_unknown
      | some e =>
          obtain ⟨hevents, hvalue⟩ := e.events_below hρ hclean.1
          refine hevents.append (.complaint ?_)
          exact Ty.accepts_mono ((clean_complaint rfl).mp hclean.2) hfirst
            (e.firstOrder_typeIn hρ.firstOrder hclean.1) hless hvalue

end

end TreeCheck
