/-
No error is silent.

Every symbol answers for its type: if the type leads to an error, the
declaration of the symbol is tainted. Each kind of declaration
establishes this, so it lasts along a course, and with it every
expression that is recorded as an error is to blame
(`Program.no_silent_error`). In particular nothing has the type `error`
where no error is reported.

Identities matter in one place. A parameter answers with the annotations
of a function that has the identity of its own, which is its own
function unless functions share identities (`Tainted.own`).
-/
import TreeCheck.Proofs.Errors.Blame
import TreeCheck.Proofs.Typing.Storable

namespace TreeCheck

open Analysis

-- ================================================================ types

mutual

/-- Whether a type is an error, or a function type with an error in a
parameter or in the result. -/
def Ty.mentionsError : Ty → Bool
  | .error => true
  | .func ps r => Ty.mentionErrors ps || r.mentionsError
  | .int | .float | .bool | .string | .void | .unknown => false
termination_by structural t => t

/-- Whether one of some types mentions an error. -/
def Ty.mentionErrors : List Ty → Bool
  | [] => false
  | t :: ts => t.mentionsError || Ty.mentionErrors ts
termination_by structural ts => ts

end

namespace Ty

theorem Ground.mentionsError {t : Ty} (h : t.Ground) : t.mentionsError = false := by
  cases t with
  | int | float | bool | string | void | unknown => rfl
  | func | error => exact h.elim

theorem mentionErrors_of_ground {ts : List Ty} (h : ∀ t ∈ ts, t.Ground) :
    mentionErrors ts = false := by
  induction ts with
  | nil => rfl
  | cons t ts ih =>
      rw [List.forall_mem_cons] at h
      rw [mentionErrors, h.1.mentionsError, ih h.2, Bool.or_false]

theorem FirstOrder.mentionsError {t : Ty} (h : t.FirstOrder) :
    t.mentionsError = false := by
  cases t with
  | func ps r =>
      rw [Ty.mentionsError, mentionErrors_of_ground h.1, h.2.mentionsError,
        Bool.or_false]
  | int | float | bool | string | void | unknown => rfl
  | error => exact h.elim

end Ty

-- ========================================================== annotations

theorem eq_of_mem_reasonUnless {ok : Bool} {c : Cause} {p : Position}
    {r : Cause × Position} (h : r ∈ reasonUnless ok c p) : r = (c, p) := by
  cases ok with
  | true => cases h
  | false => exact List.mem_singleton.mp h

namespace TypeName

variable {name : String} {ann : TypeName} {r : Cause × Position}

/-- An annotation that gives an error is complained about. -/
theorem complaints_ne_nil (h : ann.type.yieldsError = true) :
    ann.complaints ≠ [] := by
  rw [type] at h
  rw [complaints]
  cases hname : Ty.ofName? ann.name with
  | none => exact List.cons_ne_nil _ _
  | some t =>
      rw [hname, Option.getD_some, (Ty.ground_of_ofName? hname).yieldsError] at h
      cases h

theorem valueComplaints_ne_nil (h : ann.valueType.yieldsError = true) :
    ann.valueComplaints name ≠ [] := by
  rw [valueComplaints, ne_eq, List.append_eq_nil_iff, not_and_or,
    reasonUnless_eq_nil, bne_iff_ne, not_not]
  rw [valueType] at h
  split at h
  case isTrue hvoid => exact .inr hvoid
  case isFalse => exact .inl (complaints_ne_nil h)

theorem severity_of_complaints (hr : r ∈ ann.complaints) :
    r.1.severity = .error := by
  rw [eq_of_mem_reasonUnless hr]
  rfl

theorem severity_of_valueComplaints (hr : r ∈ ann.valueComplaints name) :
    r.1.severity = .error := by
  rcases List.mem_append.mp hr with hr | hr
  · exact severity_of_complaints hr
  · rw [eq_of_mem_reasonUnless hr]
    rfl

end TypeName

-- ============================================================== lasting

/-- Statements have one identity. -/
def Stmt.SameId (s s' : Stmt) : Prop := s.id = s'.id

/-- A signature is that of a function with a given identity, and what is
found about the annotations of the function is said in the course. -/
def Program.Signs (config : Config) (p : Program) (id : NodeId)
    (sig : Signature) : Prop :=
  ∃ t name params result q body,
    .function t name params result q body ∈ p.stmts
      ∧ t.id = id ∧ sig = Signature.of params result body
      ∧ ∀ e ∈ signatureEvents t.id params result, e ∈ (p.course config).events

section

variable {config : Config} {p : Program} {a : Analysis}
  {lends : Stmt → Stmt → Prop}

/-- An error in the annotation of a variable or parameter is reported, if what
is found about the annotation is said in the course. -/
theorem Program.exists_valueComplaint {ann : TypeName} {node : NodeId}
    {name : String} (h : p.analyze config = .ok a)
    (hyields : ann.valueType.yieldsError = true)
    (hevents : ∀ ev ∈ ann.valueEvents node name, ev ∈ (p.course config).events) :
    ∃ r ∈ ann.valueComplaints name, a.Complains r := by
  obtain ⟨r, hr⟩ := List.exists_mem_of_ne_nil _
    (TypeName.valueComplaints_ne_nil hyields)
  have hreason : r ∈ reasons (ann.valueEvents node name) := by
    rwa [TypeName.reasons_valueEvents]
  exact ⟨r, hr, complains_of_reason h hreason hevents
    (TypeName.severity_of_valueComplaints hr)⟩

/-- A variable answers for its type, if the names in its initializer do. -/
theorem Program.answers_variable {ρ : Lookup} {expected : Option Ty} {t : Tag}
    {name : String} {ann : Option TypeName} {init : Option Expr} {m : Bool}
    {n : SymbolId} (h : p.analyze config = .ok a)
    (hv : ⟨.declaration t name ann init m, ρ, expected⟩ ∈ p.visits config)
    (hρ : Finds (Declared.Answers p a lends) ρ)
    (horigin : p.origins[n]? = some (.stmt (.declaration t name ann init m))) :
    (Declared.ofVariable ρ t name ann init m n).Answers p a lends := by
  intro hyields
  refine ⟨_, horigin, ?_⟩
  have hverdict {ev : Event} (hev : ev ∈ Visit.verdict
      ⟨.declaration t name ann init m, ρ, expected⟩) :
      ev ∈ (p.course config).events :=
    mem_course_of_visit hv (List.mem_append_right _ hev)
  cases ann with
  | some ann =>
      obtain ⟨r, hr, hcomplains⟩ := exists_valueComplaint h hyields
        fun ev hev => hverdict (List.mem_append_left _ hev)
      exact .annotated hr hcomplains
  | none =>
      cases init with
      | none => cases hyields
      | some init =>
          have hn : (ρ, init) ∈ p.nodes config := node_of_root hv List.mem_cons_self
          by_cases hvoid : init.typeIn ρ = .void
          · have hreason : (.voidInitializer name, init.position)
                ∈ reasons (complaint (init.typeIn ρ != .void) t.id
                  (.voidInitializer name) init.position) := by
              rw [reasons_complaint, hvoid]
              exact List.mem_cons_self
            refine .void (by rw [types_of_node h hn, hvoid]) ?_
            refine complains_of_reason h hreason (fun ev hev => ?_) rfl
            exact hverdict (List.mem_append_right _ hev)
          · have htype : variableTypeOf none (some (init.typeIn ρ))
                = init.typeIn ρ := if_neg hvoid
            refine .initializer (Expr.blamed_of_yieldsError h hρ init hn ?_)
            rwa [← htype]

/-- A function answers for its result. -/
theorem Program.answers_function {t : Tag} {name : String} {params : List Param}
    {result : Option TypeName} {q : Position} {body : List Stmt} {n : SymbolId}
    (h : p.analyze config = .ok a)
    (hevents : ∀ e ∈ signatureEvents t.id params result,
      e ∈ (p.course config).events)
    (horigin : p.origins[n]?
      = some (.stmt (.function t name params result q body))) :
    (Declared.ofFunction t name (Signature.of params result body) n).Answers p a
      lends := by
  intro hyields
  refine ⟨_, horigin, ?_⟩
  cases result with
  | none =>
      have hret : Ty.yieldsError
          (if Stmt.anyReturnsValue body then .unknown else .void) = true := hyields
      split at hret <;> cases hret
  | some ann =>
      have hret : ann.type.yieldsError = true := hyields
      obtain ⟨r, hr⟩ := List.exists_mem_of_ne_nil _ (TypeName.complaints_ne_nil hret)
      have hreason : r ∈ reasons (ann.events t.id) := by
        rwa [TypeName.reasons_events]
      refine .result hr (complains_of_reason h hreason (fun ev hev => ?_)
        (TypeName.severity_of_complaints hr))
      exact hevents ev (List.mem_append_right _ hev)

/-- A parameter answers with a function that has the identity of its own. -/
theorem Program.answers_parameter {t : Tag} {name : String} {params : List Param}
    {result : Option TypeName} {q : Position} {body : List Stmt} {i : Nat}
    {param : Param} {type : Ty} {sig : Signature} {n : SymbolId}
    (h : p.analyze config = .ok a) (hsigns : p.Signs config t.id sig)
    (htype : sig.params[i]? = some type)
    (horigin : p.origins[n]?
      = some (.param (.function t name params result q body) i)) :
    (Declared.ofParameter t.id i param type n).Answers p a Stmt.SameId := by
  intro hyields
  refine ⟨_, horigin, ?_⟩
  obtain ⟨t', name', params', result', q', body', hstmt, hid, rfl, hevents⟩ := hsigns
  rw [Signature.of, List.getElem?_map, Option.map_eq_some_iff] at htype
  obtain ⟨param', hparam, rfl⟩ := htype
  have hvalue : param'.type.yieldsError = true := hyields
  unfold Param.type at hvalue
  cases hann : param'.typeName with
  | none =>
      rw [hann] at hvalue
      cases hvalue
  | some ann =>
      rw [hann] at hvalue
      have hsaid : ∀ ev ∈ ann.valueEvents t'.id param'.name,
          ev ∈ (p.course config).events := by
        intro ev hev
        refine hevents ev (List.mem_append_left _ ?_)
        refine List.mem_flatMap.mpr ⟨param', List.mem_of_getElem? hparam, ?_⟩
        rwa [Param.events, hann]
      obtain ⟨r, hr, hcomplains⟩ := exists_valueComplaint h hvalue hsaid
      exact .parameter hstmt hid.symm hparam hann hr hcomplains

/-- All symbols answer for their types. -/
theorem Program.lasting_answers (h : p.analyze config = .ok a) :
    p.Lasting config (Declared.Answers p a Stmt.SameId) (p.Signs config) where
  ofVariable hv hρ horigin := answers_variable h hv hρ horigin
  ofSignature hstmt hevents := ⟨_, _, _, _, _, _, hstmt, rfl, rfl, hevents⟩
  ofFunction _ hevents horigin := answers_function h hevents horigin
  ofParameter _ hsigns _ htype horigin :=
    answers_parameter h hsigns htype horigin

-- ================================================== distinct identities

mutual

/-- Where identities are distinct, a parameter answers with its own
annotation. -/
theorem Tainted.own {o : Origin} (hids : p.ids.Nodup) (ho : o.source ∈ p.stmts) :
    Tainted p a Stmt.SameId o → Tainted p a Eq o
  | .annotated hr h => .annotated hr h
  | .void hvoid h => .void hvoid h
  | .initializer h => .initializer (h.own hids)
  | .result hr h => .result hr h
  | .parameter hs hlends hparam hann hr h =>
      .parameter hs (Program.stmt_eq_of_id hids ho hs hlends) hparam hann hr h

theorem Blamed.own {e : Expr} (hids : p.ids.Nodup) :
    Blamed p a Stmt.SameId e → Blamed p a Eq e
  | .here hinner hr h => .here hinner hr h
  | .through hname hk ho h =>
      .through hname hk ho (h.own hids (Program.source_of_origin ho))

end

-- ============================================================ the result

/-- No error is silent. In a completed analysis without errors no type in the
table mentions an error; and in every completed analysis an expression
that is recorded as an error is to blame. Where identities are distinct,
a parameter answers with no annotation but its own. -/
theorem Program.no_silent_error (h : p.analyze config = .ok a) :
    ((∀ d ∈ a.diagnostics, d.severity ≠ .error) →
        ∀ (id : NodeId) (ty : Ty), a.types[id]? = some ty →
          ty.mentionsError = false)
      ∧ ∀ e ∈ p.exprs, a.types[e.id]? = some .error →
          Blamed p a Stmt.SameId e ∧ (p.ids.Nodup → Blamed p a Eq e) := by
  constructor
  · intro herrors id ty hty
    obtain ⟨ρ, e, hn, -, rfl⟩ := exists_node_of_type h hty
    exact (firstOrder_of_node (clean_course h herrors) hn).mentionsError
  · intro e he herror
    obtain ⟨ρ, hn⟩ := exists_node config he
    rw [types_of_node h hn, Option.some.injEq] at herror
    have hyields : (e.typeIn ρ).yieldsError = true := by
      rw [herror, Ty.yieldsError]
    have hblamed :=
      e.blamed_of_yieldsError h (finds_of_node (lasting_answers h) hn) hn hyields
    exact ⟨hblamed, fun hids => hblamed.own hids⟩

end

-- ============================================================ an example

/-- A function that uses its parameter, an integer. -/
def Stmt.usingParameter : Stmt :=
  .function ⟨0, ⟨1, 1⟩⟩ "f" [⟨"x", some ⟨"int", ⟨1, 11⟩⟩, ⟨1, 8⟩⟩] none ⟨1, 16⟩
    [.expr ⟨1, ⟨2, 3⟩⟩ (.identifier ⟨2, ⟨2, 3⟩⟩ "x")]

/-- A function of the same identity, whose parameter would be `void`. -/
def Stmt.takingVoid : Stmt :=
  .function ⟨0, ⟨4, 1⟩⟩ "g" [⟨"y", some ⟨"void", ⟨4, 11⟩⟩, ⟨4, 8⟩⟩] none ⟨4, 17⟩ []

def Program.usingParameter : Program := ⟨[.usingParameter], .start⟩

def Program.sharedIdentity : Program := ⟨[.usingParameter, .takingVoid], .start⟩

theorem Program.clean_usingParameter :
    ∃ a, usingParameter.analyze {} = .ok a
      ∧ ∀ d ∈ a.diagnostics, d.severity ≠ .error := by
  have hrun : (usingParameter.analyze {}).toOption.map (·.findings) = some [] := by
    decide +kernel
  obtain ⟨a, ha, hfindings⟩ := analyze_ok_of_results hrun
  refine ⟨a, ha, ?_⟩
  intro d hd
  rw [Analysis.diagnostics, hfindings] at hd
  cases hd

/-- The second function is declared last, so the first is checked with its
signature, and the parameter of the first is an error. -/
theorem Program.types_sharedIdentity :
    ∃ a, sharedIdentity.analyze {} = .ok a ∧ a.types[2]? = some .error
      ∧ a.resolutions[2]? = some 2 := by
  have hrun : (sharedIdentity.analyze {}).toOption.map
      (fun a => (a.types[2]?, a.resolutions[2]?)) = some (some .error, some 2) := by
    decide +kernel
  obtain ⟨a, ha, hresults⟩ := analyze_ok_of_results hrun
  exact ⟨a, ha, Prod.mk.inj hresults⟩

theorem Program.mem_exprs_sharedIdentity :
    .identifier ⟨2, ⟨2, 3⟩⟩ "x" ∈ sharedIdentity.exprs := List.mem_cons_self

/-- No type mentions an error where none is reported, and the parameter is to
blame on the annotation of the other function. -/
theorem Program.no_silent_error_sharedIdentity :
    (∃ a, usingParameter.analyze {} = .ok a
        ∧ (∀ d ∈ a.diagnostics, d.severity ≠ .error)
        ∧ ∀ (id : NodeId) (ty : Ty), a.types[id]? = some ty →
            ty.mentionsError = false)
      ∧ ∃ a, sharedIdentity.analyze {} = .ok a ∧ a.types[2]? = some .error
        ∧ Blamed sharedIdentity a Stmt.SameId (.identifier ⟨2, ⟨2, 3⟩⟩ "x") := by
  constructor
  · obtain ⟨a, ha, herrors⟩ := clean_usingParameter
    exact ⟨a, ha, herrors, (no_silent_error ha).1 herrors⟩
  · obtain ⟨a, ha, herror, -⟩ := types_sharedIdentity
    exact ⟨a, ha, herror,
      ((no_silent_error ha).2 _ mem_exprs_sharedIdentity herror).1⟩

/-- A parameter can be an error on account of an annotation that is not its
own. -/
theorem Program.sharedIdentity_not_blamed :
    ¬ ∀ (config : Config) (p : Program) (a : Analysis),
      p.analyze config = .ok a → ∀ e ∈ p.exprs,
        a.types[e.id]? = some .error → Blamed p a Eq e := by
  intro h
  obtain ⟨a, ha, herror, hresolution⟩ := types_sharedIdentity
  cases h {} sharedIdentity a ha _ mem_exprs_sharedIdentity herror with
  | here hinner hr _ =>
      rw [List.mem_singleton.mp hinner, Expr.complaints, hresolution] at hr
      cases hr
  | through hname hk ho htainted =>
      obtain ⟨rfl, rfl⟩ := Expr.identifier.inj (List.mem_singleton.mp hname)
      obtain rfl := Option.some.inj (hresolution.symm.trans hk)
      have horigin : sharedIdentity.origins[2]?
          = some (.param .usingParameter 0) := rfl
      obtain rfl := Option.some.inj (horigin.symm.trans ho)
      cases htainted with
      | parameter _ hlends hparam hann hr _ =>
          injection hlends with _ _ hparams
          subst hparams
          obtain rfl := Option.some.inj hparam
          obtain rfl := Option.some.inj hann
          cases hr

end TreeCheck
