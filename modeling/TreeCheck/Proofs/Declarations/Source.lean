/-
What the statements of a program say about declarations.

A function says what it is, where it is declared: what is wrong with its
annotations, and its name with the type of its own annotations. Where it
is reached it says what its parameters are. A variable says what is
wrong with its annotation. This is read off each statement by itself;
neither the names in force nor the numbers of symbols matter, so numbers
are left at zero.
-/
import TreeCheck.Proofs.Functions.Source
import TreeCheck.Proofs.Run.Diagnostics
import TreeCheck.Proofs.Visits.Remarks

namespace TreeCheck

open Analysis

-- ========================================================= declarations

/-- The parameters that a function declares, each with its place. -/
def FunctionDef.parameters (f : FunctionDef) : List (Site × Binding) :=
  f.params.zipIdx.map fun q =>
    (.param f.tag.id q.2, ⟨q.1.name, .parameter, q.1.type, q.1.position, true⟩)

/-- What a function declares: itself and its parameters. -/
def FunctionDef.declarations (f : FunctionDef) : List (Site × Binding) :=
  (.stmt f.tag.id, f.binding) :: f.parameters

/-- That something is bound, under whatever number. -/
def Event.unnumbered (d : Site × Binding) : Event := .bound ⟨⟨d.2, 0⟩, d.1⟩

/-- What a statement says where it is declared. -/
def Stmt.heading : Stmt → List Event
  | .function t name params result q body =>
    signatureEvents t.id params result ++ [.unnumbered
      (.stmt t.id, FunctionDef.binding ⟨t, name, params, result, q, body⟩)]
  | _ => []

/-- What a statement says about declarations where it is reached. -/
def Stmt.placing : Stmt → List Event
  | .function t name params result q body =>
    (FunctionDef.parameters ⟨t, name, params, result, q, body⟩).map .unnumbered
  | .declaration t name ann _ _ => ann.elim [] (·.valueEvents t.id name)
  | _ => []

/-- What a statement says about declarations. -/
def Stmt.saying (s : Stmt) : List Event := s.heading ++ s.placing

-- ========================================================== annotations

/-- The annotations of the variable and the parameters that a statement
declares, each with the name of what it annotates. -/
def Stmt.valueAnnotations : Stmt → List (String × TypeName)
  | .declaration _ name ann _ _ => ann.toList.map (name, ·)
  | .function _ _ params _ _ _ =>
    params.flatMap fun q => q.typeName.toList.map (q.name, ·)
  | _ => []

/-- The result annotation of the function that a statement declares. -/
def Stmt.resultAnnotations : Stmt → List TypeName
  | .function _ _ _ result _ _ => result.toList
  | _ => []

/-- The annotations of the variables and parameters of a program. -/
def Program.valueAnnotations (p : Program) : List (String × TypeName) :=
  p.stmts.flatMap Stmt.valueAnnotations

/-- All annotations of a program. -/
def Program.annotations (p : Program) : List TypeName :=
  p.stmts.flatMap fun s => s.valueAnnotations.map Prod.snd ++ s.resultAnnotations

/-- The names of the built-in types. -/
def Ty.builtinNames : List String := ["int", "float", "bool", "string", "void"]

/-- What is found about an annotation with a name that no type has. -/
def TypeName.unknownFinding (ann : TypeName) : Finding :=
  ⟨.unknownType ann.name, ann.position, none⟩

/-- How an annotation with a name that no type has is shown. -/
def TypeName.unknownDiagnostic (ann : TypeName) : Diagnostic :=
  ⟨.error, .unknownType, s!"unknown type '{ann.name}'", ann.position, none⟩

/-- What is found about a variable or parameter that is to be void. -/
def voidFinding (v : String × TypeName) : Finding :=
  ⟨.voidVariable v.1, v.2.position, none⟩

/-- How a variable or parameter that is to be void is shown. -/
def voidDiagnostic (v : String × TypeName) : Diagnostic :=
  ⟨.error, .typeMismatch, s!"'{v.1}' cannot have type 'void'", v.2.position, none⟩

-- ===================================================== what is collected

/-- Whether a cause is about an annotation alone. -/
def Cause.ofAnnotation : Cause → Bool
  | .unknownType _ | .voidVariable _ => true
  | _ => false

/-- Whether a cause is that no type has the name of an annotation. -/
def Cause.isUnknownType (c : Cause) : Bool := c.kind = .unknownType

/-- Whether a cause is that a variable or parameter is to be void. -/
def Cause.isVoid : Cause → Bool
  | .voidVariable _ => true
  | _ => false

/-- Of the mismatches of types, those about void annotations begin with the
name. -/
theorem Finding.isMismatch_void (f : Finding) :
    f.diagnostic.isMismatch ['\''] = f.cause.isVoid := by
  rw [f.isMismatch_diagnostic]
  cases f.cause with
  | badCondition construct => cases construct <;> rfl
  | _ => rfl

/-- What of an event is about declarations: findings about annotations, and
that a function or parameter is bound. Of a variable the annotation is
all that its declaration settles by itself. -/
def Event.declarative? : Event → Option Event
  | .bound d =>
    if d.kind = .variable then none else some (.unnumbered (d.site, d.toBinding))
  | .found node f => if f.cause.ofAnnotation then some (.found node f) else none
  | _ => none

/-- What events say about declarations. -/
def said (es : List Event) : List Event := es.filterMap Event.declarative?

/-- The function or parameter that an event binds. -/
def Event.declaration? : Event → Option (Site × Binding)
  | .bound d => if d.kind = .variable then none else some (d.site, d.toBinding)
  | _ => none

/-- The finding of a certain kind that an event reports. -/
def Event.report? (of : Cause → Bool) (e : Event) : Option Finding :=
  e.finding?.filter (of ·.cause)

section

variable {β : Type} {g : Event → Option β} {es fs : List Event}

@[simp] theorem said_append : said (es ++ fs) = said es ++ said fs :=
  List.filterMap_append

/-- Collecting from what is said is collecting from all events, if no more
is collected than what is said. -/
theorem filterMap_said (hg : ∀ e, e.declarative?.bind g = g e) (es : List Event) :
    (said es).filterMap g = es.filterMap g := by
  rw [said, List.filterMap_filterMap]
  exact List.filterMap_congr fun e _ => hg e

theorem declarative?_bind_declaration? (e : Event) :
    e.declarative?.bind Event.declaration? = e.declaration? := by
  cases e with
  | bound d =>
      simp only [Event.declarative?, Event.declaration?]
      split
      case isTrue => rfl
      case isFalse hkind => exact if_neg hkind
  | found node f =>
      simp only [Event.declarative?, Event.declaration?]
      split <;> rfl
  | typed | resolved | read => rfl

theorem declarative?_bind_report? {of : Cause → Bool}
    (hof : ∀ c, of c = true → c.ofAnnotation = true) (e : Event) :
    e.declarative?.bind (Event.report? of) = e.report? of := by
  cases e with
  | bound d =>
      simp only [Event.declarative?]
      split <;> rfl
  | found node f =>
      simp only [Event.declarative?]
      split
      case isTrue => rfl
      case isFalse hnot =>
        show none = Option.filter _ (some f)
        rw [Option.filter_some, if_neg fun h => hnot (hof _ h)]
  | typed | resolved | read => rfl

-- =========================================================== built-in types

theorem Ty.isSome_ofName? (name : String) :
    (Ty.ofName? name).isSome = decide (name ∈ Ty.builtinNames) := by
  have hnames : Ty.builtinNames
      = [Ty.int, .float, .bool, .string, .void].map Ty.display := rfl
  rw [Bool.eq_iff_iff, Ty.ofName?, List.find?_isSome, decide_eq_true_eq, hnames,
    List.mem_map]
  simp only [beq_iff_eq]

theorem TypeName.type_eq_void {ann : TypeName} :
    ann.type = .void ↔ ann.name = "void" := by
  constructor
  · intro h
    rw [TypeName.type] at h
    cases hname : Ty.ofName? ann.name with
    | none =>
        rw [hname] at h
        cases h
    | some ty =>
        rw [hname, Option.getD_some] at h
        rw [Ty.ofName?, h] at hname
        have hdisplay := List.find?_some hname
        exact (eq_of_beq hdisplay).symm
  · intro h
    rw [TypeName.type, h]
    rfl

-- ============================================================= annotations

/-- An annotation is found to be unknown if no built-in type has its name. -/
theorem TypeName.unknown_events (node : NodeId) (ann : TypeName) :
    (ann.events node).filterMap (Event.report? Cause.isUnknownType)
      = ([ann].filter (·.name ∉ Ty.builtinNames)).map unknownFinding := by
  rw [TypeName.events, Ty.isSome_ofName?]
  by_cases hname : ann.name ∈ Ty.builtinNames
  · rw [decide_eq_true hname, List.filter_cons_of_neg (by simpa using hname)]
    rfl
  · rw [decide_eq_false hname, List.filter_cons_of_pos (by simpa using hname)]
    rfl

theorem TypeName.unknown_valueEvents (node : NodeId) (name : String) (ann : TypeName) :
    (ann.valueEvents node name).filterMap (Event.report? Cause.isUnknownType)
      = ([ann].filter (·.name ∉ Ty.builtinNames)).map unknownFinding := by
  have hvoid (ok : Bool) : (complaint ok node (.voidVariable name) ann.position).filterMap
      (Event.report? Cause.isUnknownType) = [] := by
    cases ok <;> rfl
  rw [TypeName.valueEvents, List.filterMap_append, unknown_events, hvoid,
    List.append_nil]

theorem TypeName.void_events (node : NodeId) (ann : TypeName) :
    (ann.events node).filterMap (Event.report? Cause.isVoid) = [] := by
  rw [TypeName.events]
  cases (Ty.ofName? ann.name).isSome <;> rfl

/-- The annotation of a variable or parameter is found to be void if it
is. -/
theorem TypeName.void_valueEvents (node : NodeId) (name : String) (ann : TypeName) :
    (ann.valueEvents node name).filterMap (Event.report? Cause.isVoid)
      = ([(name, ann)].filter (·.2.name = "void")).map voidFinding := by
  rw [TypeName.valueEvents, List.filterMap_append, void_events, List.nil_append]
  by_cases hname : ann.name = "void"
  · have htype : (ann.type != .void) = false := by
      simpa using TypeName.type_eq_void.mpr hname
    rw [htype, List.filter_cons_of_pos (by simpa using hname)]
    rfl
  · have htype : (ann.type != .void) = true := by
      simpa using fun h => hname (TypeName.type_eq_void.mp h)
    rw [htype, List.filter_cons_of_neg (by simpa using hname)]
    rfl

-- ========================================================== statements

theorem report?_unnumbered (of : Cause → Bool) (ds : List (Site × Binding)) :
    (ds.map Event.unnumbered).filterMap (Event.report? of) = [] := by
  rw [List.filterMap_map]
  exact List.filterMap_eq_nil_iff.mpr fun _ _ => rfl

/-- What is collected from a function that only reports is collected from
its annotations. -/
theorem report?_function (of : Cause → Bool) (f : FunctionDef) :
    f.stmt.saying.filterMap (Event.report? of)
      = f.params.flatMap (fun q => (q.events f.tag.id).filterMap (Event.report? of))
        ++ (f.result.elim [] (·.events f.tag.id)).filterMap (Event.report? of) := by
  have hbound : ([Event.unnumbered (.stmt f.tag.id, f.binding)]).filterMap
      (Event.report? of) = [] := report?_unnumbered of [_]
  rw [FunctionDef.stmt, Stmt.saying, Stmt.heading, Stmt.placing, List.filterMap_append,
    List.filterMap_append, report?_unnumbered, hbound, List.append_nil, List.append_nil,
    signatureEvents, List.filterMap_append, List.filterMap_flatMap]

theorem Param.unknown_events (node : NodeId) (q : Param) :
    (q.events node).filterMap (Event.report? Cause.isUnknownType)
      = (q.typeName.toList.filter (·.name ∉ Ty.builtinNames)).map
          TypeName.unknownFinding := by
  rw [Param.events]
  cases q.typeName with
  | none => rfl
  | some ann => exact ann.unknown_valueEvents node q.name

theorem Param.void_events (node : NodeId) (q : Param) :
    (q.events node).filterMap (Event.report? Cause.isVoid)
      = ((q.typeName.toList.map (q.name, ·)).filter (·.2.name = "void")).map
          voidFinding := by
  rw [Param.events]
  cases q.typeName with
  | none => rfl
  | some ann => exact ann.void_valueEvents node q.name

/-- What a statement says names each of its unknown annotations once. -/
theorem Stmt.unknown_saying (s : Stmt) :
    s.saying.filterMap (Event.report? Cause.isUnknownType)
      = ((s.valueAnnotations.map Prod.snd ++ s.resultAnnotations).filter
          (·.name ∉ Ty.builtinNames)).map TypeName.unknownFinding := by
  cases s with
  | function t name params result q body =>
      have hresult : (result.elim [] (·.events t.id)).filterMap
            (Event.report? Cause.isUnknownType)
          = (result.toList.filter (·.name ∉ Ty.builtinNames)).map
              TypeName.unknownFinding := by
        cases result with
        | none => rfl
        | some ann => exact ann.unknown_events t.id
      have hfunction :=
        report?_function Cause.isUnknownType ⟨t, name, params, result, q, body⟩
      simp only [Param.unknown_events, hresult] at hfunction
      rw [valueAnnotations, resultAnnotations, List.filter_append, List.map_append,
        List.map_flatMap, List.filter_flatMap, List.map_flatMap]
      simp only [List.map_map, Function.comp_def, List.map_id']
      exact hfunction
  | declaration t name ann init m =>
      cases ann with
      | none => rfl
      | some ann => exact ann.unknown_valueEvents t.id name
  | assignment | block | ifElse | «while» | ret | expr => rfl

/-- What a statement says names each void annotation of a variable or
parameter once. -/
theorem Stmt.void_saying (s : Stmt) :
    s.saying.filterMap (Event.report? Cause.isVoid)
      = (s.valueAnnotations.filter (·.2.name = "void")).map voidFinding := by
  cases s with
  | function t name params result q body =>
      have hresult : (result.elim [] (·.events t.id)).filterMap
          (Event.report? Cause.isVoid) = [] := by
        cases result with
        | none => rfl
        | some ann => exact ann.void_events t.id
      have hfunction := report?_function Cause.isVoid ⟨t, name, params, result, q, body⟩
      simp only [Param.void_events, hresult, List.append_nil] at hfunction
      rw [valueAnnotations, List.filter_flatMap, List.map_flatMap]
      exact hfunction
  | declaration t name ann init m =>
      cases ann with
      | none => rfl
      | some ann => exact ann.void_valueEvents t.id name
  | assignment | block | ifElse | «while» | ret | expr => rfl

theorem declaration?_unnumbered {ds : List (Site × Binding)}
    (h : ∀ d ∈ ds, d.2.kind ≠ .variable) :
    (ds.map Event.unnumbered).filterMap Event.declaration? = ds := by
  rw [List.filterMap_map]
  refine (List.filterMap_congr fun d hd => ?_).trans List.filterMap_some
  exact if_neg (h d hd)

/-- A function declares itself and its parameters, and no variable. -/
theorem FunctionDef.kind_ne_variable {f : FunctionDef} {d : Site × Binding}
    (hd : d ∈ f.declarations) : d.2.kind ≠ .variable := by
  rcases List.mem_cons.mp hd with rfl | hd
  · exact nofun
  · obtain ⟨q, -, rfl⟩ := List.mem_map.mp hd
    exact nofun

/-- Of declarations, a statement says those of the function that it is. -/
theorem Stmt.declarations_saying (s : Stmt) :
    s.saying.filterMap Event.declaration?
      = s.function?.toList.flatMap FunctionDef.declarations := by
  cases s with
  | function t name params result q body =>
      have hreports : (signatureEvents t.id params result).filterMap
          Event.declaration? = [] := by
        refine List.filterMap_eq_nil_iff.mpr fun e he => ?_
        obtain ⟨node, f, rfl⟩ := reports_signatureEvents t.id params result e he
        rfl
      have hall := declaration?_unnumbered (fun d hd =>
        FunctionDef.kind_ne_variable (f := ⟨t, name, params, result, q, body⟩) hd)
      rw [saying, heading, placing, List.append_assoc, List.filterMap_append, hreports,
        function?, Option.toList_some, List.flatMap_singleton]
      exact hall
  | declaration t name ann init m =>
      cases ann with
      | none => rfl
      | some ann =>
          refine List.filterMap_eq_nil_iff.mpr fun e he => ?_
          obtain ⟨node, f, rfl⟩ := reports_valueEvents t.id name ann e he
          rfl
  | assignment | block | ifElse | «while» | ret | expr => rfl

end

end TreeCheck
