/-
Where a value of type `void` can go.

In a program without errors it is never an initializer. It can be
assigned or passed, since nothing is checked where a type is not known:
then the target, the parameter or the callee is `unknown`. Known types
take no `void`, as no symbol has it for a type and no function for a
parameter.
-/
import TreeCheck.Proofs.Typing.Statements
import TreeCheck.Proofs.Typing.Storable

namespace TreeCheck

open Analysis

/-- Of the types of symbols, only the one that is not known takes `void`. -/
theorem Ty.Storable.eq_unknown {t : Ty} (h : t.Storable)
    (haccepts : t.accepts .void = true) : t = .unknown := by
  have hvoid : Ty.void.FirstOrder := trivial
  rw [Ty.accepts_iff h.firstOrder hvoid] at haccepts
  cases haccepts with
  | refl => exact (h.ne_void rfl).elim
  | unknownTarget => rfl

section

variable {config : Config} {p : Program} {a : Analysis}

/-- An initializer has a type other than `void`. -/
theorem Program.typeIn_initializer_ne_void {t : Tag} {name : String}
    {ann : Option TypeName} {init : Expr} {m : Bool} {ρ : Lookup}
    {expected : Option Ty} (hclean : Clean (p.course config).events)
    (hv : ⟨.declaration t name ann (some init) m, ρ, expected⟩
      ∈ p.visits config) : init.typeIn ρ ≠ .void := by
  have hverdict : Clean (Visit.verdict
      ⟨.declaration t name ann (some init) m, ρ, expected⟩) :=
    hclean.mono fun e he => mem_course_of_visit hv (List.mem_append_right _ he)
  obtain ⟨hann, hinit⟩ := clean_append.mp hverdict
  intro hvoid
  cases ann with
  | none => exact bne_iff_ne.mp ((clean_complaint rfl).mp hinit) hvoid
  | some ann =>
      have hstorable := TypeName.storable_valueType hann
      have haccepts : ann.valueType.accepts (init.typeIn ρ) = true :=
        (clean_complaint rfl).mp hinit
      rw [hvoid] at haccepts
      -- An annotation names a type, so it is known.
      have hunknown := hstorable.eq_unknown haccepts
      have hnamed := (TypeName.valueType?_eq_some t.id).mpr ⟨hann, hunknown⟩
      have hbuiltin :=
        List.mem_of_find?_eq_some (Option.filter_eq_some_iff.mp hnamed).1
      simp at hbuiltin

/-- What `void` is assigned to has a type that is not known. -/
theorem Program.typeIn_target_eq_unknown {t : Tag} {target value : Expr}
    {ρ : Lookup} {expected : Option Ty}
    (hclean : Clean (p.course config).events)
    (hv : ⟨.assignment t target value, ρ, expected⟩ ∈ p.visits config)
    (hvoid : value.typeIn ρ = .void) : target.typeIn ρ = .unknown := by
  have hremarks : Clean (Visit.remarks ⟨.assignment t target value, ρ,
      expected⟩) :=
    hclean.mono fun e he => mem_course_of_visit hv he
  obtain ⟨hexprs, hverdict⟩ := clean_append.mp hremarks
  have hnode : (ρ, target) ∈ p.nodes config := node_of_root hv List.mem_cons_self
  cases target with
  | identifier target x =>
      have hname : Clean (Expr.remarks ρ (.identifier target x)) :=
        hclean.mono fun e he => mem_course_of_node hnode he
      have hverdict : Clean ((ρ x).elim [] fun d =>
          storeEvents t.id target d x (value.typeIn ρ) value.position) := hverdict
      cases hx : ρ x with
      | none =>
          rw [Expr.remarks, clean_append] at hname
          simp only [Expr.verdict, hx] at hname
          exact (not_clean_found rfl hname.1).elim
      | some d =>
          rw [hx, Option.elim_some, clean_storeEvents, hvoid] at hverdict
          rw [Expr.typeIn, hx]
          exact (finds_storable hclean hnode x d hx).eq_unknown hverdict.2
  | literal | binary | unary | call => exact (not_clean_found rfl hverdict).elim

/-- What takes `void` for an argument is not known, or takes a parameter
there that is not known. -/
theorem Program.typeIn_callee_of_void {t : Tag} {f arg : Expr} {args : List Expr}
    {i : Nat} {ρ : Lookup} (hclean : Clean (p.course config).events)
    (hn : (ρ, .call t f args) ∈ p.nodes config) (harg : args[i]? = some arg)
    (hvoid : arg.typeIn ρ = .void) :
    f.typeIn ρ = .unknown
      ∨ ∃ ps r, f.typeIn ρ = .func ps r ∧ ps[i]? = some .unknown := by
  have hcallee : (ρ, f) ∈ p.nodes config :=
    node_of_part hn List.mem_cons_self
  have hfirst := firstOrder_of_node hclean hcallee
  have hcall : Clean (Expr.callEvents ρ t f args (f.typeIn ρ)) :=
    hclean.mono fun e he =>
      mem_course_of_node hn (List.mem_append_left _ he)
  rw [clean_callEvents hfirst.ne_error] at hcall
  cases hf : f.typeIn ρ with
  | unknown => exact .inl rfl
  | func ps r =>
      refine .inr ⟨ps, r, rfl, ?_⟩
      rw [hf] at hcall hfirst
      have hargs : List.Forall₂ (fun q b => q.accepts b = true) ps
          (args.map (·.typeIn ρ)) := hcall
      have hlength := hargs.length_eq
      have hi : i < args.length := (List.getElem?_eq_some_iff.mp harg).1
      have hps : i < ps.length := by
        rw [hlength, List.length_map]
        exact hi
      have haccepts := List.Forall₂.get hargs hps (by rwa [List.length_map])
      have hget : (args.map (·.typeIn ρ)).get ⟨i, by rwa [List.length_map]⟩
          = .void := by
        rw [List.get_eq_getElem, List.getElem_map,
          (List.getElem?_eq_some_iff.mp harg).2, hvoid]
      rw [hget] at haccepts
      have hmem : ps.get ⟨i, hps⟩ ∈ ps := List.get_mem _ _
      have hstorable : (ps.get ⟨i, hps⟩).Storable :=
        (hfirst.1 _ hmem).storable fun hparam =>
          takes_of_node hclean hcallee hf (hparam ▸ hmem)
      rw [List.getElem?_eq_getElem hps]
      exact congrArg some (hstorable.eq_unknown haccepts)
  | int | float | bool | string | void | error =>
      rw [hf] at hcall
      exact hcall.elim

/-- Variables and parameters of a known type hold no `void`. In a completed
analysis without errors no expression of type `void` is an initializer;
what such an expression is assigned to has the type `unknown`; and where
one is an argument, the callee has the type `unknown`, or is a function
whose parameter in that place has. -/
theorem Program.void_not_held (h : p.analyze config = .ok a)
    (herrors : ∀ d ∈ a.diagnostics, d.severity ≠ .error) :
    (∀ t name ann init m, .declaration t name ann (some init) m ∈ p.stmts →
        a.types[init.id]? ≠ some .void)
      ∧ (∀ t target value, .assignment t target value ∈ p.stmts →
          a.types[value.id]? = some .void →
          a.types[target.id]? = some .unknown)
      ∧ ∀ t f args, .call t f args ∈ p.exprs →
          ∀ (i : Nat) (arg : Expr), args[i]? = some arg →
          a.types[arg.id]? = some .void →
          a.types[f.id]? = some .unknown
            ∨ ∃ ps r, a.types[f.id]? = some (.func ps r)
                ∧ ps[i]? = some .unknown := by
  have hclean := clean_course h herrors
  refine ⟨?initializer, ?assigned, ?argument⟩
  case initializer =>
    intro t name ann init m hs hvoid
    obtain ⟨⟨_, ρ, expected⟩, hv, rfl⟩ := exists_visit config hs
    have hinit : (ρ, init) ∈ p.nodes config := node_of_root hv List.mem_cons_self
    rw [types_of_node h hinit, Option.some.injEq] at hvoid
    exact typeIn_initializer_ne_void hclean hv hvoid
  case assigned =>
    intro t target value hs hvoid
    obtain ⟨⟨_, ρ, expected⟩, hv, rfl⟩ := exists_visit config hs
    have htarget : (ρ, target) ∈ p.nodes config :=
      node_of_root hv List.mem_cons_self
    have hvalue : (ρ, value) ∈ p.nodes config :=
      node_of_root hv (List.mem_cons_of_mem _ List.mem_cons_self)
    rw [types_of_node h hvalue, Option.some.injEq] at hvoid
    rw [types_of_node h htarget, Option.some.injEq]
    exact typeIn_target_eq_unknown hclean hv hvoid
  case argument =>
    intro t f args he i arg harg hvoid
    obtain ⟨ρ, hn⟩ := exists_node config he
    have hpart {part : Expr} (hp : part ∈ f :: args) :
        a.types[part.id]? = some (part.typeIn ρ) :=
      types_of_node h (node_of_part hn hp)
    rw [hpart (List.mem_cons_of_mem _ (List.mem_of_getElem? harg)),
      Option.some.injEq] at hvoid
    rw [hpart List.mem_cons_self]
    simp only [Option.some.injEq]
    exact typeIn_callee_of_void hclean hn harg hvoid

end

-- ============================================================ an example

/-- A variable that is not annotated, a function without a result, and its
call assigned to the variable and passed to the variable. -/
def Program.voidStored : Program :=
  ⟨[.declaration ⟨0, ⟨1, 1⟩⟩ "x" none none true,
    .function ⟨1, ⟨2, 1⟩⟩ "g" [] none ⟨2, 9⟩ [],
    .assignment ⟨2, ⟨3, 1⟩⟩ (.identifier ⟨3, ⟨3, 1⟩⟩ "x")
      (.call ⟨4, ⟨3, 5⟩⟩ (.identifier ⟨5, ⟨3, 5⟩⟩ "g") []),
    .expr ⟨6, ⟨4, 1⟩⟩ (.call ⟨7, ⟨4, 1⟩⟩ (.identifier ⟨8, ⟨4, 1⟩⟩ "x")
      [.call ⟨9, ⟨4, 3⟩⟩ (.identifier ⟨10, ⟨4, 3⟩⟩ "g") []])],
    .start⟩

/-- Nothing is found, and the calls of the function have type `void`. -/
theorem Program.types_voidStored :
    ∃ a, voidStored.analyze {} = .ok a ∧ a.diagnostics = []
      ∧ a.types[4]? = some .void ∧ a.types[9]? = some .void := by
  have hrun : (voidStored.analyze {}).toOption.map
      (fun a => (a.findings, a.types[4]?, a.types[9]?))
        = some ([], some .void, some .void) := by decide +kernel
  obtain ⟨a, ha, hresults⟩ := analyze_ok_of_results hrun
  obtain ⟨hfindings, hassigned, hpassed⟩ :=
    Prod.mk.inj hresults |>.imp id Prod.mk.inj
  refine ⟨a, ha, ?_, hassigned, hpassed⟩
  rw [Analysis.diagnostics, hfindings]
  rfl

/-- The variable that takes them has the type that is not known. -/
theorem Program.void_not_held_voidStored :
    ∃ a, voidStored.analyze {} = .ok a
      ∧ (∀ d ∈ a.diagnostics, d.severity ≠ .error)
      ∧ a.types[3]? = some .unknown
      ∧ (a.types[8]? = some .unknown
        ∨ ∃ ps r, a.types[8]? = some (.func ps r) ∧ ps[0]? = some .unknown) := by
  obtain ⟨a, ha, hdiagnostics, hassigned, hpassed⟩ := types_voidStored
  have herrors : ∀ d ∈ a.diagnostics, d.severity ≠ .error := by
    rw [hdiagnostics]
    exact nofun
  obtain ⟨-, hassignment, hargument⟩ := void_not_held ha herrors
  refine ⟨a, ha, herrors, ?_, ?_⟩
  · exact hassignment ⟨2, ⟨3, 1⟩⟩ _ _
      (List.mem_cons_of_mem _ (List.mem_cons_of_mem _ List.mem_cons_self))
      hassigned
  · exact hargument ⟨7, ⟨4, 1⟩⟩ _ _
      (List.mem_of_getElem? (rfl : voidStored.exprs[3]? = some _)) 0 _ rfl hpassed

/-- A value of type `void` can be assigned and passed without an error. -/
theorem Program.voidStored_held :
    ¬ ∀ (config : Config) (p : Program) (a : Analysis),
      p.analyze config = .ok a →
      (∀ d ∈ a.diagnostics, d.severity ≠ .error) →
      ∀ t target value, .assignment t target value ∈ p.stmts →
        a.types[value.id]? ≠ some .void := by
  intro h
  obtain ⟨a, ha, hdiagnostics, hassigned, -⟩ := types_voidStored
  refine h {} voidStored a ha ?_ ⟨2, ⟨3, 1⟩⟩ _ _
    (List.mem_cons_of_mem _ (List.mem_cons_of_mem _ List.mem_cons_self))
    hassigned
  rw [hdiagnostics]
  exact nofun

end TreeCheck
