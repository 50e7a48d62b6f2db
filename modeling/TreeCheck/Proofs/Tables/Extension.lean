/-
Statements put at the end of a program.

Two things in a scope could look ahead: the functions of a list are
declared before its statements are walked, and what is unused is told
when the scope is left. Where no function is among the new statements,
the same functions are declared ahead as before, and about the outermost
scope nothing is told. So the course of the longer program begins with
that of the shorter one (`Program.course_extend`), and its tables hold
what the course says.
-/
import TreeCheck.Proofs.Visits.Recorded

namespace TreeCheck

open Analysis

/-- Whether a statement is the definition of a function. -/
def Stmt.isFunction : Stmt → Bool
  | .function _ _ _ _ _ _ => true
  | _ => false

/-- A program with more statements at its end. -/
def Program.extend (p : Program) (more : List Stmt) : Program :=
  { p with body := p.body ++ more }

section

variable {config : Config} {p : Program} {more : List Stmt}

-- ============================================================== hoisting

/-- Without a function in it, a list declares nothing ahead. -/
theorem hoisting_eq_same (h : ∀ s ∈ more, s.isFunction = false)
    (earlier : List String) (φ : Frame) (n : SymbolId) :
    hoisting earlier more φ n = ⟨φ, n, []⟩ := by
  induction more generalizing earlier with
  | nil => rfl
  | cons s ss ih =>
      obtain ⟨hs, hss⟩ := List.forall_mem_cons.mp h
      cases s with
      | function => cases hs
      | declaration | assignment | block | ifElse | «while» | ret | expr =>
          exact ih hss _

theorem hoistedSignatures_eq_same (h : ∀ s ∈ more, s.isFunction = false)
    (earlier : List String) (σ : Signatures) :
    hoistedSignatures earlier more σ = σ := by
  induction more generalizing earlier with
  | nil => rfl
  | cons s ss ih =>
      obtain ⟨hs, hss⟩ := List.forall_mem_cons.mp h
      cases s with
      | function => cases hs
      | declaration | assignment | block | ifElse | «while» | ret | expr =>
          exact ih hss _

/-- The functions that are declared ahead are those of the list before. -/
theorem hoisting_append (h : ∀ s ∈ more, s.isFunction = false)
    (earlier : List String) (ss : List Stmt) (φ : Frame) (n : SymbolId) :
    hoisting earlier (ss ++ more) φ n = hoisting earlier ss φ n := by
  induction ss generalizing earlier φ n with
  | nil => exact hoisting_eq_same h earlier φ n
  | cons s ss ih =>
      cases s with
      | function t name params result q body =>
          rw [List.cons_append, hoisting, hoisting, ih]
          have hrest : hoisting earlier (ss ++ more) = hoisting earlier ss := by
            funext φ n
            exact ih earlier φ n
          rw [hrest]
      | declaration | assignment | block | ifElse | «while» | ret | expr =>
          exact ih _ φ n

theorem hoistedSignatures_append (h : ∀ s ∈ more, s.isFunction = false)
    (earlier : List String) (ss : List Stmt) (σ : Signatures) :
    hoistedSignatures earlier (ss ++ more) σ = hoistedSignatures earlier ss σ := by
  induction ss generalizing earlier σ with
  | nil => exact hoistedSignatures_eq_same h earlier σ
  | cons s ss ih => exact ih _ _

-- ================================================================ course

/-- The course of a list is the course of its first part, and from there on the
course of the rest. -/
theorem Stmt.courseAll_append (ss ts : List Stmt) (expected : Option Ty) (outer : Env)
    (φ : Frame) (n : SymbolId) (σ : Signatures) :
    Stmt.courseAll config (ss ++ ts) expected outer φ n σ
      = (Stmt.courseAll config ss expected outer φ n σ).andThen
          (Stmt.courseAll config ts expected outer) := by
  induction ss generalizing φ n σ with
  | nil => rfl
  | cons s ss ih =>
      simp only [List.cons_append, Stmt.courseAll, Course.andThen, Walk.andThen, ih,
        List.append_assoc]

/-- What is done about a program is done first about the program with more
statements at its end. -/
theorem Program.course_extend (h : ∀ s ∈ more, s.isFunction = false) :
    (p.course config).events <+: ((p.extend more).course config).events := by
  have hahead : hoistingCourse (p.body ++ more) [] 0 {} = hoistingCourse p.body [] 0 {} := by
    rw [hoistingCourse, hoistingCourse, hoisting_append h, hoistedSignatures_append h]
  refine ⟨(Stmt.courseAll config more none [] (p.course config).frame
    (p.course config).next (p.course config).signatures).events, ?_⟩
  show (_ ++ _) ++ _ = ((hoistingCourse (p.body ++ more) [] 0 {}).andThen
    (Stmt.courseAll config (p.body ++ more) none [])).events
  rw [hahead]
  show _ = _ ++ (Stmt.courseAll config (p.body ++ more) none [] _ _ _).events
  rw [Stmt.courseAll_append, List.append_assoc]
  rfl

theorem Stmt.outlines_append (d : Nat) (r : Role) (ss ts : List Stmt) :
    Stmt.outlines d r (ss ++ ts) = Stmt.outlines d r ss ++ Stmt.outlines d r ts := by
  induction ss with
  | nil => rfl
  | cons s ss ih => rw [List.cons_append, Stmt.outlines, Stmt.outlines, ih, List.append_assoc]

theorem Program.outline_extend (p : Program) (more : List Stmt) :
    (p.extend more).outline = p.outline ++ Stmt.outlines 0 .body more :=
  Stmt.outlines_append 0 .body p.body more

/-- A program can be analyzed if it can be with more statements at its end. -/
theorem Program.analyze_of_extend {b : Analysis}
    (h : (p.extend more).analyze config = .ok b) : ∃ a, p.analyze config = .ok a := by
  obtain ⟨hshallow, hdistinct⟩ := shallow_of_analyze h
  rw [outline_extend] at hshallow
  rw [exprs, outline_extend, List.filterMap_append, List.map_append] at hdistinct
  refine analyze_ok (fun n hn => hshallow n (List.mem_append_left _ hn)) ?_
  exact (List.nodup_append.mp hdistinct).1

/-- More statements at the end of a program, none of them a function, do not
disturb what is before them. If the longer program is analyzed to the
end, so is the shorter one; its diagnostics are the first ones of the
longer program, and its types and resolutions are kept, with the same
numbers of symbols. -/
theorem Program.extension_keeps {b : Analysis} (hmore : ∀ s ∈ more, s.isFunction = false)
    (h : (p.extend more).analyze config = .ok b) :
    ∃ a, p.analyze config = .ok a
      ∧ a.diagnostics <+: b.diagnostics
      ∧ (∀ (id : NodeId) (ty : Ty), a.types[id]? = some ty → b.types[id]? = some ty)
      ∧ (∀ (id : NodeId) (k : SymbolId),
          a.resolutions[id]? = some k → b.resolutions[id]? = some k) := by
  obtain ⟨a, ha⟩ := analyze_of_extend h
  have hstart : (p.course config).events <+: ((p.extend more).course config).events :=
    course_extend hmore
  refine ⟨a, ha, ?_, fun id ty hty => ?_, fun id k hk => ?_⟩
  · rw [diagnostics, diagnostics, findings_of_analyze ha, findings_of_analyze h]
    exact (hstart.filterMap _).map _
  · rw [types_eq_some_iff ha] at hty
    rw [types_eq_some_iff h]
    exact hstart.subset hty
  · rw [resolutions_eq_some_iff ha] at hk
    rw [resolutions_eq_some_iff h]
    obtain ⟨d, hd, rfl⟩ := hk
    exact ⟨d, hstart.subset hd, rfl⟩

end

/-- A function with an unused parameter, declared behind its call, and a variable. -/
def Program.callingAhead : Program :=
  ⟨[.declaration ⟨0, ⟨1, 1⟩⟩ "x" none (some (.call ⟨1, ⟨1, 9⟩⟩
      (.identifier ⟨2, ⟨1, 9⟩⟩ "f") [])) true,
    .function ⟨3, ⟨2, 1⟩⟩ "f" [⟨"n", none, ⟨2, 8⟩⟩] (some ⟨"int", ⟨2, 14⟩⟩) ⟨2, 18⟩ []],
    .start⟩

/-- A variable of the name of the function, read and then called in a block with a
function of its own. -/
def Program.afterwards : List Stmt :=
  [.declaration ⟨4, ⟨3, 1⟩⟩ "f" none (some (.identifier ⟨5, ⟨3, 9⟩⟩ "x")) false,
    .block ⟨6, ⟨4, 1⟩⟩ ⟨4, 1⟩
      [.expr ⟨7, ⟨5, 3⟩⟩ (.call ⟨8, ⟨5, 3⟩⟩ (.identifier ⟨9, ⟨5, 3⟩⟩ "f") []),
        .function ⟨10, ⟨6, 3⟩⟩ "g" [] none ⟨6, 12⟩ []]]

/-- The duplicate and the bad call follow on the call with too few arguments and the
unused parameter, which are reported without them too. -/
theorem Program.extension_keeps_callingAhead :
    (∀ s ∈ afterwards, s.isFunction = false)
      ∧ ∃ b, (callingAhead.extend afterwards).analyze {} = .ok b
        ∧ b.findings.map (·.cause) = [.wrongArity (some "f") 1 0, .unusedParameter "n",
          .duplicate "f", .notCallable .int]
        ∧ ∃ a, callingAhead.analyze {} = .ok a
          ∧ a.diagnostics <+: b.diagnostics
          ∧ (∀ (id : NodeId) (ty : Ty), a.types[id]? = some ty → b.types[id]? = some ty)
          ∧ (∀ (id : NodeId) (k : SymbolId),
              a.resolutions[id]? = some k → b.resolutions[id]? = some k) := by
  have hmore : ∀ s ∈ afterwards, s.isFunction = false := by decide
  obtain ⟨b, hb, hcauses⟩ : ∃ b, (callingAhead.extend afterwards).analyze {} = .ok b
      ∧ b.findings.map (·.cause) = [.wrongArity (some "f") 1 0, .unusedParameter "n",
        .duplicate "f", .notCallable .int] :=
    analyze_ok_of_results (by decide +kernel)
  exact ⟨hmore, b, hb, hcauses, extension_keeps hmore hb⟩

end TreeCheck
