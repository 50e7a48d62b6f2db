/-
Braces around branches are immaterial.

The two forms of a branch are walked in different ways. A bare branch
gets a scope, and declares in its place what it declares. A block brings
its scope along, declares the functions in it ahead and then walks its
statements. With one statement the two come to the same: nothing stands
between the place ahead of a function and its own place
(`Stmt.walk_alone`). By induction on the statement, putting braces around
branches at any depth then leaves every walk as it was, and with the walk
the numbers of symbols, the types, and the findings in their order.
-/
import TreeCheck.Proofs.Braces.Source
import TreeCheck.Proofs.Modularity.Twins

namespace TreeCheck

variable {B : Bracing}

-- ============================================================ one branch

/-- A list of one statement is walked as the statement alone: a function in it
is declared ahead of its place, which is where the list begins. -/
theorem Stmt.walk_alone (config : Config) (s : Stmt) (expected : Option Ty) (outer : Env)
    (φ : Frame) (n : SymbolId) :
    (hoisting [] [s] φ n).andThen (Stmt.walkAll config [s] expected [] outer)
      = s.walk config expected false outer φ n := by
  cases s with
  | function t name params result q body =>
    have hahead : Stmt.isAhead [] (.function t name params result q body) = true := by
      simp [Stmt.isAhead]
    simp only [hoisting, List.not_mem_nil, if_false, Stmt.walkAll, hahead, Stmt.walk, if_true,
      Bool.false_eq_true, Walk.andThen, List.append_nil, List.nil_append]
  | declaration | assignment | block | ifElse | «while» | ret | expr =>
    simp only [hoisting, Stmt.walkAll, Stmt.isAhead, Walk.andThen, List.append_nil,
      List.nil_append]

/-- A branch is walked the same in braces. -/
theorem walkBranch_enclosed (config : Config) (s : Stmt) (expected : Option Ty) :
    walkBranch config (s.enclosed B) ((s.enclosed B).walk config expected false)
      = walkBranch config s (s.walk config expected false) := by
  rcases s.enclosed_eq B with h | ⟨hbare, t, q, h⟩
  · rw [h]
  · rw [h]
    funext outer φ n
    have hblock : (Stmt.block t q [s]).isBlock = true := rfl
    unfold walkBranch
    rw [if_pos hblock, if_neg (Bool.eq_false_iff.mp hbare), Stmt.walk, Stmt.walk_alone]

/-- A branch is walked the same with braces in it and around it, if braces in it
change nothing. -/
theorem walkBranch_braced (config : Config) {s : Stmt} (expected : Option Ty)
    (h : (s.braced B).walk config = s.walk config) :
    walkBranch config ((s.braced B).enclosed B)
        (((s.braced B).enclosed B).walk config expected false)
      = walkBranch config s (s.walk config expected false) := by
  rw [walkBranch_enclosed, h]
  funext outer φ n
  unfold walkBranch
  rw [s.isBlock_braced]

-- ================================================================= walks

/-- The functions of a list are declared ahead as before. -/
theorem hoisting_bracedAll (earlier : List String) (ss : List Stmt) :
    hoisting earlier (Stmt.bracedAll B ss) = hoisting earlier ss := by
  induction ss generalizing earlier with
  | nil => rfl
  | cons s ss ih =>
    funext φ n
    cases s with
    | function t name params result q body =>
      have hreturns := Stmt.anyReturnsValue_bracedAll (B := B) body
      simp only [Stmt.bracedAll, Stmt.braced, hoisting, ih,
        declaringFunction_congr t name params result hreturns]
    | ifElse t c a b =>
      cases b with
      | none => exact congrFun (congrFun (ih earlier) φ) n
      | some b => exact congrFun (congrFun (ih earlier) φ) n
    | declaration t name ann init m => exact congrFun (congrFun (ih _) φ) n
    | assignment | block | «while» | ret | expr => exact congrFun (congrFun (ih _) φ) n

mutual

/-- A statement is walked the same with braces around branches in it. -/
theorem Stmt.walk_braced (config : Config) : (s : Stmt) →
    (s.braced B).walk config = s.walk config
  | .declaration t name ann init m => rfl
  | .function t name params result q body => by
      funext expected ahead outer φ n
      have hreturns := Stmt.anyReturnsValue_bracedAll (B := B) body
      simp only [Stmt.braced, Stmt.walk, Signature.of_congr params result hreturns,
        declaringFunction_congr t name params result hreturns, hoisting_bracedAll,
        Stmt.walkAll_bracedAll config body]
  | .assignment t target value => rfl
  | .block t q ss => by
      funext expected ahead outer φ n
      simp only [Stmt.braced, Stmt.walk, hoisting_bracedAll, Stmt.walkAll_bracedAll config ss]
  | .ifElse t c a none => by
      funext expected ahead outer φ n
      have ha := walkBranch_braced config expected (Stmt.walk_braced config a)
      simp only [Stmt.braced, Stmt.walk, ha]
  | .ifElse t c a (some b) => by
      funext expected ahead outer φ n
      have ha := walkBranch_braced config expected (Stmt.walk_braced config a)
      have hb := walkBranch_braced config expected (Stmt.walk_braced config b)
      simp only [Stmt.braced, Stmt.walk, ha, hb]
  | .while t c b => by
      funext expected ahead outer φ n
      have hb := walkBranch_braced config expected (Stmt.walk_braced config b)
      simp only [Stmt.braced, Stmt.walk, hb]
  | .ret t value => rfl
  | .expr t e => rfl

theorem Stmt.walkAll_bracedAll (config : Config) : (ss : List Stmt) →
    Stmt.walkAll config (Stmt.bracedAll B ss) = Stmt.walkAll config ss
  | [] => rfl
  | s :: ss => by
      funext expected earlier outer φ n
      simp only [Stmt.bracedAll, Stmt.walkAll, Stmt.walk_braced config s, Stmt.isAhead_braced,
        Stmt.variablesAfter_braced, Stmt.walkAll_bracedAll config ss]

end

namespace Program

/-- A program has the same account with braces around branches. -/
theorem account_braced (config : Config) (p : Program) :
    (p.braced B).account config = p.account config := by
  simp only [account, braced, hoisting_bracedAll, Stmt.walkAll_bracedAll]

/-- Braces around branches are immaterial: if some branches that are no blocks
are put in blocks with fresh identities, and both programs are analyzed to
the end, the two analyses have the same findings in the same order, the
same types and the same resolutions, numbers of symbols included. -/
theorem braces_immaterial {config : Config} {p : Program} {a a' : Analysis}
    (hids : p.ids.Nodup) (hfresh : (p.braced B).ids.Nodup)
    (h : p.analyze config = .ok a) (h' : (p.braced B).analyze config = .ok a') :
    a' = a := by
  calc a'
    _ = (replay {} ((p.braced B).account config)).analysis := analysis_eq_account hfresh h'
    _ = (replay {} (p.account config)).analysis := by rw [p.account_braced]
    _ = a := (analysis_eq_account hids h).symm

/-- A bare function for a branch, with a bare `return` for a branch inside it, and
a bare variable for the other branch. -/
def bareBranches : Program :=
  ⟨[.ifElse ⟨0, ⟨1, 1⟩⟩ (.literal ⟨1, ⟨1, 5⟩⟩ (.bool true))
      (.function ⟨2, ⟨2, 3⟩⟩ "f" [⟨"n", none, ⟨2, 8⟩⟩] none ⟨2, 11⟩
        [.while ⟨3, ⟨3, 5⟩⟩ (.identifier ⟨4, ⟨3, 12⟩⟩ "n")
          (.ret ⟨5, ⟨4, 7⟩⟩
            (some (.call ⟨6, ⟨4, 14⟩⟩ (.identifier ⟨7, ⟨4, 14⟩⟩ "f") [])))])
      (some (.declaration ⟨8, ⟨6, 3⟩⟩ "y" none none true))],
    .start⟩

/-- Braces around all three branches. -/
def bracing : Bracing
  | 2 => some (⟨9, ⟨1, 11⟩⟩, ⟨1, 11⟩)
  | 5 => some (⟨10, ⟨3, 15⟩⟩, ⟨3, 15⟩)
  | 8 => some (⟨11, ⟨5, 8⟩⟩, ⟨5, 8⟩)
  | _ => none

/-- The call without its argument and the unused variable are reported with braces
as without. -/
theorem braces_immaterial_bareBranches :
    bareBranches.ids.Nodup ∧ (bareBranches.braced bracing).ids.Nodup
      ∧ ∃ a, bareBranches.analyze {} = .ok a ∧ (bareBranches.braced bracing).analyze {} = .ok a
        ∧ a.findings = [⟨.wrongArity (some "f") 1 0, ⟨4, 14⟩, some ⟨2, 3⟩⟩,
          ⟨.unusedVariable "y", ⟨6, 3⟩, none⟩] := by
  have hids : bareBranches.ids.Nodup := by decide
  have hfresh : (bareBranches.braced bracing).ids.Nodup := by decide
  obtain ⟨a, ha, hfindings⟩ : ∃ a, bareBranches.analyze {} = .ok a
      ∧ a.findings = [⟨.wrongArity (some "f") 1 0, ⟨4, 14⟩, some ⟨2, 3⟩⟩,
        ⟨.unusedVariable "y", ⟨6, 3⟩, none⟩] :=
    analyze_ok_of_results (by decide +kernel)
  obtain ⟨a', ha'⟩ : ∃ a', (bareBranches.braced bracing).analyze {} = .ok a' :=
    analyze_ok (by decide) (by decide)
  obtain rfl := braces_immaterial hids hfresh ha ha'
  exact ⟨hids, hfresh, a', ha, ha', hfindings⟩

end Program

end TreeCheck
