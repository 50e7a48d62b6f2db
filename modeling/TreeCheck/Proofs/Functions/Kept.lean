/-
The signatures that an analysis has kept in the end.

A signature is kept under the identity of its function when the function
is declared, ahead of its place or where it is reached, and it is never
dropped. What is gained along the way is always the signature of a
function by its own annotations and its own body (`Signatures.Gains`).
So where identities are distinct, every function of the program, however
deep it stands, has its own signature in the end.
-/
import TreeCheck.Proofs.Functions.Source
import TreeCheck.Proofs.Scoping.Numbering
import TreeCheck.Proofs.Visits.Lasting

namespace TreeCheck

open Analysis

/-- Some signatures become others: nothing is dropped, some functions have
signatures now, and what is new is the own signature of one that may
have been declared. -/
structure Signatures.Gains (allowed gained : List FunctionDef) (σ σ' : Signatures) :
    Prop where
  kept : ∀ id, id ∈ σ → id ∈ σ'
  present : ∀ f ∈ gained, f.tag.id ∈ σ'
  own : ∀ id sig, σ'[id]? = some sig →
    σ[id]? = some sig ∨ ∃ f ∈ allowed, f.tag.id = id ∧ f.signature = sig

namespace Signatures.Gains

variable {allowed gained gained' : List FunctionDef} {σ σ' σ'' : Signatures}

theorem refl (allowed : List FunctionDef) (σ : Signatures) : Gains allowed [] σ σ where
  kept := fun _ h => h
  present := nofun
  own := fun _ _ h => .inl h

theorem trans (h : Gains allowed gained σ σ') (h' : Gains allowed gained' σ' σ'') :
    Gains allowed (gained ++ gained') σ σ'' where
  kept := fun id hid => h'.kept id (h.kept id hid)
  present := by
    intro f hf
    rcases List.mem_append.mp hf with hf | hf
    · exact h'.kept _ (h.present f hf)
    · exact h'.present f hf
  own := by
    intro id sig hsig
    rcases h'.own id sig hsig with hsig | hnew
    · exact h.own id sig hsig
    · exact .inr hnew

/-- A function is declared. -/
theorem insert {f : FunctionDef} (hf : f ∈ allowed) (σ : Signatures) :
    Gains allowed [f] σ (σ.insert f.tag.id f.signature) where
  kept := fun id hid => Std.TreeMap.mem_insert.mpr (.inr hid)
  present := by
    intro g hg
    rw [List.mem_singleton.mp hg]
    exact Std.TreeMap.mem_insert_self
  own := by
    intro id sig hsig
    rw [Std.TreeMap.getElem?_insert] at hsig
    split at hsig
    case isTrue heq =>
      exact .inr ⟨f, hf, Std.LawfulEqCmp.eq_of_compare heq, Option.some.inj hsig⟩
    case isFalse => exact .inl hsig

/-- What is gained need not be told in full. -/
theorem forget (h : Gains allowed gained σ σ') : Gains allowed [] σ σ' :=
  ⟨h.kept, nofun, h.own⟩

end Signatures.Gains

section

variable {allowed : List FunctionDef} {σ : Signatures}

open Signatures (Gains)

theorem gains_signed {s : Stmt} (hs : ∀ f ∈ s.functions, f ∈ allowed)
    (σ : Signatures) : Gains allowed s.function?.toList σ (s.signed σ) := by
  cases s with
  | function t name params result q body =>
      refine .insert (f := ⟨t, name, params, result, q, body⟩) (hs _ ?_) σ
      rw [Stmt.functions_eq_append]
      exact List.mem_cons_self
  | declaration | assignment | block | ifElse | «while» | ret | expr => exact .refl _ _

theorem gains_hoistedSignatures {ss : List Stmt}
    (hss : ∀ f ∈ ss.flatMap Stmt.functions, f ∈ allowed) (earlier : List String)
    (σ : Signatures) : Gains allowed [] σ (hoistedSignatures earlier ss σ) := by
  induction ss generalizing earlier σ with
  | nil => exact .refl _ _
  | cons s ss ih =>
      rw [List.flatMap_cons, List.forall_mem_append] at hss
      have hfirst : Gains allowed [] σ
          (if s.isAhead earlier then s.signed σ else σ) := by
        split
        · exact (gains_signed hss.1 σ).forget
        · exact .refl _ _
      exact hfirst.trans (ih hss.2 _ _)

/-- A function has a signature where it is reached. -/
theorem gains_reached {f : FunctionDef} (hf : f ∈ allowed) (σ : Signatures) :
    Gains allowed [f] σ (f.stmt.reached σ) := by
  unfold Stmt.reached
  split
  case isTrue hmem =>
    refine ⟨fun _ h => h, fun g hg => ?_, fun _ _ h => .inl h⟩
    rw [List.mem_singleton.mp hg]
    exact hmem
  case isFalse => exact .insert hf σ

mutual

/-- Behind a statement each of its functions has a signature. -/
theorem Stmt.gains_keeping : (s : Stmt) → (∀ f ∈ s.functions, f ∈ allowed) →
    ∀ σ : Signatures, Gains allowed s.functions σ (s.keeping σ)
  | .declaration _ _ _ _ _, _, σ => by
      rw [functions_eq_append]
      exact .refl _ σ
  | .assignment _ _ _, _, σ => by
      rw [functions_eq_append]
      exact .refl _ σ
  | .ret _ _, _, σ => by
      rw [functions_eq_append]
      exact .refl _ σ
  | .expr _ _, _, σ => by
      rw [functions_eq_append]
      exact .refl _ σ
  | .function t name params result q body, h, σ => by
      rw [functions_eq_append, List.forall_mem_append] at h
      rw [functions_eq_append, Stmt.keeping]
      have hown := gains_reached (f := ⟨t, name, params, result, q, body⟩)
        (h.1 _ List.mem_cons_self) σ
      have hahead := gains_hoistedSignatures h.2 []
        (Stmt.reached (.function t name params result q body) σ)
      exact hown.trans (hahead.trans (Stmt.gains_keepingAll body h.2 _))
  | .block t q ss, h, σ => by
      rw [functions_eq_append, List.forall_mem_append] at h
      rw [functions_eq_append, Stmt.keeping]
      exact (gains_hoistedSignatures h.2 [] σ).trans (Stmt.gains_keepingAll ss h.2 _)
  | .ifElse t c a none, h, σ => by
      rw [functions_eq_append] at h ⊢
      simp only [function?, children, Option.toList_none, List.nil_append,
        List.flatMap_singleton] at h ⊢
      exact Stmt.gains_keeping a h σ
  | .ifElse t c a (some b), h, σ => by
      rw [functions_eq_append] at h ⊢
      simp only [function?, children, Option.toList_none, List.nil_append,
        List.flatMap_cons, List.flatMap_nil, List.append_nil,
        List.forall_mem_append] at h ⊢
      exact (Stmt.gains_keeping a h.1 σ).trans (Stmt.gains_keeping b h.2 _)
  | .while t c b, h, σ => by
      rw [functions_eq_append] at h ⊢
      simp only [function?, children, Option.toList_none, List.nil_append,
        List.flatMap_singleton] at h ⊢
      exact Stmt.gains_keeping b h σ

theorem Stmt.gains_keepingAll : (ss : List Stmt) →
    (∀ f ∈ ss.flatMap Stmt.functions, f ∈ allowed) → ∀ σ : Signatures,
    Gains allowed (ss.flatMap Stmt.functions) σ (Stmt.keepingAll ss σ)
  | [], _, σ => .refl _ σ
  | s :: ss, h, σ => by
      rw [List.flatMap_cons, List.forall_mem_append] at h
      rw [List.flatMap_cons, Stmt.keepingAll]
      exact (Stmt.gains_keeping s h.1 σ).trans (Stmt.gains_keepingAll ss h.2 _)

end

end

section

variable {config : Config} {p : Program} {a : Analysis} {f g : FunctionDef}

theorem Program.gains_course (config : Config) (p : Program) :
    Signatures.Gains p.functions p.functions {} (p.course config).signatures := by
  have hreckons := (reckons_hoisting p.body [] 0 {}).andThen
    (Stmt.reckons_courseAll config p.body none [] _ _ _)
  rw [show (p.course config).signatures = _ from hreckons.signatures,
    functions_eq_flatMap]
  exact (gains_hoistedSignatures (fun f hf => hf) [] {}).trans
    (Stmt.gains_keepingAll p.body (fun f hf => hf) _)

/-- Where identities are distinct, a function is told by its identity. -/
theorem Program.function_eq_of_id (hids : p.ids.Nodup) (hf : f ∈ p.functions)
    (hg : g ∈ p.functions) (h : f.tag.id = g.tag.id) : f = g := by
  have hstmt : f.stmt = g.stmt :=
    stmt_eq_of_id hids (mem_functions.mp hf) (mem_functions.mp hg) h
  exact Option.some.inj (congrArg Stmt.function? hstmt)

/-- In the end every function has its own signature kept. -/
theorem Program.signature_kept (config : Config) (hids : p.ids.Nodup)
    (hf : f ∈ p.functions) :
    (p.course config).signatures[f.tag.id]? = some f.signature := by
  obtain ⟨-, hpresent, hown⟩ := p.gains_course config
  have hmem := Std.TreeMap.mem_iff_isSome_getElem?.mp (hpresent f hf)
  obtain ⟨sig, hsig⟩ := Option.isSome_iff_exists.mp hmem
  rcases hown _ _ hsig with hnone | ⟨g, hg, hid, rfl⟩
  · rw [Std.TreeMap.getElem?_emptyc] at hnone
    cases hnone
  · rw [hsig, function_eq_of_id hids hg hf hid]

/-- There is one number for each declaration. -/
theorem Program.next_course (config : Config) (hids : p.ids.Nodup) :
    (p.course config).next = p.declarations.length := by
  have hnumbers := (numbers_hoisting [] p.body [] 0).andThen
    (Stmt.numbers_walkAll config p.body none [] [] _ _)
  rw [toWalk_course config hids, hnumbers.next, Nat.zero_add]
  rfl

/-- A completed analysis ends with one number for each declaration and with
the own signature of each function. -/
theorem Program.signatures_of_analyze (hids : p.ids.Nodup) (h : p.analyze config = .ok a) :
    ∃ s, Completes (checkProgram config p) {} () s ∧ a = s.analysis
      ∧ s.table.nextId = p.declarations.length
      ∧ ∀ f ∈ p.functions, s.signatures[f.tag.id]? = some f.signature := by
  obtain ⟨s, hrun, ha, -, hnext, hsignatures⟩ := exists_end h
  refine ⟨s, hrun, ha, hnext.trans (next_course config hids), fun f hf => ?_⟩
  rw [hsignatures]
  exact signature_kept config hids hf

end

end TreeCheck
