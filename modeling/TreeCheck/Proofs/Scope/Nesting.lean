/-
Scopes are left in the order opposite to the one they are opened in.

Which scopes are open can be told from outside: a scope opens where a
call is answered with a handle, and the innermost one closes where a
call is answered with symbols. `openings` reads the answers of a table
in this way and tells each open scope by the place of the call that has
opened it. The table itself compares numbers. Both agree, since the
handles of the open scopes are those that the calls at these places
gave, and no number is given twice (`Nests`).

What a call can do to a table is said once (`SymbolTable.does_call`);
the invariant is one case for each of these.
-/
import Mathlib.Data.List.Forall2
import Mathlib.Data.List.Induction
import TreeCheck.Proofs.Scope.Stack

namespace TreeCheck

-- ============================================================= openings

namespace TableAnswer

/-- What an answer at a place says of the open scopes: a handle opens one
there, symbols close the innermost one. -/
def track (place : Nat) (places : List Nat) : TableAnswer → List Nat
  | .entered _ => place :: places
  | .left _ => places.tail
  | .stayed _ | .declared _ | .shadowed _ _ | .unbound _ | .found _ => places

end TableAnswer

/-- The scopes that are open after some answers, innermost first, each told
by the place of the call that has opened it. -/
def openings (answers : List TableAnswer) : List Nat :=
  answers.zipIdx.foldl (fun places (answer, place) => answer.track place places) []

section

variable {as bs : List TableAnswer}

theorem openings_snoc (as : List TableAnswer) (a : TableAnswer) :
    openings (as ++ [a]) = a.track as.length (openings as) := by
  rw [openings, List.zipIdx_append, List.foldl_append, Nat.zero_add]
  rfl

theorem lt_length_of_mem_openings {i : Nat} (h : i ∈ openings as) : i < as.length := by
  induction as using List.reverseRecOn with
  | nil => cases h
  | append_singleton as a ih =>
      rw [openings_snoc] at h
      rw [List.length_append, List.length_singleton]
      cases a with
      | entered handle =>
          rcases List.mem_cons.mp h with rfl | h
          · exact Nat.lt_succ_self _
          · exact Nat.lt_succ_of_lt (ih h)
      | left symbols => exact Nat.lt_succ_of_lt (ih (List.mem_of_mem_tail h))
      | stayed | declared | shadowed | unbound | found => exact Nat.lt_succ_of_lt (ih h)

/-- Scopes further in have been opened later. -/
theorem pairwise_openings (as : List TableAnswer) : (openings as).Pairwise (· > ·) := by
  induction as using List.reverseRecOn with
  | nil => exact .nil
  | append_singleton as a ih =>
      rw [openings_snoc]
      cases a with
      | entered handle => exact .cons (fun i hi => lt_length_of_mem_openings hi) ih
      | left symbols => exact ih.sublist (List.tail_sublist _)
      | stayed | declared | shadowed | unbound | found => exact ih

/-- A scope that was opened early and is open late has been open all the
while. -/
theorem mem_openings_of_append {i : Nat} (h : i ∈ openings (as ++ bs))
    (hi : i < as.length) : i ∈ openings as := by
  induction bs using List.reverseRecOn with
  | nil => rwa [List.append_nil] at h
  | append_singleton bs b ih =>
      rw [← List.append_assoc, openings_snoc] at h
      cases b with
      | entered handle =>
          rcases List.mem_cons.mp h with rfl | h
          · rw [List.length_append] at hi
            omega
          · exact ih h
      | left symbols => exact ih (List.mem_of_mem_tail h)
      | stayed | declared | shadowed | unbound | found => exact ih h

end

-- ================================================================ calls

namespace SymbolTable

/-- What a call does to a table, and what it answers. A scope is opened, the
innermost scope is left with its handle, a name is bound in it, or
nothing is changed. -/
inductive Does (t : SymbolTable) : TableCall → TableAnswer × SymbolTable → Prop where
  | opens : Does t .enter (.entered t.enter.1, t.enter.2)
  | leaves {h : ScopeHandle} {top : Scope} {outer : List Scope}
      (scopes : t.scopes = top :: outer)
      (fits : top.serial = h.serial ∧ outer.length + 1 = h.depth) :
      Does t (.exit h) (.left top.inOrder, { t with scopes := outer })
  | declares {b : Binding} {top : Scope} {outer : List Scope}
      (scopes : t.scopes = top :: outer) :
      Does t (.declare b) (.declared t.nextId,
        { t with scopes := top.bind ⟨b, t.nextId⟩ :: outer, nextId := t.nextId + 1 })
  | shadows {b : Binding} {top : Scope} {outer : List Scope}
      (scopes : t.scopes = top :: outer) :
      Does t (.shadow b) (.shadowed t.nextId (top.find? b.name),
        { t with scopes := top.bind ⟨b, t.nextId⟩ :: outer, nextId := t.nextId + 1 })
  | fails {c : TableCall} {a : TableAnswer} (failure : a.isFailure = true) :
      Does t c (a, t)
  | answers {c : TableCall} (symbol : Option Symbol) : Does t c (.found symbol, t)

/-- Every call does one of these. -/
theorem does_call (t : SymbolTable) (c : TableCall) : t.Does c (t.call c) := by
  cases c with
  | enter => exact .opens
  | exit h =>
      simp only [call, tryExit]
      cases hs : t.scopes with
      | nil => exact .fails rfl
      | cons top outer =>
          have hdepth : t.depth = outer.length + 1 := by
            rw [depth, hs, List.length_cons]
          by_cases hfits : top.serial = h.serial ∧ t.depth = h.depth
          · simp only [if_pos hfits]
            exact .leaves hs (hdepth ▸ hfits)
          · simp only [if_neg hfits]
            exact .fails rfl
  | declare b =>
      cases hlocal : t.resolveLocal b.name with
      | some previous =>
          simp only [call, tryDeclare, hlocal]
          exact .fails rfl
      | none =>
          simp only [call, tryDeclare, tryShadow, hlocal]
          cases hs : t.scopes with
          | nil => exact .fails rfl
          | cons top outer => exact .declares hs
  | shadow b =>
      simp only [call, tryShadow]
      cases hs : t.scopes with
      | nil => exact .fails rfl
      | cons top outer => exact .shadows hs
  | resolve x => exact .answers _
  | resolveLocal x => exact .answers _

end SymbolTable

-- ============================================================== handles

/-- The handles of scopes, innermost first: each says how many scopes
there are from its own outward. -/
def Scope.handles : List Scope → List ScopeHandle
  | [] => []
  | sc :: outer => ⟨outer.length + 1, sc.serial⟩ :: handles outer

theorem Scope.length_handles (scopes : List Scope) :
    (handles scopes).length = scopes.length := by
  induction scopes with
  | nil => rfl
  | cons sc outer ih => exact congrArg (· + 1) ih

/-- The handle that is accepted is that of the innermost scope. -/
theorem SymbolTable.exit_eq_ok_iff {t : SymbolTable} {h : ScopeHandle} :
    (∃ r, t.exit h = .ok r) ↔ (Scope.handles t.scopes).head? = some h := by
  unfold exit completed tryExit
  cases hs : t.scopes with
  | nil => simp [Scope.handles, Except.map]
  | cons top outer =>
      obtain ⟨depth, serial⟩ := h
      by_cases hfits : top.serial = serial ∧ outer.length + 1 = depth
      · simp [SymbolTable.depth, hs, Scope.handles, hfits, Except.map]
      · have hne : (⟨outer.length + 1, top.serial⟩ : ScopeHandle) ≠ ⟨depth, serial⟩ :=
          fun heq => hfits ⟨congrArg (·.serial) heq, congrArg (·.depth) heq⟩
        simp [SymbolTable.depth, hs, Scope.handles, hfits, hne, Except.map]

/-- Some answers give a handle at a place. -/
def GivesAt (answers : List TableAnswer) (i : Nat) (h : ScopeHandle) : Prop :=
  answers[i]? = some (.entered h)

theorem givesAt_snoc {as : List TableAnswer} {a : TableAnswer} {i : Nat}
    {h : ScopeHandle} :
    GivesAt (as ++ [a]) i h ↔ GivesAt as i h ∨ i = as.length ∧ a = .entered h := by
  unfold GivesAt
  rcases Nat.lt_trichotomy i as.length with hi | rfl | hi
  · simp [List.getElem?_append_left hi, Nat.ne_of_lt hi]
  · simp
  · rw [List.getElem?_eq_none (by rw [List.length_append, List.length_singleton]; omega),
      List.getElem?_eq_none (Nat.le_of_lt hi)]
    simp [Nat.ne_of_gt hi]

/-- The open scopes of a table are those that its answers tell of: their
handles were given where they have been opened. A number below the next
one belongs to one place only. -/
structure Nests (answers : List TableAnswer) (t : SymbolTable) : Prop where
  handles : List.Forall₂ (GivesAt answers) (openings answers) (Scope.handles t.scopes)
  below : ∀ {i h}, GivesAt answers i h → h.serial < t.nextSerial
  distinct : ∀ {i j h h'}, GivesAt answers i h → GivesAt answers j h' →
    h.serial = h'.serial → i = j

namespace Nests

variable {as : List TableAnswer} {t : SymbolTable}

theorem fresh : Nests [] {} where
  handles := .nil
  below := nofun
  distinct := nofun

/-- An answer that opens no scope gives no handle either. -/
theorem quiet {t' : SymbolTable} {a : TableAnswer} (inv : Nests as t)
    (ha : ∀ h, a ≠ .entered h) (hserial : t'.nextSerial = t.nextSerial)
    (hhandles : List.Forall₂ (GivesAt as) (a.track as.length (openings as))
      (Scope.handles t'.scopes)) : Nests (as ++ [a]) t' := by
  have hgives {i : Nat} {h : ScopeHandle} : GivesAt (as ++ [a]) i h ↔ GivesAt as i h := by
    simp [givesAt_snoc, ha]
  refine ⟨?_, fun {i h} hgiven => ?_, fun {i j h h'} hi hj heq => ?_⟩
  · rw [openings_snoc]
    exact hhandles.imp fun _ _ => hgives.mpr
  · exact hserial ▸ inv.below (hgives.mp hgiven)
  · exact inv.distinct (hgives.mp hi) (hgives.mp hj) heq

/-- A scope is opened under a number that no other has had. -/
theorem opened (inv : Nests as t) : Nests (as ++ [.entered t.enter.1]) t.enter.2 where
  handles := by
    rw [openings_snoc]
    refine .cons (givesAt_snoc.mpr (.inr ⟨rfl, rfl⟩)) ?_
    exact inv.handles.imp fun _ _ hgiven => givesAt_snoc.mpr (.inl hgiven)
  below := by
    intro i h hgiven
    rcases givesAt_snoc.mp hgiven with hgiven | ⟨-, heq⟩
    · exact Nat.lt_succ_of_lt (inv.below hgiven)
    · cases heq
      exact Nat.lt_succ_self _
  distinct := by
    intro i j h h' hi hj heq
    rcases givesAt_snoc.mp hi with hi | ⟨rfl, hnew⟩
    · rcases givesAt_snoc.mp hj with hj | ⟨rfl, hnew'⟩
      · exact inv.distinct hi hj heq
      · cases hnew'
        exact absurd heq (Nat.ne_of_lt (inv.below hi))
    · rcases givesAt_snoc.mp hj with hj | ⟨rfl, -⟩
      · cases hnew
        exact absurd heq.symm (Nat.ne_of_lt (inv.below hj))
      · rfl

theorem call (inv : Nests as t) (c : TableCall) :
    Nests (as ++ [(t.call c).1]) (t.call c).2 := by
  have hdoes := t.does_call c
  have hhandles := inv.handles
  generalize t.call c = r at hdoes ⊢
  cases hdoes with
  | opens => exact inv.opened
  | leaves scopes fits =>
      rw [scopes] at hhandles
      refine inv.quiet nofun rfl ?_
      obtain ⟨i, places, -, houter, hplaces⟩ := List.forall₂_cons_right_iff.mp hhandles
      rw [hplaces]
      exact houter
  | declares scopes | shadows scopes =>
      rw [scopes] at hhandles
      exact inv.quiet nofun rfl hhandles
  | @fails c a failure =>
      cases a with
      | stayed | unbound => exact inv.quiet nofun rfl hhandles
      | entered | left | declared | shadowed | found => cases failure
  | answers symbol => exact inv.quiet nofun rfl hhandles

theorem run (cs : List TableCall) :
    Nests (({} : SymbolTable).run cs).1 (({} : SymbolTable).run cs).2 := by
  induction cs using List.reverseRecOn with
  | nil => exact fresh
  | append_singleton cs c ih =>
      rw [SymbolTable.run_append]
      exact ih.call c

/-- A handle that was given is accepted where the scope opened with it is
the innermost one. -/
theorem exit_iff {i : Nat} {h : ScopeHandle} (inv : Nests as t) (hgiven : GivesAt as i h) :
    (∃ r, t.exit h = .ok r) ↔ (openings as).head? = some i := by
  have hhandles := inv.handles
  rw [SymbolTable.exit_eq_ok_iff]
  generalize openings as = places at hhandles ⊢
  generalize Scope.handles t.scopes = handles at hhandles ⊢
  cases hhandles with
  | nil => simp
  | @cons j h' _ _ hgiven' _ =>
      simp only [List.head?_cons, Option.some.injEq]
      constructor
      · rintro rfl
        exact inv.distinct hgiven' hgiven rfl
      · rintro rfl
        exact TableAnswer.entered.inj (Option.some.inj (hgiven'.symm.trans hgiven))

/-- A handle that is accepted was given, and its scope is the innermost
one. -/
theorem given_of_exit {h : ScopeHandle} (inv : Nests as t)
    (haccepted : ∃ r, t.exit h = .ok r) :
    ∃ i places, openings as = i :: places ∧ GivesAt as i h := by
  have hhandles := inv.handles
  obtain ⟨outer, hs⟩ := List.head?_eq_some_iff.mp (SymbolTable.exit_eq_ok_iff.mp haccepted)
  rw [hs] at hhandles
  obtain ⟨i, places, hgiven, -, hplaces⟩ := List.forall₂_cons_right_iff.mp hhandles
  exact ⟨i, places, hplaces, hgiven⟩

end Nests

-- ============================================================== nesting

namespace SymbolTable

/-- The answers of a fresh table to a sequence of calls. -/
abbrev answersTo (cs : List TableCall) : List TableAnswer := (({} : SymbolTable).run cs).1

/-- What a fresh table has become after a sequence of calls. -/
abbrev reached (cs : List TableCall) : SymbolTable := (({} : SymbolTable).run cs).2

/-- A handle that has been accepted is refused ever after. -/
theorem exit_once {cs : List TableCall} {h : ScopeHandle}
    (haccepted : ∃ r, (reached cs).exit h = .ok r) (between : List TableCall) :
    ¬ ∃ r, (reached (cs ++ .exit h :: between)).exit h = .ok r := by
  intro hagain
  obtain ⟨i, places, hplaces, hgiven⟩ := (Nests.run cs).given_of_exit haccepted
  obtain ⟨j, places', hplaces', hgiven'⟩ := (Nests.run _).given_of_exit hagain
  obtain ⟨⟨symbols, t'⟩, hexit⟩ := haccepted
  have hlength : (answersTo cs ++ [TableAnswer.left symbols]).length
      = (answersTo cs).length + 1 := by
    rw [List.length_append, List.length_singleton]
  -- what was answered so far, and what is answered in between
  have hsplit : answersTo (cs ++ .exit h :: between)
      = answersTo cs ++ [.left symbols] ++ (t'.run between).1 := by
    simp only [answersTo, run_append, run, call_exit_of_ok hexit, List.append_assoc,
      List.singleton_append]
  have hi : i < (answersTo cs).length :=
    lt_length_of_mem_openings (hplaces ▸ List.mem_cons_self)
  have hsame : j = i := by
    have hstill : GivesAt (answersTo (cs ++ .exit h :: between)) i h := by
      rw [GivesAt, hsplit, List.append_assoc, List.getElem?_append_left hi]
      exact hgiven
    exact (Nests.run _).distinct hgiven' hstill rfl
  -- the scope of the handle would have stayed open, but it was left
  have hopen : i ∈ openings (answersTo cs ++ [.left symbols]) := by
    have hlater : i ∈ openings (answersTo cs ++ [.left symbols] ++ (t'.run between).1) := by
      rw [← hsplit, hplaces', hsame]
      exact List.mem_cons_self
    exact mem_openings_of_append hlater (hlength ▸ Nat.lt_succ_of_lt hi)
  rw [openings_snoc, hplaces] at hopen
  have hlater := pairwise_openings (answersTo cs)
  rw [hplaces] at hlater
  exact Nat.lt_irrefl i ((List.pairwise_cons.mp hlater).1 i hopen)

/-- Handles make scopes nest. After any calls of a fresh table, a handle
that one of them gave is accepted if and only if the scope that this
call has opened is open still and the innermost one; the handle of a
scope that was left is refused, whatever is open now. No handle is
accepted twice, and one that is refused leaves the table as it is. -/
theorem handles_nest (cs : List TableCall) :
    (reached cs).depth = (openings (answersTo cs)).length
      ∧ (∀ i h, (answersTo cs)[i]? = some (.entered h) →
        ((∃ r, (reached cs).exit h = .ok r) ↔ (openings (answersTo cs)).head? = some i)
          ∧ (i ∉ openings (answersTo cs) → ∃ e, (reached cs).exit h = .error e))
      ∧ (∀ h, (∃ r, (reached cs).exit h = .ok r) → ∀ between,
        ∃ e, (reached (cs ++ .exit h :: between)).exit h = .error e)
      ∧ ∀ h e, (reached cs).exit h = .error e →
        (reached cs).call (.exit h) = (.stayed e, reached cs) := by
  have inv := Nests.run cs
  have herror {t : SymbolTable} {h : ScopeHandle} (hrefused : ¬ ∃ r, t.exit h = .ok r) :
      ∃ e, t.exit h = .error e := by
    cases hexit : t.exit h with
    | ok r => exact absurd ⟨r, hexit⟩ hrefused
    | error e => exact ⟨e, rfl⟩
  refine ⟨?depth, fun i h hgiven => ⟨inv.exit_iff hgiven, fun hclosed => ?closed⟩,
    fun h haccepted between => herror (exit_once haccepted between),
    fun h e hrefused => call_exit_of_error hrefused⟩
  case depth =>
    rw [depth, ← Scope.length_handles]
    exact inv.handles.length_eq.symm
  case closed =>
    refine herror fun haccepted => hclosed ?_
    exact List.mem_of_head? ((inv.exit_iff hgiven).mp haccepted)

/-- A scope is left and another one opened at the same depth: the handle
of the first is refused there, and that of the second is accepted. -/
theorem handles_nest_same_depth :
    answersTo [.enter, .exit ⟨1, 0⟩, .enter]
        = [.entered ⟨1, 0⟩, .left [], .entered ⟨1, 1⟩]
      ∧ (∃ e, (reached [.enter, .exit ⟨1, 0⟩, .enter]).exit ⟨1, 0⟩ = .error e)
      ∧ ∃ r, (reached [.enter, .exit ⟨1, 0⟩, .enter]).exit ⟨1, 1⟩ = .ok r := by
  have hanswers : answersTo [.enter, .exit ⟨1, 0⟩, .enter]
      = [.entered ⟨1, 0⟩, .left [], .entered ⟨1, 1⟩] := (Refines.fresh.run _).1.trans rfl
  obtain ⟨-, hhandles, -⟩ := handles_nest [.enter, .exit ⟨1, 0⟩, .enter]
  refine ⟨hanswers, (hhandles 0 ⟨1, 0⟩ (hanswers ▸ rfl)).2 ?_,
    (hhandles 2 ⟨1, 1⟩ (hanswers ▸ rfl)).1.mpr ?_⟩
  · rw [hanswers]
    decide
  · rw [hanswers]
    decide

end SymbolTable

end TreeCheck
