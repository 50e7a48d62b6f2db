/-
The order of function definitions does not matter.

Two neighbouring functions of different names, neither of which comes
after a variable of its name in the list, are both declared ahead of it.
Declared in the other order they get each other's numbers, and nothing
else changes, as their names differ (`matching_hoisting_exchange`). Where
their places are reached, only their bodies are walked; what they bind
there is gone when the next statement is reached, so the bodies can be
walked in the other order too (`matching_walkAll_exchange`). One
renumbering of all symbols then turns the account of the one program into
that of the other, up to the order of its events.
-/
import TreeCheck.Proofs.Exchange.Context
import TreeCheck.Proofs.Functions.Source
import TreeCheck.Proofs.Modularity.Correctness

namespace TreeCheck

open Analysis

-- ============================================================= functions

/-- None of some statements declares a variable of a name. -/
def Stmt.NoVariable (name : String) (ss : List Stmt) : Prop :=
  ∀ t ann init m, Stmt.declaration t name ann init m ∉ ss

section

variable {config : Config} {f g : FunctionDef} {name : String} {s : Stmt}
  {before behind ss : List Stmt} {earlier : List String}

theorem Stmt.NoVariable.tail (h : Stmt.NoVariable name (s :: ss)) : Stmt.NoVariable name ss :=
  fun t ann init m hmem => h t ann init m (List.mem_cons_of_mem s hmem)

theorem Stmt.NoVariable.not_mem_variablesAfter (h : Stmt.NoVariable name (s :: ss))
    (hearlier : name ∉ earlier) : name ∉ s.variablesAfter earlier := by
  cases s with
  | declaration t x ann init m =>
    intro hmem
    rcases List.mem_cons.mp hmem with rfl | hmem
    · exact h t ann init m List.mem_cons_self
    · exact hearlier hmem
  | function | assignment | block | ifElse | «while» | ret | expr => exact hearlier

/-- Functions of different names can be declared ahead in either order. -/
theorem matching_hoisting_exchange (hne : f.name ≠ g.name)
    (hf : Stmt.NoVariable f.name before) (hg : Stmt.NoVariable g.name before)
    (hfe : f.name ∉ earlier) (hge : g.name ∉ earlier) :
    Matching (fun _ φ n => hoisting earlier (before ++ f.stmt :: g.stmt :: behind) φ n)
      fun _ φ n => hoisting earlier (before ++ g.stmt :: f.stmt :: behind) φ n := by
  induction before generalizing earlier with
  | nil =>
    have hpair := Matching.exchange_declaring f.binding g.binding hne
      (reports_signatureEvents f.tag.id f.params f.result)
      (reports_signatureEvents g.tag.id g.params g.result)
      f.tag.id g.tag.id (.stmt f.tag.id) (.stmt g.tag.id)
    have hall := hpair.andThen (matching_hoisting earlier behind)
    simp only [Walk.andThen_assoc] at hall
    simp only [List.nil_append, FunctionDef.stmt, hoisting, if_neg hfe, if_neg hge]
    exact hall
  | cons s before ih =>
    have hrest := ih hf.tail hg.tail (hf.not_mem_variablesAfter hfe)
      (hg.not_mem_variablesAfter hge)
    cases s with
    | function t name params result q body =>
      simp only [List.cons_append, hoisting]
      split
      · exact hrest
      · exact (matching_declaringFunction t name params result body).andThen hrest
    | declaration | assignment | block | ifElse | «while» | ret | expr => exact hrest

/-- A function that was declared ahead leaves its scope as it is. -/
theorem FunctionDef.frame_walk (f : FunctionDef) (config : Config) (expected : Option Ty)
    (outer : Env) (φ : Frame) (n : SymbolId) :
    (f.stmt.walk config expected true outer φ n).frame = φ := by
  rw [FunctionDef.stmt, Stmt.frame_walk rfl]
  rfl

/-- Functions that were declared ahead can be walked in either order. -/
theorem matching_walkAll_exchange (hf : Stmt.NoVariable f.name before)
    (hg : Stmt.NoVariable g.name before) (hfe : f.name ∉ earlier) (hge : g.name ∉ earlier)
    (expected : Option Ty) :
    Matching
      (fun outer φ n =>
        Stmt.walkAll config (before ++ f.stmt :: g.stmt :: behind) expected earlier outer φ n)
      fun outer φ n =>
        Stmt.walkAll config (before ++ g.stmt :: f.stmt :: behind) expected earlier outer φ n := by
  induction before generalizing earlier with
  | nil =>
    have hpair := (f.stmt.matching_walk config expected true).exchange
      (g.stmt.matching_walk config expected true) (by
        simp only [List.forall_mem_cons]
        exact ⟨f.frame_walk config expected, f.frame_walk config expected,
          g.frame_walk config expected, g.frame_walk config expected, nofun⟩)
    have hall := hpair.andThen (Stmt.matching_walkAll config behind expected earlier)
    simp only [Walk.andThen_assoc] at hall
    have hfa : f.stmt.isAhead earlier = true := by simpa [FunctionDef.stmt, Stmt.isAhead] using hfe
    have hga : g.stmt.isAhead earlier = true := by simpa [FunctionDef.stmt, Stmt.isAhead] using hge
    have hfv : f.stmt.variablesAfter earlier = earlier := rfl
    have hgv : g.stmt.variablesAfter earlier = earlier := rfl
    simp only [List.nil_append, Stmt.walkAll, hfv, hgv, hfa, hga]
    exact hall
  | cons s before ih =>
    have hrest := ih hf.tail hg.tail (hf.not_mem_variablesAfter hfe)
      (hg.not_mem_variablesAfter hge)
    simp only [List.cons_append, Stmt.walkAll]
    exact (s.matching_walk config expected _).andThen hrest

end

-- ============================================================== programs

/-- Where a list of statements stands in a program. -/
inductive Listing where
  | whole (position : Position)
  | part (w : Way) (b : Body)

/-- The program with a list of statements in its place. -/
def Listing.fill : Listing → List Stmt → Program
  | .whole q, ss => ⟨ss, q⟩
  | .part w b, ss => w.fill (b.fill ss)

section

variable {config : Config} {ss ss' : List Stmt}

/-- Programs that match but for one list match. -/
theorem Listing.matching (l : Listing) (h : Stmt.MatchingAll config ss ss')
    (hreturns : Stmt.anyReturnsValue ss = Stmt.anyReturnsValue ss') :
    Stmt.MatchingAll config (l.fill ss).body (l.fill ss').body := by
  cases l with
  | whole q => exact h
  | part w b =>
    have hslot : Slot.Matching config (.body b) ss ss' := h
    exact w.matching hslot hreturns

/-- The order of statements does not matter to what is their own. -/
theorem Stmt.perm_labels (h : ss.Perm ss') : (Stmt.labels ss).Perm (Stmt.labels ss') := by
  have hflat (ss : List Stmt) : Stmt.labels ss = ss.flatMap fun s => Stmt.labels [s] := by
    induction ss with
    | nil => rfl
    | cons s ss ih => rw [Stmt.labels_cons, ih, List.flatMap_cons]
  rw [hflat ss, hflat ss']
  exact h.flatMap_right _

theorem Listing.perm_labels (l : Listing) (h : (Stmt.labels ss).Perm (Stmt.labels ss')) :
    (Stmt.labels (l.fill ss).body).Perm (Stmt.labels (l.fill ss').body) := by
  cases l with
  | whole q => exact h
  | part w b =>
    have hss := w.perm_around (.body b) ss
    have hss' := w.perm_around (.body b) ss'
    exact hss.trans ((h.append_left _).trans hss'.symm)

/-- The account of a program is that of a matching one, in another order and under
other numbers. -/
theorem Program.exists_renumbering {p p' : Program}
    (h : Stmt.MatchingAll config p.body p'.body) :
    ∃ π, ((p.account config).map (Event.rename π)).Perm (p'.account config) := by
  obtain ⟨π, -, hwalk⟩ := (h none).exists_renumbering
  exact ⟨π, hwalk.events⟩

end

-- ============================================================== outcomes

section

variable {π : Nat → Nat} {es es' : List Event} {id : NodeId}

theorem typed_iff_of_perm (h : (es.map (Event.rename π)).Perm es') {ty : Ty} :
    .typed id ty ∈ es ↔ .typed id ty ∈ es' := by
  rw [← h.mem_iff, List.mem_map]
  constructor
  · exact fun hty => ⟨_, hty, rfl⟩
  · rintro ⟨e, he, heq⟩
    cases e with
    | typed => exact heq ▸ he
    | resolved | read | bound | found => cases heq

theorem resolved_iff_of_perm (h : (es.map (Event.rename π)).Perm es') {d' : Declared} :
    .resolved id d' ∈ es' ↔ ∃ d, .resolved id d ∈ es ∧ d.rename π = d' := by
  rw [← h.mem_iff, List.mem_map]
  constructor
  · rintro ⟨e, he, heq⟩
    cases e with
    | resolved id' d =>
      obtain ⟨rfl, hd⟩ := Event.resolved.inj heq
      exact ⟨d, he, hd⟩
    | typed | read | bound | found => cases heq
  · rintro ⟨d, hd, rfl⟩
    exact ⟨_, hd, rfl⟩

theorem findings_perm_of_perm (h : (es.map (Event.rename π)).Perm es') :
    (es.filterMap Event.finding?).Perm (es'.filterMap Event.finding?) := by
  have hfindings := h.filterMap Event.finding?
  rw [List.filterMap_map] at hfindings
  have hsame : Event.finding? ∘ Event.rename π = Event.finding? := by
    funext e
    cases e <;> rfl
  rwa [hsame] at hfindings

end

/-- Two analyses have the same outcome: they record the same types, they resolve
the same identifiers to the same declarations, and they report the same
diagnostics in some order. -/
structure SameOutcome (p p' : Program) (a a' : Analysis) : Prop where
  types : ∀ id : NodeId, a.types[id]? = a'.types[id]?
  resolutions : ∀ id : NodeId, (a.resolutions[id]? = none ∧ a'.resolutions[id]? = none)
    ∨ ∃ k k' site, a.resolutions[id]? = some k ∧ a'.resolutions[id]? = some k'
      ∧ p.declarations[k]? = some site ∧ p'.declarations[k']? = some site
  diagnostics : a.diagnostics.Perm a'.diagnostics

section

variable {config : Config} {p p' : Program} {a a' : Analysis}

/-- Programs that match have the same outcome. -/
theorem Program.sameOutcome (hids : p.ids.Nodup) (hids' : p'.ids.Nodup)
    (hmatch : Stmt.MatchingAll config p.body p'.body) (h : p.analyze config = .ok a)
    (h' : p'.analyze config = .ok a') : SameOutcome p p' a a' := by
  obtain ⟨π, hperm⟩ := exists_renumbering hmatch
  have hcourse : (p.course config).events = p.account config := p.course_eq_account config hids
  have hcourse' : (p'.course config).events = p'.account config :=
    p'.course_eq_account config hids'
  refine ⟨fun id => ?_, fun id => ?_, ?_⟩
  · refine Option.ext fun ty => ?_
    rw [types_eq_some_iff h, types_eq_some_iff h', hcourse, hcourse', typed_iff_of_perm hperm]
  · cases hk : a.resolutions[id]? with
    | some k =>
      rw [resolutions_eq_some_iff h, hcourse] at hk
      obtain ⟨d, hd, rfl⟩ := hk
      have hd' := (resolved_iff_of_perm hperm).mpr ⟨d, hd, rfl⟩
      refine .inr ⟨d.id, (d.rename π).id, d.site, rfl, ?_, ?_, ?_⟩
      · rw [resolutions_eq_some_iff h', hcourse']
        exact ⟨_, hd', rfl⟩
      · exact declarations_of_resolved hd
      · exact declarations_of_resolved hd'
    | none =>
      refine .inl ⟨rfl, Option.eq_none_iff_forall_ne_some.mpr fun k' hk' => ?_⟩
      rw [resolutions_eq_some_iff h', hcourse'] at hk'
      obtain ⟨d', hd', -⟩ := hk'
      obtain ⟨d, hd, -⟩ := (resolved_iff_of_perm hperm).mp hd'
      have hsome : a.resolutions[id]? = some d.id := by
        rw [resolutions_eq_some_iff h, hcourse]
        exact ⟨d, hd, rfl⟩
      rw [hk] at hsome
      cases hsome
  · refine List.Perm.map Finding.diagnostic ?_
    rw [findings_of_analyze h, findings_of_analyze h', hcourse, hcourse']
    exact findings_perm_of_perm hperm

/-- The order of function definitions does not matter. In a list of statements
anywhere in a program two neighbouring functions have different names, and
neither has the name of a variable that is declared before them in the
list. Then the program with the two in the other order has the same
outcome. -/
theorem Listing.functions_exchange (l : Listing) (f g : FunctionDef)
    (before behind : List Stmt) (hne : f.name ≠ g.name)
    (hf : Stmt.NoVariable f.name before) (hg : Stmt.NoVariable g.name before)
    (hids : (l.fill (before ++ f.stmt :: g.stmt :: behind)).ids.Nodup)
    (h : (l.fill (before ++ f.stmt :: g.stmt :: behind)).analyze config = .ok a)
    (h' : (l.fill (before ++ g.stmt :: f.stmt :: behind)).analyze config = .ok a') :
    SameOutcome (l.fill (before ++ f.stmt :: g.stmt :: behind))
      (l.fill (before ++ g.stmt :: f.stmt :: behind)) a a' := by
  have hlabels : (Stmt.labels (before ++ f.stmt :: g.stmt :: behind)).Perm
      (Stmt.labels (before ++ g.stmt :: f.stmt :: behind)) :=
    Stmt.perm_labels ((List.Perm.swap g.stmt f.stmt behind).append_left before)
  have hids' : (l.fill (before ++ g.stmt :: f.stmt :: behind)).ids.Nodup := by
    have hperm := (l.perm_labels hlabels).flatMap_right labelIds
    exact ((Stmt.perm_idsAll _).trans (hperm.trans (Stmt.perm_idsAll _).symm)).nodup_iff.mp hids
  have hmatch : Stmt.MatchingAll config (before ++ f.stmt :: g.stmt :: behind)
      (before ++ g.stmt :: f.stmt :: behind) := fun expected =>
    (matching_hoisting_exchange hne hf hg List.not_mem_nil List.not_mem_nil).andThen
      (matching_walkAll_exchange hf hg List.not_mem_nil List.not_mem_nil expected)
  have hreturns : Stmt.anyReturnsValue (before ++ f.stmt :: g.stmt :: behind)
      = Stmt.anyReturnsValue (before ++ g.stmt :: f.stmt :: behind) := by
    rw [Stmt.anyReturnsValue_append, Stmt.anyReturnsValue_append]
    rfl
  exact Program.sameOutcome hids hids' (l.matching hmatch hreturns) h h'

end

/-- The body of a function. -/
def Listing.ofMain : Listing :=
  .part (.top [] [] .start) (.function ⟨0, ⟨1, 1⟩⟩ "main" [] none ⟨1, 17⟩)

/-- A function that passes its parameter on. -/
def FunctionDef.even : FunctionDef :=
  ⟨⟨1, ⟨2, 3⟩⟩, "even", [⟨"n", none, ⟨2, 17⟩⟩], none, ⟨2, 20⟩,
    [.ret ⟨2, ⟨3, 5⟩⟩ (some (.call ⟨3, ⟨3, 12⟩⟩ (.identifier ⟨4, ⟨3, 12⟩⟩ "odd")
      [.identifier ⟨5, ⟨3, 16⟩⟩ "n"]))]⟩

/-- A function that does not read its parameter and calls the other one without an
argument. -/
def FunctionDef.odd : FunctionDef :=
  ⟨⟨6, ⟨5, 3⟩⟩, "odd", [⟨"n", none, ⟨5, 16⟩⟩], none, ⟨5, 19⟩,
    [.ret ⟨7, ⟨6, 5⟩⟩ (some (.call ⟨8, ⟨6, 12⟩⟩ (.identifier ⟨9, ⟨6, 12⟩⟩ "even") []))]⟩

/-- Functions that call each other get each other's numbers. -/
theorem Listing.functions_exchange_mutual :
    (ofMain.fill [FunctionDef.even.stmt, FunctionDef.odd.stmt]).ids.Nodup
      ∧ ∃ a a', (ofMain.fill [FunctionDef.even.stmt, FunctionDef.odd.stmt]).analyze {} = .ok a
        ∧ (ofMain.fill [FunctionDef.odd.stmt, FunctionDef.even.stmt]).analyze {} = .ok a'
        ∧ (a.resolutions[4]? = some 2 ∧ a'.resolutions[4]? = some 1)
        ∧ SameOutcome (ofMain.fill [FunctionDef.even.stmt, FunctionDef.odd.stmt])
          (ofMain.fill [FunctionDef.odd.stmt, FunctionDef.even.stmt]) a a' := by
  have hids : (ofMain.fill [FunctionDef.even.stmt, FunctionDef.odd.stmt]).ids.Nodup := by decide
  obtain ⟨a, ha, hk⟩ : ∃ a,
      (ofMain.fill [FunctionDef.even.stmt, FunctionDef.odd.stmt]).analyze {} = .ok a
        ∧ a.resolutions[4]? = some 2 :=
    Program.analyze_ok_of_results (by decide +kernel)
  obtain ⟨a', ha', hk'⟩ : ∃ a',
      (ofMain.fill [FunctionDef.odd.stmt, FunctionDef.even.stmt]).analyze {} = .ok a'
        ∧ a'.resolutions[4]? = some 1 :=
    Program.analyze_ok_of_results (by decide +kernel)
  have hsame := functions_exchange ofMain .even .odd [] [] (by decide) nofun nofun hids ha ha'
  exact ⟨hids, a, a', ha, ha', ⟨hk, hk'⟩, hsame⟩

end TreeCheck
