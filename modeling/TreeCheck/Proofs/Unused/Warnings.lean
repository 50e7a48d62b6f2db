/-
The unused names that an account reports.

Only where a scope is left are unused names reported, and only those of
the scope. Which of them are read is told by the events inside the
scope, since what comes before a scope does not know its names yet and
what comes after it cannot find them any more. So if a declaration is
read anywhere, it is read inside its scope, and what is said when the
scope is left is what the whole account has to say (`Settles`).
-/
import TreeCheck.Proofs.Points.Scene
import TreeCheck.Proofs.Unused.Reads

namespace TreeCheck

open Analysis

-- ============================================================= current

/-- What is current in a frame is what the frame finds. -/
theorem Frame.current_eq_filter {φ : Frame} (h : φ.Nodup) :
    φ.current = φ.filter fun d => φ.find d.name = some d := by
  induction φ with
  | nil => rfl
  | cons d φ ih =>
      obtain ⟨hd, hφ⟩ := List.nodup_cons.mp h
      have hfirst : Frame.find (d :: φ) d.name = some d := by
        rw [Frame.find_cons, if_pos rfl]
      rw [Frame.current, ih hφ, List.filter_filter, List.filter_cons, hfirst,
        if_pos (decide_eq_true rfl)]
      congr 1
      refine List.filter_congr fun e he => ?_
      have hne : d ≠ e := fun heq => hd (heq ▸ he)
      rw [Frame.find_cons]
      by_cases hname : d.name = e.name
      · simp [hname, hne]
      · simp [hname, Ne.symm hname]

/-- If no two symbols of a frame come from one place, the frame finds those
whose declaration is the last of its name. -/
theorem Frame.find_iff_last {φ : Frame} {d : Declared} (hd : d ∈ φ)
    (hsites : (φ.map (·.site)).Nodup) :
    φ.find d.name = some d ↔ φ.last d.name = some (d.decl Declared.place) := by
  rw [Frame.last_eq, Option.map_eq_some_iff]
  constructor
  · intro h
    exact ⟨d, h, rfl⟩
  · rintro ⟨e, he, hdecl⟩
    have hsite : e.site = d.site := congrArg (fun d => d.info.site) hdecl
    rw [he, List.inj_on_of_nodup_map hsites (Frame.mem_of_find he) hd hsite]

-- ============================================================= reporting

/-- The unused name that an event reports. -/
def Event.unused? (e : Event) : Option Finding :=
  e.finding?.filter (·.cause.kind = .unusedVariable)

section

variable {es : List Event} {config : Config} {w : Walk}

theorem Plain.unused (h : Plain es) : es.filterMap Event.unused? = [] := by
  refine List.filterMap_eq_nil_iff.mpr fun e he => ?_
  cases e with
  | typed | resolved | read | bound => rfl
  | found node f =>
      have hplain := h node f he
      rw [Event.unused?, Event.finding?, Option.filter_some, if_neg]
      intro hkind
      rw [decide_eq_true_eq] at hkind
      cases hc : f.cause with
      | unusedVariable | unusedParameter =>
          rw [hc] at hplain
          cases hplain
      | _ =>
          rw [hc] at hkind
          cases hkind

theorem unused_leavingEvents (config : Config) (w : Walk) :
    (leavingEvents config w).filterMap Event.unused?
      = (leavingEvents config w).filterMap Event.finding? := by
  refine List.filterMap_congr fun e he => ?_
  obtain ⟨node, f, rfl, hkind⟩ := exists_unused_of_leavingEvents he
  rw [Event.unused?, Event.finding?, Option.filter_some, if_pos (decide_eq_true hkind)]

/-- What is said about one symbol when its scope is left. -/
theorem unused?_eq {used : Std.TreeSet SymbolId} {d : Declared} :
    unused? used d.toSymbol
      = if d.kind ≠ .function ∧ d.name.toList.head? ≠ some '_' ∧ d.id ∉ used
        then some (unusedFinding (d.decl Declared.place)) else none := by
  unfold unused?
  by_cases hsilent : d.name.toList.head? = some '_' ∨ used.contains d.id = true
  · rw [if_pos hsilent, if_neg]
    rintro ⟨-, hname, hused⟩
    rcases hsilent with h | h
    · exact hname h
    · exact hused (Std.TreeSet.contains_iff_mem.mp h)
  · rw [if_neg hsilent]
    rw [not_or, Std.TreeSet.contains_iff_mem] at hsilent
    cases hkind : d.kind with
    | function => rw [if_neg (fun h => h.1 rfl)]
    | «variable» =>
        rw [if_pos ⟨by decide, hsilent⟩, unusedFinding]
        simp only [Declared.decl, hkind]
        rfl
    | parameter =>
        rw [if_pos ⟨by decide, hsilent⟩, unusedFinding]
        simp only [Declared.decl, hkind]
        rfl

/-- What is said when the scope of a region is left is what is unused in it, if
what is read of it is read inside. -/
theorem findings_leavingEvents {r : Region} {ds : List (Decl Place)}
    {reads : Site → Bool} (hwarn : config.warnUnused = true)
    (hplaced : w.frame.placed = ds.reverse) (horder : r.Order ds)
    (hsites : (w.frame.map (·.site)).Nodup)
    (hreads : ∀ d ∈ w.frame, .read d.id ∈ w.events ↔ reads d.site = true) :
    (leavingEvents config w).filterMap Event.finding?
      = (r.unused reads).map unusedFinding := by
  have hds : ds = w.frame.reverse.map (·.decl Declared.place) := by
    rw [List.map_reverse, ← Frame.placed, hplaced, List.reverse_reverse]
  have hlast := horder.last hplaced
  rw [leavingEvents, if_pos hwarn, horder.unused,
    Frame.current_eq_filter (hsites.of_map _), ← List.filter_reverse,
    List.filterMap_filterMap, List.filterMap_filter, hds, List.filter_map,
    List.map_map, ← List.filterMap_eq_map, List.filterMap_filter]
  refine List.filterMap_congr fun d hd => ?_
  have hd := List.mem_reverse.mp hd
  have hused : d.id ∉ (replay {} w.events).used ↔ reads d.site = false := by
    have hempty : d.id ∉ ({} : State).used := Std.TreeSet.not_mem_emptyc
    rw [mem_used_replay, hreads d hd, Bool.eq_false_iff]
    exact not_congr (or_iff_right hempty)
  simp only [Frame.find_iff_last hd hsites, hlast, unused?_eq, hused]
  by_cases hcurrent : (r.named d.name).getLast? = some (d.decl Declared.place)
  · rw [if_pos (decide_eq_true hcurrent)]
    by_cases hunused : d.kind ≠ .function ∧ d.name.toList.head? ≠ some '_'
        ∧ reads d.site = false
    · rw [if_pos hunused, if_pos]
      · rfl
      · exact decide_eq_true ⟨hunused.1, hcurrent, hunused.2⟩
    · rw [if_neg hunused, if_neg]
      · rfl
      · exact fun h => hunused ⟨(of_decide_eq_true h).1, (of_decide_eq_true h).2.2⟩
  · rw [if_neg (fun h => hcurrent (of_decide_eq_true h)), if_neg]
    exact fun h => hcurrent (of_decide_eq_true h).2.1

/-- What a scope has in its frame, the walk of the scope has bound. -/
theorem Walk.Confined.bound_of_mem_frame {outer : Env} {n : SymbolId}
    (h : w.Confined outer [] n) {d : Declared} (hd : d ∈ w.frame) :
    d ∈ w.events.filterMap Event.bound? := by
  obtain ⟨new, hnew, hsublist⟩ := h.frame
  rw [hnew, List.append_nil] at hd
  exact hsublist.mem (List.mem_reverse.mpr hd)

theorem Walk.Confined.nodup_frame {outer : Env} {n : SymbolId}
    (h : w.Confined outer [] n)
    (hsites : ((w.events.filterMap Event.bound?).map (·.site)).Nodup) :
    (w.frame.map (·.site)).Nodup := by
  obtain ⟨new, hnew, hsublist⟩ := h.frame
  rw [hnew, List.append_nil, ← List.nodup_reverse, ← List.map_reverse]
  exact hsites.sublist (hsublist.map _)

end

-- ============================================================== settling

/-- What a walk binds and does not hand on, it reads if it is read at all. -/
structure Settles (reads : Site → Bool) (outer : Env) (φ : Frame) (n : SymbolId)
    (w : Walk) : Prop where
  below : ∀ ψ ∈ φ :: outer, ∀ d ∈ ψ, d.id < n
  sites : ((w.events.filterMap Event.bound?).map (·.site)).Nodup
  told : ∀ d ∈ w.events.filterMap Event.bound?, (∀ e ∈ w.frame, e.id ≠ d.id) →
    (.read d.id ∈ w.events ↔ reads d.site = true)

namespace Settles

variable {reads : Site → Bool} {outer : Env} {φ : Frame} {n : SymbolId} {w : Walk}
  {f : Frame → SymbolId → Walk}

/-- What the first of two walks keeps to itself, the second cannot read. -/
theorem first (h : Settles reads outer φ n (w.andThen f)) (hw : w.Confined outer φ n)
    (hf : (f w.frame w.next).Confined outer w.frame w.next) :
    Settles reads outer φ n w where
  below := h.below
  sites := by
    have hsites := h.sites
    rw [Walk.events_andThen, List.filterMap_append, List.map_append] at hsites
    exact (List.nodup_append.mp hsites).1
  told := by
    intro d hd hkept
    obtain ⟨hle, hlt⟩ := hw.bound d hd
    have hbound : d ∈ (w.andThen f).events.filterMap Event.bound? := by
      rw [Walk.events_andThen, List.filterMap_append]
      exact List.mem_append_left _ hd
    have hframe : ∀ e ∈ (w.andThen f).frame, e.id ≠ d.id := by
      intro e he
      rcases hf.mem_frame he with he | ⟨hnew, -⟩
      · exact hkept e he
      · exact Nat.ne_of_gt (Nat.lt_of_lt_of_le hlt hnew)
    have hread : .read d.id ∉ (f w.frame w.next).events := by
      intro hread
      rcases hf.reads d.id hread with ⟨ψ, hψ, e, he, hid⟩ | ⟨hnew, -⟩
      · rcases List.mem_cons.mp hψ with rfl | hψ
        · exact hkept e he hid
        · have hold := h.below ψ (List.mem_cons_of_mem _ hψ) e he
          exact absurd hid (Nat.ne_of_lt (Nat.lt_of_lt_of_le hold hle))
      · exact absurd hlt (Nat.not_lt.mpr hnew)
    rw [← h.told d hbound hframe, Walk.events_andThen, List.mem_append]
    exact (or_iff_left hread).symm

/-- What the second of two walks binds, the first cannot read. -/
theorem second (h : Settles reads outer φ n (w.andThen f))
    (hw : w.Confined outer φ n)
    (hf : (f w.frame w.next).Confined outer w.frame w.next) :
    Settles reads outer w.frame w.next (f w.frame w.next) where
  below := by
    have hadvances := hw.advances
    refine List.forall_mem_cons.mpr ⟨fun d hd => ?_, fun ψ hψ d hd => ?_⟩
    · rcases hw.mem_frame hd with hd | ⟨-, hlt⟩
      · have hold := h.below φ List.mem_cons_self d hd
        exact Nat.lt_of_lt_of_le hold hadvances
      · exact hlt
    · have hold := h.below ψ (List.mem_cons_of_mem _ hψ) d hd
      exact Nat.lt_of_lt_of_le hold hadvances
  sites := by
    have hsites := h.sites
    rw [Walk.events_andThen, List.filterMap_append, List.map_append] at hsites
    exact (List.nodup_append.mp hsites).2.1
  told := by
    intro d hd hkept
    obtain ⟨hle, -⟩ := hf.bound d hd
    have hbound : d ∈ (w.andThen f).events.filterMap Event.bound? := by
      rw [Walk.events_andThen, List.filterMap_append]
      exact List.mem_append_right _ hd
    have hread : .read d.id ∉ w.events := by
      intro hread
      have hadvances := hw.advances
      rcases hw.reads d.id hread with ⟨ψ, hψ, e, he, hid⟩ | ⟨-, hlt⟩
      · have hold := h.below ψ hψ e he
        have hbelow := Nat.lt_of_lt_of_le hold (Nat.le_trans hadvances hle)
        exact absurd hid (Nat.ne_of_lt hbelow)
      · exact absurd hlt (Nat.not_lt.mpr hle)
    rw [← h.told d hbound hkept, Walk.events_andThen, List.mem_append]
    exact (or_iff_right hread).symm

theorem after {es : List Event} (h : Settles reads outer φ n (w.after es))
    (hw : w.Confined outer φ n) (hes : Consults (Env.find (φ :: outer)) es) :
    Settles reads outer φ n w := by
  have hlooks : (w.after es).events.filterMap Event.bound?
      = w.events.filterMap Event.bound? := by
    rw [Walk.events_after, List.filterMap_append, hes.looks, List.nil_append]
  have hsites := h.sites
  rw [hlooks] at hsites
  refine ⟨h.below, hsites, fun d hd hkept => ?_⟩
  have hread : .read d.id ∉ es := by
    intro hread
    obtain ⟨x, e, hx, hid⟩ := hes _ hread
    obtain ⟨ψ, hψ, hfind⟩ := List.exists_of_findSome?_eq_some hx
    have hold := h.below ψ hψ e (Frame.mem_of_find hfind)
    have hnew := (hw.bound d hd).1
    exact absurd hid (Nat.ne_of_lt (Nat.lt_of_lt_of_le hold hnew))
  have htold := h.told d (hlooks ▸ hd) hkept
  rw [← htold, Walk.events_after, List.mem_append]
  exact (or_iff_right hread).symm

/-- What a scope binds, it keeps to itself. -/
theorem told_closed {config : Config}
    (h : Settles reads outer φ n (w.closed config φ))
    (hw : w.Confined (φ :: outer) [] n) :
    ∀ d ∈ w.events.filterMap Event.bound?,
      (.read d.id ∈ w.events ↔ reads d.site = true) := by
  intro d hd
  have hbound : d ∈ (w.closed config φ).events.filterMap Event.bound? := by
    show d ∈ (w.events ++ leavingEvents config w).filterMap _
    rw [List.filterMap_append]
    exact List.mem_append_left _ hd
  have hkept : ∀ e ∈ φ, e.id ≠ d.id := by
    intro e he
    have hold := h.below φ List.mem_cons_self e he
    have hnew := (hw.bound d hd).1
    exact Nat.ne_of_lt (Nat.lt_of_lt_of_le hold hnew)
  have hread : .read d.id ∉ leavingEvents config w := by
    intro hread
    obtain ⟨node, f, hf⟩ := reports_leavingEvents config w _ hread
    cases hf
  rw [← h.told d hbound hkept]
  show _ ↔ .read d.id ∈ w.events ++ leavingEvents config w
  rw [List.mem_append]
  exact (or_iff_left hread).symm

theorem inner {config : Config} (h : Settles reads outer φ n (w.closed config φ))
    (hw : w.Confined (φ :: outer) [] n) : Settles reads (φ :: outer) [] n w where
  below := List.forall_mem_cons.mpr ⟨nofun, h.below⟩
  sites := by
    have hsites := h.sites
    rw [Walk.closed, List.filterMap_append, (reports_leavingEvents config w).bound,
      List.append_nil] at hsites
    exact hsites
  told := fun d hd _ => h.told_closed hw d hd

end Settles

-- =============================================================== warning

/-- What is found about a region when it is left. -/
def Region.warnings (reads : Site → Bool) (r : Region) : List Finding :=
  (r.unused reads).map unusedFinding

theorem Region.diagnostic_warnings (reads : Site → Bool) (r : Region) :
    (r.warnings reads).map Finding.diagnostic = (r.unused reads).map unusedDiagnostic := by
  rw [warnings, List.map_map]
  exact List.map_congr_left fun d _ => diagnostic_unusedFinding d

/-- A walk reports, up to order, the unused names of some regions, if what it
binds and does not hand on is settled. -/
structure Warns (reads : Site → Bool) (outer : Env) (φ : Frame) (n : SymbolId)
    (rs : List Region) (w : Walk) : Prop where
  confined : w.Confined outer φ n
  unused : Settles reads outer φ n w →
    (w.events.filterMap Event.unused?).Perm (rs.flatMap (Region.warnings reads))

namespace Warns

variable {reads : Site → Bool} {outer : Env} {φ : Frame} {n : SymbolId}
  {rs rs' : List Region} {w : Walk}

theorem andThen {f : Frame → SymbolId → Walk} (h : Warns reads outer φ n rs w)
    (h' : Warns reads outer w.frame w.next rs' (f w.frame w.next)) :
    Warns reads outer φ n (rs ++ rs') (w.andThen f) where
  confined := h.confined.andThen h'.confined
  unused := by
    intro hsettles
    rw [Walk.events_andThen, List.filterMap_append, List.flatMap_append]
    refine (h.unused ?_).append (h'.unused ?_)
    · exact hsettles.first h.confined h'.confined
    · exact hsettles.second h.confined h'.confined

theorem after {es : List Event} (h : Warns reads outer φ n rs w)
    (hes : Consults (Env.find (φ :: outer)) es) (hplain : Plain es) :
    Warns reads outer φ n rs (w.after es) where
  confined := h.confined.after hes
  unused := by
    intro hsettles
    rw [Walk.events_after, List.filterMap_append, hplain.unused, List.nil_append]
    exact h.unused (hsettles.after h.confined hes)

theorem same (outer : Env) (φ : Frame) (n : SymbolId) :
    Warns reads outer φ n [] ⟨φ, n, []⟩ where
  confined := .same outer φ n
  unused := fun _ => .nil

theorem consults {es : List Event} (hes : Consults (Env.find (φ :: outer)) es)
    (hplain : Plain es) : Warns reads outer φ n [] ⟨φ, n, es⟩ := by
  have h : Warns reads outer φ n [] (Walk.after es ⟨φ, n, []⟩) :=
    (same outer φ n).after hes hplain
  rw [Walk.after, List.append_nil] at h
  exact h

theorem declaring (node : NodeId) (site : Site) (b : Binding) :
    Warns reads outer φ n [] (declaring node site b φ n) where
  confined := .declaring outer node site b φ n
  unused := by
    intro _
    refine .of_eq ?_
    show (duplicateEvents node b (φ.find b.name) ++ [_]).filterMap _ = []
    cases φ.find b.name <;> rfl

/-- The scope of a region is left. -/
theorem closed {config : Config} {r : Region} {ds : List (Decl Place)}
    (h : Warns reads (φ :: outer) [] n rs w) (hwarn : config.warnUnused = true)
    (hplaced : w.frame.placed = ds.reverse) (horder : r.Order ds) :
    Warns reads outer φ n (r :: rs) (w.closed config φ) where
  confined := h.confined.closed config
  unused := by
    intro hsettles
    have hinner := hsettles.inner h.confined
    have hleft := findings_leavingEvents hwarn hplaced horder
      (h.confined.nodup_frame hinner.sites)
      fun d hd => hsettles.told_closed h.confined d (h.confined.bound_of_mem_frame hd)
    show ((w.events ++ leavingEvents config w).filterMap _).Perm _
    rw [List.filterMap_append, unused_leavingEvents, hleft, List.flatMap_cons]
    exact ((h.unused hinner).append_right _).trans List.perm_append_comm

end Warns

end TreeCheck
