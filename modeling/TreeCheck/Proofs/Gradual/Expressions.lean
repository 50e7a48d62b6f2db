/-
Expressions under less precise names.

Two environments are compared symbol by symbol: the symbols differ in
their types at most, and the types in the first one are less precise.
An expression that is clean in the second is clean in the first, and
everything that is recorded for it is less precise. Both facts need each
other, since what is checked about a node depends on the types below.
-/
import TreeCheck.Proofs.Gradual.Precision
import TreeCheck.Proofs.Typing.Expressions

namespace TreeCheck

open Analysis

-- ============================================================ relations

/-- A symbol is another one, of first-order type, with a less precise
type. -/
structure Declared.Below (d' d : Declared) : Prop where
  firstOrder : d.type.FirstOrder
  less : d'.type.LessPrecise d.type
  same : d' = { d with type := d'.type }

/-- Names are looked up with less precise types. -/
def LookupBelow (ρ' ρ : Lookup) : Prop :=
  ∀ x, Option.Rel Declared.Below (ρ' x) (ρ x)

/-- A recorded type is less precise than another one of the same node. -/
def TypedBelow (r' r : NodeId × Ty) : Prop := r'.1 = r.1 ∧ r'.2.LessPrecise r.2

/-- Events are clean, and the types that they record are less precise. -/
structure EventsBelow (es' es : List Event) : Prop where
  clean : Clean es'
  typed : List.Forall₂ TypedBelow (es'.filterMap Event.typed?)
    (es.filterMap Event.typed?)

section

variable {es' es fs' fs : List Event} {ρ' ρ : Lookup}

theorem EventsBelow.append (h : EventsBelow es' es) (h' : EventsBelow fs' fs) :
    EventsBelow (es' ++ fs') (es ++ fs) where
  clean := clean_append.mpr ⟨h.clean, h'.clean⟩
  typed := by
    rw [List.filterMap_append, List.filterMap_append]
    exact List.rel_append h.typed h'.typed

theorem EventsBelow.nil : EventsBelow [] [] := ⟨clean_nil, .nil⟩

/-- Events that record nothing. -/
theorem EventsBelow.untyped (hclean : Clean es')
    (h' : es'.filterMap Event.typed? = [])
    (h : es.filterMap Event.typed? = []) : EventsBelow es' es where
  clean := hclean
  typed := by
    rw [h', h]
    exact .nil

theorem EventsBelow.reports (hclean : Clean es') (h' : Reports es')
    (h : Reports es) :
    EventsBelow es' es := .untyped hclean h'.typed h.typed

theorem EventsBelow.recorded {id : NodeId} {ty' ty : Ty}
    (h : ty'.LessPrecise ty) :
    EventsBelow [.typed id ty'] [.typed id ty] :=
  ⟨clean_typed, .cons ⟨rfl, h⟩ .nil⟩

/-- A check that was met and is met with other types. -/
theorem EventsBelow.complaint {ok' ok : Bool} {node : NodeId} {c' c : Cause}
    {p : Position} (h : ok' = true) :
    EventsBelow (complaint ok' node c' p) (complaint ok node c p) := by
  rw [h]
  exact .reports clean_nil (reports_complaint _ _ _ _) (reports_complaint _ _ _ _)

/-- What is found in the second environment is found in the first. -/
theorem LookupBelow.exists_of_find (h : LookupBelow ρ' ρ) {x : String}
    {d : Declared} (hd : ρ x = some d) : ∃ d', ρ' x = some d' ∧ d'.Below d := by
  have hx := h x
  rw [hd] at hx
  generalize ρ' x = found at hx
  cases hx with
  | some hbelow => exact ⟨_, rfl, hbelow⟩

theorem LookupBelow.firstOrder (h : LookupBelow ρ' ρ) (x : String) (d : Declared)
    (hd : ρ x = some d) : d.type.FirstOrder := by
  obtain ⟨d', -, hbelow⟩ := h.exists_of_find hd
  exact hbelow.firstOrder

end

-- =============================================================== checks

theorem Ty.accepts_mono {a b a' b' : Ty} (h : a.accepts b = true)
    (ha : a.FirstOrder) (hb : b.FirstOrder) (ha' : a'.LessPrecise a)
    (hb' : b'.LessPrecise b) :
    a'.accepts b' = true := by
  rw [Ty.accepts_iff ha hb] at h
  rw [Ty.accepts_iff (ha'.firstOrder ha) (hb'.firstOrder hb)]
  exact h.mono ha hb ha' hb'

theorem Ty.forall₂_accepts_mono {ps as ps' as' : List Ty}
    (h : List.Forall₂ (fun p a => p.accepts a = true) ps as)
    (hps : ∀ p ∈ ps, p.Ground) (has : ∀ a ∈ as, a.FirstOrder)
    (hps' : List.Forall₂ Ty.LessPrecise ps' ps)
    (has' : List.Forall₂ Ty.LessPrecise as' as) :
    List.Forall₂ (fun p a => p.accepts a = true) ps' as' := by
  induction h generalizing ps' as' with
  | nil =>
      cases hps'
      cases has'
      exact .nil
  | cons hpa _ ih =>
      rw [List.forall_mem_cons] at hps has
      cases hps' with
      | cons hp hps' =>
          cases has' with
          | cons ha has' =>
              refine .cons ?_ (ih hps.2 has.2 hps' has')
              exact Ty.accepts_mono hpa hps.1.firstOrder has.1 hp ha

/-- A call that is possible is possible with less precise types. -/
theorem Ty.Takes.mono {ty ty' : Ty} {as as' : List Ty} (h : ty.Takes as)
    (hty : ty.FirstOrder) (has : ∀ a ∈ as, a.FirstOrder)
    (hty' : ty'.LessPrecise ty) (has' : List.Forall₂ Ty.LessPrecise as' as) :
    ty'.Takes as' ∧ ty'.result.LessPrecise ty.result := by
  cases ty with
  | func ps r =>
      rcases hty'.of_func with rfl | ⟨ps', r', rfl, hps', hr'⟩
      · exact ⟨trivial, .unknown⟩
      · exact ⟨Ty.forall₂_accepts_mono h hty.1 has hps' has', hr'⟩
  | unknown =>
      rw [hty'.eq_unknown]
      exact ⟨trivial, .refl⟩
  | int | float | bool | string | void | error => exact h.elim

-- ========================================================== expressions

section

variable {ρ' ρ : Lookup}

mutual

/-- A clean expression is clean under less precise names, and its types are
less precise. -/
theorem Expr.events_below (h : LookupBelow ρ' ρ) :
    (e : Expr) → Clean (e.events ρ) →
    EventsBelow (e.events ρ') (e.events ρ)
      ∧ (e.typeIn ρ').LessPrecise (e.typeIn ρ)
  | .literal t v, _ => ⟨.recorded .refl, .refl⟩
  | .identifier t x, hclean => by
      simp only [Expr.events, clean_append, clean_nameEvents] at hclean
      obtain ⟨⟨d, hd⟩, -⟩ := hclean
      obtain ⟨d', hd', hbelow⟩ := h.exists_of_find hd
      have htype : (typeIn ρ' (.identifier t x)).LessPrecise
        (typeIn ρ (.identifier t x)) := by
        rw [typeIn, typeIn, hd, hd']
        exact hbelow.less
      refine ⟨?_, htype⟩
      simp only [Expr.events, Expr.nameEvents, hd, hd']
      exact (EventsBelow.untyped (by simp [Event.isError]) rfl rfl).append
        (.recorded htype)
  | .binary t op l r, hclean => by
      simp only [Expr.events, clean_append,
        clean_complaint (c := .badOperands _ _ _) rfl,
        Option.isSome_iff_exists] at hclean
      obtain ⟨⟨⟨hl, hr⟩, c, hc⟩, -⟩ := hclean
      obtain ⟨hleft, htl⟩ := Expr.events_below h l hl
      obtain ⟨hright, htr⟩ := Expr.events_below h r hr
      have hfl := l.firstOrder_typeIn h.firstOrder hl
      have hfr := r.firstOrder_typeIn h.firstOrder hr
      obtain ⟨c', hrule, hless⟩ :=
        ((Ty.binary?_eq_some hfl hfr).mp hc).mono hfl hfr htl htr
      have hc' := (Ty.binary?_eq_some (htl.firstOrder hfl)
        (htr.firstOrder hfr)).mpr hrule
      have htype : (typeIn ρ' (.binary t op l r)).LessPrecise
        (typeIn ρ (.binary t op l r)) := by
        rw [typeIn, typeIn, hc, hc']
        exact hless
      refine ⟨?_, htype⟩
      simp only [Expr.events]
      refine ((hleft.append hright).append (.complaint ?_)).append
        (.recorded htype)
      rw [hc']
      rfl
  | .unary t op e, hclean => by
      simp only [Expr.events, clean_append,
        clean_complaint (c := .badOperand _ _) rfl,
        Option.isSome_iff_exists] at hclean
      obtain ⟨⟨he, c, hc⟩, -⟩ := hclean
      obtain ⟨hoperand, hte⟩ := Expr.events_below h e he
      have hfe := e.firstOrder_typeIn h.firstOrder he
      obtain ⟨hrule, rfl⟩ := (Ty.unary?_eq_some hfe).mp hc
      have hc' := (Ty.unary?_eq_some (hte.firstOrder hfe)).mpr
        ⟨hrule.mono hte, rfl⟩
      have htype : (typeIn ρ' (.unary t op e)).LessPrecise
        (typeIn ρ (.unary t op e)) := by
        rw [typeIn, typeIn, hc, hc']
        exact hte
      refine ⟨?_, htype⟩
      simp only [Expr.events]
      refine (hoperand.append (.complaint ?_)).append (.recorded htype)
      rw [hc']
      rfl
  | .call t f args, hclean => by
      simp only [Expr.events, clean_append] at hclean
      obtain ⟨⟨⟨hf, hargs⟩, hcall⟩, -⟩ := hclean
      obtain ⟨hcallee, htf⟩ := Expr.events_below h f hf
      obtain ⟨hparts, htargs⟩ := Expr.eventsAll_below h args hargs
      have hff := f.firstOrder_typeIn h.firstOrder hf
      rw [clean_callEvents hff.ne_error] at hcall
      obtain ⟨htakes, hresult⟩ :=
        hcall.mono hff (Expr.firstOrder_types h.firstOrder args hargs) htf htargs
      refine ⟨?_, hresult⟩
      simp only [Expr.events]
      refine ((hcallee.append hparts).append ?_).append (.recorded hresult)
      exact .reports ((clean_callEvents (htf.firstOrder hff).ne_error).mpr htakes)
        (reports_callEvents _ _ _ _) (reports_callEvents _ _ _ _)

theorem Expr.eventsAll_below (h : LookupBelow ρ' ρ) : (es : List Expr) →
    Clean (Expr.eventsAll ρ es) →
    EventsBelow (Expr.eventsAll ρ' es) (Expr.eventsAll ρ es)
      ∧ List.Forall₂ Ty.LessPrecise (es.map (·.typeIn ρ')) (es.map (·.typeIn ρ))
  | [], _ => ⟨.nil, .nil⟩
  | e :: es, hclean => by
      simp only [Expr.eventsAll, clean_append] at hclean ⊢
      obtain ⟨hhead, hty⟩ := Expr.events_below h e hclean.1
      obtain ⟨htail, htys⟩ := Expr.eventsAll_below h es hclean.2
      exact ⟨hhead.append htail, .cons hty htys⟩

end

end

end TreeCheck
