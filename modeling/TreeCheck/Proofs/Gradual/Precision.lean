/-
Precision of types, and that no rule is stricter on less of it.

`unknown` is less precise than every type, and function types are
compared in their components. Every rule of the type system that applies
to some types applies to less precise ones, and what it gives then is
less precise too. For the components of function types this rests on
their being ground: one level is all that a rule looks at.
-/
import TreeCheck.Proofs.Typing.FirstOrder

namespace TreeCheck

/-- The first type is the second one or less precise. -/
inductive Ty.LessPrecise : Ty → Ty → Prop
  | refl {a} : LessPrecise a a
  | unknown {b} : LessPrecise .unknown b
  | func {ps qs r s} : List.Forall₂ LessPrecise ps qs → LessPrecise r s →
      LessPrecise (.func ps r) (.func qs s)

namespace Ty

variable {a b a' b' : Ty}

theorem LessPrecise.eq_unknown (h : a.LessPrecise .unknown) : a = .unknown := by
  cases h <;> rfl

theorem LessPrecise.of_void (h : Ty.void.LessPrecise b) : b = .void := by
  cases h
  rfl

/-- Below a ground type there is only `unknown`. -/
theorem LessPrecise.of_ground (h : a.LessPrecise b) (hb : b.Ground) :
    a = b ∨ a = .unknown := by
  cases h with
  | refl => exact .inl rfl
  | unknown => exact .inr rfl
  | func => exact hb.elim

/-- Below a function type there are function types and `unknown`. -/
theorem LessPrecise.of_func {qs : List Ty} {s : Ty}
    (h : a.LessPrecise (.func qs s)) :
    a = .unknown ∨ ∃ ps r, a = .func ps r ∧ List.Forall₂ LessPrecise ps qs
      ∧ r.LessPrecise s := by
  cases h with
  | refl => exact .inr ⟨qs, s, rfl, List.forall₂_same.mpr fun _ _ => .refl, .refl⟩
  | unknown => exact .inl rfl
  | func hps hr => exact .inr ⟨_, _, rfl, hps, hr⟩

theorem LessPrecise.ground (h : a.LessPrecise b) (hb : b.Ground) : a.Ground := by
  rcases h.of_ground hb with rfl | rfl
  · exact hb
  · trivial

theorem LessPrecise.firstOrder (h : a.LessPrecise b) (hb : b.FirstOrder) :
    a.FirstOrder := by
  cases b with
  | func qs s =>
      rcases h.of_func with rfl | ⟨ps, r, rfl, hps, hr⟩
      · trivial
      · refine ⟨fun p hp => ?_, hr.ground hb.2⟩
        obtain ⟨i, hi, rfl⟩ := List.mem_iff_getElem.mp hp
        have hlt : i < qs.length := hps.length_eq ▸ hi
        exact (hps.get hi hlt).ground (hb.1 _ (List.getElem_mem hlt))
  | int | float | bool | string | void | unknown | error =>
      exact (h.ground hb).firstOrder

-- ======================================================== assignability

theorem Similar.mono (h : a.Similar b) (ha : a.Ground) (hb : b.Ground)
    (ha' : a'.LessPrecise a) (hb' : b'.LessPrecise b) : a'.Similar b' := by
  rcases ha'.of_ground ha with rfl | rfl
  · rcases hb'.of_ground hb with rfl | rfl
    · exact h
    · exact .unknownRight
  · exact .unknownLeft

theorem forall₂_similar_mono {ps qs ps' qs' : List Ty}
    (h : List.Forall₂ Similar ps qs) (hps : ∀ p ∈ ps, p.Ground)
    (hqs : ∀ q ∈ qs, q.Ground) (hps' : List.Forall₂ LessPrecise ps' ps)
    (hqs' : List.Forall₂ LessPrecise qs' qs) :
    List.Forall₂ Similar ps' qs' := by
  induction h generalizing ps' qs' with
  | nil =>
      cases hps'
      cases hqs'
      exact .nil
  | cons hpq _ ih =>
      rw [List.forall_mem_cons] at hps hqs
      cases hps' with
      | cons hp hps' =>
          cases hqs' with
          | cons hq hqs' =>
              exact .cons (hpq.mono hps.1 hqs.1 hp hq) (ih hps.2 hqs.2 hps' hqs')

theorem Assignable.func_mono {ps qs : List Ty} {r s : Ty}
    (hps : List.Forall₂ Similar ps qs) (hr : r.Similar s)
    (ha : (Ty.func ps r).FirstOrder) (hb : (Ty.func qs s).FirstOrder)
    (ha' : a'.LessPrecise (.func ps r)) (hb' : b'.LessPrecise (.func qs s)) :
    a'.Assignable b' := by
  rcases ha'.of_func with rfl | ⟨ps', r', rfl, hps', hr'⟩
  · exact .unknownTarget
  · rcases hb'.of_func with rfl | ⟨qs', s', rfl, hqs', hs'⟩
    · exact .unknownValue
    · exact .func (forall₂_similar_mono hps ha.1 hb.1 hps' hqs')
        (hr.mono ha.2 hb.2 hr' hs')

/-- What can be assigned can be assigned with less precise types. -/
theorem Assignable.mono (h : a.Assignable b) (ha : a.FirstOrder)
    (hb : b.FirstOrder) (ha' : a'.LessPrecise a) (hb' : b'.LessPrecise b) :
    a'.Assignable b' := by
  cases h with
  | refl =>
      cases a with
      | func ps r =>
          exact .func_mono (List.forall₂_same.mpr fun _ _ => .refl) .refl ha hb
            ha' hb'
      | int | float | bool | string | void | unknown | error =>
          rcases ha'.of_ground ha with rfl | rfl
          · rcases hb'.of_ground ha with rfl | rfl
            · exact .refl
            · exact .unknownValue
          · exact .unknownTarget
  | unknownTarget =>
      rw [ha'.eq_unknown]
      exact .unknownTarget
  | unknownValue =>
      rw [hb'.eq_unknown]
      exact .unknownValue
  | widen =>
      rcases ha'.of_ground trivial with rfl | rfl
      · rcases hb'.of_ground trivial with rfl | rfl
        · exact .widen
        · exact .unknownValue
      · exact .unknownTarget
  | func hps hr => exact .func_mono hps hr ha hb ha' hb'

-- ============================================================ operators

theorem OrUnknown.mono {P : Ty → Prop} (hP : ∀ t, P t → t.Ground)
    (h : a.OrUnknown P) (ha' : a'.LessPrecise a) : a'.OrUnknown P := by
  rcases h with h | rfl
  · rcases ha'.of_ground (hP a h) with rfl | rfl
    · exact .inl h
    · exact .inr rfl
  · exact .inr ha'.eq_unknown

theorem Number.ground (h : a.Number) : a.Ground := by
  cases h <;> trivial

theorem ground_of_eq_bool (t : Ty) (h : t = .bool) : t.Ground := by
  rw [h]
  trivial

end Ty

variable {op : BinaryOp} {a b c a' b' : Ty}

theorem BinaryOp.Admits.ground (h : op.Admits a) : a.Ground := by
  rcases h with (h | rfl) | ⟨-, rfl⟩
  · exact h.ground
  · trivial
  · trivial

theorem BinaryOp.Admits.mono (h : op.Admits a) (ha' : a'.LessPrecise a) :
    op.Admits a' := by
  rcases ha'.of_ground h.ground with rfl | rfl
  · exact h
  · exact .inl (.inr rfl)

theorem Arithmetic.admits (h : Arithmetic op a b c) :
    op.Admits a ∧ op.Admits b := by
  cases h with
  | int => exact ⟨.inl (.inl .int), .inl (.inl .int)⟩
  | float ha hb _ => exact ⟨.inl (.inl ha), .inl (.inl hb)⟩
  | concat hop => exact ⟨.inr ⟨hop, rfl⟩, .inr ⟨hop, rfl⟩⟩
  | unknownLeft hb => exact ⟨.inl (.inr rfl), hb⟩
  | unknownRight ha => exact ⟨ha, .inl (.inr rfl)⟩

theorem Arithmetic.mono (h : Arithmetic op a b c) (ha' : a'.LessPrecise a)
    (hb' : b'.LessPrecise b) :
    ∃ c', Arithmetic op a' b' c' ∧ c'.LessPrecise c := by
  obtain ⟨ha, hb⟩ := h.admits
  rcases ha'.of_ground ha.ground with rfl | rfl
  · rcases hb'.of_ground hb.ground with rfl | rfl
    · exact ⟨c, h, .refl⟩
    · exact ⟨.unknown, .unknownRight ha, .unknown⟩
  · exact ⟨.unknown, .unknownLeft (hb.mono hb'), .unknown⟩

/-- An operator that applies applies to less precise operands. -/
theorem BinaryRule.mono (h : BinaryRule op a b c) (ha : a.FirstOrder)
    (hb : b.FirstOrder) (ha' : a'.LessPrecise a) (hb' : b'.LessPrecise b) :
    ∃ c', BinaryRule op a' b' c' ∧ c'.LessPrecise c := by
  cases h with
  | logical hop hl hr =>
      exact ⟨.bool, .logical hop (hl.mono Ty.ground_of_eq_bool ha')
        (hr.mono Ty.ground_of_eq_bool hb'), .refl⟩
  | equality hop hfits =>
      refine ⟨.bool, .equality hop ?_, .refl⟩
      exact hfits.imp (fun h => h.mono ha hb ha' hb') fun h =>
        h.mono hb ha hb' ha'
  | ordering hop hl hr =>
      exact ⟨.bool, .ordering hop (hl.mono (fun _ => Ty.Number.ground) ha')
        (hr.mono (fun _ => Ty.Number.ground) hb'), .refl⟩
  | arithmetic hop h =>
      obtain ⟨c', hc', hless⟩ := h.mono ha' hb'
      exact ⟨c', .arithmetic hop hc', hless⟩

theorem UnaryRule.mono {op : UnaryOp} (h : UnaryRule op a)
    (ha' : a'.LessPrecise a) :
    UnaryRule op a' := by
  cases h with
  | neg h => exact .neg (h.mono (fun _ => Ty.Number.ground) ha')
  | not h => exact .not (h.mono Ty.ground_of_eq_bool ha')

end TreeCheck
