/-
The types that occur in programs without errors.

Annotations name built-in types only, so the components of a function
type are built-in or unknown: no function type has another one inside.
On such types the checks of an analysis are the rules of the type
system, and what the rules give is such a type again.
-/
import TreeCheck.Proofs.Typing.System

namespace TreeCheck.Ty

/-- A built-in type or `unknown`. -/
def Ground : Ty → Prop
  | .func _ _ | .error => False
  | .int | .float | .bool | .string | .void | .unknown => True

/-- A ground type, or a function type made of such. -/
def FirstOrder : Ty → Prop
  | .func ps r => (∀ p ∈ ps, p.Ground) ∧ r.Ground
  | t => t.Ground

theorem Ground.firstOrder {t : Ty} (h : t.Ground) : t.FirstOrder := by
  cases t with
  | func ps r => exact h.elim
  | int | float | bool | string | void | unknown | error => exact h

theorem FirstOrder.ne_error {t : Ty} (h : t.FirstOrder) : t ≠ .error := by
  intro heq
  subst heq
  exact h

theorem Ground.ne_error {t : Ty} (h : t.Ground) : t ≠ .error :=
  h.firstOrder.ne_error

theorem ground_of_ofName? {x : String} {t : Ty} (h : Ty.ofName? x = some t) :
    t.Ground := by
  have hmem := List.mem_of_find?_eq_some h
  simp only [List.mem_cons, List.not_mem_nil, or_false] at hmem
  rcases hmem with rfl | rfl | rfl | rfl | rfl <;> trivial

theorem isPermissive_iff {t : Ty} (h : t ≠ .error) :
    t.isPermissive = true ↔ t = .unknown := by
  cases t <;> simp_all [isPermissive]

theorem isNumeric_iff {t : Ty} : t.isNumeric = true ↔ t.Number := by
  constructor
  · intro h
    cases t with
    | int => exact .int
    | float => exact .float
    | bool | string | void | func | unknown | error => cases h
  · intro h
    rcases h with _ | _ <;> rfl

-- ========================================================= assignability

theorem agrees_iff {a b : Ty} (ha : a ≠ .error) (hb : b ≠ .error) :
    a.agrees b = true ↔ a.Similar b := by
  rw [agrees, Bool.or_eq_true, Bool.or_eq_true, isPermissive_iff ha,
    isPermissive_iff hb, beq_iff_eq]
  constructor
  · intro h
    rcases h with (rfl | rfl) | rfl
    · exact .unknownLeft
    · exact .unknownRight
    · exact .refl
  · intro h
    rcases h with _ | _ | _
    · exact .inr rfl
    · exact .inl (.inl rfl)
    · exact .inl (.inr rfl)

theorem all_agrees_iff {ps qs : List Ty} (hps : ∀ p ∈ ps, p.Ground)
    (hqs : ∀ q ∈ qs, q.Ground) :
    (ps.length = qs.length ∧ (ps.zip qs).all (fun (a, b) => a.agrees b) = true)
      ↔ List.Forall₂ Similar ps qs := by
  rw [List.forall₂_iff_zip, List.all_eq_true]
  refine and_congr_right fun _ => ?_
  constructor
  · intro h a b hab
    have hmem := List.of_mem_zip hab
    exact (agrees_iff (hps a hmem.1).ne_error (hqs b hmem.2).ne_error).mp
      (h (a, b) hab)
  · intro h ab hab
    obtain ⟨a, b⟩ := ab
    have hmem := List.of_mem_zip hab
    exact (agrees_iff (hps a hmem.1).ne_error (hqs b hmem.2).ne_error).mpr (h hab)

theorem signaturesAgree_iff {ps qs : List Ty} {r s : Ty}
    (ha : (func ps r).FirstOrder) (hb : (func qs s).FirstOrder) :
    signaturesAgree ps r qs s = true
      ↔ List.Forall₂ Similar ps qs ∧ r.Similar s := by
  rw [signaturesAgree, Bool.and_eq_true, Bool.and_eq_true, beq_iff_eq,
    all_agrees_iff ha.1 hb.1, agrees_iff ha.2.ne_error hb.2.ne_error]

/-- A value fits where the type system lets it be stored. -/
theorem accepts_iff {a b : Ty} (ha : a.FirstOrder) (hb : b.FirstOrder) :
    a.accepts b = true ↔ a.Assignable b := by
  constructor
  · intro h
    by_cases hunknown : a = .unknown ∨ b = .unknown
    · rcases hunknown with rfl | rfl
      · exact .unknownTarget
      · exact .unknownValue
    · have hperm : ¬ (a.isPermissive || b.isPermissive) = true := by
        rwa [Bool.or_eq_true, isPermissive_iff ha.ne_error,
          isPermissive_iff hb.ne_error]
      unfold accepts at h
      rw [if_neg hperm] at h
      split at h
      · exact .widen
      · obtain ⟨hps, hr⟩ := (signaturesAgree_iff ha hb).mp h
        exact .func hps hr
      · exact beq_iff_eq.mp h ▸ .refl
  · intro h
    cases h with
    | refl =>
        cases a with
        | func ps r =>
            refine (signaturesAgree_iff ha ha).mpr ⟨?_, .refl⟩
            exact List.forall₂_same.mpr fun _ _ => .refl
        | int | float | bool | string | void | unknown => rfl
        | error => exact ha.elim
    | unknownTarget => rfl
    | unknownValue => cases a <;> rfl
    | widen => rfl
    | func hps hr => exact (signaturesAgree_iff ha hb).mpr ⟨hps, hr⟩

-- ============================================================= operators

theorem isOr_iff {is : Ty → Bool} {P : Ty → Prop} (his : ∀ t, is t = true ↔ P t)
    (t : Ty) :
    isOr is t = true ↔ t.OrUnknown P := by
  rw [isOr, Bool.or_eq_true, beq_iff_eq, his]
  rfl

theorem isOr_bool_iff (t : Ty) :
    isOr (· == .bool) t = true ↔ t.OrUnknown (· = .bool) :=
  isOr_iff (fun _ => beq_iff_eq) t

theorem isOr_isNumeric_iff (t : Ty) :
    isOr isNumeric t = true ↔ t.OrUnknown Ty.Number :=
  isOr_iff (fun _ => isNumeric_iff) t

theorem isCondition_iff {t : Ty} (h : t.FirstOrder) :
    Analysis.isCondition t = true ↔ t.OrUnknown (· = .bool) := by
  rw [Analysis.isCondition, Bool.or_eq_true, beq_iff_eq,
    isPermissive_iff h.ne_error]
  rfl

theorem admits_iff (op : BinaryOp) (t : Ty) :
    (t == .unknown || t.isNumeric || (op == .add && t == .string)) = true
      ↔ op.Admits t := by
  rw [Bool.or_eq_true, Bool.or_eq_true, Bool.and_eq_true, beq_iff_eq,
    beq_iff_eq, beq_iff_eq, isNumeric_iff, BinaryOp.Admits, OrUnknown,
    or_comm (a := t = .unknown)]

theorem arithmetic?_eq_some {op : BinaryOp} {a b c : Ty} :
    arithmetic? op a b = some c ↔ Arithmetic op a b c := by
  constructor
  · intro h
    unfold arithmetic? at h
    split at h
    · rename_i hunknown
      simp only [ite_eq_iff, Option.some.injEq, reduceCtorEq, and_false,
        or_false] at h
      obtain ⟨hother, rfl⟩ := h
      rw [admits_iff] at hother
      by_cases ha : a = .unknown
      · subst ha
        exact .unknownLeft hother
      · rw [Bool.or_eq_true, beq_iff_eq, beq_iff_eq] at hunknown
        obtain rfl := hunknown.resolve_left ha
        rw [if_neg (beq_iff_eq.not.mpr ha)] at hother
        exact .unknownRight hother
    · split at h
      · obtain rfl := Option.some.inj h
        exact .int
      · simp only [ite_eq_iff, beq_iff_eq, Option.some.injEq, reduceCtorEq,
          and_false, or_false] at h
        obtain ⟨hop, rfl⟩ := h
        exact .concat hop
      · rename_i hint _
        simp only [ite_eq_iff, Bool.and_eq_true, isNumeric_iff, Option.some.injEq,
          reduceCtorEq, and_false, or_false] at h
        obtain ⟨⟨ha, hb⟩, rfl⟩ := h
        refine .float ha hb ?_
        cases ha with
        | float => exact .inl rfl
        | int =>
            cases hb with
            | float => exact .inr rfl
            | int => exact (hint rfl rfl).elim
  · intro h
    cases h with
    | int => rfl
    | float ha hb hfloat =>
        rcases ha with _ | _ <;> rcases hb with _ | _ <;>
          first | rfl | simp at hfloat
    | concat hop =>
        subst hop
        rfl
    | unknownLeft hother =>
        rw [← admits_iff] at hother
        exact if_pos hother
    | unknownRight hother =>
        rw [← admits_iff] at hother
        unfold arithmetic?
        rw [if_pos (by simp)]
        by_cases ha : a = .unknown
        · subst ha
          rfl
        · simp only [beq_iff_eq, ha, if_false]
          exact if_pos hother

/-- A binary operation has a result where a rule gives one. -/
theorem binary?_eq_some {op : BinaryOp} {a b c : Ty} (ha : a.FirstOrder)
    (hb : b.FirstOrder) : a.binary? op b = some c ↔ BinaryRule op a b c := by
  have hknown : ¬ (a == .error || b == .error) = true := by
    simp [ha.ne_error, hb.ne_error]
  rw [binary?, if_neg hknown]
  constructor
  · intro h
    cases hop : op.operatorClass with
    | logical =>
        simp only [hop, ite_eq_iff, Bool.and_eq_true, isOr_bool_iff,
          Option.some.injEq, reduceCtorEq, and_false, or_false] at h
        obtain ⟨⟨hl, hr⟩, rfl⟩ := h
        exact .logical hop hl hr
    | equality =>
        simp only [hop, ite_eq_iff, Bool.or_eq_true, accepts_iff ha hb,
          accepts_iff hb ha, Option.some.injEq, reduceCtorEq, and_false,
          or_false] at h
        obtain ⟨hfits, rfl⟩ := h
        exact .equality hop hfits
    | ordering =>
        simp only [hop, ite_eq_iff, Bool.and_eq_true, isOr_isNumeric_iff,
          Option.some.injEq, reduceCtorEq, and_false, or_false] at h
        obtain ⟨⟨hl, hr⟩, rfl⟩ := h
        exact .ordering hop hl hr
    | arithmetic =>
        rw [hop] at h
        exact .arithmetic hop (arithmetic?_eq_some.mp h)
  · intro h
    cases h with
    | logical hop hl hr =>
        simp only [hop, (isOr_bool_iff a).mpr hl, (isOr_bool_iff b).mpr hr,
          Bool.and_self, if_true]
    | equality hop hfits =>
        rw [← accepts_iff ha hb, ← accepts_iff hb ha, ← Bool.or_eq_true] at hfits
        simp only [hop, hfits, if_true]
    | ordering hop hl hr =>
        simp only [hop, (isOr_isNumeric_iff a).mpr hl,
          (isOr_isNumeric_iff b).mpr hr, Bool.and_self, if_true]
    | arithmetic hop hresult =>
        rw [hop]
        exact arithmetic?_eq_some.mpr hresult

theorem ground_of_binaryRule {op : BinaryOp} {a b c : Ty}
    (h : BinaryRule op a b c) :
    c.Ground := by
  cases h with
  | logical | equality | ordering => trivial
  | arithmetic _ h => cases h <;> trivial

theorem applies_iff {op : UnaryOp} {t : Ty} :
    applies op t = true ∨ t = .unknown ↔ UnaryRule op t := by
  constructor
  · intro h
    cases op with
    | neg => exact .neg (h.imp_left isNumeric_iff.mp)
    | not => exact .not (h.imp_left beq_iff_eq.mp)
  · intro h
    rcases h with h | h
    · exact h.imp_left isNumeric_iff.mpr
    · exact h.imp_left beq_iff_eq.mpr

/-- A unary operation has the type of its operand where a rule admits
it. -/
theorem unary?_eq_some {op : UnaryOp} {t c : Ty} (ht : t.FirstOrder) :
    t.unary? op = some c ↔ UnaryRule op t ∧ c = t := by
  rw [unary?, ← applies_iff, or_comm, ← isPermissive_iff ht.ne_error]
  simp only [ite_eq_iff, Bool.or_eq_true, Option.some.injEq, reduceCtorEq,
    and_false, or_false, eq_comm (a := t)]

end TreeCheck.Ty
