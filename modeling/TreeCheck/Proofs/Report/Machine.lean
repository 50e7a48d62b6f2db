/-
What a diagnostic is put into for readers that are programs tells the
diagnostic: its severity, kind, message and place, and the related place
if there is one. Together with the layout, which tells the value that is
written, nothing of a diagnostic is lost on the way.
-/
import TreeCheck.Proofs.Json.Written
import TreeCheck.Report.Machine

namespace TreeCheck

open Json (Value)

theorem Severity.display_injective : Function.Injective display := by
  intro a b h
  cases a <;> cases b <;> first | rfl | simp [display] at h

/-- A kind can be found by its name. -/
theorem DiagnosticKind.ofName?_name (k : DiagnosticKind) : ofName? k.name = some k := by
  cases k <;> rfl

theorem DiagnosticKind.name_injective : Function.Injective name := by
  intro k l h
  have hfound := congrArg ofName? h
  rw [ofName?_name, ofName?_name] at hfound
  exact Option.some.inj hfound

theorem Position.toJson_injective : Function.Injective toJson := by
  intro p q h
  simp only [toJson, countValue, Value.object.injEq, List.cons.injEq, Prod.mk.injEq,
    Value.number.injEq, Json.Number.int.injEq, Int.ofNat_inj, true_and, and_true] at h
  obtain ⟨line, column⟩ := p
  obtain ⟨rfl, rfl⟩ := h
  rfl

namespace Diagnostic

theorem isWhole_toJson (d : Diagnostic) : d.toJson.isWhole = true := by
  unfold toJson
  cases d.related with
  | none => rfl
  | some r => rfl

/-- A diagnostic without a related place has one member less. -/
theorem toJson_injective : Function.Injective toJson := by
  rintro ⟨severity, kind, message, position, related⟩
    ⟨severity', kind', message', position', related'⟩ h
  cases related with
  | none =>
    cases related' with
    | some r => simp [toJson] at h
    | none =>
      simp only [toJson, Option.map_none, Option.toList_none, List.append_nil, Value.object.injEq,
        List.cons.injEq, Prod.mk.injEq, Value.string.injEq, true_and, and_true] at h
      obtain ⟨hseverity, hkind, rfl, hposition⟩ := h
      rw [Severity.display_injective hseverity, DiagnosticKind.name_injective hkind,
        Position.toJson_injective hposition]
  | some r =>
    cases related' with
    | none => simp [toJson] at h
    | some r' =>
      simp only [toJson, Option.map_some, Option.toList_some, List.cons_append, List.nil_append,
        Value.object.injEq, List.cons.injEq, Prod.mk.injEq, Value.string.injEq, true_and,
        and_true] at h
      obtain ⟨hseverity, hkind, rfl, hposition, hmessage, hplace⟩ := h
      have hrelated : r = r' := by
        cases r
        cases r'
        exact congrArg₂ _ hmessage (Position.toJson_injective hplace)
      rw [Severity.display_injective hseverity, DiagnosticKind.name_injective hkind,
        Position.toJson_injective hposition, hrelated]

end Diagnostic

end TreeCheck
