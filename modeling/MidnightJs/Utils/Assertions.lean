import MidnightJs.Foundations.JsString

/-! # Assertions on optional values

The two helpers of `packages/utils/src/assertion-utils.ts`. Both test truth, not presence: a
present value that converts to `false` is treated as a missing one. -/

namespace MidnightJs
open Foundations.Js
set_option autoImplicit false

def assertDefined {α : Type} [Truthy α] (value : Option α) (message : JsString) :
    Except JsError α :=
  match value with
  | some a => if truthy a then .ok a else .error (.error message)
  | none => .error (.error message)

def assertUndefined {α : Type} [Truthy α] (value : Option α) (message : JsString) :
    Except JsError Unit :=
  if truthy value then .error (.error message) else .ok ()

theorem assertDefined_eq_ok {α : Type} [Truthy α] {value : Option α} {message : JsString} {a : α} :
    assertDefined value message = .ok a ↔ value = some a ∧ truthy a = true := by
  cases value with
  | none => simp [assertDefined]
  | some b =>
    by_cases hb : truthy b = true
    · simp only [assertDefined, hb, if_true, Except.ok.injEq, Option.some.injEq]
      constructor
      · rintro rfl
        exact ⟨rfl, hb⟩
      · exact fun h => h.1
    · simp only [assertDefined, hb, Option.some.injEq]
      constructor
      · intro h
        cases h
      · rintro ⟨rfl, ha⟩
        exact absurd ha hb

end MidnightJs
