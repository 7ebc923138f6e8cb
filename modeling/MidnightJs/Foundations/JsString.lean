import Mathlib.Data.List.Basic

/-! # JavaScript strings, truth values and thrown errors

A JavaScript string is a sequence of UTF-16 code units, lone surrogates included, so that
`length`, an index and a regular expression see what the language lets them see.
`Truthy.truthy` is `ToBoolean`, the test behind `if`, `!` and `?:`. -/

namespace Foundations.Js
set_option autoImplicit false

/-- A string: its sequence of UTF-16 code units. -/
abbrev JsString := List UInt16

instance : LawfulBEq JsString := inferInstance

/-- The code units of one character: one, or a surrogate pair. -/
def utf16 (c : Char) : JsString :=
  if c.toNat < 0x10000 then [c.toNat.toUInt16]
  else [((c.toNat - 0x10000) / 0x400 + 0xD800).toUInt16,
    ((c.toNat - 0x10000) % 0x400 + 0xDC00).toUInt16]

/-- A string literal of the source. -/
def js (text : String) : JsString := text.toList.flatMap utf16

/-- `ToBoolean`. -/
class Truthy (α : Type) where
  truthy : α → Bool

export Truthy (truthy)

instance : Truthy JsString := ⟨fun s => !s.isEmpty⟩

/-- `none` stands for `null` and `undefined`. -/
instance {α : Type} [Truthy α] : Truthy (Option α) := ⟨fun o => o.any truthy⟩

@[simp] theorem truthy_none {α : Type} [Truthy α] : truthy (none : Option α) = false := rfl

@[simp] theorem truthy_some {α : Type} [Truthy α] (a : α) : truthy (some a) = truthy a := rfl

/-- Functions are objects, and objects convert to `true`. -/
instance {α β : Type} : Truthy (α → β) := ⟨fun _ => true⟩

/-- A type of values with `undefined` among them. -/
class Undefined (α : Type) extends Truthy α where
  undefined : α
  truthy_undefined : truthy undefined = false

export Undefined (undefined)

/-- Zero converts to `false`. -/
instance : Truthy ℕ := ⟨fun n => n ≠ 0⟩

instance {α : Type} [Truthy α] : Undefined (Option α) where
  undefined := none
  truthy_undefined := rfl

theorem truthy_string (s : JsString) : truthy s = true ↔ s ≠ [] := by
  cases s <;> simp [truthy]

/-- The errors of the language itself. -/
inductive JsError
  | error (message : JsString)
  | typeError (message : JsString)
  | syntaxError (message : JsString)
  deriving DecidableEq

theorem except_bind_ok {ε α β : Type} {x : Except ε α} {f : α → Except ε β} {b : β} :
    (x >>= f) = .ok b ↔ ∃ a, x = .ok a ∧ f a = .ok b := by
  cases x with
  | ok a => simp [bind, Except.bind]
  | error e => simp [bind, Except.bind]

end Foundations.Js
