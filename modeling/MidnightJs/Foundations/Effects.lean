import MidnightJs.Foundations.JsString

/-! # Effects

What running an effect comes to: a value, a failure of the declared type, or a defect, an error that
was thrown and that nothing turned into a failure. `mapError` reaches failures only. -/

namespace Foundations.Effects
open Foundations.Js
set_option autoImplicit false

inductive Cause (E D : Type)
  | fail (failure : E)
  | die (defect : D)

abbrev Effect (E D α : Type) := Except (Cause E D) α

variable {E E' D T α : Type}

def fail (failure : E) : Effect E D α := .error (.fail failure)

/-- Synchronous code in the body of a generator: what it throws is a defect. -/
def sync (x : Except D α) : Effect E D α := x.mapError .die

/-- `Effect.try`: what the code throws is a failure. -/
def tryCatch (x : Except T α) (catchError : T → E) : Effect E D α :=
  x.mapError fun e => .fail (catchError e)

def ofEither (x : Except E α) : Effect E D α := x.mapError .fail

def mapError (f : E → E') (x : Effect E D α) : Effect E' D α :=
  match x with
  | .ok a => .ok a
  | .error (.fail e) => .error (.fail (f e))
  | .error (.die d) => .error (.die d)

theorem mapError_map {β : Type} (f : E → E') (g : α → β) (x : Effect E D α) :
    mapError f (x.map g) = (mapError f x).map g := by
  match x with
  | .ok a => rfl
  | .error (.fail e) => rfl
  | .error (.die d) => rfl

/-! ## Effects that succeed -/

theorem sync_eq_ok {x : Except D α} {a : α} : (sync x : Effect E D α) = .ok a ↔ x = .ok a := by
  cases x <;> simp [sync, Except.mapError]

theorem ofEither_eq_ok {x : Except E α} {a : α} :
    (ofEither x : Effect E D α) = .ok a ↔ x = .ok a := by
  cases x <;> simp [ofEither, Except.mapError]

theorem mapError_eq_ok {f : E → E'} {x : Effect E D α} {a : α} :
    mapError f x = .ok a ↔ x = .ok a := by
  match x with
  | .ok a => simp [mapError]
  | .error (.fail e) => simp [mapError]
  | .error (.die d) => simp [mapError]

end Foundations.Effects
