import MidnightJs.Foundations.JsString

/-! # What a subscriber is notified of

The notifications of a subscription in the order of their times, together with the ends of timers:
that of the throttle's window, and that of a time without any value. Operators turn what has arrived
so far into what is passed on, and `firstValueFrom` is the promise of the first value. -/

namespace Foundations.Rx
open Foundations.Js
set_option autoImplicit false

inductive Notification (α : Type)
  | next (value : α)
  | error (e : JsError)
  | complete
  | windowEnd
  | idle
  deriving DecidableEq

inductive Promise (α : Type)
  | pending
  | resolved (value : α)
  | rejected (e : JsError)
  deriving DecidableEq

def Promise.bind {α β : Type} (promise : Promise α) (f : α → Promise β) : Promise β :=
  match promise with
  | .pending => .pending
  | .resolved a => f a
  | .rejected e => .rejected e

instance : Monad Promise where
  pure := .resolved
  bind := Promise.bind

def Promise.ofExcept {α : Type} (x : Except JsError α) : Promise α :=
  match x with
  | .ok a => .resolved a
  | .error e => .rejected e

@[simp] theorem Promise.resolved_bind {α β : Type} (a : α) (f : α → Promise β) :
    (Promise.resolved a >>= f) = f a := rfl

@[simp] theorem Promise.ofExcept_ok {α : Type} (a : α) :
    Promise.ofExcept (.ok a) = .resolved a := rfl

@[simp] theorem Promise.ofExcept_error {α : Type} (e : JsError) :
    (Promise.ofExcept (.error e) : Promise α) = .rejected e := rfl

@[simp] theorem Promise.pure_eq {α : Type} (a : α) : (pure a : Promise α) = .resolved a := rfl

variable {α : Type}

/-- The first value opens a window, in which every other value is dropped. -/
def throttleTime (throttled : Bool) : List (Notification α) → List (Notification α)
  | [] => []
  | .next x :: rest =>
    if throttled then throttleTime true rest else .next x :: throttleTime true rest
  | .windowEnd :: rest => throttleTime false rest
  | .idle :: rest => .idle :: throttleTime throttled rest
  | .error e :: _ => [.error e]
  | .complete :: _ => [.complete]

/-- A time without any value ends the subscription. -/
def timeout : List (Notification α) → List (Notification α)
  | [] => []
  | .idle :: _ => [.error (.error (js "Timeout has occurred"))]
  | .error e :: _ => [.error e]
  | .complete :: _ => [.complete]
  | n :: rest => n :: timeout rest

def filterNext (p : α → Bool) : List (Notification α) → List (Notification α)
  | [] => []
  | .next x :: rest => if p x then .next x :: filterNext p rest else filterNext p rest
  | n :: rest => n :: filterNext p rest

def firstValueFrom : List (Notification α) → Promise α
  | [] => .pending
  | .next x :: _ => .resolved x
  | .error e :: _ => .rejected e
  | .complete :: _ => .rejected (.error (js "no elements in sequence"))
  | .windowEnd :: rest => firstValueFrom rest
  | .idle :: rest => firstValueFrom rest

/-! ## The first value that passes -/

/-- The values in front of the end. -/
def values : List (Notification α) → List α
  | [] => []
  | .next x :: rest => x :: values rest
  | .error _ :: _ => []
  | .complete :: _ => []
  | .windowEnd :: rest => values rest
  | .idle :: rest => values rest

theorem firstValueFrom_filterNext {p : α → Bool} {notifications : List (Notification α)} {x : α} :
    firstValueFrom (filterNext p notifications) = .resolved x ↔
      (values notifications).find? p = some x := by
  induction notifications with
  | nil => simp [filterNext, firstValueFrom, values]
  | cons n rest ih =>
    cases n with
    | next y =>
      rw [filterNext, values, List.find?_cons]
      cases p y with
      | true => simp [firstValueFrom]
      | false => simpa using ih
    | error e => simp [filterNext, firstValueFrom, values]
    | complete => simp [filterNext, firstValueFrom, values]
    | windowEnd => exact ih
    | idle => exact ih

/-- The value passes the test, and has passed the throttle. -/
theorem firstValueFrom_passes {p : α → Bool} {notifications : List (Notification α)} {x : α}
    (h : firstValueFrom (filterNext p notifications) = .resolved x) :
    p x = true ∧ x ∈ values notifications := by
  rw [firstValueFrom_filterNext] at h
  exact ⟨List.find?_some h, List.mem_of_find?_eq_some h⟩

/-! ## Sequences -/

/-- A finite or infinite sequence; nothing arrives at a place that is empty. -/
abbrev Sequence (α : Type) := ℕ → Option (Notification α)

/-- What has arrived before the place `n`. -/
def Sequence.upTo (sequence : Sequence α) (n : ℕ) : List (Notification α) :=
  (List.range n).filterMap sequence

end Foundations.Rx
