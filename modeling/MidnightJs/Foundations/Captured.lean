import MidnightJs.Foundations.Notifications

/-! # Closures that assign a captured variable

Asynchronous code that reads and assigns one variable of its surroundings. What was assigned before
a rejection stays assigned, and a handler sees it. -/

namespace Foundations
open Js Rx
set_option autoImplicit false

def Captured (σ α : Type) : Type := σ → Promise α × σ

namespace Captured
variable {σ α β : Type}

def bind (x : Captured σ α) (f : α → Captured σ β) : Captured σ β := fun s =>
  match x s with
  | (.resolved a, s') => f a s'
  | (.rejected e, s') => (.rejected e, s')
  | (.pending, s') => (.pending, s')

instance : Monad (Captured σ) where
  pure a := fun s => (.resolved a, s)
  bind := bind

def await (promise : Promise α) : Captured σ α := fun s => (promise, s)

def ofExcept (x : Except JsError α) : Captured σ α := await (.ofExcept x)

def read : Captured σ σ := fun s => (.resolved s, s)

def assign (s : σ) : Captured σ Unit := fun _ => (.resolved (), s)

def tryCatch (body : Captured σ α) (handler : JsError → Captured σ α) : Captured σ α := fun s =>
  match body s with
  | (.rejected e, s') => handler e s'
  | settled => settled

/-! ## What a closure does to the variable -/

section
variable {f : α → Captured σ β} {s : σ}

theorem bind_apply (x : Captured σ α) : (x >>= f) s =
    match x s with
    | (.resolved a, s') => f a s'
    | (.rejected e, s') => (.rejected e, s')
    | (.pending, s') => (.pending, s') := rfl

@[simp] theorem pure_apply (a : α) : (pure a : Captured σ α) s = (.resolved a, s) := rfl

@[simp] theorem await_apply (promise : Promise α) : (await promise : Captured σ α) s = (promise, s) :=
  rfl

@[simp] theorem read_bind (f : σ → Captured σ β) : (read >>= f) s = f s s := rfl

@[simp] theorem await_resolved_bind (a : α) : (await (.resolved a) >>= f) = f a := rfl

@[simp] theorem ofExcept_ok (a : α) : (ofExcept (.ok a) : Captured σ α) = await (.resolved a) := rfl

@[simp] theorem ofExcept_error (e : JsError) :
    (ofExcept (.error e) : Captured σ α) = await (.rejected e) := rfl

/-- Code that only waits is a wait. -/
theorem await_bind_pure (promise : Promise α) (f : α → β) :
    (await promise >>= fun a => (pure (f a) : Captured σ β)) = await (promise >>= fun a => pure (f a)) := by
  cases promise <;> rfl

end

end Captured

end Foundations
