import Mathlib.Data.List.Infix
import Mathlib.Data.List.TakeDrop

/-! # Observables

What an observable has emitted up to some moment, and whether it has completed. A subscription that
goes on has not completed, so nothing that is concatenated behind it is ever subscribed to. -/

namespace Foundations.Rx
set_option autoImplicit false

structure Observable (α : Type) where
  next : List α
  completed : Bool

variable {α β : Type}

/-- `from`: the values of an array. -/
def ofList (values : List α) : Observable α := ⟨values, true⟩

/-- A source that stays open. -/
def live (values : List α) : Observable α := ⟨values, false⟩

namespace Observable

def map (f : α → β) (o : Observable α) : Observable β := ⟨o.next.map f, o.completed⟩

def filter (p : α → Bool) (o : Observable α) : Observable α := ⟨o.next.filter p, o.completed⟩

/-- A `filter` and the `map` of what it lets through. -/
def filterMap (f : α → Option β) (o : Observable α) : Observable β :=
  ⟨o.next.filterMap f, o.completed⟩

def skip (n : ℕ) (o : Observable α) : Observable α := ⟨o.next.drop n, o.completed⟩

def take (n : ℕ) (o : Observable α) : Observable α :=
  ⟨o.next.take n, o.completed || n ≤ o.next.length⟩

def skipWhile (p : α → Bool) (o : Observable α) : Observable α :=
  ⟨o.next.dropWhile p, o.completed⟩

/-- It completes once a completed source has no value left to pair. -/
def zip (o : Observable α) (o' : Observable β) : Observable (α × β) :=
  ⟨o.next.zip o'.next, o.completed && o.next.length ≤ o'.next.length ||
    o'.completed && o'.next.length ≤ o.next.length⟩

/-- One after the other, as long as each completes. -/
def concatAll : List (Observable α) → Bool → Observable α
  | [], completed => ⟨[], completed⟩
  | o :: rest, completed =>
    if o.completed then
      ⟨o.next ++ (concatAll rest completed).next, (concatAll rest completed).completed⟩
    else o

def concatMap (f : α → Observable β) (o : Observable α) : Observable β :=
  concatAll (o.next.map f) o.completed

/-- `firstValueFrom`, which waits while there is no value. -/
def firstValue (o : Observable α) : Option α := o.next.head?

@[simp] theorem map_next (f : α → β) (o : Observable α) : (o.map f).next = o.next.map f := rfl

@[simp] theorem map_completed (f : α → β) (o : Observable α) :
    (o.map f).completed = o.completed := rfl

@[simp] theorem filterMap_next (f : α → Option β) (o : Observable α) :
    (o.filterMap f).next = o.next.filterMap f := rfl

@[simp] theorem skip_next (n : ℕ) (o : Observable α) : (o.skip n).next = o.next.drop n := rfl

@[simp] theorem take_next (n : ℕ) (o : Observable α) : (o.take n).next = o.next.take n := rfl

@[simp] theorem skipWhile_next (p : α → Bool) (o : Observable α) :
    (o.skipWhile p).next = o.next.dropWhile p := rfl

@[simp] theorem skipWhile_completed (p : α → Bool) (o : Observable α) :
    (o.skipWhile p).completed = o.completed := rfl

@[simp] theorem ofList_next (values : List α) : (ofList values).next = values := rfl

@[simp] theorem ofList_completed (values : List α) : (ofList values).completed = true := rfl

@[simp] theorem live_next (values : List α) : (live values).next = values := rfl

@[simp] theorem live_completed (values : List α) : (live values).completed = false := rfl

@[simp] theorem zip_ofList_next (xs : List α) (ys : List β) :
    ((ofList xs).zip (ofList ys)).next = xs.zip ys := rfl

@[simp] theorem zip_ofList_completed (xs : List α) (ys : List β) :
    ((ofList xs).zip (ofList ys)).completed = true := by
  rcases Nat.le_total xs.length ys.length with h | h <;> simp [zip, h]

/-! ## Concatenation -/

theorem concatAll_of_completed {os : List (Observable α)} {completed : Bool}
    (h : ∀ o ∈ os, o.completed = true) :
    concatAll os completed = ⟨os.flatMap (·.next), completed⟩ := by
  induction os with
  | nil => rfl
  | cons o os ih =>
    rw [concatAll, if_pos (h o (List.mem_cons_self ..)),
      ih fun o ho => h o (List.mem_cons_of_mem _ ho)]
    rfl

/-- Observables that all complete are concatenated. -/
theorem concatMap_of_completed {f : α → Observable β} {o : Observable α}
    (h : ∀ x ∈ o.next, (f x).completed = true) :
    o.concatMap f = ⟨o.next.flatMap fun x => (f x).next, o.completed⟩ := by
  rw [concatMap, concatAll_of_completed (by simpa using h), List.flatMap_map]

/-- Nothing follows an observable that stays open. -/
theorem concatMap_of_live {f : α → Observable β} {o : Observable α} {x : α}
    (hx : o.next.head? = some x) (hlive : (f x).completed = false) : o.concatMap f = f x := by
  obtain ⟨rest, hrest⟩ := List.head?_eq_some_iff.mp hx
  simp [concatMap, hrest, concatAll, hlive]

theorem concatMap_map {γ : Type} (f : β → Observable γ) (g : α → β) (o : Observable α) :
    (o.map g).concatMap f = o.concatMap fun x => f (g x) := by
  simp [concatMap, Function.comp_def]

theorem concatMap_of_empty {f : α → Observable β} {o : Observable α} (h : o.next = []) :
    (o.concatMap f).next = [] := by
  simp [concatMap, h, concatAll]

end Observable

end Foundations.Rx
