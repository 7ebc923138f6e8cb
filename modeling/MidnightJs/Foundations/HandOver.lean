import Mathlib.Data.List.Basic

/-! # Runs that hand a state on

A run makes one call after another, each on the state that the call before it left; a call that
fails ends the run. Two runs of the same inputs that keep the same state in different forms are
compared by a relation between the forms that every successful call maintains (`runCalls_follows`).
-/

namespace Foundations.HandOver
set_option autoImplicit false

variable {I S T R Q E F : Type}

/-- The state each call is made on, and how the call ends. -/
def runCalls (call : I → S → Except E R) (next : R → S) (s : S) (inputs : List I) :
    List (S × Except E R) :=
  match inputs with
  | [] => []
  | i :: inputs =>
    (s, call i s) ::
      match call i s with
      | .ok r => runCalls call next (next r) inputs
      | .error _ => []

variable {call : I → S → Except E R} {next : R → S}

theorem runCalls_cons (s : S) (i : I) (inputs : List I) :
    runCalls call next s (i :: inputs) =
      (s, call i s) ::
        match call i s with
        | .ok r => runCalls call next (next r) inputs
        | .error _ => [] :=
  rfl

/-- Every entry is one of the calls, on some state. -/
theorem mem_runCalls {s : S} {inputs : List I} {entry : S × Except E R}
    (h : entry ∈ runCalls call next s inputs) : ∃ i ∈ inputs, ∃ s', entry = (s', call i s') := by
  induction inputs generalizing s with
  | nil => simp [runCalls] at h
  | cons i inputs ih =>
    rw [runCalls_cons] at h
    rcases List.mem_cons.mp h with hhead | htail
    · exact ⟨i, List.mem_cons_self .., s, hhead⟩
    · cases hcall : call i s with
      | error e => simp [hcall] at htail
      | ok r =>
        rw [hcall] at htail
        obtain ⟨i', hi', s', hentry⟩ := ih htail
        exact ⟨i', List.mem_cons_of_mem _ hi', s', hentry⟩

variable {call' : I → T → Except F Q} {next' : Q → T}

/-- A run keeps step with another on related states: if a call succeeds on one form of the state,
the call of the other run on the other form does and the states left are related again. `Kept` says
of a result what the relation needs to go on. -/
theorem runCalls_follows (Rel : T → S → Prop) (Kept : R → Prop)
    (step : ∀ i t s, Rel t s → (∀ r, call i s = .ok r → Kept r) → ∀ q, call' i t = .ok q →
      ∃ r, call i s = .ok r ∧ Rel (next' q) (next r))
    {inputs : List I} {t : T} {s : S} (h : Rel t s)
    (kept : ∀ entry ∈ runCalls call next s inputs, ∀ r, entry.2 = .ok r → Kept r)
    {k : ℕ} {t' : T} {exit : Except F Q}
    (hk : (runCalls call' next' t inputs)[k]? = some (t', exit)) :
    ∃ i s', inputs[k]? = some i ∧ (runCalls call next s inputs)[k]? = some (s', call i s') ∧
      exit = call' i t' ∧ Rel t' s' := by
  induction inputs generalizing t s k with
  | nil => simp [runCalls] at hk
  | cons i inputs ih =>
    rw [runCalls_cons] at hk
    cases k with
    | zero =>
      simp only [List.getElem?_cons_zero, Option.some.injEq, Prod.mk.injEq] at hk
      exact ⟨i, s, rfl, rfl, hk.2.symm.trans (hk.1 ▸ rfl), hk.1 ▸ h⟩
    | succ k =>
      rw [List.getElem?_cons_succ] at hk
      cases hcall : call' i t with
      | error e => simp [hcall] at hk
      | ok q =>
        rw [hcall] at hk
        have hkept : ∀ r, call i s = .ok r → Kept r :=
          kept (s, call i s) (by rw [runCalls_cons]; exact List.mem_cons_self ..)
        obtain ⟨r, hr, hrel⟩ := step i t s h hkept q hcall
        have htail : ∀ entry ∈ runCalls call next (next r) inputs, ∀ r', entry.2 = .ok r' →
            Kept r' := by
          intro entry hentry
          apply kept
          rw [runCalls_cons, hr]
          exact List.mem_cons_of_mem _ hentry
        obtain ⟨i', s', hinput, hentry, hexit, hlast⟩ := ih hrel htail hk
        refine ⟨i', s', hinput, ?_, hexit, hlast⟩
        rw [runCalls_cons, hr]
        exact hentry

end Foundations.HandOver
