import MidnightJs.Foundations.Async
import Mathlib.Data.List.Induction
import Mathlib.Logic.Function.Basic

/-! # Programs that run concurrently

`Run env internal P s tr P' s'`: from the state `s`, the programs `P` take turns, one awaited call
at a time and in any order, make the calls `tr`, and are left with the programs `P'` in the state
`s'`. Between two calls the system may take a step of its own. -/

namespace Foundations.Async
set_option autoImplicit false

variable {E : Interface} {ε α σ ι Q : Type} [DecidableEq ι] {env : Env E σ}
  {internal : σ → σ → Prop}

inductive Run (env : Env E σ) (internal : σ → σ → Prop) (P : ι → Program E ε α) (s : σ) :
    List (ι × Event E) → (ι → Program E ε α) → σ → Prop
  | start : Run env internal P s [] P s
  | turn {tr : List (ι × Event E)} {P' : ι → Program E ε α} {s₁ s₂ : σ}
      (before : Run env internal P s tr P' s₁) (i : ι) {c : E.Call}
      {k : E.Settled c → Program E ε α} {r : E.Settled c} (at_await : P' i = .await c k)
      (replied : env c s₁ r s₂) :
      Run env internal P s (tr ++ [(i, ⟨c, r⟩)]) (Function.update P' i (k r)) s₂
  | own {tr : List (ι × Event E)} {P' : ι → Program E ε α} {s₁ s₂ : σ}
      (before : Run env internal P s tr P' s₁) (step : internal s₁ s₂) :
      Run env internal P s tr P' s₂

/-- If every program follows its protocol, and every step of a protocol and of the system keeps the
invariant, then the invariant holds throughout and the programs are where their protocols say. -/
theorem Run.invariant {p : ι → Protocol E Q} {final : ι → Q → Except ε α → Prop}
    {I : List (ι × Event E) → (ι → Q) → σ → Prop} {P P' : ι → Program E ε α} {q₀ : ι → Q}
    {s s' : σ} {tr : List (ι × Event E)} (run : Run env internal P s tr P' s')
    (follows : ∀ i, (P i).Follows (p i) (final i) (q₀ i)) (init : I [] q₀ s)
    (turn : ∀ tr q s i c r s', I tr q s → (p i).allowed (q i) c → env c s r s' →
      I (tr ++ [(i, ⟨c, r⟩)]) (Function.update q i ((p i).next (q i) ⟨c, r⟩)) s')
    (own : ∀ tr q s s', I tr q s → internal s s' → I tr q s') :
    ∃ q, I tr q s' ∧ ∀ i, (P' i).Follows (p i) (final i) (q i) := by
  induction run with
  | start => exact ⟨q₀, init, follows⟩
  | @turn tr P' s₁ s₂ before i c k r at_await replied ih =>
    obtain ⟨q, hI, hq⟩ := ih
    have hi := hq i
    rw [at_await] at hi
    refine ⟨_, turn tr q s₁ i c r s₂ hI hi.1 replied, fun j => ?_⟩
    by_cases hj : j = i
    · subst hj
      simpa using hi.2 r
    · simpa [Function.update_of_ne hj] using hq j
  | own before step ih =>
    obtain ⟨q, hI, hq⟩ := ih
    exact ⟨q, own _ _ _ _ hI step, hq⟩

/-! ## Schedules -/

/-- Who moves next. -/
inductive Turn (ι : Type)
  | of (i : ι)
  | own

/-- The run of a schedule, when handlers say what the calls and the system do. A turn in which
nothing can happen is passed over. -/
def play (handler : (c : E.Call) → σ → Option (E.Settled c × σ)) (ownStep : σ → Option σ)
    (P : ι → Program E ε α) (s : σ) (schedule : List (Turn ι)) :
    List (ι × Event E) × (ι → Program E ε α) × σ :=
  schedule.foldl (fun now turn =>
    match turn with
    | .own => (now.1, now.2.1, (ownStep now.2.2).getD now.2.2)
    | .of i =>
      match now.2.1 i with
      | .await c k =>
        match handler c now.2.2 with
        | some (r, s) => (now.1 ++ [(i, ⟨c, r⟩)], Function.update now.2.1 i (k r), s)
        | none => now
      | _ => now) ([], P, s)

theorem run_play {handler : (c : E.Call) → σ → Option (E.Settled c × σ)}
    {ownStep : σ → Option σ} {P : ι → Program E ε α} {s : σ}
    (h : ∀ c s r s', handler c s = some (r, s') → env c s r s')
    (h' : ∀ s s', ownStep s = some s' → internal s s') (schedule : List (Turn ι)) :
    Run env internal P s (play handler ownStep P s schedule).1
      (play handler ownStep P s schedule).2.1 (play handler ownStep P s schedule).2.2 := by
  induction schedule using List.reverseRecOn with
  | nil => exact .start
  | append_singleton schedule turn ih =>
    unfold play at ih ⊢
    rw [List.foldl_append]
    generalize List.foldl _ _ schedule = now at ih ⊢
    cases turn with
    | own =>
      cases hs : ownStep now.2.2 with
      | none => simpa [hs] using ih
      | some s' => simpa [hs] using ih.own (h' _ _ hs)
    | of i =>
      obtain ⟨tr, P', s₁⟩ := now
      cases hi : P' i with
      | resolve a => simpa [hi] using ih
      | reject e => simpa [hi] using ih
      | await c k =>
        cases hc : handler c s₁ with
        | none => simpa [hi, hc] using ih
        | some x => simpa [hi, hc] using ih.turn i hi (h _ _ _ _ hc)

end Foundations.Async
