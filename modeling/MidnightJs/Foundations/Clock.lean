import MidnightJs.Foundations.Sessions
import Mathlib.Order.Basic

/-! # Environments with a clock

Every reply takes its time, so a run ends no earlier than it starts, each of its replies comes in
between, and the operations of a session follow each other in time. -/

namespace Foundations.Async
set_option autoImplicit false

variable {E : Interface} {ε α σ τ : Type} [Preorder τ] {env : Env E σ} {clock : σ → τ}

/-- No reply is back before its call. -/
def Ticks (env : Env E σ) (clock : σ → τ) : Prop :=
  ∀ c s r s', env c s r s' → clock s ≤ clock s'

theorem Ticks.exec (ticks : Ticks env clock) {p : Program E ε α} {s s' : σ} {tr : List (Event E)}
    {out : Except ε α} (run : Exec env p s tr out s') : clock s ≤ clock s' := by
  induction run with
  | resolve a s => exact le_rfl
  | reject e s => exact le_rfl
  | await replied rest ih => exact (ticks _ _ _ _ replied).trans ih

/-- Every reply of a run came within the run. -/
theorem Ticks.reply (ticks : Ticks env clock) {p : Program E ε α} {s s' : σ} {tr : List (Event E)}
    {out : Except ε α} (run : Exec env p s tr out s') {e : Event E} (h : e ∈ tr) :
    ∃ s₁ s₂, env e.call s₁ e.settled s₂ ∧ clock s ≤ clock s₁ ∧ clock s₂ ≤ clock s' := by
  induction run with
  | resolve a s => exact absurd h List.not_mem_nil
  | reject e s => exact absurd h List.not_mem_nil
  | await replied rest ih =>
    obtain rfl | h := List.mem_cons.mp h
    · exact ⟨_, _, replied, le_rfl, ticks.exec rest⟩
    · obtain ⟨s₁, s₂, hreply, hfrom, huntil⟩ := ih h
      exact ⟨s₁, s₂, hreply, (ticks _ _ _ _ replied).trans hfrom, huntil⟩

theorem Ticks.session (ticks : Ticks env clock) {S : Service E ε} {s₀ s : σ}
    {done : List (Performed S σ)} (session : Session env s₀ done s) : clock s₀ ≤ clock s :=
  session.invariant (I := fun s => clock s₀ ≤ clock s) le_rfl
    fun _ _ valid h => h.trans (ticks.exec valid)

/-- An operation ends before a later one starts. -/
theorem Ticks.follows (ticks : Ticks env clock) {S : Service E ε} {s₀ s : σ}
    {pre mid post : List (Performed S σ)} {d e : Performed S σ}
    (session : Session env s₀ (pre ++ d :: (mid ++ e :: post)) s) :
    d.Valid env ∧ e.Valid env ∧ clock d.after ≤ clock e.before := by
  obtain ⟨-, hd, hrest⟩ := session.split
  obtain ⟨hmid, he, -⟩ := hrest.split
  exact ⟨hd, he, ticks.session hmid⟩

end Foundations.Async
