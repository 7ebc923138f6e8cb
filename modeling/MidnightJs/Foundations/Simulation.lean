import MidnightJs.Foundations.Sessions
import Mathlib.Data.List.Forall2

/-! # Simulation of one environment by another

A program runs in an environment that answers its calls in detail, and in one that answers them in
brief. When every call that is answered in the first can be answered in the second with the same
reply, in states that stay related, every run and every session of the first is one of the second,
call by call. What is proved about the brief environment then holds of the detailed one. -/

namespace Foundations.Async
set_option autoImplicit false

variable {E : Interface} {ε α σ τ : Type} {env : Env E σ} {env' : Env E τ} {R : σ → τ → Prop}
  {allowed : Event E → Prop}

/-- An allowed answer of the first environment is one of the second, and related states stay so. -/
def Simulates (env : Env E σ) (env' : Env E τ) (R : σ → τ → Prop) (allowed : Event E → Prop) : Prop :=
  ∀ c s r s' t, allowed ⟨c, r⟩ → env c s r s' → R s t → ∃ t', env' c t r t' ∧ R s' t'

theorem Simulates.exec (h : Simulates env env' R allowed) {p : Program E ε α} {s s' : σ} {t : τ}
    {tr : List (Event E)} {out : Except ε α} (run : Exec env p s tr out s')
    (hallowed : ∀ e ∈ tr, allowed e) (hR : R s t) : ∃ t', Exec env' p t tr out t' ∧ R s' t' := by
  induction run generalizing t with
  | resolve a s => exact ⟨t, .resolve a t, hR⟩
  | reject e s => exact ⟨t, .reject e t, hR⟩
  | @await c k s s₁ s' r tr out replied rest ih =>
    obtain ⟨t₁, hmove, hR₁⟩ := h c s r s₁ t (hallowed _ List.mem_cons_self) replied hR
    obtain ⟨t', hrest, hR'⟩ := ih (fun e he => hallowed e (List.mem_cons_of_mem _ he)) hR₁
    exact ⟨t', .await hmove hrest, hR'⟩

/-- One performed operation in two environments: the same calls, replies and outcome. -/
inductive Alike (R : σ → τ → Prop) {S : Service E ε} : Performed S σ → Performed S τ → Prop
  | mk (op : S.Op) (tr : List (Event E)) (out : Except ε (S.Result op)) {s s' : σ} {t t' : τ}
      (before : R s t) (after : R s' t') : Alike R ⟨op, s, tr, out, s'⟩ ⟨op, t, tr, out, t'⟩

theorem Simulates.session (h : Simulates env env' R allowed) {S : Service E ε} {s₀ s : σ} {t₀ : τ}
    {done : List (Performed S σ)} (session : Session env s₀ done s)
    (hallowed : ∀ d ∈ done, ∀ e ∈ d.trace, allowed e) (hR : R s₀ t₀) :
    ∃ (done' : List (Performed S τ)) (t : τ),
      Session env' t₀ done' t ∧ List.Forall₂ (Alike R) done done' ∧ R s t := by
  induction session with
  | nil => exact ⟨[], t₀, .nil, .nil, hR⟩
  | @snoc done d before valid ih =>
    obtain ⟨done', t, hsession, halike, hbefore⟩ :=
      ih fun d' hd' => hallowed d' (List.mem_append_left _ hd')
    obtain ⟨op, s, tr, out, s'⟩ := d
    obtain ⟨t', hrun, hafter⟩ := h.exec valid (hallowed _ (by simp)) hbefore
    let d' : Performed S τ := ⟨op, t, tr, out, t'⟩
    have hlast : List.Forall₂ (Alike R) [⟨op, s, tr, out, s'⟩] [d'] :=
      .cons ⟨op, tr, out, hbefore, hafter⟩ .nil
    exact ⟨done' ++ [d'], t', Session.snoc (d := d') hsession hrun, List.rel_append halike hlast,
      hafter⟩

end Foundations.Async
