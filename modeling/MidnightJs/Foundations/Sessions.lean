import MidnightJs.Foundations.Async
import Mathlib.Data.List.Induction

/-! # Sequential runs of operations

A service offers operations, each a program. A session performs finitely many of them, one after
the other, from a state: `Session env s₀ done s`. Every performed operation keeps its state before
and after, its calls and its outcome, so that a statement about a session can speak of all of
them. -/

namespace Foundations.Async
set_option autoImplicit false

structure Service (E : Interface) (ε : Type) where
  Op : Type
  Result : Op → Type
  program : (o : Op) → Program E ε (Result o)

variable {E : Interface} {ε σ : Type} {S : Service E ε} {env : Env E σ}

structure Performed (S : Service E ε) (σ : Type) where
  op : S.Op
  before : σ
  trace : List (Event E)
  outcome : Except ε (S.Result op)
  after : σ

namespace Performed

def Valid (env : Env E σ) (d : Performed S σ) : Prop :=
  Exec env (S.program d.op) d.before d.trace d.outcome d.after

def Resolved (d : Performed S σ) : Prop := ∃ result, d.outcome = .ok result

end Performed

inductive Session (env : Env E σ) (s₀ : σ) : List (Performed S σ) → σ → Prop
  | nil : Session env s₀ [] s₀
  | snoc {done : List (Performed S σ)} {d : Performed S σ} (before : Session env s₀ done d.before)
      (valid : d.Valid env) : Session env s₀ (done ++ [d]) d.after

namespace Session

variable {s₀ s : σ} {done : List (Performed S σ)}

theorem snoc_inv {d : Performed S σ} (h : Session env s₀ (done ++ [d]) s) :
    Session env s₀ done d.before ∧ d.Valid env ∧ s = d.after := by
  generalize hd : done ++ [d] = all at h
  cases h with
  | nil => simp at hd
  | snoc before valid =>
    obtain ⟨rfl, hlast⟩ := List.append_inj' hd rfl
    obtain rfl := List.singleton_inj.mp hlast
    exact ⟨before, valid, rfl⟩

theorem valid_of_mem (h : Session env s₀ done s) {d : Performed S σ} (hd : d ∈ done) :
    d.Valid env := by
  induction h with
  | nil => cases hd
  | @snoc done d' before valid ih =>
    rcases List.mem_append.mp hd with hd | hd
    · exact ih hd
    · rw [List.mem_singleton.mp hd]
      exact valid

/-- A session splits at any place. -/
theorem append_inv {pre post : List (Performed S σ)} (h : Session env s₀ (pre ++ post) s) :
    ∃ s₁, Session env s₀ pre s₁ ∧ Session env s₁ post s := by
  induction post using List.reverseRecOn generalizing s with
  | nil => exact ⟨s, by simpa using h, .nil⟩
  | append_singleton post d ih =>
    rw [← List.append_assoc] at h
    obtain ⟨before, valid, rfl⟩ := h.snoc_inv
    obtain ⟨s₁, h₁, h₂⟩ := ih before
    exact ⟨s₁, h₁, .snoc h₂ valid⟩

/-- A session splits at any of its operations. -/
theorem split {pre post : List (Performed S σ)} {d : Performed S σ}
    (h : Session env s₀ (pre ++ d :: post) s) :
    Session env s₀ pre d.before ∧ d.Valid env ∧ Session env d.after post s := by
  rw [List.append_cons] at h
  obtain ⟨s₁, h₁, h₂⟩ := h.append_inv
  obtain ⟨before, valid, rfl⟩ := h₁.snoc_inv
  exact ⟨before, valid, h₂⟩

/-- What every performed operation keeps holds after the session. -/
theorem invariant {I : σ → Prop} (h : Session env s₀ done s) (h₀ : I s₀)
    (keeps : ∀ d ∈ done, d.Valid env → I d.before → I d.after) : I s := by
  induction h with
  | nil => exact h₀
  | @snoc done d before valid ih =>
    refine keeps d (by simp) valid (ih fun d' hd' => keeps d' ?_)
    exact List.mem_append_left _ hd'

/-- What is related to the states stays related when every operation changes it by `effect`. -/
theorem foldl_rel {τ : Type} {R : σ → τ → Prop} {effect : τ → Performed S σ → τ} {t₀ : τ}
    (h : Session env s₀ done s) (h₀ : R s₀ t₀)
    (step : ∀ d ∈ done, d.Valid env → ∀ t, R d.before t → R d.after (effect t d)) :
    R s (done.foldl effect t₀) := by
  induction h with
  | nil => exact h₀
  | @snoc done d before valid ih =>
    rw [List.foldl_append]
    refine step d (by simp) valid _ (ih fun d' hd' => step d' ?_)
    exact List.mem_append_left _ hd'

/-- The final state is a fold when every operation changes the state by `effect`. -/
theorem foldl {effect : σ → Performed S σ → σ} (h : Session env s₀ done s)
    (step : ∀ d ∈ done, d.after = effect d.before d) : s = done.foldl effect s₀ := by
  induction h with
  | nil => rfl
  | @snoc done d before valid ih =>
    rw [List.foldl_append, ← ih fun d' hd' => step d' (List.mem_append_left _ hd')]
    exact step d (by simp)

end Session

/-- The session in which a handler replies, for use on concrete inputs. -/
def Service.perform (S : Service E ε) (handler : (c : E.Call) → σ → E.Settled c × σ)
    (ops : List S.Op) (s : σ) : List (Performed S σ) × σ :=
  ops.foldl (fun now op =>
    let r := (S.program op).run handler now.2
    (now.1 ++ [⟨op, now.2, r.1, r.2.1, r.2.2⟩], r.2.2)) ([], s)

theorem session_perform {handler : (c : E.Call) → σ → E.Settled c × σ}
    (h : ∀ c s, env c s (handler c s).1 (handler c s).2) (ops : List S.Op) (s : σ) :
    Session env s (S.perform handler ops s).1 (S.perform handler ops s).2 := by
  unfold Service.perform
  induction ops using List.reverseRecOn with
  | nil => exact .nil
  | append_singleton ops op ih =>
    rw [List.foldl_append]
    generalize List.foldl _ _ ops = now at ih ⊢
    let d : Performed S σ := ⟨op, now.2, ((S.program op).run handler now.2).1,
      ((S.program op).run handler now.2).2.1, ((S.program op).run handler now.2).2.2⟩
    exact Session.snoc (d := d) ih (Program.exec_run h _ _)

theorem mem_perform {handler : (c : E.Call) → σ → E.Settled c × σ} {ops : List S.Op} {s : σ}
    {d : Performed S σ} (hd : d ∈ (S.perform handler ops s).1) :
    d.op ∈ ops ∧ ∀ e ∈ d.trace, ∃ s', e.settled = (handler e.call s').1 := by
  unfold Service.perform at hd
  induction ops using List.reverseRecOn with
  | nil => cases hd
  | append_singleton ops op ih =>
    rw [List.foldl_append, List.foldl_cons, List.foldl_nil, List.mem_append,
      List.mem_singleton] at hd
    obtain hd | rfl := hd
    · obtain ⟨hop, hs⟩ := ih hd
      exact ⟨List.mem_append_left _ hop, hs⟩
    · exact ⟨by simp, fun e he => Program.mem_run he⟩

end Foundations.Async
