import Mathlib.Data.List.Basic

/-! # Programs that await calls

The code of an `async` function is a `Program`: it resolves with a value, rejects with an error,
or awaits a call and goes on with the reply. What a call does is not part of the program. An
environment says which replies a call may get in a state and which state it leaves.

* `Exec env p s tr out s'`: run alone from `s`, the program `p` makes the calls `tr`, settles with
  `out` and leaves the state `s'`.
* `Program.Uses allowed p`: every call of `p` is allowed, whatever the replies are.
* `Program.Returns φ p`: whatever the replies are, `p` resolves with a value that satisfies `φ`, if it
  resolves.
* `Program.Propagates reason thrown p`: a rejected call of `p` rejects `p` with that reason, and any
  other error of `p` is a thrown one.
* `Program.Follows P final p q`: the calls of `p` are moves of the protocol `P` in its state `q`. It
  is the link between a program and the protocol it takes part in.
* `Program.run handler p s`: the run in which a handler replies, for use on concrete inputs.
-/

namespace Foundations.Async
set_option autoImplicit false

/-- The calls a program may await, their replies and the reasons of a rejected call. -/
structure Interface where
  Call : Type
  Reply : Call → Type
  Reason : Type

/-- The reply of a call, or the reason of its rejection. -/
abbrev Interface.Settled (E : Interface) (c : E.Call) : Type := Except E.Reason (E.Reply c)

inductive Program (E : Interface) (ε α : Type) : Type
  | resolve (value : α)
  | reject (error : ε)
  | await (call : E.Call) (next : E.Settled call → Program E ε α)

/-- One awaited call of a run. -/
structure Event (E : Interface) where
  call : E.Call
  settled : E.Settled call

/-- The call of the event was not rejected. -/
def Event.IsOk {E : Interface} (e : Event E) : Prop := ∃ reply, e.settled = .ok reply

instance {E : Interface} (e : Event E) : Decidable e.IsOk :=
  match h : e.settled with
  | .ok reply => isTrue ⟨reply, h⟩
  | .error _ => isFalse fun ⟨_, h'⟩ => nomatch h.symm.trans h'

variable {E : Interface} {ε α β γ : Type}

namespace Program

def IsSettled : Program E ε α → Prop
  | .await _ _ => False
  | _ => True

def bind (p : Program E ε α) (f : α → Program E ε β) : Program E ε β :=
  match p with
  | .resolve a => f a
  | .reject e => .reject e
  | .await c k => .await c fun r => (k r).bind f

instance : Monad (Program E ε) where
  pure := .resolve
  bind := bind

/-- A synchronous part of the code: it returns or throws. -/
def ofExcept : Except ε α → Program E ε α
  | .ok a => .resolve a
  | .error e => .reject e

/-- `try { … } finally { … }`: the second part runs however the first one settles. -/
def withFinally (p : Program E ε α) (cleanup : Program E ε Unit) : Program E ε α :=
  match p with
  | .resolve a => cleanup.bind fun _ => .resolve a
  | .reject e => cleanup.bind fun _ => .reject e
  | .await c k => .await c fun r => (k r).withFinally cleanup

/-- `await` with no `catch` around it: a rejection of the call rejects the program. -/
def call (reason : E.Reason → ε) (c : E.Call) : Program E ε (E.Reply c) :=
  .await c fun
    | .ok reply => .resolve reply
    | .error r => .reject (reason r)

@[simp] theorem pure_eq (a : α) : (pure a : Program E ε α) = .resolve a := rfl

@[simp] theorem bind_eq (p : Program E ε α) (f : α → Program E ε β) : p >>= f = p.bind f := rfl

@[simp] theorem resolve_bind (a : α) (f : α → Program E ε β) :
    (resolve a : Program E ε α).bind f = f a := rfl

@[simp] theorem reject_bind (e : ε) (f : α → Program E ε β) :
    (reject e : Program E ε α).bind f = .reject e := rfl

theorem bind_resolve (p : Program E ε α) : p.bind .resolve = p := by
  induction p with
  | resolve a => rfl
  | reject e => rfl
  | await c k ih =>
    simp only [bind]
    congr 1
    funext r
    exact ih r

theorem bind_assoc (p : Program E ε α) (f : α → Program E ε β) (g : β → Program E ε γ) :
    (p.bind f).bind g = p.bind fun a => (f a).bind g := by
  induction p with
  | resolve a => rfl
  | reject e => rfl
  | await c k ih =>
    simp only [bind]
    congr 1
    funext r
    exact ih r

end Program

/-! ## Runs of one program -/

/-- The replies a call may get in a state, and the state it leaves. -/
abbrev Env (E : Interface) (σ : Type) := (c : E.Call) → σ → E.Settled c → σ → Prop

variable {σ : Type} {env : Env E σ}

inductive Exec (env : Env E σ) : Program E ε α → σ → List (Event E) → Except ε α → σ → Prop
  | resolve (a : α) (s : σ) : Exec env (.resolve a) s [] (.ok a) s
  | reject (e : ε) (s : σ) : Exec env (.reject e) s [] (.error e) s
  | await {c : E.Call} {k : E.Settled c → Program E ε α} {s s₁ s' : σ} {r : E.Settled c}
      {tr : List (Event E)} {out : Except ε α} (replied : env c s r s₁)
      (rest : Exec env (k r) s₁ tr out s') : Exec env (.await c k) s (⟨c, r⟩ :: tr) out s'

theorem exec_resolve {a : α} {s s' : σ} {tr : List (Event E)} {out : Except ε α} :
    Exec env (.resolve a) s tr out s' ↔ tr = [] ∧ out = .ok a ∧ s' = s := by
  constructor
  · rintro ⟨⟩
    exact ⟨rfl, rfl, rfl⟩
  · rintro ⟨rfl, rfl, rfl⟩
    exact .resolve a _

theorem exec_reject {e : ε} {s s' : σ} {tr : List (Event E)} {out : Except ε α} :
    Exec env (.reject e) s tr out s' ↔ tr = [] ∧ out = .error e ∧ s' = s := by
  constructor
  · rintro ⟨⟩
    exact ⟨rfl, rfl, rfl⟩
  · rintro ⟨rfl, rfl, rfl⟩
    exact .reject e _

theorem exec_await {c : E.Call} {k : E.Settled c → Program E ε α} {s s' : σ}
    {tr : List (Event E)} {out : Except ε α} :
    Exec env (.await c k) s tr out s' ↔
      ∃ r s₁ tr₁, env c s r s₁ ∧ Exec env (k r) s₁ tr₁ out s' ∧ tr = ⟨c, r⟩ :: tr₁ := by
  constructor
  · intro h
    cases h with
    | await replied rest => exact ⟨_, _, _, replied, rest, rfl⟩
  · rintro ⟨r, s₁, tr₁, replied, rest, rfl⟩
    exact .await replied rest

theorem exec_ofExcept {x : Except ε α} {s s' : σ} {tr : List (Event E)} {out : Except ε α} :
    Exec env (.ofExcept x) s tr out s' ↔ tr = [] ∧ out = x ∧ s' = s := by
  cases x with
  | ok a => exact exec_resolve
  | error e => exact exec_reject

theorem exec_call {reason : E.Reason → ε} {c : E.Call} {s s' : σ} {tr : List (Event E)}
    {out : Except ε (E.Reply c)} :
    Exec env (.call reason c) s tr out s' ↔
      ∃ r, env c s r s' ∧ tr = [⟨c, r⟩] ∧ out = r.mapError reason := by
  rw [Program.call, exec_await]
  constructor
  · rintro ⟨r, s₁, tr₁, replied, rest, rfl⟩
    cases r with
    | ok reply =>
      obtain ⟨rfl, rfl, rfl⟩ := exec_resolve.mp rest
      exact ⟨_, replied, rfl, rfl⟩
    | error e =>
      obtain ⟨rfl, rfl, rfl⟩ := exec_reject.mp rest
      exact ⟨_, replied, rfl, rfl⟩
  · rintro ⟨r, replied, rfl, rfl⟩
    cases r with
    | ok reply => exact ⟨_, _, _, replied, .resolve reply _, rfl⟩
    | error e => exact ⟨_, _, _, replied, .reject _ _, rfl⟩

/-- A run of `p.bind f` is a rejecting run of `p`, or a resolving one followed by one of `f`. -/
theorem exec_bind {p : Program E ε α} {f : α → Program E ε β} {s s' : σ} {tr : List (Event E)}
    {out : Except ε β} :
    Exec env (p.bind f) s tr out s' ↔
      (∃ e, Exec env p s tr (.error e) s' ∧ out = .error e) ∨
      ∃ a s₁ tr₁ tr₂, Exec env p s tr₁ (.ok a) s₁ ∧ Exec env (f a) s₁ tr₂ out s' ∧
        tr = tr₁ ++ tr₂ := by
  induction p generalizing s tr with
  | resolve a =>
    simp only [Program.resolve_bind, exec_resolve, reduceCtorEq, false_and, and_false,
      exists_false, false_or]
    constructor
    · intro h
      exact ⟨a, s, [], tr, ⟨rfl, rfl, rfl⟩, h, rfl⟩
    · rintro ⟨b, s₁, tr₁, tr₂, ⟨rfl, h, rfl⟩, h', rfl⟩
      cases h
      exact h'
  | reject e =>
    simp only [Program.reject_bind, exec_reject]
    constructor
    · rintro ⟨rfl, rfl, rfl⟩
      exact .inl ⟨e, ⟨rfl, rfl, rfl⟩, rfl⟩
    · rintro (⟨e', ⟨rfl, h, rfl⟩, rfl⟩ | ⟨a, s₁, tr₁, tr₂, ⟨_, h, _⟩, _⟩)
      · cases h
        exact ⟨rfl, rfl, rfl⟩
      · cases h
  | await c k ih =>
    simp only [Program.bind, exec_await, ih]
    constructor
    · rintro ⟨r, s₁, tr₁, replied, ⟨e, h, rfl⟩ | ⟨a, s₂, tr₂, tr₃, h, h', rfl⟩, rfl⟩
      · exact .inl ⟨e, ⟨r, s₁, tr₁, replied, h, rfl⟩, rfl⟩
      · exact .inr ⟨a, s₂, ⟨c, r⟩ :: tr₂, tr₃, ⟨r, s₁, tr₂, replied, h, rfl⟩, h', rfl⟩
    · rintro (⟨e, ⟨r, s₁, tr₁, replied, h, rfl⟩, rfl⟩ |
        ⟨a, s₂, tr₂, tr₃, ⟨r, s₁, tr₁, replied, h, rfl⟩, h', rfl⟩)
      · exact ⟨r, s₁, tr₁, replied, .inl ⟨e, h, rfl⟩, rfl⟩
      · exact ⟨r, s₁, tr₁ ++ tr₃, replied, .inr ⟨a, s₂, tr₁, tr₃, h, h', rfl⟩, rfl⟩

/-- A resolving run of `p.bind f` resolves in both parts. -/
theorem exec_bind_ok {p : Program E ε α} {f : α → Program E ε β} {s s' : σ} {tr : List (Event E)}
    {b : β} :
    Exec env (p.bind f) s tr (.ok b) s' ↔
      ∃ a s₁ tr₁ tr₂, Exec env p s tr₁ (.ok a) s₁ ∧ Exec env (f a) s₁ tr₂ (.ok b) s' ∧
        tr = tr₁ ++ tr₂ := by
  rw [exec_bind]
  constructor
  · rintro (⟨e, _, h⟩ | h)
    · cases h
    · exact h
  · exact .inr

theorem exec_call_ok {reason : E.Reason → ε} {c : E.Call} {s s' : σ} {tr : List (Event E)}
    {reply : E.Reply c} :
    Exec env (.call reason c) s tr (.ok reply) s' ↔
      env c s (.ok reply) s' ∧ tr = [⟨c, .ok reply⟩] := by
  rw [exec_call]
  constructor
  · rintro ⟨r, h, rfl, hr⟩
    cases r with
    | ok reply' =>
      cases hr
      exact ⟨h, rfl⟩
    | error why => cases hr
  · rintro ⟨h, rfl⟩
    exact ⟨_, h, rfl, rfl⟩

/-- `Event.IsOk` of every event. -/
def AllOk (tr : List (Event E)) : Prop := ∀ e ∈ tr, e.IsOk

@[simp] theorem allOk_nil : AllOk ([] : List (Event E)) := by
  intro e he
  cases he

@[simp] theorem allOk_cons {e : Event E} {tr : List (Event E)} :
    AllOk (e :: tr) ↔ e.IsOk ∧ AllOk tr := by
  simp [AllOk]

@[simp] theorem allOk_append {tr tr' : List (Event E)} :
    AllOk (tr ++ tr') ↔ AllOk tr ∧ AllOk tr' := by
  simp only [AllOk, List.mem_append]
  constructor
  · intro h
    exact ⟨fun e he => h e (.inl he), fun e he => h e (.inr he)⟩
  · rintro ⟨h, h'⟩ e (he | he)
    · exact h e he
    · exact h' e he

@[simp] theorem isOk_ok {c : E.Call} {reply : E.Reply c} : Event.IsOk ⟨c, .ok reply⟩ := ⟨reply, rfl⟩

/-! ## The calls of a program -/

namespace Program

def Uses (allowed : E.Call → Prop) : Program E ε α → Prop
  | .resolve _ => True
  | .reject _ => True
  | .await c k => allowed c ∧ ∀ r, (k r).Uses allowed

theorem uses_ofExcept {allowed : E.Call → Prop} (x : Except ε α) :
    (ofExcept x : Program E ε α).Uses allowed := by
  cases x <;> trivial

theorem uses_call {allowed : E.Call → Prop} {reason : E.Reason → ε} {c : E.Call} (h : allowed c) :
    (call reason c).Uses allowed := by
  refine ⟨h, fun r => ?_⟩
  cases r <;> trivial

theorem uses_bind {allowed : E.Call → Prop} {p : Program E ε α} {f : α → Program E ε β}
    (hp : p.Uses allowed) (hf : ∀ a, (f a).Uses allowed) : (p.bind f).Uses allowed := by
  induction p with
  | resolve a => exact hf a
  | reject e => trivial
  | await c k ih => exact ⟨hp.1, fun r => ih r (hp.2 r)⟩

theorem Uses.mono {allowed allowed' : E.Call → Prop} {p : Program E ε α} (hp : p.Uses allowed)
    (h : ∀ c, allowed c → allowed' c) : p.Uses allowed' := by
  induction p with
  | resolve a => trivial
  | reject e => trivial
  | await c k ih => exact ⟨h c hp.1, fun r => ih r (hp.2 r)⟩

end Program

/-- A program keeps what its calls keep. -/
theorem Exec.invariant {allowed : E.Call → Prop} {I : σ → Prop}
    (keeps : ∀ c s r s', allowed c → env c s r s' → I s → I s')
    {p : Program E ε α} {s s' : σ} {tr : List (Event E)} {out : Except ε α}
    (run : Exec env p s tr out s') (hp : p.Uses allowed) (hs : I s) : I s' := by
  induction run with
  | resolve a s => exact hs
  | reject e s => exact hs
  | await replied rest ih => exact ih (hp.2 _) (keeps _ _ _ _ hp.1 replied hs)

theorem Exec.allowed_of_mem {allowed : E.Call → Prop} {p : Program E ε α} {s s' : σ}
    {tr : List (Event E)} {out : Except ε α} (run : Exec env p s tr out s')
    (hp : p.Uses allowed) {e : Event E} (he : e ∈ tr) : allowed e.call := by
  induction run with
  | resolve a s => cases he
  | reject e s => cases he
  | await replied rest ih =>
    cases he with
    | head => exact hp.1
    | tail _ he => exact ih (hp.2 _) he

/-- A run seen in another state space. -/
theorem Exec.project {τ : Type} {env' : Env E τ} {f : σ → τ}
    (h : ∀ c s r s', env c s r s' → env' c (f s) r (f s')) {p : Program E ε α} {s s' : σ}
    {tr : List (Event E)} {out : Except ε α} (run : Exec env p s tr out s') :
    Exec env' p (f s) tr out (f s') := by
  induction run with
  | resolve a s => exact .resolve a (f s)
  | reject e s => exact .reject e (f s)
  | await replied rest ih => exact .await (h _ _ _ _ replied) ih

/-! ## The value of a program -/

namespace Program

/-- Whatever is replied, a value the program resolves with satisfies the predicate. -/
def Returns (φ : α → Prop) : Program E ε α → Prop
  | .resolve a => φ a
  | .reject _ => True
  | .await _ k => ∀ r, (k r).Returns φ

variable {φ : α → Prop} {ψ : β → Prop}

theorem returns_bind {p : Program E ε α} {f : α → Program E ε β} (hp : p.Returns φ)
    (hf : ∀ a, φ a → (f a).Returns ψ) : (p.bind f).Returns ψ := by
  induction p with
  | resolve a => exact hf a hp
  | reject e => trivial
  | await c k ih => exact fun r => ih r (hp r)

theorem returns_true (p : Program E ε α) : p.Returns fun _ => True := by
  induction p with
  | resolve a => trivial
  | reject e => trivial
  | await c k ih => exact ih

end Program

theorem Exec.returns {φ : α → Prop} {p : Program E ε α} {s s' : σ} {tr : List (Event E)} {a : α}
    (run : Exec env p s tr (.ok a) s') (hp : p.Returns φ) : φ a := by
  generalize hout : (Except.ok a : Except ε α) = out at run
  induction run with
  | resolve b s =>
    cases hout
    exact hp
  | reject e s => cases hout
  | await replied rest ih => exact ih (hp _) hout

/-! ## Rejected calls -/

namespace Program

def Propagates (reason : E.Reason → ε) (thrown : ε → Prop) : Program E ε α → Prop
  | .resolve _ => True
  | .reject e => thrown e
  | .await _ k => (∀ why, k (.error why) = .reject (reason why)) ∧
      ∀ reply, (k (.ok reply)).Propagates reason thrown

variable {reason : E.Reason → ε} {thrown : ε → Prop}

theorem propagates_ofExcept {x : Except ε α} (h : ∀ e, x = .error e → thrown e) :
    (ofExcept x : Program E ε α).Propagates reason thrown := by
  cases x with
  | ok a => trivial
  | error e => exact h e rfl

theorem propagates_call (c : E.Call) : (call reason c).Propagates reason thrown :=
  ⟨fun _ => rfl, fun _ => trivial⟩

theorem propagates_bind {p : Program E ε α} {f : α → Program E ε β}
    (hp : p.Propagates reason thrown) (hf : ∀ a, (f a).Propagates reason thrown) :
    (p.bind f).Propagates reason thrown := by
  induction p with
  | resolve a => exact hf a
  | reject e => exact hp
  | await c k ih =>
    refine ⟨fun why => ?_, fun reply => ih _ (hp.2 reply)⟩
    change (k (.error why)).bind f = _
    rw [hp.1 why, reject_bind]

end Program

theorem Exec.allOk {reason : E.Reason → ε} {thrown : ε → Prop} {p : Program E ε α} {s s' : σ}
    {tr : List (Event E)} {a : α} (run : Exec env p s tr (.ok a) s')
    (hp : p.Propagates reason thrown) : AllOk tr := by
  generalize hout : (Except.ok a : Except ε α) = out at run
  induction run with
  | resolve b s => exact allOk_nil
  | reject e s => exact allOk_nil
  | @await c k s s₁ s' r tr out replied rest ih =>
    cases r with
    | ok reply => exact allOk_cons.mpr ⟨isOk_ok, ih (hp.2 reply) hout⟩
    | error why =>
      rw [hp.1 why, exec_reject] at rest
      cases hout.trans rest.2.1

/-- A rejecting run threw after calls that all got their reply, or its last call was rejected. -/
theorem Exec.error_cases {reason : E.Reason → ε} {thrown : ε → Prop} {p : Program E ε α}
    {s s' : σ} {tr : List (Event E)} {e : ε} (run : Exec env p s tr (.error e) s')
    (hp : p.Propagates reason thrown) :
    (thrown e ∧ AllOk tr) ∨
      ∃ tr₁ c why, tr = tr₁ ++ [⟨c, .error why⟩] ∧ AllOk tr₁ ∧ e = reason why := by
  generalize hout : (Except.error e : Except ε α) = out at run
  induction run with
  | resolve b s => cases hout
  | reject e' s =>
    cases hout
    exact .inl ⟨hp, allOk_nil⟩
  | @await c k s s₁ s' r tr out replied rest ih =>
    cases r with
    | ok reply =>
      obtain ⟨ht, hok⟩ | ⟨tr₁, c', why, rfl, hok, rfl⟩ := ih (hp.2 reply) hout
      · exact .inl ⟨ht, allOk_cons.mpr ⟨isOk_ok, hok⟩⟩
      · exact .inr ⟨⟨c, .ok reply⟩ :: tr₁, c', why, rfl, allOk_cons.mpr ⟨isOk_ok, hok⟩, rfl⟩
    | error why =>
      rw [hp.1 why, exec_reject] at rest
      obtain ⟨rfl, h, rfl⟩ := rest
      cases hout.trans h
      exact .inr ⟨[], c, why, rfl, allOk_nil, rfl⟩

/-! ## Programs and protocols -/

/-- One party of a protocol: the calls it may make in a state, and the state a settled call leads
to. -/
structure Protocol (E : Interface) (Q : Type) where
  allowed : Q → E.Call → Prop
  next : Q → Event E → Q

variable {Q : Type}

namespace Program

def Follows (P : Protocol E Q) (final : Q → Except ε α → Prop) : Program E ε α → Q → Prop
  | .resolve a, q => final q (.ok a)
  | .reject e, q => final q (.error e)
  | .await c k, q => P.allowed q c ∧ ∀ r, (k r).Follows P final (P.next q ⟨c, r⟩)

theorem follows_call_bind {P : Protocol E Q} {final : Q → Except ε β → Prop} {q : Q}
    {reason : E.Reason → ε} {c : E.Call} {f : E.Reply c → Program E ε β} (ha : P.allowed q c)
    (herror : ∀ why, final (P.next q ⟨c, .error why⟩) (.error (reason why)))
    (hok : ∀ reply, (f reply).Follows P final (P.next q ⟨c, .ok reply⟩)) :
    ((call reason c).bind f).Follows P final q := by
  refine ⟨ha, fun r => ?_⟩
  cases r with
  | ok reply => exact hok reply
  | error why => exact herror why

theorem follows_call_withFinally {P : Protocol E Q} {final : Q → Except ε β → Prop} {q : Q}
    {reason : E.Reason → ε} {c : E.Call} {f : E.Reply c → Program E ε β}
    {cleanup : Program E ε Unit} (ha : P.allowed q c)
    (herror : ∀ why, (cleanup.bind fun _ => reject (reason why)).Follows P final
      (P.next q ⟨c, .error why⟩))
    (hok : ∀ reply, ((f reply).withFinally cleanup).Follows P final (P.next q ⟨c, .ok reply⟩)) :
    (((call reason c).bind f).withFinally cleanup).Follows P final q := by
  refine ⟨ha, fun r => ?_⟩
  cases r with
  | ok reply => exact hok reply
  | error why => exact herror why

/-- A final condition on resolved programs only. -/
def OnResolve (φ : Q → α → Prop) (q : Q) (out : Except ε α) : Prop := ∀ a, out = .ok a → φ q a

variable {P : Protocol E Q} {φ : Q → α → Prop} {ψ : Q → β → Prop} {q : Q}

theorem follows_resolve {a : α} (h : φ q a) :
    (resolve a : Program E ε α).Follows P (OnResolve φ) q := by
  rintro _ ⟨⟩
  exact h

theorem follows_reject (e : ε) : (reject e : Program E ε α).Follows P (OnResolve φ) q := by
  rintro _ ⟨⟩

theorem follows_ofExcept {x : Except ε α} (h : ∀ a, x = .ok a → φ q a) :
    (ofExcept x : Program E ε α).Follows P (OnResolve φ) q := by
  cases x with
  | ok a => exact follows_resolve (h a rfl)
  | error e => exact follows_reject e

theorem follows_call {reason : E.Reason → ε} {c : E.Call} {φ : Q → E.Reply c → Prop}
    (ha : P.allowed q c) (h : ∀ reply, φ (P.next q ⟨c, .ok reply⟩) reply) :
    (call reason c).Follows P (OnResolve φ) q := by
  refine ⟨ha, fun r => ?_⟩
  cases r with
  | ok reply => exact follows_resolve (h reply)
  | error why => exact follows_reject _

theorem follows_bind {p : Program E ε α} {f : α → Program E ε β}
    (hp : p.Follows P (OnResolve φ) q)
    (hf : ∀ q' a, φ q' a → (f a).Follows P (OnResolve ψ) q') :
    (p.bind f).Follows P (OnResolve ψ) q := by
  induction p generalizing q with
  | resolve a => exact hf q a (hp a rfl)
  | reject e => exact follows_reject e
  | await c k ih => exact ⟨hp.1, fun r => ih r (hp.2 r)⟩

/-- A program whose calls are allowed and do not move the protocol. -/
theorem follows_of_uses {p : Program E ε α} {calls : E.Call → Prop} {reason : E.Reason → ε}
    {thrown : ε → Prop} (hp : p.Uses calls) (hr : p.Propagates reason thrown)
    (allowed : ∀ c, calls c → P.allowed q c)
    (stays : ∀ c reply, calls c → P.next q ⟨c, .ok reply⟩ = q) :
    p.Follows P (OnResolve fun q' _ => q' = q) q := by
  induction p with
  | resolve a => exact follows_resolve rfl
  | reject e => exact follows_reject e
  | await c k ih =>
    refine ⟨allowed c hp.1, fun r => ?_⟩
    cases r with
    | ok reply =>
      rw [stays c reply hp.1]
      exact ih _ (hp.2 _) (hr.2 reply)
    | error why =>
      rw [hr.1 why]
      exact follows_reject _

end Program

/-! ## Runs on concrete inputs -/

namespace Program

def run (handler : (c : E.Call) → σ → E.Settled c × σ) :
    Program E ε α → σ → List (Event E) × Except ε α × σ
  | .resolve a, s => ([], .ok a, s)
  | .reject e, s => ([], .error e, s)
  | .await c k, s =>
    let rest := (k (handler c s).1).run handler (handler c s).2
    (⟨c, (handler c s).1⟩ :: rest.1, rest.2)

theorem exec_run {handler : (c : E.Call) → σ → E.Settled c × σ}
    (h : ∀ c s, env c s (handler c s).1 (handler c s).2) (p : Program E ε α) (s : σ) :
    Exec env p s (p.run handler s).1 (p.run handler s).2.1 (p.run handler s).2.2 := by
  induction p generalizing s with
  | resolve a => exact .resolve a s
  | reject e => exact .reject e s
  | await c k ih => exact .await (h c s) (ih _ _)

/-- Where every reply is the handler's, a program has one run. -/
theorem exec_unique {handler : (c : E.Call) → σ → E.Settled c × σ}
    (h : ∀ c s r s', env c s r s' → (r, s') = handler c s) {p : Program E ε α} {s s' : σ}
    {tr : List (Event E)} {out : Except ε α} (run : Exec env p s tr out s') :
    (tr, out, s') = p.run handler s := by
  induction run with
  | resolve a s => rfl
  | reject e s => rfl
  | @await c k s s₁ s' r tr out replied rest ih =>
    have hr := h c s r s₁ replied
    rw [Program.run, ← hr, ← ih]

/-- How the run ends. -/
def settle (handler : (c : E.Call) → σ → E.Settled c × σ) (p : Program E ε α) (s : σ) :
    Except ε α × σ := (p.run handler s).2

section Settle

variable {handler : (c : E.Call) → σ → E.Settled c × σ} {s s' : σ}

@[simp] theorem settle_resolve (a : α) :
    (resolve a : Program E ε α).settle handler s = (.ok a, s) := rfl

theorem settle_bind_ok {p : Program E ε α} {f : α → Program E ε β} {a : α}
    (h : p.settle handler s = (.ok a, s')) : (p.bind f).settle handler s = (f a).settle handler s' := by
  induction p generalizing s with
  | resolve b =>
    cases h
    rfl
  | reject e => cases h
  | await c k ih => exact ih _ h

theorem settle_bind_error {p : Program E ε α} {f : α → Program E ε β} {e : ε}
    (h : p.settle handler s = (.error e, s')) : (p.bind f).settle handler s = (.error e, s') := by
  induction p generalizing s with
  | resolve b => cases h
  | reject e =>
    cases h
    rfl
  | await c k ih => exact ih _ h

theorem settle_withFinally {p : Program E ε α} {cleanup : Program E ε Unit} {s₁ : σ}
    {out : Except ε α} (hp : p.settle handler s = (out, s₁))
    (hcleanup : cleanup.settle handler s₁ = (.ok (), s')) :
    (p.withFinally cleanup).settle handler s = (out, s') := by
  induction p generalizing s with
  | resolve a =>
    cases hp
    exact settle_bind_ok hcleanup
  | reject e =>
    cases hp
    exact settle_bind_ok hcleanup
  | await c k ih => exact ih _ hp

theorem settle_call {reason : E.Reason → ε} {c : E.Call} {r : E.Settled c}
    (h : handler c s = (r, s')) :
    (call reason c : Program E ε (E.Reply c)).settle handler s = (r.mapError reason, s') := by
  rw [settle, call, run, h]
  cases r <;> rfl

end Settle

theorem mem_run {handler : (c : E.Call) → σ → E.Settled c × σ} {p : Program E ε α} {s : σ}
    {e : Event E} (he : e ∈ (p.run handler s).1) : ∃ s', e.settled = (handler e.call s').1 := by
  induction p generalizing s with
  | resolve a => cases he
  | reject e => cases he
  | await c k ih =>
    cases he with
    | head => exact ⟨s, rfl⟩
    | tail _ he => exact ih _ he

end Program

end Foundations.Async
