import MidnightJs.Contracts.FindDeployedContract
import MidnightJs.Foundations.Sessions

/-! # The private state provider as a store

`PrivateStateProvider` as a map of private states and a map of signing keys, whose operations are
atomic, and the environment in which an operation runs when nobody else writes to the store. What
the other providers reply is arbitrary; a circuit replies what its function returns. -/

namespace MidnightJs
open Foundations Foundations.Js Foundations.Async
set_option autoImplicit false

structure PrivateStore (PS : Type) where
  privateStates : PrivateStateId → Option PS
  signingKeys : ContractAddress → Option SigningKey

namespace PrivateStore

variable {PS : Type}

def set (s : PrivateStore PS) (privateStateId : PrivateStateId) (state : PS) : PrivateStore PS :=
  { s with privateStates := Function.update s.privateStates privateStateId (some state) }

def setSigningKey (s : PrivateStore PS) (address : ContractAddress) (signingKey : SigningKey) :
    PrivateStore PS :=
  { s with signingKeys := Function.update s.signingKeys address (some signingKey) }

/-- `set` when there is an id. -/
def setAt (s : PrivateStore PS) (privateStateId : Option PrivateStateId) (state : PS) :
    PrivateStore PS :=
  match privateStateId with
  | some privateStateId => s.set privateStateId state
  | none => s

variable {s : PrivateStore PS} {id id' : PrivateStateId} {a a' : ContractAddress} {v : PS}
  {k : SigningKey}

@[simp] theorem set_privateStates_self : (s.set id v).privateStates id = some v := by
  simp [set]

@[simp] theorem setSigningKey_signingKeys_self : (s.setSigningKey a k).signingKeys a = some k := by
  simp [setSigningKey]

@[simp] theorem setAt_signingKeys {o : Option PrivateStateId} :
    (s.setAt o v).signingKeys = s.signingKeys := by
  cases o <;> rfl

theorem set_privateStates_of_ne (h : id' ≠ id) :
    (s.set id v).privateStates id' = s.privateStates id' := by
  simp [set, h]

theorem setSigningKey_signingKeys_of_ne (h : a' ≠ a) :
    (s.setSigningKey a k).signingKeys a' = s.signingKeys a' := by
  simp [setSigningKey, h]

end PrivateStore

section Environment

variable [Runtime] {PS : Type}

/-- The two writes to the store. -/
def ProviderCall.IsWrite : ProviderCall PS → Prop
  | .set _ _ | .setSigningKey _ _ => True
  | _ => False

/-- What a fulfilled call may reply, and the store it leaves. -/
def Serves (c : ProviderCall PS) (s : PrivateStore PS) (reply : c.Reply) (s' : PrivateStore PS) :
    Prop :=
  match c with
  | .get privateStateId => reply = s.privateStates privateStateId ∧ s' = s
  | .set privateStateId state => s' = s.set privateStateId state
  | .getSigningKey address => reply = s.signingKeys address ∧ s' = s
  | .setSigningKey address signingKey => s' = s.setSigningKey address signingKey
  | .runCircuit circuit context args => circuit context args = .ok reply ∧ s' = s
  | _ => s' = s

/-- A call is fulfilled, or it is one of those that may be rejected, without an effect. -/
def storeEnv (mayReject : ProviderCall PS → Prop) : Env (Providers PS) (PrivateStore PS) :=
  fun c s r s' =>
    match r with
    | .ok reply => Serves c s reply s'
    | .error _ => mayReject c ∧ s' = s

theorem Serves.frame {c : ProviderCall PS} {s s' : PrivateStore PS} {reply : c.Reply}
    (h : Serves c s reply s') (hc : ¬ c.IsWrite) : s' = s := by
  cases c with
  | set id v => exact absurd trivial hc
  | setSigningKey a k => exact absurd trivial hc
  | get id => exact h.2
  | getSigningKey a => exact h.2
  | runCircuit circuit context args => exact h.2
  | _ => exact h

variable {mayReject : ProviderCall PS → Prop}

theorem storeEnv_frame {c : ProviderCall PS} {s s' : PrivateStore PS}
    {r : (Providers PS).Settled c} (h : storeEnv mayReject c s r s') (hc : ¬ c.IsWrite) :
    s' = s := by
  cases r with
  | ok reply => exact Serves.frame h hc
  | error why => exact h.2

/-- A program without writes leaves the store as it was. -/
theorem exec_frame {ε α : Type} {p : Program (Providers PS) ε α} {s s' : PrivateStore PS}
    {tr : List (Event (Providers PS))} {out : Except ε α}
    (run : Exec (storeEnv mayReject) p s tr out s')
    (hp : p.Uses fun c : ProviderCall PS => ¬ c.IsWrite) :
    s' = s := by
  refine run.invariant (I := fun x => x = s) (fun c s₁ r s₂ hc hr hs => ?_) hp rfl
  rw [storeEnv_frame hr hc, hs]

/-! ## A store on concrete inputs -/

/-- Answers from the store, from the circuits, and from `others` for all other calls. -/
def storeHandler (others : (c : ProviderCall PS) → (Providers PS).Settled c) :
    (c : ProviderCall PS) → PrivateStore PS → (Providers PS).Settled c × PrivateStore PS
  | .get privateStateId, s => (.ok (s.privateStates privateStateId), s)
  | .set privateStateId state, s => (.ok (), s.set privateStateId state)
  | .getSigningKey address, s => (.ok (s.signingKeys address), s)
  | .setSigningKey address signingKey, s => (.ok (), s.setSigningKey address signingKey)
  | .runCircuit circuit context args, s => (circuit context args, s)
  | c, s => (others c, s)

theorem storeEnv_storeHandler {others : (c : ProviderCall PS) → (Providers PS).Settled c}
    (h : ∀ c, ¬ c.IsWrite → mayReject c) (c : ProviderCall PS) (s : PrivateStore PS) :
    storeEnv mayReject c s (storeHandler others c s).1 (storeHandler others c s).2 := by
  have hothers : ∀ c : ProviderCall PS, ¬ c.IsWrite → (∀ reply, Serves c s reply s) →
      storeEnv mayReject c s (others c) s := by
    intro c hc hs
    cases hr : others c with
    | ok reply => exact hs reply
    | error why => exact ⟨h c hc, rfl⟩
  cases c with
  | get id => exact ⟨rfl, rfl⟩
  | set id v => exact rfl
  | getSigningKey a => exact ⟨rfl, rfl⟩
  | setSigningKey a k => exact rfl
  | runCircuit circuit context args =>
    change storeEnv mayReject (.runCircuit circuit context args) s (circuit context args) s
    cases hr : circuit context args with
    | ok reply => exact ⟨hr, rfl⟩
    | error why => exact ⟨h _ id, rfl⟩
  | _ => exact hothers _ id fun _ => rfl

end Environment

namespace Sample

/-- 34 bytes. -/
def address : ContractAddress := List.replicate 68 0x30

def key (n : ℕ) : SigningKey := naturalText n

def circuitId : CircuitId := js "increment"

def state (authority : SigningKey) : ContractState where
  data := ()
  operations := [(circuitId, ⟨[]⟩)]
  maintenanceAuthority := ⟨[authority], 1, 0⟩

/-- One circuit, which adds `n` to a number. -/
def contract (n : ℕ) : Contract (Option ℕ) where
  impureCircuits := [(circuitId, fun context _ => .ok ⟨(),
    { context with currentPrivateState := context.currentPrivateState.map (· + n) },
    ⟨(), (), [], []⟩⟩)]
  initialState context _ := .ok ⟨state [], context.initialPrivateState,
    context.initialZswapLocalState⟩

def providers : ContractProviders := ⟨true, js "00", js "00"⟩

def finalized (status : TxStatus) : FinalizedTxData :=
  ⟨⟨[]⟩, status, js "tx", js "hash", js "block", 1⟩

/-- Every transaction is finalized with the same status; nothing else fails. -/
def reply (status : TxStatus) : (c : ProviderCall (Option ℕ)) → (Providers (Option ℕ)).Settled c
  | .queryContractState _ | .queryDeployContractState _ => .ok (some (state []))
  | .queryZSwapAndContractState _ => .ok (some ((), state []))
  | .watchForDeployTxData _ | .watchForTxData _ => .ok (finalized status)
  | .getZkConfig id => .ok ⟨id, [], ()⟩
  | .getVerifierKeys ids => .ok (ids.map fun id => (id, []))
  | .proveTx tx _ => .ok ⟨tx.contracts⟩
  | .balanceTx tx _ => .ok ⟨tx.contracts⟩
  | .submitTx _ => .ok (js "tx")
  | .get _ => .ok none
  | .getSigningKey _ => .ok none
  | .set _ _ | .setSigningKey _ _ => .ok ()
  | .runCircuit circuit context args => circuit context args
  | .newContractDeploy _ => .ok address
  | .communicationCommitmentRandomness => .ok ()
  | .sampleSigningKey => .ok (key 0)
  | .dateNow => .ok 0

def store (state : Option (Option ℕ)) (key : Option SigningKey) : PrivateStore (Option ℕ) :=
  ⟨fun _ => state, fun _ => key⟩

end Sample

end MidnightJs
