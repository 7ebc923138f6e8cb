import MidnightJs.Foundations.Async
import MidnightJs.Ledger.Transactions
import MidnightJs.Utils.Assertions

/-! # Contracts and providers

What the operations of `packages/contracts/src` are given: a compiled contract, whose circuits are
functions of their context and arguments, and the providers, which they talk to by awaited calls.
The few synchronous steps whose result is not a function of their arguments (the clock, random
values, the run of a circuit) are calls too, so that a trace shows them. -/

namespace MidnightJs
open Foundations Foundations.Js Foundations.Async
set_option autoImplicit false

abbrev PrivateStateId := JsString

variable [Runtime] (PS : Type)

/-! ## Contracts -/

structure CircuitContext where
  originalState : ContractState
  currentPrivateState : PS
  transactionContext : QueryContext
  currentZswapLocalState : EncodedZswapLocalState

structure ProofData where
  input : AlignedValue
  output : AlignedValue
  publicTranscript : List Op
  privateTranscriptOutputs : List AlignedValue

structure CircuitResults where
  result : Value
  context : CircuitContext PS
  proofData : ProofData

/-- A circuit may throw. -/
abbrev Circuit := CircuitContext PS → List Value → Except JsError (CircuitResults PS)

structure ConstructorContext where
  initialPrivateState : PS
  initialZswapLocalState : EncodedZswapLocalState

structure ConstructorResult where
  currentContractState : ContractState
  currentPrivateState : PS
  currentZswapLocalState : EncodedZswapLocalState

structure Contract where
  impureCircuits : List (CircuitId × Circuit PS)
  initialState : ConstructorContext PS → List Value → Except JsError (ConstructorResult PS)

variable {PS}

/-- `contract.impureCircuits[circuitId]`. -/
def Contract.impureCircuit (contract : Contract PS) (circuitId : CircuitId) :
    Option (Circuit PS) :=
  OrderedMap.get contract.impureCircuits circuitId

def getImpureCircuitIds (contract : Contract PS) : List CircuitId :=
  OrderedMap.keys contract.impureCircuits

/-! ## Providers -/

variable (PS)

inductive ProviderCall
  | queryContractState (contractAddress : ContractAddress)
  | queryZSwapAndContractState (contractAddress : ContractAddress)
  | queryDeployContractState (contractAddress : ContractAddress)
  | watchForDeployTxData (contractAddress : ContractAddress)
  | watchForTxData (txId : TransactionId)
  | getZkConfig (circuitId : CircuitId)
  | getVerifierKeys (circuitIds : List CircuitId)
  | proveTx (tx : UnprovenTransaction) (zkConfig : Option ZKConfig)
  | balanceTx (tx : UnbalancedTransaction) (newCoins : List CoinInfo)
  | submitTx (tx : BalancedTransaction)
  | get (privateStateId : PrivateStateId)
  | set (privateStateId : PrivateStateId) (state : PS)
  | getSigningKey (address : ContractAddress)
  | setSigningKey (address : ContractAddress) (signingKey : SigningKey)
  | runCircuit (circuit : Circuit PS) (context : CircuitContext PS) (args : List Value)
  | newContractDeploy (initialState : ContractState)
  | communicationCommitmentRandomness
  | sampleSigningKey
  | dateNow

variable {PS}

@[reducible]
def ProviderCall.Reply : ProviderCall PS → Type
  | .queryContractState _ | .queryDeployContractState _ => Option ContractState
  | .queryZSwapAndContractState _ => Option (ZswapChainState × ContractState)
  | .watchForDeployTxData _ | .watchForTxData _ => FinalizedTxData
  | .getZkConfig _ => ZKConfig
  | .getVerifierKeys _ => List (CircuitId × VerifierKey)
  | .proveTx _ _ => UnbalancedTransaction
  | .balanceTx _ _ => BalancedTransaction
  | .submitTx _ => TransactionId
  | .get _ => Option PS
  | .getSigningKey _ => Option SigningKey
  | .set _ _ | .setSigningKey _ _ => Unit
  | .runCircuit _ _ _ => CircuitResults PS
  | .newContractDeploy _ => ContractAddress
  | .communicationCommitmentRandomness => Randomness
  | .sampleSigningKey => SigningKey
  | .dateNow => ℕ

variable (PS)

@[reducible]
def Providers : Interface := ⟨ProviderCall PS, ProviderCall.Reply, JsError⟩

structure WalletProvider where
  coinPublicKey : JsString
  encryptionPublicKey : JsString

/-- The parts of `ContractProviders` that are values; a call transaction may be made without a
private state provider. -/
structure ContractProviders where
  hasPrivateStateProvider : Bool
  walletProvider : WalletProvider

/-! ## Errors -/

inductive ContractsError
  /-- Thrown by an assertion, a circuit or a helper. -/
  | thrown (error : JsError)
  /-- Thrown by the assertion on a private state read from the store. -/
  | noPrivateState (error : JsError)
  /-- The reason of a rejected call. -/
  | rejected (reason : JsError)
  | callTxFailed (finalizedTxData : FinalizedTxData) (circuitId : CircuitId)
  | deployTxFailed (finalizedTxData : FinalizedTxData)
  | replaceMaintenanceAuthorityTxFailed (finalizedTxData : FinalizedTxData)
  | removeVerifierKeyTxFailed (finalizedTxData : FinalizedTxData)
  | insertVerifierKeyTxFailed (finalizedTxData : FinalizedTxData)
  | contractType (contractState : ContractState) (circuitIds : List CircuitId)
  | incompleteCallTxPrivateStateConfig
  | incompleteFindContractPrivateStateConfig

variable {PS}

/-- The subclasses of `TxFailedError`, with their data. -/
def ContractsError.finalizedTxData : ContractsError → Option FinalizedTxData
  | .callTxFailed data _ | .deployTxFailed data | .replaceMaintenanceAuthorityTxFailed data
  | .removeVerifierKeyTxFailed data | .insertVerifierKeyTxFailed data => some data
  | _ => none

/-! ## Promises -/

variable (PS) in
abbrev Promise (α : Type) := Program (Providers PS) ContractsError α

def provide (c : ProviderCall PS) : Promise PS c.Reply := Program.call (E := Providers PS) .rejected c

/-- A synchronous part that may throw. -/
def sync {α : Type} (x : Except JsError α) : Promise PS α := .ofExcept (x.mapError .thrown)

/-- `assertDefined` on a private state read from the store. -/
def definedPrivateState [Truthy PS] (privateStateId : PrivateStateId) (stored : Option PS) :
    Promise PS PS :=
  .ofExcept ((assertDefined stored
    (js "No private state found at private state ID '" ++ privateStateId ++ js "'")).mapError
      .noPrivateState)

/-! ## Runs that begin with a synchronous part or a call -/

section Binds

variable {α β σ : Type} {env : Env (Providers PS) σ} {s s' : σ} {tr : List (Event (Providers PS))}

theorem exec_sync_bind {x : Except JsError α} {f : α → Promise PS β}
    {out : Except ContractsError β} (run : Exec env (sync x >>= f) s tr out s') :
    (∃ e, x = .error e ∧ tr = [] ∧ out = .error (.thrown e) ∧ s' = s) ∨
      ∃ a, x = .ok a ∧ Exec env (f a) s tr out s' := by
  cases x with
  | ok a => exact .inr ⟨a, rfl, run⟩
  | error e =>
    obtain ⟨rfl, rfl, rfl⟩ := exec_reject.mp run
    exact .inl ⟨e, rfl, rfl, rfl, rfl⟩

theorem exec_provide_bind {c : ProviderCall PS} {f : c.Reply → Promise PS β}
    {out : Except ContractsError β} (run : Exec env (provide c >>= f) s tr out s') :
    (∃ why, env c s (.error why) s' ∧ tr = [⟨c, .error why⟩] ∧ out = .error (.rejected why)) ∨
      ∃ reply s₁ tr₁, env c s (.ok reply) s₁ ∧ Exec env (f reply) s₁ tr₁ out s' ∧
        tr = ⟨c, .ok reply⟩ :: tr₁ := by
  obtain ⟨e, hc, rfl⟩ | ⟨reply, s₁, tr₁, tr₂, hc, hf, rfl⟩ := exec_bind.mp run
  · obtain ⟨r, hr, rfl, he⟩ := (exec_call (E := Providers PS)).mp hc
    cases r with
    | ok reply => cases he
    | error why =>
      cases he
      exact .inl ⟨why, hr, rfl, rfl⟩
  · obtain ⟨hr, rfl⟩ := (exec_call_ok (E := Providers PS)).mp hc
    exact .inr ⟨reply, s₁, tr₂, hr, hf, rfl⟩

theorem exec_sync_bind_ok {x : Except JsError α} {f : α → Promise PS β} {b : β}
    (run : Exec env (sync x >>= f) s tr (.ok b) s') :
    ∃ a, x = .ok a ∧ Exec env (f a) s tr (.ok b) s' := by
  obtain ⟨_, _, _, ⟨⟩, _⟩ | h := exec_sync_bind run
  exact h

theorem exec_provide_bind_ok {c : ProviderCall PS} {f : c.Reply → Promise PS β} {b : β}
    (run : Exec env (provide c >>= f) s tr (.ok b) s') :
    ∃ reply s₁ tr₁, env c s (.ok reply) s₁ ∧ Exec env (f reply) s₁ tr₁ (.ok b) s' ∧
      tr = ⟨c, .ok reply⟩ :: tr₁ := by
  obtain ⟨_, _, _, ⟨⟩⟩ | h := exec_provide_bind run
  exact h

end Binds

end MidnightJs
