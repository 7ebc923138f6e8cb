import MidnightJs.Foundations.Effects
import MidnightJs.Foundations.JsValue
import MidnightJs.Ledger.Runtime

/-! # Contracts as `compact-js` executes them

The errors of `compact-js`, the encoded Zswap state that circuits work on, and a compiled contract.
Private states, arguments and results are values of the language. -/

namespace MidnightJs.CompactJs
open Foundations Foundations.Js Foundations.Effects
set_option autoImplicit false

/-- What can be thrown or be a failure. A cause is any error again. -/
inductive ContractError
  | compactError (message : JsString)
  | thrown (e : JsError)
  | contractRuntimeError (message : JsString) (cause : Option ContractError)
  | contractConfigurationError (message : JsString) (cause : Option ContractError)
  | zkConfigurationReadError (message : JsString)
  | platformError (message : JsString)
  /-- A value is not one of the schema. -/
  | parseError

abbrev ContractEffect := Effect ContractError JsError

/-! ## Encoded Zswap states -/

structure EncodedCoinPublicKey where
  bytes : List UInt8
  deriving DecidableEq

structure EncodedContractAddress where
  bytes : List UInt8
  deriving DecidableEq

structure EncodedShieldedCoinInfo where
  nonce : List UInt8
  color : List UInt8
  value : ℤ
  deriving DecidableEq

structure EncodedQualifiedShieldedCoinInfo where
  nonce : List UInt8
  color : List UInt8
  value : ℤ
  mt_index : ℤ
  deriving DecidableEq

structure EncodedRecipient where
  is_left : Bool
  left : EncodedCoinPublicKey
  right : EncodedContractAddress
  deriving DecidableEq

structure EncodedOutput where
  coinInfo : EncodedShieldedCoinInfo
  recipient : EncodedRecipient
  deriving DecidableEq

structure EncodedZswapLocalState where
  coinPublicKey : EncodedCoinPublicKey
  currentIndex : ℤ
  inputs : List EncodedQualifiedShieldedCoinInfo
  outputs : List EncodedOutput
  deriving DecidableEq

/-! ## The runtime -/

structure ContractCallPrototype [Runtime] where
  address : ContractAddress
  circuitId : CircuitId
  operation : Option ContractOperation
  guaranteedTranscript : Option Transcript
  fallibleTranscript : Option Transcript
  privateTranscriptOutputs : List AlignedValue
  input : AlignedValue
  output : AlignedValue
  communicationCommitmentRandomness : Randomness
  keyLocation : CircuitId

/-- The parts of the compact runtime and of the ledger that only `compact-js` uses. -/
class CompactRuntime [Runtime] where
  ZswapLocalState : Type
  encodeZswapLocalState : ZswapLocalState → EncodedZswapLocalState
  decodeZswapLocalState : EncodedZswapLocalState → Except JsError ZswapLocalState
  emptyZswapLocalState : JsString → EncodedZswapLocalState
  /-- Setting `operation.verifierKey` and the operation. -/
  setVerifierKey :
    ContractState → CircuitId → ContractOperation → VerifierKey → Except JsError ContractState
  signatureVerifyingKey : SigningKey → Except JsError VerifyingKey
  signData : SigningKey → MaintenanceData → Except JsError Signature
  LedgerContractState : Type
  deserializeLedger : List UInt8 → Except JsError LedgerContractState
  toLedger : ContractState → Except JsError LedgerContractState
  ofLedger : LedgerContractState → Except JsError ContractState
  ledgerOperation : LedgerContractState → CircuitId → Option ContractOperation
  Intent : Type
  /-- An intent that deploys a contract, valid until a date. -/
  intentOfDeploy : ℕ → LedgerContractState → Except JsError Intent
  intentOfCall : ℕ → ContractCallPrototype → Except JsError Intent
  serializeIntent : Intent → Except JsError (List UInt8)

export CompactRuntime (ZswapLocalState encodeZswapLocalState decodeZswapLocalState
  LedgerContractState Intent)

namespace Sample
open MidnightJs.Sample

/-- The encoded and the decoded state are one, and intents are empty. -/
scoped instance : CompactRuntime where
  ZswapLocalState := EncodedZswapLocalState
  encodeZswapLocalState s := s
  decodeZswapLocalState s := .ok s
  emptyZswapLocalState _ := ⟨⟨[]⟩, 0, [], []⟩
  setVerifierKey state circuitId operation verifierKey :=
    .ok (state.setOperation circuitId { operation with verifierKey := verifierKey })
  signatureVerifyingKey signingKey := .ok signingKey
  signData signingKey data := .ok (signingKey, data)
  LedgerContractState := ContractState
  deserializeLedger _ := .ok ⟨(), [], ⟨[], 0, 0⟩⟩
  toLedger state := .ok state
  ofLedger state := .ok state
  ledgerOperation state circuitId := state.operation circuitId
  Intent := Unit
  intentOfDeploy _ _ := .ok ()
  intentOfCall _ _ := .ok ()
  serializeIntent _ := .ok []

end Sample

variable [Runtime] [CompactRuntime]

namespace CompactRuntime

def serializeDeploy (ttl : ℕ) (state : LedgerContractState) : Except JsError (List UInt8) := do
  serializeIntent (← intentOfDeploy ttl state)

def serializeCall (ttl : ℕ) (call : ContractCallPrototype) : Except JsError (List UInt8) := do
  serializeIntent (← intentOfCall ttl call)

end CompactRuntime

/-! ## Compiled contracts -/

structure ConstructorContext where
  initialPrivateState : JsValue
  initialZswapLocalState : EncodedZswapLocalState

structure ConstructorResult where
  currentContractState : ContractState
  currentPrivateState : JsValue
  currentZswapLocalState : EncodedZswapLocalState

/-- What a circuit works on. -/
structure CompactContext where
  currentPrivateState : JsValue
  currentZswapLocalState : EncodedZswapLocalState
  transactionContext : QueryContext

structure ProofData where
  input : AlignedValue
  output : AlignedValue
  publicTranscript : List Op
  privateTranscriptOutputs : List AlignedValue

structure CircuitResults where
  result : JsValue
  context : CompactContext
  proofData : ProofData

abbrev ImpureCircuit := CompactContext → List JsValue → Except ContractError CircuitResults

structure Contract where
  impureCircuits : List (CircuitId × ImpureCircuit)
  initialState : ConstructorContext → List JsValue → Except ContractError ConstructorResult

omit [CompactRuntime] in
def getImpureCircuitIds (contract : Contract) : List CircuitId :=
  OrderedMap.keys contract.impureCircuits

structure CompiledContract where
  tag : JsString
  contract : Contract

end MidnightJs.CompactJs
