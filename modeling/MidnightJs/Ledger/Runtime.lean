import MidnightJs.Foundations.OrderedMap
import MidnightJs.Ledger.Coins
import MidnightJs.Utils.Hex

/-! # The compact runtime and the ledger

The third-party objects and functions the client uses. What it only passes along is opaque; what it
takes apart (contract states, maintenance authorities, maintenance updates, transactions) is a
record. -/

namespace MidnightJs
open Foundations Foundations.Js
set_option autoImplicit false

abbrev SigningKey := JsString
abbrev VerifyingKey := JsString
abbrev CircuitId := JsString
abbrev TransactionId := JsString
abbrev VerifierKey := List UInt8

structure ContractMaintenanceAuthority where
  committee : List VerifyingKey
  threshold : ℕ
  counter : ℕ
  deriving DecidableEq

structure ContractOperation where
  verifierKey : VerifierKey
  deriving DecidableEq

inductive SingleUpdate
  | replaceAuthority (authority : ContractMaintenanceAuthority)
  | verifierKeyRemove (operation : CircuitId) (version : JsString)
  | verifierKeyInsert (operation : CircuitId) (version : JsString) (vk : VerifierKey)
  deriving DecidableEq

/-- The part of a maintenance update that is signed. -/
structure MaintenanceData where
  address : ContractAddress
  updates : List SingleUpdate
  counter : ℕ
  deriving DecidableEq

/-- The opaque types, and the functions that are not written in this repository. -/
class Runtime where
  StateValue : Type
  ZswapChainState : Type
  AlignedValue : Type
  Op : Type
  Transcript : Type
  QueryContext : Type
  EncodedZswapLocalState : Type
  /-- Arguments and results of circuits. -/
  Value : Type
  queryContext : StateValue → ContractAddress → QueryContext
  /-- Sets `block.secondsSinceEpoch`. -/
  withSecondsSinceEpoch : ℕ → QueryContext → QueryContext
  contextState : QueryContext → StateValue
  comIndicies : QueryContext → List (JsString × ℕ)
  insertCommitment : QueryContext → JsString × ℕ → QueryContext
  toLedgerQueryContext : QueryContext → QueryContext
  partitionTranscripts :
    List (QueryContext × List Op) → List (Option Transcript × Option Transcript)
  emptyZswapLocalState : JsString → EncodedZswapLocalState
  decodeZswapLocalState : EncodedZswapLocalState → ZswapLocalState
  /-- `ShieldedCoinPublicKey.codec.decode` after `MidnightBech32m.parse`, on the network in use. -/
  decodeCoinPublicKey : JsString → Except JsError (List UInt8)
  decodeEncPublicKey : JsString → Except JsError (List UInt8)
  Signature : Type
  signatureVerifyingKey : SigningKey → VerifyingKey
  signData : SigningKey → MaintenanceData → Signature
  /-- The check of a signature by the node. -/
  verifySignature : VerifyingKey → MaintenanceData → Signature → Bool
  /-- What `communicationCommitmentRandomness` draws. -/
  Randomness : Type
  /-- The parts of a ZK config next to the circuit id and the verifier key. -/
  ProverData : Type
  stateValueText : StateValue → JsString

export Runtime (StateValue ZswapChainState AlignedValue Op Transcript QueryContext
  EncodedZswapLocalState Value Signature signatureVerifyingKey signData verifySignature Randomness
  ProverData)

namespace Sample

/-- A small runtime: opaque values are units, a signing key is its own verifying key, and a
signature is the key and the data. -/
scoped instance : Runtime where
  StateValue := Unit
  ZswapChainState := Unit
  AlignedValue := Unit
  Op := Unit
  Transcript := Unit
  QueryContext := Unit
  EncodedZswapLocalState := ZswapLocalState
  Value := Unit
  queryContext _ _ := ()
  withSecondsSinceEpoch _ c := c
  contextState _ := ()
  comIndicies _ := []
  insertCommitment c _ := c
  toLedgerQueryContext c := c
  partitionTranscripts ts := ts.map fun _ => (none, none)
  emptyZswapLocalState coinPublicKey := ⟨coinPublicKey, 0, [], []⟩
  decodeZswapLocalState s := s
  decodeCoinPublicKey _ := .error (.error (js "not a Bech32m string"))
  decodeEncPublicKey _ := .error (.error (js "not a Bech32m string"))
  Signature := SigningKey × MaintenanceData
  signatureVerifyingKey k := k
  signData k d := (k, d)
  verifySignature k d s := s = (k, d)
  Randomness := Unit
  ProverData := Unit
  stateValueText _ := []

end Sample

variable [Runtime]

structure ContractState where
  data : StateValue
  operations : List (CircuitId × ContractOperation)
  maintenanceAuthority : ContractMaintenanceAuthority

namespace ContractState

def operation (s : ContractState) (circuitId : CircuitId) : Option ContractOperation :=
  OrderedMap.get s.operations circuitId

def setOperation (s : ContractState) (circuitId : CircuitId) (op : ContractOperation) :
    ContractState :=
  { s with operations := OrderedMap.set s.operations circuitId op }

def text (s : ContractState) : JsString := Runtime.stateValueText s.data

end ContractState

/-- Objects convert to `true`. -/
instance : Truthy ContractState := ⟨fun _ => true⟩
instance : Truthy ContractOperation := ⟨fun _ => true⟩

end MidnightJs
