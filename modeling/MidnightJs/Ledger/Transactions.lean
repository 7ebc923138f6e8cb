import MidnightJs.Ledger.Offers

/-! # Transactions

An unproven transaction as its constructor arguments. A proven and a balanced transaction keep the
contract part of the transaction they come from; the rest of them is never looked at. -/

namespace MidnightJs
open Foundations.Js
set_option autoImplicit false

variable [Runtime]

structure ContractDeploy where
  address : ContractAddress
  initialState : ContractState

structure ContractCallPrototype where
  address : ContractAddress
  entryPoint : CircuitId
  op : ContractOperation
  guaranteedPublicTranscript : Option Transcript
  falliblePublicTranscript : Option Transcript
  privateTranscriptOutputs : List AlignedValue
  input : AlignedValue
  output : AlignedValue
  communicationCommitmentRand : Randomness
  keyLocation : JsString

structure MaintenanceUpdate extends MaintenanceData where
  signatures : List (ℕ × Signature)

namespace MaintenanceUpdate

def new (address : ContractAddress) (updates : List SingleUpdate) (counter : ℕ) :
    MaintenanceUpdate := ⟨⟨address, updates, counter⟩, []⟩

def dataToSign (u : MaintenanceUpdate) : MaintenanceData := u.toMaintenanceData

def addSignature (u : MaintenanceUpdate) (idx : ℕ) (signature : Signature) : MaintenanceUpdate :=
  { u with signatures := u.signatures ++ [(idx, signature)] }

end MaintenanceUpdate

/-- An entry of `ContractCallsPrototype`. -/
inductive ContractsEntry
  | deploy (deploy : ContractDeploy)
  | call (call : ContractCallPrototype)
  | maintenanceUpdate (update : MaintenanceUpdate)

structure UnprovenTransaction where
  guaranteed : UnprovenOffer
  fallible : Option UnprovenOffer
  contracts : List ContractsEntry

structure UnbalancedTransaction where
  contracts : List ContractsEntry

structure BalancedTransaction where
  contracts : List ContractsEntry

structure ZKConfig where
  circuitId : CircuitId
  verifierKey : VerifierKey
  proverData : ProverData

inductive TxStatus
  | FailEntirely
  | FailFallible
  | SucceedEntirely
  deriving DecidableEq

/-- `tx` is the transaction as the ledger gives it back. -/
structure FinalizedTxData where
  tx : BalancedTransaction
  status : TxStatus
  txId : TransactionId
  txHash : JsString
  blockHash : JsString
  blockHeight : ℕ

end MidnightJs
