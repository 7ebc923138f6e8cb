import MidnightJs.Contracts.LedgerUtils

/-! # Executing circuits and constructors

`packages/contracts/src/call.ts` and `call-constructor.ts`: the context a circuit or a constructor
is run in, and what is kept of its result. -/

namespace MidnightJs
open Foundations Foundations.Js Foundations.Async
set_option autoImplicit false

variable [Runtime] (PS : Type)

structure CallOptions where
  contract : Contract PS
  circuitId : CircuitId
  contractAddress : ContractAddress
  args : Option (List Value)
  coinPublicKey : JsString
  initialContractState : ContractState
  initialZswapChainState : ZswapChainState
  initialPrivateState : Option PS

structure CallResultPublic where
  nextContractState : StateValue
  publicTranscript : List Op
  partitionedTranscript : PartitionedTranscript

structure CallResultPrivate where
  input : AlignedValue
  output : AlignedValue
  privateTranscriptOutputs : List AlignedValue
  result : Value
  nextPrivateState : PS
  nextZswapLocalState : ZswapLocalState

structure CallResult where
  «public» : CallResultPublic
  «private» : CallResultPrivate PS

structure ContractConstructorOptions where
  contract : Contract PS
  args : Option (List Value)
  coinPublicKey : JsString
  initialPrivateState : Option PS

structure ContractConstructorResult where
  nextContractState : ContractState
  nextPrivateState : PS
  nextZswapLocalState : ZswapLocalState

variable {PS}

def partitionTranscript (initialTxContext finalTxContext : QueryContext)
    (publicTranscript : List Op) : Except JsError PartitionedTranscript :=
  let preTranscript := ((Runtime.comIndicies finalTxContext).foldl Runtime.insertCommitment
    (Runtime.toLedgerQueryContext initialTxContext), publicTranscript)
  match Runtime.partitionTranscripts [preTranscript] with
  | [partitionedTranscript] => .ok partitionedTranscript
  | partitionedTranscripts => .error (.error (js "Expected one transcript partition pair, received: "
      ++ naturalText partitionedTranscripts.length))

variable [Undefined PS]

/-- `Date.now()` counts milliseconds. -/
def call (options : CallOptions PS) : Promise PS (CallResult PS) := do
  let circuit ← sync (assertDefined (options.contract.impureCircuit options.circuitId)
    (js "Circuit '" ++ options.circuitId ++ js "' is not defined"))
  let now ← provide .dateNow
  let initialTxContext := Runtime.withSecondsSinceEpoch (now / 1000)
    (Runtime.queryContext options.initialContractState.data options.contractAddress)
  let coinPublicKey ← sync (parseCoinPublicKeyToHex options.coinPublicKey)
  let results ← provide (.runCircuit circuit
    { originalState := options.initialContractState
      currentPrivateState := options.initialPrivateState.getD undefined
      transactionContext := initialTxContext
      currentZswapLocalState := Runtime.emptyZswapLocalState coinPublicKey }
    (options.args.getD []))
  let partitionedTranscript ← sync (partitionTranscript initialTxContext
    results.context.transactionContext results.proofData.publicTranscript)
  return {
    «public» :=
      { nextContractState := Runtime.contextState results.context.transactionContext
        publicTranscript := results.proofData.publicTranscript
        partitionedTranscript := partitionedTranscript }
    «private» :=
      { result := results.result
        input := results.proofData.input
        output := results.proofData.output
        privateTranscriptOutputs := results.proofData.privateTranscriptOutputs
        nextPrivateState := results.context.currentPrivateState
        nextZswapLocalState :=
          Runtime.decodeZswapLocalState results.context.currentZswapLocalState } }

def callContractConstructor (options : ContractConstructorOptions PS) :
    Except JsError (ContractConstructorResult PS) := do
  let coinPublicKey ← parseCoinPublicKeyToHex options.coinPublicKey
  let constructorResult ← options.contract.initialState
    { initialPrivateState := options.initialPrivateState.getD undefined
      initialZswapLocalState := Runtime.emptyZswapLocalState coinPublicKey }
    (options.args.getD [])
  return {
    nextContractState := constructorResult.currentContractState
    nextPrivateState := constructorResult.currentPrivateState
    nextZswapLocalState :=
      Runtime.decodeZswapLocalState constructorResult.currentZswapLocalState }

end MidnightJs
