import MidnightJs.Foundations.Rx
import MidnightJs.Indexer.Chain

/-! # The public data provider

`packages/indexer-public-data-provider/src/indexer-public-data-provider.ts`, on an indexer that
answers every query. A watched query is polled any number of times, while the chain grows. Contract
addresses are those of the indexer, with the network id in front. -/

namespace MidnightJs.Indexer
open Foundations Foundations.Js Foundations.Rx
set_option autoImplicit false

/-- `ContractState.deserialize` and `Transaction.deserialize`, on the network in use. -/
class Codec [Runtime] where
  deserializeContractState : JsString → ContractState
  deserializeTransaction : JsString → BalancedTransaction

export Codec (deserializeContractState deserializeTransaction)

/-- A chain, and how many of its blocks were there at each poll. -/
structure ApolloClient where
  chain : Chain
  polls : List ℕ

namespace ApolloClient

variable {α : Type}

def watchQuery (client : ApolloClient) (answer : List Block → α) : Observable α :=
  live (client.polls.map fun n => answer (client.chain.blocks.take n))

def subscribe (client : ApolloClient) (answer : List Block → List α) : Observable α :=
  live (answer client.chain.blocks)

end ApolloClient

section Provider

variable [Runtime] [Codec]

/-! ## The states of a contract -/

omit [Runtime] [Codec] in
def blockOffsetToBlock (client : ApolloClient) (offset : BlockOffset) : Observable Block :=
  client.subscribe (blocksFrom offset)

omit [Runtime] [Codec] in
def transactionIdToTransaction (client : ApolloClient) (identifier : TransactionId) :
    Observable Transaction :=
  let heights := (client.watchQuery (transactionsWith identifier)).filterMap fun transactions =>
    transactions.head?.map fun (_, block) => BlockOffset.height block.height
  (heights.concatMap (blockOffsetToBlock client)).concatMap fun block => ofList block.transactions

def transactionToContractState (transactionId : TransactionId) (t : Transaction) :
    Observable ContractState :=
  (((ofList t.identifiers).zip (ofList t.contractActions)).skipWhile fun pair =>
    pair.1 ≠ transactionId).map fun pair => deserializeContractState pair.2.state

def blockToContractState (contractAddress : JsString) (block : Block) :
    Observable ContractState :=
  (((ofList block.transactions).concatMap fun t => ofList t.contractActions).filter fun call =>
    call.address = contractAddress).map fun call => deserializeContractState call.state

omit [Runtime] [Codec] in
def contractAddressToLatestBlockOffset (client : ApolloClient) (contractAddress : JsString) :
    Observable BlockOffset :=
  (((client.watchQuery (latestEntry contractAddress)).filterMap fun contract =>
    contract.map fun contract => contract.block.height).take 1).map .height

def blockOffsetToContractState (client : ApolloClient) (contractAddress : JsString)
    (offset : Option BlockOffset) : Observable ContractState :=
  (client.subscribe (contractActionsFrom contractAddress offset)).map fun action =>
    deserializeContractState action.state

omit [Runtime] [Codec] in
def waitForContractToAppear (client : ApolloClient) (contractAddress : JsString) :
    Observable JsString :=
  ((client.watchQuery (latestEntry contractAddress)).filterMap fun contract =>
    contract.map fun contract => contract.action.state).take 1

omit [Runtime] [Codec] in
def waitForBlockToAppear (client : ApolloClient) (offset : BlockOffset) : Observable Block :=
  ((client.watchQuery (blockAt offset)).filterMap id).take 1

/-- `inclusive` may be left unset. -/
inductive ContractStateObservableConfig
  | all
  | latest
  | txId (txId : TransactionId) (inclusive : Option Bool)
  | blockHeight (blockHeight : ℕ) (inclusive : Option Bool)
  | blockHash (blockHash : JsString) (inclusive : Option Bool)

def contractStatesFromBlock (client : ApolloClient) (contractAddress : JsString)
    (offset : BlockOffset) (inclusive : Option Bool) : Observable ContractState :=
  let blocks := (waitForBlockToAppear client offset).concatMap fun _ =>
    blockOffsetToBlock client offset
  (if inclusive.getD true then blocks else blocks.skip 1).concatMap
    (blockToContractState contractAddress)

def contractStateObservable (client : ApolloClient) (contractAddress : JsString) :
    ContractStateObservableConfig → Observable ContractState
  | .txId txId inclusive =>
    let contractStates := (transactionIdToTransaction client txId).concatMap
      (transactionToContractState txId)
    if inclusive.getD true then contractStates else contractStates.skip 1
  | .latest =>
    ((contractAddressToLatestBlockOffset client contractAddress).concatMap
      (blockOffsetToBlock client)).concatMap (blockToContractState contractAddress)
  | .all =>
    (waitForContractToAppear client contractAddress).concatMap fun _ =>
      blockOffsetToContractState client contractAddress none
  | .blockHeight blockHeight inclusive =>
    contractStatesFromBlock client contractAddress (.height blockHeight) inclusive
  | .blockHash blockHash inclusive =>
    contractStatesFromBlock client contractAddress (.hash blockHash) inclusive

/-! ## The deployment of a contract -/

/-- A state that is an empty string counts as none. -/
def maybeContractState (state : JsString) : Option ContractState :=
  if truthy state then some (deserializeContractState state) else none

def queryDeployContractState (client : ApolloClient) (contractAddress : JsString) :
    Except JsError (Option ContractState) :=
  match latestWithDeploy contractAddress client.chain.blocks with
  | some (contract, deploy) =>
    match deploy with
    | some deploy =>
      match deploy.transaction.contractActions.find? (·.address = contractAddress) with
      | some action => .ok (maybeContractState action.state)
      | none => .error (.typeError (js "Cannot read properties of undefined (reading 'state')"))
    | none => .ok (maybeContractState contract.action.state)
  | none => .ok none

omit [Runtime] [Codec] in
def toTxStatus (applyStage : JsString) : Except JsError TxStatus :=
  if applyStage = js "FailEntirely" then .ok .FailEntirely
  else if applyStage = js "FailFallible" then .ok .FailFallible
  else if applyStage = js "SucceedEntirely" then .ok .SucceedEntirely
  else .error (.error (js "Unexpected 'applyStage' value " ++ applyStage))

/-- `FinalizedTxData`, whose `txId` is `undefined` if the transaction does not act on the
contract. -/
structure DeployTxData where
  tx : BalancedTransaction
  status : TxStatus
  txId : Option TransactionId
  txHash : JsString
  blockHash : JsString
  blockHeight : ℕ

def deployTxData (contractAddress : JsString) (transaction : Transaction) (block : Block) :
    Except JsError DeployTxData := do
  let status ← toTxStatus transaction.applyStage
  return {
    tx := deserializeTransaction transaction.raw
    status := status
    txId := (transaction.contractActions.findIdx? (·.address = contractAddress)).bind
      fun i => transaction.identifiers[i]?
    txHash := transaction.hash
    blockHeight := block.height
    blockHash := block.hash }

/-- The promise settles with the first value. -/
def watchForDeployTxData (client : ApolloClient) (contractAddress : JsString) :
    Option (Except JsError DeployTxData) :=
  (((client.watchQuery (latestWithDeploy contractAddress)).filterMap id).map
    fun (contract, deploy) =>
      let contract := deploy.getD contract
      deployTxData contractAddress contract.transaction contract.block).firstValue

end Provider

namespace Sample
open MidnightJs.Sample

/-- A state that shows what it was read from. -/
scoped instance : Codec where
  deserializeContractState s := ⟨(), [(s, ⟨[]⟩)], ⟨[], 0, 0⟩⟩
  deserializeTransaction _ := ⟨[]⟩

end Sample

end MidnightJs.Indexer
