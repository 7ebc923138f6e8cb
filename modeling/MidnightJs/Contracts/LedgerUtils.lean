import MidnightJs.Contracts.Providers
import MidnightJs.Contracts.ZswapUtils

/-! # From results to ledger transactions

`packages/contracts/src/utils/ledger-utils.ts`. The runtime's and the ledger's contract states are
one type here, since the code moves between them by `serialize` and `deserialize`. -/

namespace MidnightJs
open Foundations Foundations.Js Foundations.Async
set_option autoImplicit false

variable [Runtime] {PS : Type}

def addVerifierKeys (verifierKeys : List (CircuitId × VerifierKey))
    (contractState : ContractState) : Except JsError ContractState :=
  verifierKeys.foldlM (fun contractState entry => do
    let operation ← assertDefined (contractState.operation entry.1)
      (js "Circuit '" ++ entry.1 ++ js "' is undefined for contract state " ++ contractState.text)
    return contractState.setOperation entry.1 { operation with verifierKey := entry.2 })
    contractState

def contractMaintenanceAuthority (sk : SigningKey) (contractState : Option ContractState) :
    ContractMaintenanceAuthority where
  committee := [signatureVerifyingKey sk]
  threshold := 1
  counter := match contractState with
    | some contractState => contractState.maintenanceAuthority.counter + 1
    | none => 0

def addMaintenanceAuthority (sk : SigningKey) (contractState : ContractState) : ContractState :=
  { contractState with maintenanceAuthority := contractMaintenanceAuthority sk none }

def createUnprovenLedgerDeployTx (verifierKeys : List (CircuitId × VerifierKey)) (sk : SigningKey)
    (contractState : ContractState) (zswapLocalState : ZswapLocalState)
    (encryptionPublicKey : JsString) :
    Promise PS (ContractAddress × ContractState × UnprovenTransaction) := do
  let withVerifierKeys ← sync (addVerifierKeys verifierKeys contractState)
  let initialState := addMaintenanceAuthority sk withVerifierKeys
  let address ← provide (.newContractDeploy initialState)
  let offer ← sync (zswapStateToOffer zswapLocalState encryptionPublicKey none)
  return (address, initialState, ⟨offer, none, [.deploy ⟨address, initialState⟩]⟩)

/-- The deployment without its binds. -/
theorem createUnprovenLedgerDeployTx_eq {verifierKeys : List (CircuitId × VerifierKey)}
    {sk : SigningKey} {initial : ContractState} {zswapState : ZswapLocalState} {epk : JsString} :
    (createUnprovenLedgerDeployTx verifierKeys sk initial zswapState epk : Promise PS _) =
      match addVerifierKeys verifierKeys initial with
      | .error e => .reject (.thrown e)
      | .ok withVerifierKeys =>
        let initialState := addMaintenanceAuthority sk withVerifierKeys
        (provide (.newContractDeploy initialState)).bind fun address =>
          match zswapStateToOffer zswapState epk none with
          | .error e => .reject (.thrown e)
          | .ok offer =>
            .resolve (address, initialState, ⟨offer, none, [.deploy ⟨address, initialState⟩]⟩) := by
  unfold createUnprovenLedgerDeployTx
  cases addVerifierKeys verifierKeys initial with
  | error e => rfl
  | ok withVerifierKeys =>
    refine congrArg (Program.bind (provide (.newContractDeploy
      (addMaintenanceAuthority sk withVerifierKeys)))) (funext fun address => ?_)
    cases zswapStateToOffer zswapState epk none <;> rfl

/-- The run of a deployment whose call is replied to. -/
theorem exec_createUnprovenLedgerDeployTx {verifierKeys : List (CircuitId × VerifierKey)}
    {sk : SigningKey} {initial withVerifierKeys : ContractState} {zswapState : ZswapLocalState}
    {epk : JsString} {address : ContractAddress} {offer : UnprovenOffer} {σ : Type}
    {env : Env (Providers PS) σ} {s s' : σ}
    (hadd : addVerifierKeys verifierKeys initial = .ok withVerifierKeys)
    (haddress : env (.newContractDeploy (addMaintenanceAuthority sk withVerifierKeys)) s
      (.ok address) s')
    (hoffer : zswapStateToOffer zswapState epk none = .ok offer) :
    let initialState := addMaintenanceAuthority sk withVerifierKeys
    Exec env (createUnprovenLedgerDeployTx verifierKeys sk initial zswapState epk) s
      [⟨.newContractDeploy initialState, .ok address⟩]
      (.ok (address, initialState, ⟨offer, none, [.deploy ⟨address, initialState⟩]⟩)) s' := by
  intro initialState
  rw [createUnprovenLedgerDeployTx_eq, hadd, hoffer]
  exact .await haddress (.resolve _ s')

/-- The two halves of a transcript, each of which may be missing. -/
abbrev PartitionedTranscript := Option Transcript × Option Transcript

def createUnprovenLedgerCallTx (circuitId : CircuitId) (contractAddress : ContractAddress)
    (initialContractState : ContractState) (zswapChainState : ZswapChainState)
    (partitionedTranscript : PartitionedTranscript) (privateTranscriptOutputs : List AlignedValue)
    (input output : AlignedValue) (nextZswapLocalState : ZswapLocalState)
    (encryptionPublicKey : JsString) : Promise PS UnprovenTransaction := do
  let op ← sync (assertDefined (initialContractState.operation circuitId)
    (js "Operation '" ++ circuitId ++ js "' is undefined for contract state " ++
      initialContractState.text))
  let offer ← sync (zswapStateToOffer nextZswapLocalState encryptionPublicKey
    (some ⟨contractAddress, zswapChainState⟩))
  let communicationCommitmentRand ← provide .communicationCommitmentRandomness
  return ⟨offer, none, [.call ⟨contractAddress, circuitId, op, partitionedTranscript.1,
    partitionedTranscript.2, privateTranscriptOutputs, input, output, communicationCommitmentRand,
    circuitId⟩]⟩

/-! ## Maintenance updates -/

def replaceAuthority (newAuthority : SigningKey) (contractState : ContractState) : SingleUpdate :=
  .replaceAuthority (contractMaintenanceAuthority newAuthority (some contractState))

omit [Runtime] in
def removeVerifierKey (operation : CircuitId) : SingleUpdate :=
  .verifierKeyRemove operation (js "v2")

omit [Runtime] in
def insertVerifierKey (operation : CircuitId) (newVk : VerifierKey) : SingleUpdate :=
  .verifierKeyInsert operation (js "v2") newVk

def unprovenTxFromContractUpdates (contractAddress : ContractAddress) (updates : List SingleUpdate)
    (contractState : ContractState) (sk : SigningKey) : UnprovenTransaction :=
  let maintenanceUpdate := MaintenanceUpdate.new contractAddress updates
    contractState.maintenanceAuthority.counter
  -- The only signer of a single-party authority has index 0.
  let signedMaintenanceUpdate := maintenanceUpdate.addSignature 0
    (signData sk maintenanceUpdate.dataToSign)
  ⟨.empty, none, [.maintenanceUpdate signedMaintenanceUpdate]⟩

def createUnprovenReplaceAuthorityTx (contractAddress : ContractAddress)
    (newAuthority : SigningKey) (contractState : ContractState) (currentAuthority : SigningKey) :
    UnprovenTransaction :=
  unprovenTxFromContractUpdates contractAddress [replaceAuthority newAuthority contractState]
    contractState currentAuthority

def createUnprovenRemoveVerifierKeyTx (contractAddress : ContractAddress) (operation : CircuitId)
    (contractState : ContractState) (currentAuthority : SigningKey) : UnprovenTransaction :=
  unprovenTxFromContractUpdates contractAddress [removeVerifierKey operation] contractState
    currentAuthority

def createUnprovenInsertVerifierKeyTx (contractAddress : ContractAddress) (operation : CircuitId)
    (newVk : VerifierKey) (contractState : ContractState) (currentAuthority : SigningKey) :
    UnprovenTransaction :=
  unprovenTxFromContractUpdates contractAddress [insertVerifierKey operation newVk] contractState
    currentAuthority

end MidnightJs
