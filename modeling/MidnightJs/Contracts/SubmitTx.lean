import MidnightJs.Contracts.UnprovenTx

/-! # Submitting transactions

`packages/contracts/src/submit-*.ts`: prove, balance, submit and watch a transaction, and write to
the private state provider what a successful one is to leave there. -/

namespace MidnightJs
open Foundations Foundations.Js Foundations.Async
set_option autoImplicit false

variable [Runtime] (PS : Type)

structure SubmitTxOptions where
  unprovenTx : UnprovenTransaction
  newCoins : Option (List CoinInfo)
  circuitId : Option CircuitId

structure FinalizedCallTxPublicData extends CallResultPublic, FinalizedTxData

structure FinalizedCallTxData where
  «public» : FinalizedCallTxPublicData
  «private» : UnsubmittedCallTxPrivateData PS

structure FinalizedDeployTxPublicData extends FinalizedTxData, UnsubmittedDeployTxPublicData

structure FinalizedDeployTxData where
  «public» : FinalizedDeployTxPublicData
  «private» : UnsubmittedDeployTxPrivateData PS

variable {PS}

/-- `proveTxConfig` of `submitTx`; an empty circuit id counts as none. -/
def zkConfigOf (circuitId : Option CircuitId) : Promise PS (Option ZKConfig) :=
  match circuitId with
  | some circuitId =>
    if truthy circuitId then do
      let zkConfig ← provide (.getZkConfig circuitId)
      return some zkConfig
    else return none
  | none => return none

def submitTx (options : SubmitTxOptions) : Promise PS FinalizedTxData := do
  let proveTxConfig ← zkConfigOf options.circuitId
  let unbalancedTx ← provide (.proveTx options.unprovenTx proveTxConfig)
  let balancedTx ← provide (.balanceTx unbalancedTx (options.newCoins.getD []))
  let txId ← provide (.submitTx balancedTx)
  provide (.watchForTxData txId)

/-- `assertDefined` on the chain's contract state of an address. -/
def definedContractState (contractAddress : ContractAddress) (state : Option ContractState) :
    Promise PS ContractState :=
  sync (assertDefined state (js "No contract state found on chain for contract address '" ++
    contractAddress ++ js "'"))

/-- `assertDefined` on the stored signing key of an address. -/
def definedSigningKey (contractAddress : ContractAddress) (key : Option SigningKey) :
    Promise PS SigningKey :=
  sync (assertDefined key (js "Signing key for contract address '" ++ contractAddress ++
    js "' not found"))

/-! ## Maintenance updates -/

def submitReplaceAuthorityTx (contractAddress : ContractAddress) (newAuthority : SigningKey) :
    Promise PS FinalizedTxData := do
  sync (assertIsContractAddress contractAddress)
  let contractState ← definedContractState contractAddress
    (← provide (.queryContractState contractAddress))
  let currentAuthority ← definedSigningKey contractAddress
    (← provide (.getSigningKey contractAddress))
  let unprovenTx := createUnprovenReplaceAuthorityTx contractAddress newAuthority contractState
    currentAuthority
  let submitTxResult ← submitTx ⟨unprovenTx, none, none⟩
  if submitTxResult.status ≠ .SucceedEntirely then
    .reject (.replaceMaintenanceAuthorityTxFailed submitTxResult)
  else do
    provide (.setSigningKey contractAddress newAuthority)
    return submitTxResult

def submitInsertVerifierKeyTx (contractAddress : ContractAddress) (circuitId : CircuitId)
    (newVk : VerifierKey) : Promise PS FinalizedTxData := do
  sync (assertIsContractAddress contractAddress)
  let contractState ← definedContractState contractAddress
    (← provide (.queryContractState contractAddress))
  sync (assertUndefined (contractState.operation circuitId)
    (js "Circuit '" ++ circuitId ++ js "' is already defined for contract at address '" ++
      contractAddress ++ js "'"))
  let signingKey ← definedSigningKey contractAddress (← provide (.getSigningKey contractAddress))
  let unprovenTx := createUnprovenInsertVerifierKeyTx contractAddress circuitId newVk contractState
    signingKey
  let submitTxResult ← submitTx ⟨unprovenTx, none, none⟩
  if submitTxResult.status ≠ .SucceedEntirely then
    .reject (.insertVerifierKeyTxFailed submitTxResult)
  else return submitTxResult

def submitRemoveVerifierKeyTx (contractAddress : ContractAddress) (circuitId : CircuitId) :
    Promise PS FinalizedTxData := do
  sync (assertIsContractAddress contractAddress)
  let contractState ← definedContractState contractAddress
    (← provide (.queryContractState contractAddress))
  let _operation ← sync (assertDefined (contractState.operation circuitId)
    (js "Circuit '" ++ circuitId ++ js "' not found for contract at address '" ++
      contractAddress ++ js "'"))
  let signingKey ← definedSigningKey contractAddress (← provide (.getSigningKey contractAddress))
  let unprovenTx := createUnprovenRemoveVerifierKeyTx contractAddress circuitId contractState
    signingKey
  let submitTxResult ← submitTx ⟨unprovenTx, none, none⟩
  if submitTxResult.status ≠ .SucceedEntirely then
    .reject (.removeVerifierKeyTxFailed submitTxResult)
  else return submitTxResult

/-! ## Calls and deployments -/

/-- The write that `submitCallTx` and `submitDeployTx` make if a private state id was given. -/
def setPrivateState (privateStateId : Option PrivateStateId) (state : PS) : Promise PS Unit :=
  match privateStateId with
  | some privateStateId => provide (.set privateStateId state)
  | none => return ()

variable [Undefined PS]

def submitCallTx (providers : ContractProviders) (options : CallTxOptions PS) :
    Promise PS (FinalizedCallTxData PS) := do
  sync (assertIsContractAddress options.contractAddress)
  let _circuit ← sync (assertDefined (options.contract.impureCircuit options.circuitId)
    (js "Circuit '" ++ options.circuitId ++ js "' is undefined"))
  if options.privateStateId.isSome && !providers.hasPrivateStateProvider then
    .reject .incompleteCallTxPrivateStateConfig
  else do
    let unprovenCallTxData ← createUnprovenCallTx providers options
    let finalizedTxData ← submitTx ⟨unprovenCallTxData.private.unprovenTx,
      some unprovenCallTxData.private.newCoins, some options.circuitId⟩
    if finalizedTxData.status ≠ .SucceedEntirely then
      .reject (.callTxFailed finalizedTxData options.circuitId)
    else do
      setPrivateState (if providers.hasPrivateStateProvider then options.privateStateId else none)
        unprovenCallTxData.private.nextPrivateState
      return ⟨⟨unprovenCallTxData.public, finalizedTxData⟩, unprovenCallTxData.private⟩

def submitDeployTx (providers : ContractProviders) (options : DeployTxOptions PS) :
    Promise PS (FinalizedDeployTxData PS) := do
  let unprovenDeployTxData ← createUnprovenDeployTx providers options
  let finalizedTxData ← submitTx ⟨unprovenDeployTxData.private.unprovenTx,
    some unprovenDeployTxData.private.newCoins, none⟩
  if finalizedTxData.status ≠ .SucceedEntirely then
    .reject (.deployTxFailed finalizedTxData)
  else do
    setPrivateState options.privateStateId unprovenDeployTxData.private.initialPrivateState
    provide (.setSigningKey unprovenDeployTxData.public.contractAddress
      unprovenDeployTxData.private.signingKey)
    return ⟨⟨finalizedTxData, unprovenDeployTxData.public⟩, unprovenDeployTxData.private⟩

end MidnightJs
