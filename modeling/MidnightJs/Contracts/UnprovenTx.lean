import MidnightJs.Contracts.Call

/-! # Unproven transactions

`packages/contracts/src/get-states.ts`, `unproven-call-tx.ts` and `unproven-deploy-tx.ts`: the
states a call is run against, and the transaction made of its result. -/

namespace MidnightJs
open Foundations Foundations.Js Foundations.Async
set_option autoImplicit false

variable [Runtime] (PS : Type)

structure PublicContractStates where
  zswapChainState : ZswapChainState
  contractState : ContractState

structure ContractStates extends PublicContractStates where
  privateState : PS

structure CallTxOptions where
  contract : Contract PS
  circuitId : CircuitId
  contractAddress : ContractAddress
  args : Option (List Value)
  privateStateId : Option PrivateStateId

structure UnsubmittedCallTxPrivateData extends CallResultPrivate PS where
  unprovenTx : UnprovenTransaction
  newCoins : List CoinInfo

structure UnsubmittedCallTxData where
  «public» : CallResultPublic
  «private» : UnsubmittedCallTxPrivateData PS

structure DeployTxOptions where
  contract : Contract PS
  args : Option (List Value)
  signingKey : SigningKey
  initialPrivateState : Option PS
  privateStateId : Option PrivateStateId

structure UnsubmittedDeployTxPublicData where
  contractAddress : ContractAddress
  initialContractState : ContractState

structure UnsubmittedDeployTxPrivateData where
  signingKey : SigningKey
  initialPrivateState : PS
  initialZswapState : ZswapLocalState
  unprovenTx : UnprovenTransaction
  newCoins : List CoinInfo

structure UnsubmittedDeployTxData where
  «public» : UnsubmittedDeployTxPublicData
  «private» : UnsubmittedDeployTxPrivateData PS

variable {PS} [Undefined PS]

/-! ## The states of a contract -/

omit [Undefined PS] in
def getPublicStates (contractAddress : ContractAddress) : Promise PS PublicContractStates := do
  sync (assertIsContractAddress contractAddress)
  match ← provide (.queryZSwapAndContractState contractAddress) with
  | some (zswapChainState, contractState) => return ⟨zswapChainState, contractState⟩
  | none => sync (.error (.error (js "No public state found at contract address '" ++
      contractAddress ++ js "'")))

def getStates (contractAddress : ContractAddress) (privateStateId : PrivateStateId) :
    Promise PS (ContractStates PS) := do
  let publicContractStates ← getPublicStates contractAddress
  let privateState ← definedPrivateState privateStateId (← provide (.get privateStateId))
  return { publicContractStates with privateState := privateState }

/-! ## Calls -/

def createUnprovenCallTxFromInitialStates (options : CallOptions PS)
    (walletCoinPublicKey walletEncryptionPublicKey : JsString) :
    Promise PS (UnsubmittedCallTxData PS) := do
  sync (assertIsContractAddress options.contractAddress)
  let _circuit ← sync (assertDefined (options.contract.impureCircuit options.circuitId)
    (js "Circuit '" ++ options.circuitId ++ js "' is undefined"))
  let callResult ← call options
  let encryptionPublicKey ← sync (encryptionPublicKeyForzswapState
    callResult.private.nextZswapLocalState walletCoinPublicKey walletEncryptionPublicKey)
  let unprovenTx ← createUnprovenLedgerCallTx options.circuitId options.contractAddress
    options.initialContractState options.initialZswapChainState
    callResult.public.partitionedTranscript callResult.private.privateTranscriptOutputs
    callResult.private.input callResult.private.output callResult.private.nextZswapLocalState
    encryptionPublicKey
  let coinPublicKey ← sync (parseCoinPublicKeyToHex options.coinPublicKey)
  return {
    «public» := callResult.public
    «private» :=
      { callResult.private with
        unprovenTx := unprovenTx
        newCoins := zswapStateToNewCoins coinPublicKey callResult.private.nextZswapLocalState } }

def createCallOptions (callTxOptions : CallTxOptions PS) (coinPublicKey : JsString)
    (initialContractState : ContractState) (initialZswapChainState : ZswapChainState)
    (initialPrivateState : Option PS) : Except JsError (CallOptions PS) := do
  let coinPublicKeyHex ← parseCoinPublicKeyToHex coinPublicKey
  return {
    contract := callTxOptions.contract
    contractAddress := callTxOptions.contractAddress
    circuitId := callTxOptions.circuitId
    args := callTxOptions.args
    coinPublicKey := coinPublicKeyHex
    initialContractState := initialContractState
    initialZswapChainState := initialZswapChainState
    -- The test is on the truth of the value, not on its presence.
    initialPrivateState := if truthy initialPrivateState then initialPrivateState else none }

def createUnprovenCallTx (providers : ContractProviders) (options : CallTxOptions PS) :
    Promise PS (UnsubmittedCallTxData PS) := do
  sync (assertIsContractAddress options.contractAddress)
  let _circuit ← sync (assertDefined (options.contract.impureCircuit options.circuitId)
    (js "Circuit '" ++ options.circuitId ++ js "' is undefined"))
  let wallet := providers.walletProvider
  match options.privateStateId with
  | some privateStateId =>
    if !providers.hasPrivateStateProvider then
      .reject .incompleteCallTxPrivateStateConfig
    else do
      let states ← getStates options.contractAddress privateStateId
      let coinPublicKey ← sync (parseCoinPublicKeyToHex wallet.coinPublicKey)
      let callOptions ← sync (createCallOptions options coinPublicKey states.contractState
        states.zswapChainState (some states.privateState))
      createUnprovenCallTxFromInitialStates callOptions wallet.coinPublicKey
        wallet.encryptionPublicKey
  | none => do
    let states ← getPublicStates options.contractAddress
    let coinPublicKey ← sync (parseCoinPublicKeyToHex wallet.coinPublicKey)
    let callOptions ← sync (createCallOptions options coinPublicKey states.contractState
      states.zswapChainState none)
    createUnprovenCallTxFromInitialStates callOptions wallet.coinPublicKey
      wallet.encryptionPublicKey

/-! ## Deployments -/

omit [Undefined PS] in
def createContractConstructorOptions (deployTxOptions : DeployTxOptions PS)
    (coinPublicKey : JsString) : ContractConstructorOptions PS where
  contract := deployTxOptions.contract
  args := deployTxOptions.args
  coinPublicKey := coinPublicKey
  initialPrivateState := deployTxOptions.initialPrivateState

def createUnprovenDeployTxFromVerifierKeys (verifierKeys : List (CircuitId × VerifierKey))
    (coinPublicKey : JsString) (options : DeployTxOptions PS) (encryptionPublicKey : JsString) :
    Promise PS (UnsubmittedDeployTxData PS) := do
  let constructed ← sync (callContractConstructor
    (createContractConstructorOptions options coinPublicKey))
  let (contractAddress, initialContractState, unprovenTx) ← createUnprovenLedgerDeployTx
    verifierKeys options.signingKey constructed.nextContractState constructed.nextZswapLocalState
    encryptionPublicKey
  return {
    «public» := ⟨contractAddress, initialContractState⟩
    «private» :=
      { signingKey := options.signingKey
        initialPrivateState := constructed.nextPrivateState
        initialZswapState := constructed.nextZswapLocalState
        unprovenTx := unprovenTx
        newCoins := zswapStateToNewCoins coinPublicKey constructed.nextZswapLocalState } }

def createUnprovenDeployTx (providers : ContractProviders) (options : DeployTxOptions PS) :
    Promise PS (UnsubmittedDeployTxData PS) := do
  let verifierKeys ← provide (.getVerifierKeys (getImpureCircuitIds options.contract))
  let coinPublicKey ← sync (parseCoinPublicKeyToHex providers.walletProvider.coinPublicKey)
  createUnprovenDeployTxFromVerifierKeys verifierKeys coinPublicKey options
    providers.walletProvider.encryptionPublicKey

end MidnightJs
