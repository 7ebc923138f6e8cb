import MidnightJs.Contracts.SubmitTx

/-! # Found contracts

`packages/contracts/src/tx-interfaces.ts` and `find-deployed-contract.ts`: the interfaces to a
contract, and the operation that checks a deployed contract and hands them out. -/

namespace MidnightJs
open Foundations Foundations.Js Foundations.Async
set_option autoImplicit false

variable [Runtime] (PS : Type)

/-! ## Interfaces -/

abbrev CircuitCallTxInterface :=
  List (CircuitId × (List Value → Promise PS (FinalizedCallTxData PS)))

structure CircuitMaintenanceTxInterface where
  removeVerifierKey : Promise PS FinalizedTxData
  insertVerifierKey : VerifierKey → Promise PS FinalizedTxData

abbrev ContractMaintenanceTxInterface := SigningKey → Promise PS FinalizedTxData

variable {PS}

def createCallTxOptions (contract : Contract PS) (circuitId : CircuitId)
    (contractAddress : ContractAddress) (privateStateId : Option PrivateStateId)
    (args : List Value) : CallTxOptions PS where
  contract := contract
  circuitId := circuitId
  contractAddress := contractAddress
  args := if args.length ≠ 0 then some args else none
  -- An empty id counts as none.
  privateStateId := if truthy privateStateId then privateStateId else none

def createCircuitCallTxInterface [Undefined PS] (providers : ContractProviders)
    (contract : Contract PS) (contractAddress : ContractAddress)
    (privateStateId : Option PrivateStateId) : Except JsError (CircuitCallTxInterface PS) := do
  assertIsContractAddress contractAddress
  return (getImpureCircuitIds contract).map fun circuitId => (circuitId, fun args =>
    submitCallTx providers
      (createCallTxOptions contract circuitId contractAddress privateStateId args))

def createCircuitMaintenanceTxInterface (circuitId : CircuitId)
    (contractAddress : ContractAddress) : Except JsError (CircuitMaintenanceTxInterface PS) := do
  assertIsContractAddress contractAddress
  return {
    removeVerifierKey := submitRemoveVerifierKeyTx contractAddress circuitId
    insertVerifierKey := submitInsertVerifierKeyTx contractAddress circuitId }

def createCircuitMaintenanceTxInterfaces (contract : Contract PS)
    (contractAddress : ContractAddress) :
    Except JsError (List (CircuitId × CircuitMaintenanceTxInterface PS)) := do
  assertIsContractAddress contractAddress
  (getImpureCircuitIds contract).mapM fun circuitId => do
    let maintenance ← createCircuitMaintenanceTxInterface circuitId contractAddress
    return (circuitId, maintenance)

def createContractMaintenanceTxInterface (contractAddress : ContractAddress) :
    Except JsError (ContractMaintenanceTxInterface PS) := do
  assertIsContractAddress contractAddress
  return submitReplaceAuthorityTx contractAddress

/-! ## Finding a contract -/

variable (PS)

structure FindDeployedContractOptions where
  contract : Contract PS
  contractAddress : ContractAddress
  signingKey : Option SigningKey
  privateStateId : Option PrivateStateId
  initialPrivateState : Option PS

structure FoundDeployTxPrivateData where
  signingKey : SigningKey
  initialPrivateState : PS

structure FoundDeployTxData where
  «public» : FinalizedDeployTxPublicData
  «private» : FoundDeployTxPrivateData PS

structure FoundContract where
  deployTxData : FoundDeployTxData PS
  callTx : CircuitCallTxInterface PS
  circuitMaintenanceTx : List (CircuitId × CircuitMaintenanceTxInterface PS)
  contractMaintenanceTx : ContractMaintenanceTxInterface PS

variable {PS}

omit [Runtime] in
def verifierKeysEqual (a b : VerifierKey) : Bool :=
  a.length == b.length && toHex a == toHex b

def verifyContractState (verifierKeys : List (CircuitId × VerifierKey))
    (contractState : ContractState) : Except ContractsError Unit :=
  let mismatchedCircuitIds := (verifierKeys.filter fun entry =>
    match contractState.operation entry.1 with
    | none => true
    | some operation => !verifierKeysEqual entry.2 operation.verifierKey).map Prod.fst
  if mismatchedCircuitIds.length > 0 then .error (.contractType contractState mismatchedCircuitIds)
  else .ok ()

def setOrGetInitialSigningKey (options : FindDeployedContractOptions PS) :
    Promise PS SigningKey := do
  match options.signingKey with
  | some signingKey =>
    if truthy signingKey then do
      provide (.setSigningKey options.contractAddress signingKey)
      return signingKey
    else getOrSampleSigningKey
  | none => getOrSampleSigningKey
where
  /-- The key of the address, or a fresh one that is stored for it. -/
  getOrSampleSigningKey : Promise PS SigningKey := do
    let existingSigningKey ← provide (.getSigningKey options.contractAddress)
    match existingSigningKey with
    | some signingKey => if truthy signingKey then return signingKey else storeFreshSigningKey
    | none => storeFreshSigningKey
  storeFreshSigningKey : Promise PS SigningKey := do
    let freshSigningKey ← provide .sampleSigningKey
    provide (.setSigningKey options.contractAddress freshSigningKey)
    return freshSigningKey

variable [Undefined PS]

def setOrGetInitialPrivateState (options : FindDeployedContractOptions PS) : Promise PS PS := do
  match options.privateStateId, options.initialPrivateState with
  | some privateStateId, some initialPrivateState => do
    provide (.set privateStateId initialPrivateState)
    return initialPrivateState
  | some privateStateId, none => do
    let currentPrivateState ← provide (.get privateStateId)
    definedPrivateState privateStateId currentPrivateState
  | none, some _ => .reject .incompleteFindContractPrivateStateConfig
  | none, none => return undefined

def findDeployedContract (providers : ContractProviders)
    (options : FindDeployedContractOptions PS) : Promise PS (FoundContract PS) := do
  let contractAddress := options.contractAddress
  let notDeployed := js "No contract deployed at contract address '" ++ contractAddress ++ js "'"
  sync (assertIsContractAddress contractAddress)
  let finalizedTxData ← provide (.watchForDeployTxData contractAddress)
  let initialContractState ← sync (assertDefined
    (← provide (.queryDeployContractState contractAddress)) notDeployed)
  let currentContractState ← sync (assertDefined
    (← provide (.queryContractState contractAddress)) notDeployed)
  let verifierKeys ← provide (.getVerifierKeys (getImpureCircuitIds options.contract))
  .ofExcept (verifyContractState verifierKeys currentContractState)
  let signingKey ← setOrGetInitialSigningKey options
  let initialPrivateState ← setOrGetInitialPrivateState options
  let callTx ← sync (createCircuitCallTxInterface providers options.contract contractAddress
    options.privateStateId)
  let circuitMaintenanceTx ← sync (createCircuitMaintenanceTxInterfaces options.contract
    contractAddress)
  let contractMaintenanceTx ← sync (createContractMaintenanceTxInterface contractAddress)
  return {
    deployTxData := {
      «private» := ⟨signingKey, initialPrivateState⟩
      «public» := ⟨finalizedTxData, ⟨contractAddress, initialContractState⟩⟩ }
    callTx := callTx
    circuitMaintenanceTx := circuitMaintenanceTx
    contractMaintenanceTx := contractMaintenanceTx }

end MidnightJs
