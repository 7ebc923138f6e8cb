import MidnightJs.CompactJs.Runtime
import MidnightJs.Ledger.Transactions
import MidnightJs.PlatformJs.Hex

/-! # Executing contracts

`compact-js/src/effect/ContractExecutable.ts`: running the constructor of a compiled contract,
running its circuits and maintaining it. The runtime's and the ledger's maintenance authorities are
one type here, since the code moves between them by `serialize` and `deserialize`. -/

namespace MidnightJs.CompactJs
open Foundations Foundations.Js Foundations.Effects PlatformJs
set_option autoImplicit false

variable [Runtime] [CompactRuntime]

/-- The services an executable is run with. -/
structure Context where
  coinPublicKey : JsString
  signingKey : Option SigningKey
  /-- What `sampleSigningKey` draws. -/
  sampledSigningKey : SigningKey
  getVerifierKeys : List CircuitId → Except ContractError (List (CircuitId × VerifierKey))

structure CircuitContext where
  address : ContractAddress
  contractState : ContractState
  privateState : JsValue
  zswapLocalState : Option ZswapLocalState

structure DeployResultPrivate where
  signingKey : SigningKey
  privateState : JsValue
  zswapLocalState : ZswapLocalState

structure DeployResult where
  contractState : ContractState
  «private» : DeployResultPrivate

abbrev PartitionedTranscript := Option Transcript × Option Transcript

structure CallResultPublic where
  contractState : StateValue
  publicTranscript : List Op
  partitionedTranscript : PartitionedTranscript

structure CallResultPrivate where
  input : AlignedValue
  output : AlignedValue
  privateTranscriptOutputs : List AlignedValue
  result : JsValue
  privateState : JsValue
  zswapLocalState : ZswapLocalState

structure CallResult where
  «public» : CallResultPublic
  «private» : CallResultPrivate

omit [CompactRuntime] in
def partitionTranscript (txContext finalTxContext : QueryContext) (publicTranscript : List Op) :
    Except ContractError PartitionedTranscript :=
  let preTranscript := ((Runtime.comIndicies finalTxContext).foldl Runtime.insertCommitment
    (Runtime.toLedgerQueryContext txContext), publicTranscript)
  match Runtime.partitionTranscripts [preTranscript] with
  | [partitionedTranscript] => .ok partitionedTranscript
  | partitionedTranscripts => .error (.thrown (.error
      (js "Expected one transcript partition pair, received: " ++
        naturalText partitionedTranscripts.length)))

def thrown {α : Type} (x : Except JsError α) : Except ContractError α := x.mapError .thrown

/-! ## The constructor -/

def DEFAULT_CMA_THRESHOLD : ℕ := 1

def createMaintenanceAuthority (context : Context) (key : Option SigningKey)
    (contractState : Option ContractState) :
    Except ContractError (ContractMaintenanceAuthority × SigningKey) :=
  let signingKey := key.getD context.sampledSigningKey
  match CompactRuntime.signatureVerifyingKey signingKey with
  | .ok verifyingKey =>
    .ok ({ committee := [verifyingKey]
           threshold := DEFAULT_CMA_THRESHOLD
           counter := match contractState with
             | some contractState => contractState.maintenanceAuthority.counter + 1
             | none => 0 }, signingKey)
  | .error e => .error (.contractConfigurationError
      (js "Failed to create a signature verifying key for signing key '" ++ signingKey ++ js "'")
      (some (.thrown e)))

def addVerifierKeys (verifierKeys : List (CircuitId × VerifierKey))
    (contractState : ContractState) : Except ContractError ContractState :=
  verifierKeys.foldlM (fun contractState entry =>
    match contractState.operation entry.1 with
    | none => .error (.contractConfigurationError
        (js "Circuit '" ++ entry.1 ++ js "' is undefined for the given contract state") none)
    | some operation =>
      match CompactRuntime.setVerifierKey contractState entry.1 operation entry.2 with
      | .ok contractState => .ok contractState
      | .error e => .error (.contractConfigurationError
          (js "Failed to configure verifier key for circuit '" ++ entry.1 ++
            js "' for the given contract state") (some (.thrown e))))
    contractState

/-- What the constructor of the contract leaves: a contract state, a private state and a Zswap
state. -/
def constructed (executable : CompiledContract) (context : Context) (initialPrivateState : JsValue)
    (args : List JsValue) : ContractEffect (ContractState × JsValue × ZswapLocalState) :=
  tryCatch (do
    let coinPublicKey ← thrown (asHex context.coinPublicKey)
    let constructorResult ← executable.contract.initialState
      ⟨initialPrivateState, CompactRuntime.emptyZswapLocalState coinPublicKey⟩ args
    let zswapLocalState ← thrown (decodeZswapLocalState constructorResult.currentZswapLocalState)
    return (constructorResult.currentContractState, constructorResult.currentPrivateState,
      zswapLocalState))
    fun
    | .compactError message =>
      .contractRuntimeError (js "Failed to initialize contract") (some (.compactError message))
    | e => .contractConfigurationError
      (js "Failed to configure constructor context with coin public key") (some e)

/-- `initialize`. -/
def initializeContract (executable : CompiledContract) (context : Context)
    (initialPrivateState : JsValue) (args : List JsValue) : ContractEffect DeployResult := do
  let (contractState, privateState, zswapLocalState) ←
    constructed executable context initialPrivateState args
  let verifierKeys ← ofEither (context.getVerifierKeys (getImpureCircuitIds executable.contract))
  let contractState ← ofEither (addVerifierKeys verifierKeys contractState)
  let (cma, signingKey) ← ofEither (createMaintenanceAuthority context context.signingKey none)
  return {
    contractState := { contractState with maintenanceAuthority := cma }
    «private» :=
      { signingKey := signingKey, privateState := privateState, zswapLocalState := zswapLocalState } }

/-! ## Circuits -/

/-- The encoded state a circuit is handed. -/
def currentZswapLocalState (context : Context) (circuitContext : CircuitContext) :
    Except ContractError EncodedZswapLocalState :=
  match circuitContext.zswapLocalState with
  | some zswapLocalState => .ok (encodeZswapLocalState zswapLocalState)
  | none => do
    let coinPublicKey ← thrown (asHex context.coinPublicKey)
    return CompactRuntime.emptyZswapLocalState coinPublicKey

/-- The run of the circuit, with the context it was started in. -/
def runCircuit (executable : CompiledContract) (context : Context) (impureCircuitId : CircuitId)
    (circuitContext : CircuitContext) (args : List JsValue) :
    Except ContractError (QueryContext × CircuitResults) :=
  match OrderedMap.get executable.contract.impureCircuits impureCircuitId with
  | none => .error (.thrown (.error (js "Circuit " ++ executable.tag ++ js "#" ++ impureCircuitId ++
      js " could not be found.")))
  | some circuit => do
    let initialTxContext :=
      Runtime.queryContext circuitContext.contractState.data circuitContext.address
    let zswapLocalState ← currentZswapLocalState context circuitContext
    let circuitResults ← circuit
      { currentPrivateState := circuitContext.privateState
        currentZswapLocalState := zswapLocalState
        transactionContext := initialTxContext } args
    return (initialTxContext, circuitResults)

def circuit (executable : CompiledContract) (context : Context) (impureCircuitId : CircuitId)
    (circuitContext : CircuitContext) (args : List JsValue) : ContractEffect CallResult :=
  mapError (fun err => .contractRuntimeError
    (js "Error executing circuit '" ++ impureCircuitId ++ js "'") (some err)) do
    let (initialTxContext, circuitResults) ←
      tryCatch (runCircuit executable context impureCircuitId circuitContext args) id
    let partitionedTranscript ← ofEither (partitionTranscript initialTxContext
      circuitResults.context.transactionContext circuitResults.proofData.publicTranscript)
    -- Thrown in the body of the generator: a defect, which `mapError` leaves alone.
    let zswapLocalState ← Effects.sync (decodeZswapLocalState circuitResults.context.currentZswapLocalState)
    return {
      «public» :=
        { contractState := Runtime.contextState circuitResults.context.transactionContext
          publicTranscript := circuitResults.proofData.publicTranscript
          partitionedTranscript := partitionedTranscript }
      «private» :=
        { input := circuitResults.proofData.input
          output := circuitResults.proofData.output
          privateTranscriptOutputs := circuitResults.proofData.privateTranscriptOutputs
          result := circuitResults.result
          privateState := circuitResults.context.currentPrivateState
          zswapLocalState := zswapLocalState } }

/-! ## Maintenance -/

structure ContractContext where
  address : ContractAddress
  contractState : ContractState

structure MaintenanceResultPublic where
  maintenanceUpdate : MaintenanceUpdate

structure MaintenanceResultPrivate where
  signingKey : SigningKey

structure MaintenanceResult where
  «public» : MaintenanceResultPublic
  «private» : MaintenanceResultPrivate

def DEFAULT_SIGNATURE_INDEX : ℕ := 0

/-- `createUpdateFn` is called once there is a key. -/
def createSignedMaintenanceUpdate (createUpdateFn : Except ContractError (List SingleUpdate))
    (context : Context) (contractContext : ContractContext) : ContractEffect MaintenanceResult :=
  match context.signingKey with
  | none => fail (.contractConfigurationError
      (js "Signing key required to authorize contract maintenance update") none)
  | some currentSigningKey => do
    let update ← ofEither createUpdateFn
    let maintenanceUpdate := MaintenanceUpdate.new contractContext.address update
      contractContext.contractState.maintenanceAuthority.counter
    -- Thrown in the body of the generator.
    let signature ← Effects.sync
      (CompactRuntime.signData currentSigningKey maintenanceUpdate.dataToSign)
    return {
      «public» := ⟨maintenanceUpdate.addSignature DEFAULT_SIGNATURE_INDEX signature⟩
      «private» := ⟨currentSigningKey⟩ }

def replaceContractMaintenanceAuthority (context : Context) (newSigningKey : Option SigningKey)
    (contractContext : ContractContext) : ContractEffect MaintenanceResult := do
  let (cma, signingKey) ← ofEither
    (createMaintenanceAuthority context newSigningKey (some contractContext.contractState))
  let update ← createSignedMaintenanceUpdate (.ok [.replaceAuthority cma]) context contractContext
  return { update with «private» := { update.private with signingKey := signingKey } }

def removeContractOperation (context : Context) (impureCircuitId : CircuitId)
    (contractContext : ContractContext) : ContractEffect MaintenanceResult :=
  createSignedMaintenanceUpdate (.ok [.verifierKeyRemove impureCircuitId (js "v2")]) context
    contractContext

def addOrReplaceContractOperation (context : Context) (impureCircuitId : CircuitId)
    (verifierKey : VerifierKey) (contractContext : ContractContext) :
    ContractEffect MaintenanceResult :=
  createSignedMaintenanceUpdate (.ok [.verifierKeyInsert impureCircuitId (js "v2") verifierKey])
    context contractContext

end MidnightJs.CompactJs
