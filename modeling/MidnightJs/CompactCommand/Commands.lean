import MidnightJs.CompactCommand.CompiledContractReflection
import MidnightJs.CompactCommand.EncodedZswapLocalStateSchema
import MidnightJs.CompactJs.ContractExecutable
import MidnightJs.Foundations.JsonValues

/-! # The commands `deploy` and `circuit`

`compact-js-command/src/effect/internal/deployCommand.ts` and `circuitCommand.ts`. A command is given
the contents of the files it reads, and returns those of the files it writes; the text of a JSON file
stands for its bytes. -/

namespace MidnightJs.CompactJs
open Foundations Foundations.Js Foundations.Effects
set_option autoImplicit false

variable [Runtime] [CompactRuntime]

/-- What the configuration file exports, and what it is run with. -/
structure ContractModule where
  contractExecutable : CompiledContract
  context : Context
  createInitialPrivateState : JsValue
  /-- Reading the declaration of the contract may fail. -/
  createArgumentParser : Except ContractError ArgumentParser

/-! ## Files -/

/-- Without a text, the file is left empty. -/
def writeFileString (text : Option JsString) : JsString := text.getD []

mutual
/-- The replacer that turns a `bigint` into its text. -/
def bigintsAsText (v : JsValue) : JsValue :=
  match v with
  | .bigint n => .string (bigintText n)
  | .array vs => .array (elementsAsText vs)
  | .object ms => .object (membersAsText ms)
  | v => v

def elementsAsText (vs : List JsValue) : List JsValue :=
  match vs with
  | [] => []
  | v :: vs => bigintsAsText v :: elementsAsText vs

def membersAsText (ms : List (JsString × JsValue)) : List (JsString × JsValue) :=
  match ms with
  | [] => []
  | (k, v) :: ms => (k, bigintsAsText v) :: membersAsText ms
end

def resultFile (result : JsValue) : ContractEffect JsString := do
  let text ← Effects.sync (jsonStringify (bigintsAsText result))
  return writeFileString text

def privateStateFile (privateState : JsValue) : ContractEffect JsString := do
  let text ← Effects.sync (jsonStringify privateState)
  return writeFileString text

def zswapLocalStateFile (zswapLocalState : ZswapLocalState) : ContractEffect JsString := do
  let text ← Effects.sync (jsonStringify
    (encodeZswapLocalStateObject (encodeZswapLocalState zswapLocalState)))
  return writeFileString text

/-- `JSON.parse` throws in the body of the generator. -/
def readPrivateState (contractModule : ContractModule) (file : JsString) :
    ContractEffect JsValue := do
  let privateState ← Effects.sync (jsonParse file)
  return if privateState.isNullish then contractModule.createInitialPrivateState else privateState

def readZswapLocalState (file : Option JsString) : ContractEffect (Option ZswapLocalState) :=
  match file with
  | none => return none
  | some text => do
    let v ← Effects.sync (jsonParse text)
    let encoded ← ofEither (decodeZswapLocalStateObject v)
    let zswapLocalState ← Effects.sync (decodeZswapLocalState encoded)
    return some zswapLocalState

/-! ## Contract states -/

def asLedgerContractState (state : ContractState) : ContractEffect LedgerContractState :=
  tryCatch (CompactRuntime.toLedger state) fun err => .contractRuntimeError
    (js "Unexpected error converting runtime contract state") (some (.thrown err))

def asLedgerContractStateFromBytes (bytes : List UInt8) : ContractEffect LedgerContractState :=
  tryCatch (CompactRuntime.deserializeLedger bytes) fun err => .contractRuntimeError
    (js "Unexpected error deserializing ledger contract state from bytes") (some (.thrown err))

def asContractState (state : LedgerContractState) : ContractEffect ContractState :=
  tryCatch (CompactRuntime.ofLedger state) fun err => .contractRuntimeError
    (js "Unexpected error converting ledger contract state") (some (.thrown err))

/-! ## `deploy` -/

structure DeployCommand where
  args : List JsString
  /-- Ten minutes after the date of the command. -/
  ttl : ℕ

structure DeployFiles where
  output : List UInt8
  outputPrivateState : JsString
  outputZswapLocalState : JsString

/-- The new contract, before anything is written. -/
def deployResult (contractModule : ContractModule) (command : DeployCommand) :
    ContractEffect DeployResult := do
  let argsParser ← ofEither contractModule.createArgumentParser
  let args ← ofEither (argsParser.parseInitializationArgs command.args)
  initializeContract contractModule.contractExecutable contractModule.context
    contractModule.createInitialPrivateState args

def deployIntent (command : DeployCommand) (result : DeployResult) :
    ContractEffect (List UInt8) := do
  let ledgerContractState ← asLedgerContractState result.contractState
  Effects.sync (CompactRuntime.serializeDeploy command.ttl ledgerContractState)

def deployFiles (command : DeployCommand) (result : DeployResult) :
    ContractEffect DeployFiles := do
  let output ← deployIntent command result
  let outputPrivateState ← privateStateFile result.private.privateState
  let outputZswapLocalState ← zswapLocalStateFile result.private.zswapLocalState
  return ⟨output, outputPrivateState, outputZswapLocalState⟩

def deployHandler (contractModule : ContractModule) (command : DeployCommand) :
    ContractEffect DeployFiles :=
  mapError (fun err => .contractRuntimeError (js "Failed to initialize contract") (some err)) do
    let result ← deployResult contractModule command
    deployFiles command result

/-! ## `circuit` -/

structure CircuitCommand where
  address : ContractAddress
  circuitId : CircuitId
  args : List JsString
  input : List UInt8
  inputPrivateState : JsString
  inputZswapLocalState : Option JsString
  ttl : ℕ
  /-- What `communicationCommitmentRandomness` draws. -/
  randomness : Randomness

structure CircuitFiles where
  outputResult : JsString
  output : List UInt8
  outputPrivateState : JsString
  outputZswapLocalState : JsString

structure CircuitInputs where
  ledgerContractState : LedgerContractState
  circuitContext : CircuitContext
  args : List JsValue

/-- What a circuit is called with, the two local states being read by the given steps. -/
def circuitInputs (contractModule : ContractModule) (command : CircuitCommand)
    (privateState : ContractEffect JsValue)
    (zswapLocalState : ContractEffect (Option ZswapLocalState)) :
    ContractEffect CircuitInputs := do
  let argsParser ← ofEither contractModule.createArgumentParser
  let ledgerContractState ← asLedgerContractStateFromBytes command.input
  let privateState ← privateState
  let contractState ← asContractState ledgerContractState
  let zswapLocalState ← zswapLocalState
  let args ← ofEither (argsParser.parseCircuitArgs command.circuitId command.args)
  return {
    ledgerContractState := ledgerContractState
    circuitContext :=
      { address := command.address
        contractState := contractState
        privateState := privateState
        zswapLocalState := zswapLocalState }
    args := args }

/-- The call of a command, with what it was called with. -/
def circuitResult (contractModule : ContractModule) (command : CircuitCommand)
    (privateState : ContractEffect JsValue)
    (zswapLocalState : ContractEffect (Option ZswapLocalState)) :
    ContractEffect (CircuitInputs × CallResult) := do
  let inputs ← circuitInputs contractModule command privateState zswapLocalState
  let result ← circuit contractModule.contractExecutable contractModule.context command.circuitId
    inputs.circuitContext inputs.args
  return (inputs, result)

def circuitCallPrototype (command : CircuitCommand) (inputs : CircuitInputs)
    (result : CallResult) : ContractCallPrototype where
  address := command.address
  circuitId := command.circuitId
  operation := CompactRuntime.ledgerOperation inputs.ledgerContractState command.circuitId
  guaranteedTranscript := result.public.partitionedTranscript.1
  fallibleTranscript := result.public.partitionedTranscript.2
  privateTranscriptOutputs := result.private.privateTranscriptOutputs
  input := result.private.input
  output := result.private.output
  communicationCommitmentRandomness := command.randomness
  keyLocation := command.circuitId

def circuitIntent (command : CircuitCommand) (inputs : CircuitInputs) (result : CallResult) :
    Except JsError (List UInt8) :=
  CompactRuntime.serializeCall command.ttl (circuitCallPrototype command inputs result)

def circuitFiles (command : CircuitCommand) (inputs : CircuitInputs) (result : CallResult) :
    ContractEffect CircuitFiles := do
  -- The result is written to the console before, and cannot be written then if it cannot be here.
  let outputResult ← resultFile result.private.result
  let output ← Effects.sync (circuitIntent command inputs result)
  let outputPrivateState ← privateStateFile result.private.privateState
  let outputZswapLocalState ← zswapLocalStateFile result.private.zswapLocalState
  return ⟨outputResult, output, outputPrivateState, outputZswapLocalState⟩

def circuitHandler (contractModule : ContractModule) (command : CircuitCommand) :
    ContractEffect CircuitFiles :=
  mapError (fun err => .contractRuntimeError (js "Failed to invoke circuit") (some err)) do
    let (inputs, result) ← circuitResult contractModule command
      (readPrivateState contractModule command.inputPrivateState)
      (readZswapLocalState command.inputZswapLocalState)
    circuitFiles command inputs result

end MidnightJs.CompactJs
