import MidnightJs.CompactCommand.Commands
import MidnightJs.Foundations.HandOver

/-! # Chains of commands

A contract is deployed and then called by one command after another, each of which reads the private
state, or the Zswap state, from the file that the command before it wrote. Such a chain is compared
with the same calls made in one process, where the state is passed on as it is. -/

namespace MidnightJs.CompactJs
open Foundations Foundations.Js Foundations.Effects Foundations.HandOver
set_option autoImplicit false

/-! ## Files that a command can always write -/

mutual
theorem toJson_bigintsAsText : ∀ v : JsValue, ∃ json, (bigintsAsText v).toJson = .ok json
  | .undefined => ⟨none, rfl⟩
  | .null => ⟨some .null, rfl⟩
  | .boolean b => ⟨some (.bool b), rfl⟩
  | .number x => ⟨some (numberJson x), rfl⟩
  | .bigint n => ⟨some (.string (bigintText n)), rfl⟩
  | .string s => ⟨some (.string s), rfl⟩
  | .uint8Array bytes => ⟨some (.object (indexedBytes bytes)), rfl⟩
  | .buffer bytes => ⟨_, rfl⟩
  | .array vs => by
    obtain ⟨elements, h⟩ := elementsToJson_elementsAsText vs
    exact ⟨some (.array elements), by rw [bigintsAsText, JsValue.toJson, h]⟩
  | .object ms => by
    obtain ⟨members, h⟩ := membersToJson_membersAsText ms
    exact ⟨some (.object members), by rw [bigintsAsText, JsValue.toJson, h]⟩
  | .map entries => ⟨some (.object []), rfl⟩

theorem elementsToJson_elementsAsText : ∀ vs : List JsValue,
    ∃ elements, elementsToJson (elementsAsText vs) = .ok elements
  | [] => ⟨[], rfl⟩
  | v :: vs => by
    obtain ⟨json, h⟩ := toJson_bigintsAsText v
    obtain ⟨elements, hs⟩ := elementsToJson_elementsAsText vs
    exact ⟨json.getD .null :: elements, by rw [elementsAsText, elementsToJson, h, hs]⟩

theorem membersToJson_membersAsText : ∀ ms : List (JsString × JsValue),
    ∃ members, membersToJson (membersAsText ms) = .ok members
  | [] => ⟨[], rfl⟩
  | (k, v) :: ms => by
    obtain ⟨json, h⟩ := toJson_bigintsAsText v
    obtain ⟨members, hs⟩ := membersToJson_membersAsText ms
    cases json with
    | none => exact ⟨members, by rw [membersAsText, membersToJson, h, hs]⟩
    | some j => exact ⟨(k, j) :: members, by rw [membersAsText, membersToJson, h, hs]⟩
end

theorem resultFile_ok (result : JsValue) : ∃ text, resultFile result = .ok text := by
  obtain ⟨json, h⟩ := toJson_bigintsAsText result
  refine ⟨writeFileString (json.map Json.stringify), ?_⟩
  rw [resultFile, jsonStringify, h]
  rfl

section
variable [Runtime] [CompactRuntime]

/-! ## The run in one process -/

/-- `initialize`, on the arguments that the command parses. -/
def initializeInProcess (contractModule : ContractModule) (deploy : DeployCommand) :
    ContractEffect DeployResult := do
  let argsParser ← ofEither contractModule.createArgumentParser
  let args ← ofEither (argsParser.parseInitializationArgs deploy.args)
  initializeContract contractModule.contractExecutable contractModule.context
    contractModule.createInitialPrivateState args

/-- `circuit`, on two local states that are handed over directly. The contract state and the
arguments are those of the command. -/
def circuitInProcess (contractModule : ContractModule) (command : CircuitCommand)
    (privateState : JsValue) (zswapLocalState : Option ZswapLocalState) :
    ContractEffect (CircuitInputs × CallResult) := do
  let argsParser ← ofEither contractModule.createArgumentParser
  let ledgerContractState ← asLedgerContractStateFromBytes command.input
  let contractState ← asContractState ledgerContractState
  let args ← ofEither (argsParser.parseCircuitArgs command.circuitId command.args)
  let circuitContext : CircuitContext :=
    { address := command.address
      contractState := contractState
      privateState := privateState
      zswapLocalState := zswapLocalState }
  let result ← circuit contractModule.contractExecutable contractModule.context command.circuitId
    circuitContext args
  return (⟨ledgerContractState, circuitContext, args⟩, result)

/-- What a command calls its circuit with. -/
def handedInputs (contractModule : ContractModule) (command : CircuitCommand) :
    ContractEffect CircuitInputs :=
  circuitInputs contractModule command (readPrivateState contractModule command.inputPrivateState)
    (readZswapLocalState command.inputZswapLocalState)

theorem deployResult_eq (contractModule : ContractModule) (deploy : DeployCommand) :
    deployResult contractModule deploy = initializeInProcess contractModule deploy :=
  rfl

/-- The two states that are read are those of the context. -/
theorem circuitInputs_ok {contractModule : ContractModule} {command : CircuitCommand}
    {privateState : ContractEffect JsValue}
    {zswapLocalState : ContractEffect (Option ZswapLocalState)} {inputs : CircuitInputs}
    (h : circuitInputs contractModule command privateState zswapLocalState = .ok inputs) :
    privateState = .ok inputs.circuitContext.privateState ∧
      zswapLocalState = .ok inputs.circuitContext.zswapLocalState := by
  unfold circuitInputs at h
  obtain ⟨argsParser, -, h⟩ := except_bind_ok.mp h
  obtain ⟨ledgerContractState, -, h⟩ := except_bind_ok.mp h
  obtain ⟨s, hs, h⟩ := except_bind_ok.mp h
  obtain ⟨contractState, -, h⟩ := except_bind_ok.mp h
  obtain ⟨z, hz, h⟩ := except_bind_ok.mp h
  obtain ⟨args, -, h⟩ := except_bind_ok.mp h
  cases h
  exact ⟨hs, hz⟩

/-- A command's call succeeds as the call in one process does, on the states that it reads. -/
theorem circuitResult_ok_iff {contractModule : ContractModule} {command : CircuitCommand}
    {s : JsValue} {z : Option ZswapLocalState} {p : CircuitInputs × CallResult} :
    circuitResult contractModule command (.ok s) (.ok z) = .ok p ↔
      circuitInProcess contractModule command s z = .ok p := by
  rw [circuitResult, circuitInputs, circuitInProcess]
  cases ofEither contractModule.createArgumentParser with
  | error e => exact Iff.rfl
  | ok argsParser =>
    cases hinput : asLedgerContractStateFromBytes command.input with
    | error e => exact Iff.rfl
    | ok ledgerContractState =>
      cases hstate : asContractState ledgerContractState with
      | error e => simp only [bind, Except.bind, hstate]
      | ok contractState =>
        simp only [bind, Except.bind, hstate]
        cases ofEither (argsParser.parseCircuitArgs command.circuitId command.args) with
        | error e => exact Iff.rfl
        | ok args => exact Iff.rfl

/-- What a command that succeeds has called its circuit with, and what it has written. -/
theorem of_circuitHandler_ok {contractModule : ContractModule} {command : CircuitCommand}
    {files : CircuitFiles} (h : circuitHandler contractModule command = .ok files) :
    ∃ (s : JsValue) (z : Option ZswapLocalState) (inputs : CircuitInputs) (result : CallResult),
      readPrivateState contractModule command.inputPrivateState = .ok s ∧
      readZswapLocalState command.inputZswapLocalState = .ok z ∧
      handedInputs contractModule command = .ok inputs ∧
      circuitInProcess contractModule command s z = .ok (inputs, result) ∧
      circuitFiles command inputs result = .ok files := by
  rw [circuitHandler, mapError_eq_ok] at h
  obtain ⟨⟨inputs, result⟩, hresult, hfiles⟩ := except_bind_ok.mp h
  obtain ⟨inputs', hinputs, hcalled⟩ := except_bind_ok.mp hresult
  obtain ⟨called, hcall, hpair⟩ := except_bind_ok.mp hcalled
  cases hpair
  obtain ⟨hs, hz⟩ := circuitInputs_ok hinputs
  rw [hs, hz, circuitResult_ok_iff] at hresult
  exact ⟨_, _, inputs, result, hs, hz, hinputs, hresult, hfiles⟩

/-- A command succeeds where the call in one process does and its files can be made. -/
theorem circuitHandler_of_call {contractModule : ContractModule} {command : CircuitCommand}
    {s : JsValue} {z : Option ZswapLocalState} {inputs : CircuitInputs} {result : CallResult}
    {files : CircuitFiles} (hs : readPrivateState contractModule command.inputPrivateState = .ok s)
    (hz : readZswapLocalState command.inputZswapLocalState = .ok z)
    (hcall : circuitInProcess contractModule command s z = .ok (inputs, result))
    (hfiles : circuitFiles command inputs result = .ok files) :
    circuitHandler contractModule command = .ok files := by
  rw [circuitHandler, mapError_eq_ok, hs, hz]
  exact except_bind_ok.mpr ⟨(inputs, result), circuitResult_ok_iff.mpr hcall, hfiles⟩

/-! ## What the commands write -/

/-- What the schema writes is read back, whatever the state. -/
theorem zswapLocalStateFile_ok (zswapLocalState : ZswapLocalState) :
    ∃ text, zswapLocalStateFile zswapLocalState = .ok text ∧ ∃ v, jsonParse text = .ok v ∧
      decodeZswapLocalStateObject v = .ok (encodeZswapLocalState zswapLocalState) := by
  obtain ⟨text, hwrite, v, hread, hdecode⟩ :=
    EncodedZswapLocalStateSchema.decode_text (encodeZswapLocalState zswapLocalState)
  refine ⟨text, ?_, v, hread, ?_⟩
  · rw [zswapLocalStateFile, encodeZswapLocalStateObject, hwrite]
    rfl
  · rw [decodeZswapLocalStateObject, hdecode]

/-! ## Commands and what they leave -/

/-- Once the call has succeeded, only the intent and the private state can make the command fail. -/
theorem circuitFiles_ok {command : CircuitCommand} {inputs : CircuitInputs} {result : CallResult}
    {output : List UInt8} {text : JsString} (hintent : circuitIntent command inputs result = .ok output)
    (hprivate : privateStateFile result.private.privateState = .ok text) :
    ∃ files, circuitFiles command inputs result = .ok files := by
  obtain ⟨resultText, hresult⟩ := resultFile_ok result.private.result
  obtain ⟨zswapText, hzswap, -⟩ := zswapLocalStateFile_ok result.private.zswapLocalState
  refine ⟨⟨resultText, output, text, zswapText⟩, ?_⟩
  rw [circuitFiles, hresult, hintent, hprivate, hzswap]
  rfl

theorem of_circuitFiles_ok {command : CircuitCommand} {inputs : CircuitInputs} {result : CallResult}
    {files : CircuitFiles} (h : circuitFiles command inputs result = .ok files) :
    privateStateFile result.private.privateState = .ok files.outputPrivateState ∧
      zswapLocalStateFile result.private.zswapLocalState = .ok files.outputZswapLocalState := by
  unfold circuitFiles at h
  obtain ⟨_, -, h⟩ := except_bind_ok.mp h
  obtain ⟨_, -, h⟩ := except_bind_ok.mp h
  obtain ⟨privateText, hprivate, h⟩ := except_bind_ok.mp h
  obtain ⟨zswapText, hzswap, h⟩ := except_bind_ok.mp h
  cases h
  exact ⟨hprivate, hzswap⟩

theorem deployFiles_ok {command : DeployCommand} {result : DeployResult} {output : List UInt8}
    {text : JsString} (hintent : deployIntent command result = .ok output)
    (hprivate : privateStateFile result.private.privateState = .ok text) :
    ∃ files, deployFiles command result = .ok files := by
  obtain ⟨zswapText, hzswap, -⟩ := zswapLocalStateFile_ok result.private.zswapLocalState
  refine ⟨⟨output, text, zswapText⟩, ?_⟩
  rw [deployFiles, hintent, hprivate, hzswap]
  rfl

theorem of_deployFiles_ok {command : DeployCommand} {result : DeployResult} {files : DeployFiles}
    (h : deployFiles command result = .ok files) :
    privateStateFile result.private.privateState = .ok files.outputPrivateState ∧
      zswapLocalStateFile result.private.zswapLocalState = .ok files.outputZswapLocalState := by
  unfold deployFiles at h
  obtain ⟨_, -, h⟩ := except_bind_ok.mp h
  obtain ⟨privateText, hprivate, h⟩ := except_bind_ok.mp h
  obtain ⟨zswapText, hzswap, h⟩ := except_bind_ok.mp h
  cases h
  exact ⟨hprivate, hzswap⟩

theorem deployHandler_eq_ok {contractModule : ContractModule} {deploy : DeployCommand}
    {files : DeployFiles} : deployHandler contractModule deploy = .ok files ↔
      ∃ result, initializeInProcess contractModule deploy = .ok result ∧
        deployFiles deploy result = .ok files := by
  rw [deployHandler, mapError_eq_ok, deployResult_eq, except_bind_ok]

end

namespace Sample
open MidnightJs.Sample

/-- The only circuit leaves the state `after`. -/
def oneCircuit (after : JsValue) : Contract where
  impureCircuits := [(js "next", fun context _ => .ok
    { result := .undefined
      context := { context with currentPrivateState := after }
      proofData := ⟨(), (), [], []⟩ })]
  initialState context _ :=
    .ok ⟨⟨(), [], ⟨[], 0, 0⟩⟩, context.initialPrivateState, context.initialZswapLocalState⟩

def oneCircuitModule (initial after : JsValue) : ContractModule where
  contractExecutable := ⟨js "sample", oneCircuit after⟩
  context :=
    { coinPublicKey := js "00"
      signingKey := none
      sampledSigningKey := js "01"
      getVerifierKeys := fun _ => .ok [] }
  createInitialPrivateState := initial
  createArgumentParser := .ok ⟨fun _ => .ok [], fun _ _ => .ok []⟩

def deploy : DeployCommand := ⟨[], 0⟩

def callNext : CircuitCommand := ⟨js "aa", js "next", [], [], [], none, 0, ()⟩

end Sample

end MidnightJs.CompactJs
