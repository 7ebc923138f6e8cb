import MidnightJs.CompactCommand.Chains

/-! # The private state along a chain of commands

The private state crosses a JSON file between two commands, and the command that reads it puts the
initial private state in the place of `null`. JSON data crosses unchanged, and nothing else does. -/

namespace MidnightJs.CompactJs
open Foundations Foundations.Js Foundations.Effects Foundations.HandOver
set_option autoImplicit false

section
variable [Runtime] [CompactRuntime]

/-! ## One file -/

omit [Runtime] [CompactRuntime] in
/-- `null`, and the numbers that JSON writes as `null`. -/
def writtenAsNull (v : JsValue) : Bool :=
  match v with
  | .null => true
  | .number .nan => true
  | .number (.infinity _) => true
  | _ => false

/-- JSON data other than `null`, or a value written as `null` that is the initial private state. -/
def HandsOver (contractModule : ContractModule) (v : JsValue) : Prop :=
  (v.IsJson ∧ v.isNullish = false) ∨
    (writtenAsNull v = true ∧ v = contractModule.createInitialPrivateState)

omit [Runtime] [CompactRuntime] in
theorem jsonStringify_writtenAsNull {v : JsValue} (h : writtenAsNull v = true) :
    jsonStringify v = .ok (some (js "null")) := by
  match v, h with
  | .null, _ => rfl
  | .number .nan, _ => rfl
  | .number (.infinity _), _ => rfl

omit [CompactRuntime] in
theorem privateStateFile_ok {contractModule : ContractModule} {v : JsValue}
    (h : HandsOver contractModule v) :
    ∃ file, privateStateFile v = .ok file ∧ readPrivateState contractModule file = .ok v := by
  rcases h with ⟨hjson, hnullish⟩ | ⟨hnull, hinitial⟩
  · obtain ⟨text, hwrite, hread⟩ := jsonParse_jsonStringify hjson
    refine ⟨text, ?_, ?_⟩
    · rw [privateStateFile, hwrite]
      rfl
    · rw [readPrivateState, hread]
      simp only [Effects.sync, Except.mapError, bind, Except.bind, hnullish]
      rfl
  · refine ⟨js "null", ?_, ?_⟩
    · rw [privateStateFile, jsonStringify_writtenAsNull hnull]
      rfl
    · have hread : jsonParse (js "null") = .ok .null := rfl
      rw [readPrivateState, hread, hinitial]
      rfl

/-! ## A chain and the calls in one process -/

def CircuitCommand.withPrivateState (command : CircuitCommand) (file : JsString) : CircuitCommand :=
  { command with inputPrivateState := file }

/-- The call of a command in one process, on a private state that is handed over directly. The
Zswap state is that of the command's own file. -/
def processCall (contractModule : ContractModule) (command : CircuitCommand)
    (privateState : JsValue) : ContractEffect (CircuitInputs × CallResult) := do
  let zswapLocalState ← readZswapLocalState command.inputZswapLocalState
  circuitInProcess contractModule command privateState zswapLocalState

/-- The commands after the deployment: the private state file each one reads, and how it ends. -/
def commandCalls (contractModule : ContractModule) (deploy : DeployCommand)
    (commands : List CircuitCommand) : List (JsString × ContractEffect CircuitFiles) :=
  match deployHandler contractModule deploy with
  | .ok files =>
    runCalls (fun command file => circuitHandler contractModule (command.withPrivateState file))
      CircuitFiles.outputPrivateState files.outputPrivateState commands
  | .error _ => []

/-- The same calls in one process: the private state each one is handed, and how it ends. -/
def processCalls (contractModule : ContractModule) (deploy : DeployCommand)
    (commands : List CircuitCommand) :
    List (JsValue × ContractEffect (CircuitInputs × CallResult)) :=
  match initializeInProcess contractModule deploy with
  | .ok result =>
    runCalls (processCall contractModule) (fun p => p.2.private.privateState)
      result.private.privateState commands
  | .error _ => []

/-- Every command calls its circuit in a context with the private state of the call in one process,
writes what that call gives, and fails only where that call fails or no intent can be made of its
result. -/
structure PrivateStatesAgree (contractModule : ContractModule) (deploy : DeployCommand)
    (commands : List CircuitCommand) : Prop where
  deploys : ∀ result output, initializeInProcess contractModule deploy = .ok result →
    deployIntent deploy result = .ok output →
    ∃ files, deployHandler contractModule deploy = .ok files
  calls : ∀ (k : ℕ) (file : JsString) (exit : ContractEffect CircuitFiles),
    (commandCalls contractModule deploy commands)[k]? = some (file, exit) →
    ∃ (command : CircuitCommand) (privateState : JsValue)
      (result : ContractEffect (CircuitInputs × CallResult)), commands[k]? = some command ∧
      (processCalls contractModule deploy commands)[k]? = some (privateState, result) ∧
      readPrivateState contractModule file = .ok privateState ∧
      (∀ inputs, handedInputs contractModule (command.withPrivateState file) = .ok inputs →
        inputs.circuitContext.privateState = privateState) ∧
      (∀ files, exit = .ok files → ∃ inputs callResult,
        handedInputs contractModule (command.withPrivateState file) = .ok inputs ∧
        result = .ok (inputs, callResult) ∧ circuitFiles command inputs callResult = .ok files) ∧
      ∀ inputs callResult output, result = .ok (inputs, callResult) →
        circuitIntent command inputs callResult = .ok output → ∃ files, exit = .ok files

/-- Every private state that the constructor or a circuit of the run leaves hands over. -/
structure StatesHandOver (contractModule : ContractModule) (deploy : DeployCommand)
    (commands : List CircuitCommand) : Prop where
  deploys : ∀ result, initializeInProcess contractModule deploy = .ok result →
    HandsOver contractModule result.private.privateState
  calls : ∀ call ∈ processCalls contractModule deploy commands, ∀ p, call.2 = .ok p →
    HandsOver contractModule p.2.private.privateState

/-! ## One command -/

/-- A command that reads a state from its file makes the call in one process on that state. -/
theorem processCall_of_command {contractModule : ContractModule} {command : CircuitCommand}
    {file : JsString} {s : JsValue} {files : CircuitFiles}
    (hread : readPrivateState contractModule file = .ok s)
    (h : circuitHandler contractModule (command.withPrivateState file) = .ok files) :
    ∃ inputs result, handedInputs contractModule (command.withPrivateState file) = .ok inputs ∧
      processCall contractModule command s = .ok (inputs, result) ∧
      circuitFiles command inputs result = .ok files := by
  obtain ⟨s', z, inputs, result, hs, hz, hhanded, hcall, hfiles⟩ := of_circuitHandler_ok h
  have heq : s' = s := by
    have hboth := hs.symm.trans hread
    rwa [Except.ok.injEq] at hboth
  subst heq
  exact ⟨inputs, result, hhanded, except_bind_ok.mpr ⟨z, hz, hcall⟩, hfiles⟩

theorem circuitHandler_step (contractModule : ContractModule) (command : CircuitCommand)
    (file : JsString) (s : JsValue) (hread : readPrivateState contractModule file = .ok s)
    (hkept : ∀ p, processCall contractModule command s = .ok p →
      HandsOver contractModule p.2.private.privateState)
    (files : CircuitFiles)
    (h : circuitHandler contractModule (command.withPrivateState file) = .ok files) :
    ∃ p, processCall contractModule command s = .ok p ∧
      readPrivateState contractModule files.outputPrivateState = .ok p.2.private.privateState := by
  obtain ⟨inputs, result, -, hresult, hfiles⟩ := processCall_of_command hread h
  obtain ⟨text, hwrite, hback⟩ := privateStateFile_ok (hkept _ hresult)
  have hfile := (of_circuitFiles_ok hfiles).1
  rw [hwrite, Except.ok.injEq] at hfile
  exact ⟨(inputs, result), hresult, hfile ▸ hback⟩

theorem circuitHandler_ok {contractModule : ContractModule} {command : CircuitCommand}
    {file : JsString} {s : JsValue} (hread : readPrivateState contractModule file = .ok s)
    {inputs : CircuitInputs} {result : CallResult} {output : List UInt8}
    (hresult : processCall contractModule command s = .ok (inputs, result))
    (hintent : circuitIntent command inputs result = .ok output)
    (hkept : HandsOver contractModule result.private.privateState) :
    ∃ files, circuitHandler contractModule (command.withPrivateState file) = .ok files := by
  obtain ⟨text, hwrite, -⟩ := privateStateFile_ok hkept
  obtain ⟨files, hfiles⟩ := circuitFiles_ok hintent hwrite
  obtain ⟨z, hz, hcall⟩ := except_bind_ok.mp hresult
  exact ⟨files, circuitHandler_of_call hread hz hcall hfiles⟩

/-! ## Whole chains -/

theorem private_states_agree {contractModule : ContractModule} {deploy : DeployCommand}
    {commands : List CircuitCommand} (h : StatesHandOver contractModule deploy commands) :
    PrivateStatesAgree contractModule deploy commands := by
  constructor
  · intro result output hresult hintent
    obtain ⟨text, hwrite, -⟩ := privateStateFile_ok (h.deploys result hresult)
    obtain ⟨files, hfiles⟩ := deployFiles_ok hintent hwrite
    exact ⟨files, deployHandler_eq_ok.mpr ⟨result, hresult, hfiles⟩⟩
  · intro k file exit hk
    cases hdeploy : deployHandler contractModule deploy with
    | error e => simp [commandCalls, hdeploy] at hk
    | ok files =>
      obtain ⟨result, hresult, hfiles⟩ := deployHandler_eq_ok.mp hdeploy
      obtain ⟨text, hwrite, hback⟩ := privateStateFile_ok (h.deploys result hresult)
      have hfile := (of_deployFiles_ok hfiles).1
      rw [hwrite, Except.ok.injEq] at hfile
      subst hfile
      simp only [commandCalls, hdeploy] at hk
      have hkept := h.calls
      simp only [processCalls, hresult] at hkept ⊢
      -- The file of each command reads as the state of the process.
      obtain ⟨command, s, hcommand, hcall, hexit, hread⟩ := runCalls_follows
        (fun (file : JsString) (s : JsValue) => readPrivateState contractModule file = .ok s)
        (fun p : CircuitInputs × CallResult =>
          HandsOver contractModule p.2.private.privateState)
        (circuitHandler_step contractModule) hback hkept hk
      refine ⟨command, s, _, hcommand, hcall, hread, ?_, ?_, ?_⟩
      · intro inputs hhanded
        have hboth := (circuitInputs_ok hhanded).1.symm.trans hread
        rwa [Except.ok.injEq] at hboth
      · intro files' hfiles'
        rw [hexit] at hfiles'
        obtain ⟨inputs, callResult, hhanded, hresult', hwritten⟩ :=
          processCall_of_command hread hfiles'
        exact ⟨inputs, callResult, hhanded, hresult', hwritten⟩
      · intro inputs callResult output hcallResult hintent
        have hlast := hkept _ (List.mem_of_getElem? hcall) _ hcallResult
        have hok := circuitHandler_ok hread hcallResult hintent hlast
        rw [hexit]
        exact hok

end

namespace Sample
open MidnightJs.Sample

theorem asHex_sample : PlatformJs.asHex (js "00") = .ok (js "00") := by decide +kernel

def noCoins : EncodedZswapLocalState := ⟨⟨[]⟩, 0, [], []⟩

theorem initializeInProcess_oneCircuit (initial after : JsValue) :
    initializeInProcess (oneCircuitModule initial after) deploy =
      .ok ⟨⟨(), [], ⟨[js "01"], 1, 0⟩⟩, js "01", initial, noCoins⟩ := by
  have hconstructed : constructed ⟨js "sample", oneCircuit after⟩
      (oneCircuitModule initial after).context initial [] =
      .ok (⟨(), [], ⟨[], 0, 0⟩⟩, initial, noCoins) := by
    simp only [constructed, oneCircuitModule, asHex_sample]
    rfl
  simp only [initializeInProcess, initializeContract, oneCircuitModule] at hconstructed ⊢
  simp only [ofEither, Except.mapError, bind, Except.bind, hconstructed]
  rfl

theorem processCall_oneCircuit (initial after s : JsValue) :
    processCall (oneCircuitModule initial after) callNext s = .ok
      (⟨⟨(), [], ⟨[], 0, 0⟩⟩, ⟨js "aa", ⟨(), [], ⟨[], 0, 0⟩⟩, s, none⟩, []⟩,
        ⟨⟨(), [], none, none⟩, (), (), [], .undefined, after, noCoins⟩) := by
  have hrun : runCircuit ⟨js "sample", oneCircuit after⟩ (oneCircuitModule initial after).context
      (js "next") ⟨js "aa", ⟨(), [], ⟨[], 0, 0⟩⟩, s, none⟩ [] =
      .ok ((), ⟨.undefined, ⟨after, noCoins, ()⟩, ⟨(), (), [], []⟩⟩) := by
    simp only [runCircuit, oneCircuit, OrderedMap.get, if_true, currentZswapLocalState,
      oneCircuitModule, asHex_sample]
    rfl
  have hstate : asLedgerContractStateFromBytes ([] : List UInt8) = .ok ⟨(), [], ⟨[], 0, 0⟩⟩ := rfl
  have hcall : circuit ⟨js "sample", oneCircuit after⟩ (oneCircuitModule initial after).context
      (js "next") ⟨js "aa", ⟨(), [], ⟨[], 0, 0⟩⟩, s, none⟩ [] =
      .ok ⟨⟨(), [], none, none⟩, (), (), [], .undefined, after, noCoins⟩ := by
    rw [circuit, hrun]
    rfl
  refine except_bind_ok.mpr ⟨none, rfl, ?_⟩
  refine except_bind_ok.mpr ⟨_, rfl, except_bind_ok.mpr ⟨_, hstate, ?_⟩⟩
  refine except_bind_ok.mpr ⟨_, rfl, except_bind_ok.mpr ⟨[], rfl, ?_⟩⟩
  exact except_bind_ok.mpr ⟨_, hcall, rfl⟩

def jsonState : JsValue := .object [(js "round", .string (js "second")), (js "done", .null)]

theorem handsOver_jsonState (contractModule : ContractModule) :
    HandsOver contractModule jsonState :=
  .inl ⟨⟨by decide, trivial, trivial, trivial⟩, rfl⟩

theorem states_hand_over_json (commands : List CircuitCommand) (h : ∀ c ∈ commands, c = callNext) :
    StatesHandOver (oneCircuitModule jsonState jsonState) deploy commands := by
  constructor
  · intro result hresult
    rw [initializeInProcess_oneCircuit, Except.ok.injEq] at hresult
    rw [← hresult]
    exact handsOver_jsonState _
  · intro call hcall p hp
    simp only [processCalls, initializeInProcess_oneCircuit] at hcall
    obtain ⟨command, hcommand, s, rfl⟩ := mem_runCalls hcall
    rw [h command hcommand, processCall_oneCircuit, Except.ok.injEq] at hp
    rw [← hp]
    exact handsOver_jsonState _

theorem private_states_agree_json :
    PrivateStatesAgree (oneCircuitModule jsonState jsonState) deploy [callNext, callNext] :=
  private_states_agree (states_hand_over_json [callNext, callNext] (by simp))

/-- A secret key, the usual private state. -/
def secretState : JsValue := .object [(js "secretKey", .uint8Array [7])]

def secretJson : Json :=
  .object [(js "secretKey", .object [(js "0", .number (js "7"))])]

theorem privateStateFile_secretState :
    privateStateFile secretState = .ok secretJson.stringify :=
  rfl

theorem jsonParse_secretJson :
    jsonParse secretJson.stringify = .ok (.object [(js "secretKey",
      .object [(js "0", .number (stringToNumber (js "7")))])]) := by
  have hformed : secretJson.WellFormed :=
    ⟨by decide, ⟨by decide, ⟨by decide, by decide⟩, trivial⟩, trivial⟩
  rw [jsonParse, parse_stringify hformed]
  rfl

/-- The byte array comes out of the file as an object of its bytes. -/
theorem secret_key_altered :
    ¬ PrivateStatesAgree (oneCircuitModule secretState secretState) deploy [callNext] := by
  intro h
  have hdeploy : ∃ files,
      deployHandler (oneCircuitModule secretState secretState) deploy = .ok files :=
    h.deploys _ [] (initializeInProcess_oneCircuit secretState secretState) rfl
  obtain ⟨files, hfiles⟩ := hdeploy
  obtain ⟨result, hresult, hwritten⟩ := deployHandler_eq_ok.mp hfiles
  have hfile := (of_deployFiles_ok hwritten).1
  rw [initializeInProcess_oneCircuit, Except.ok.injEq] at hresult
  rw [← hresult, privateStateFile_secretState, Except.ok.injEq] at hfile
  have hfirst : (commandCalls (oneCircuitModule secretState secretState) deploy [callNext])[0]? =
      some (files.outputPrivateState, circuitHandler (oneCircuitModule secretState secretState)
        (callNext.withPrivateState files.outputPrivateState)) := by
    simp [commandCalls, hfiles, runCalls]
  obtain ⟨command, s, process, -, hcall, hread, -, -, -⟩ := h.calls 0 _ _ hfirst
  have hs : s = secretState := by
    simp only [processCalls, initializeInProcess_oneCircuit, runCalls_cons, List.getElem?_cons_zero,
      Option.some.injEq, Prod.mk.injEq] at hcall
    exact hcall.1.symm
  rw [hs, ← hfile, readPrivateState, jsonParse_secretJson] at hread
  simp only [Effects.sync, Except.mapError, bind, Except.bind, JsValue.isNullish, pure, Except.pure,
    Except.ok.injEq] at hread
  simp [secretState] at hread

end Sample

end MidnightJs.CompactJs
