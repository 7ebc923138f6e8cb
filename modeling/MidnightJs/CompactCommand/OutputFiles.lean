import MidnightJs.CompactCommand.PrivateStateChains
import MidnightJs.Foundations.FallibleWrites

/-! # The files that a command writes

`deploy` and `circuit` write their files one after the other and make the content of each only when
its turn has come. A path is what the file system resolves it to, and a write that is begun
succeeds. -/

namespace MidnightJs.CompactJs
open Foundations Foundations.Js Foundations.Effects
set_option autoImplicit false

inductive FileContent
  | bytes (b : List UInt8)
  | text (s : JsString)

section
variable [Runtime] [CompactRuntime] {P : Type}

/-- What serializing a file comes to, and the path it is written to. -/
abbrev OutputFile (P : Type) := P × ContractEffect FileContent

def bytesFile (content : ContractEffect (List UInt8)) : ContractEffect FileContent :=
  content.map .bytes

def textFile (content : ContractEffect JsString) : ContractEffect FileContent :=
  content.map .text

/-- What is written, and how the command ends. -/
abbrev CommandRun (P : Type) := List (P × FileContent) × ContractEffect Unit

def runCommand (message : JsString) (outputs : ContractEffect (List (OutputFile P))) :
    CommandRun P :=
  let (written, outcome) := Writes.runAfter outputs
  (written, mapError (fun err => .contractRuntimeError message (some err)) outcome)

/-! ## `deploy` -/

structure DeployPaths (P : Type) where
  outputFilePath : P
  outputPrivateStateFilePath : P
  outputZswapLocalStateFilePath : P

/-- All that `deploy` does before it writes. -/
def deployPrepared (contractModule : ContractModule) (command : DeployCommand) :
    ContractEffect (Intent × DeployResult) := do
  let result ← deployResult contractModule command
  let ledgerContractState ← asLedgerContractState result.contractState
  let intent ← Effects.sync (CompactRuntime.intentOfDeploy command.ttl ledgerContractState)
  return (intent, result)

def deployOutputs (paths : DeployPaths P) (intent : Intent) (result : DeployResult) :
    List (OutputFile P) :=
  [(paths.outputFilePath, bytesFile (Effects.sync (CompactRuntime.serializeIntent intent))),
   (paths.outputPrivateStateFilePath, textFile (privateStateFile result.private.privateState)),
   (paths.outputZswapLocalStateFilePath,
     textFile (zswapLocalStateFile result.private.zswapLocalState))]

def deployPlan (paths : DeployPaths P) (contractModule : ContractModule) (command : DeployCommand) :
    ContractEffect (List (OutputFile P)) := do
  let (intent, result) ← deployPrepared contractModule command
  return deployOutputs paths intent result

def runDeploy (paths : DeployPaths P) (contractModule : ContractModule) (command : DeployCommand) :
    CommandRun P :=
  runCommand (js "Failed to initialize contract") (deployPlan paths contractModule command)

/-! ## `circuit` -/

structure CircuitPaths (P : Type) where
  outputResultFilePath : P
  outputFilePath : P
  outputPrivateStateFilePath : P
  outputZswapLocalStateFilePath : P

/-- What reading the input files comes to. -/
structure CircuitReads where
  input : ContractEffect (List UInt8)
  inputPrivateState : ContractEffect JsString
  inputZswapLocalState : Option (ContractEffect JsString)

/-- Every file can be read, and holds what the command says. -/
def CircuitReads.ofCommand (command : CircuitCommand) : CircuitReads where
  input := .ok command.input
  inputPrivateState := .ok command.inputPrivateState
  inputZswapLocalState := command.inputZswapLocalState.map .ok

def circuitResultOfReads (contractModule : ContractModule) (command : CircuitCommand)
    (reads : CircuitReads) : ContractEffect (CircuitInputs × CallResult) := do
  -- The parser is there before the first file is read.
  let _ ← ofEither contractModule.createArgumentParser
  let input ← reads.input
  circuitResult contractModule { command with input := input }
    (do readPrivateState contractModule (← reads.inputPrivateState))
    (match reads.inputZswapLocalState with
    | none => return none
    | some file => do readZswapLocalState (some (← file)))

/-- All that `circuit` does before it writes. -/
def circuitPrepared (contractModule : ContractModule) (command : CircuitCommand)
    (reads : CircuitReads) : ContractEffect (Intent × CallResult) := do
  let (inputs, result) ← circuitResultOfReads contractModule command reads
  -- The result is written to the console.
  let _ ← Effects.sync (jsonStringify (bigintsAsText result.private.result))
  let intent ← Effects.sync
    (CompactRuntime.intentOfCall command.ttl (circuitCallPrototype command inputs result))
  return (intent, result)

def circuitOutputs (paths : CircuitPaths P) (intent : Intent) (result : CallResult) :
    List (OutputFile P) :=
  [(paths.outputResultFilePath, textFile (resultFile result.private.result)),
   (paths.outputFilePath, bytesFile (Effects.sync (CompactRuntime.serializeIntent intent))),
   (paths.outputPrivateStateFilePath, textFile (privateStateFile result.private.privateState)),
   (paths.outputZswapLocalStateFilePath,
     textFile (zswapLocalStateFile result.private.zswapLocalState))]

def circuitPlan (paths : CircuitPaths P) (contractModule : ContractModule)
    (command : CircuitCommand) (reads : CircuitReads) : ContractEffect (List (OutputFile P)) := do
  let (intent, result) ← circuitPrepared contractModule command reads
  return circuitOutputs paths intent result

def runCircuitCommand (paths : CircuitPaths P) (contractModule : ContractModule)
    (command : CircuitCommand) (reads : CircuitReads) : CommandRun P :=
  runCommand (js "Failed to invoke circuit") (circuitPlan paths contractModule command reads)

/-! ## Contents -/

section
variable {C : Type} {content : FileContent}

omit [Runtime] [CompactRuntime] in
theorem map_made {make : C → FileContent} {x : ContractEffect C} :
    (∃ content, x.map make = .ok content) ↔ ∃ c, x = .ok c := by
  cases x <;> simp [Except.map]

omit [Runtime] [CompactRuntime] in
theorem resultFile_made (result : JsValue) :
    ∃ content, textFile (resultFile result) = .ok content :=
  map_made.mpr (resultFile_ok result)

theorem zswapLocalStateFile_made (zswapLocalState : ZswapLocalState) :
    ∃ content, textFile (zswapLocalStateFile zswapLocalState) = .ok content := by
  obtain ⟨text, h, -⟩ := zswapLocalStateFile_ok zswapLocalState
  exact map_made.mpr ⟨text, h⟩

omit [Runtime] [CompactRuntime] in
theorem privateStateFile_made {privateState : JsValue} :
    (∃ content, textFile (privateStateFile privateState) = .ok content) ↔
      ∃ text, jsonStringify privateState = .ok text := by
  rw [textFile, map_made, privateStateFile]
  simp only [except_bind_ok, sync_eq_ok]
  constructor
  · intro h
    obtain ⟨_, text, htext, -⟩ := h
    exact ⟨text, htext⟩
  · intro h
    obtain ⟨text, htext⟩ := h
    exact ⟨writeFileString text, text, htext, rfl⟩

theorem intentFile_made {intent : Intent} :
    (∃ content, bytesFile (Effects.sync (CompactRuntime.serializeIntent intent)) = .ok content) ↔
      ∃ output, CompactRuntime.serializeIntent intent = .ok output := by
  rw [bytesFile, map_made]
  simp only [sync_eq_ok]

end

/-! ## When the contents can be made -/

section
variable {contractModule : ContractModule} {ws : List (OutputFile P)}

omit [Runtime] [CompactRuntime] in
theorem runCommand_reports {message : JsString} {outputs : ContractEffect (List (OutputFile P))} :
    Writes.Reports outputs (runCommand message outputs) :=
  ⟨rfl, mapError_eq_ok⟩

omit [Runtime] [CompactRuntime] in
theorem runCommand_yields {message : JsString} {outputs : ContractEffect (List (OutputFile P))}
    {F : Type} {files : ContractEffect F} {writtenTo : F → List (P × FileContent)}
    (h : Writes.Yields (Writes.runAfter outputs) files writtenTo) :
    Writes.Yields (runCommand message outputs)
      (mapError (fun err => .contractRuntimeError message (some err)) files) writtenTo := by
  constructor
  · rw [← mapError_map, ← h.outcome]
    rfl
  · intro f hf
    exact h.written f (mapError_eq_ok.mp hf)

omit [Runtime] [CompactRuntime] in
theorem outputs_eq_ok {A B : Type} {prepared : ContractEffect (A × B)}
    {outputs : A → B → List (OutputFile P)} :
    (prepared >>= fun p => (pure (outputs p.1 p.2) : ContractEffect _)) = .ok ws ↔
      ∃ a b, prepared = .ok (a, b) ∧ outputs a b = ws := by
  rw [except_bind_ok]
  constructor
  · intro ⟨(a, b), hprepared, h⟩
    cases h
    exact ⟨a, b, hprepared, rfl⟩
  · intro ⟨a, b, hprepared, h⟩
    exact ⟨(a, b), hprepared, congrArg Except.ok h⟩

theorem deployPlan_eq_ok {paths : DeployPaths P} {command : DeployCommand} :
    deployPlan paths contractModule command = .ok ws ↔
      ∃ intent result, deployPrepared contractModule command = .ok (intent, result) ∧
        deployOutputs paths intent result = ws :=
  outputs_eq_ok

theorem circuitPlan_eq_ok {paths : CircuitPaths P} {command : CircuitCommand}
    {reads : CircuitReads} : circuitPlan paths contractModule command reads = .ok ws ↔
      ∃ intent result, circuitPrepared contractModule command reads = .ok (intent, result) ∧
        circuitOutputs paths intent result = ws :=
  outputs_eq_ok

theorem deployOutputs_made {paths : DeployPaths P} {intent : Intent} {result : DeployResult} :
    Writes.AllMade (deployOutputs paths intent result) ↔
      (∃ output, CompactRuntime.serializeIntent intent = .ok output) ∧
        ∃ text, jsonStringify result.private.privateState = .ok text := by
  rw [deployOutputs, Writes.allMade_cons, Writes.allMade_cons, Writes.allMade_cons, intentFile_made,
    privateStateFile_made]
  have hzswap := zswapLocalStateFile_made result.private.zswapLocalState
  simp only [hzswap, Writes.allMade_nil, and_true]

theorem circuitOutputs_made {paths : CircuitPaths P} {intent : Intent} {result : CallResult} :
    Writes.AllMade (circuitOutputs paths intent result) ↔
      (∃ output, CompactRuntime.serializeIntent intent = .ok output) ∧
        ∃ text, jsonStringify result.private.privateState = .ok text := by
  rw [circuitOutputs, Writes.allMade_cons, Writes.allMade_cons, Writes.allMade_cons,
    Writes.allMade_cons, intentFile_made, privateStateFile_made]
  have hresult := resultFile_made result.private.result
  have hzswap := zswapLocalStateFile_made result.private.zswapLocalState
  simp only [hresult, hzswap, Writes.allMade_nil, true_and, and_true]

/-! ## Atomic commands -/

/-- Once the intent has been written, so is the rest, and the files do not overwrite each other. -/
def DeployGoesThrough (paths : DeployPaths P) (contractModule : ContractModule)
    (command : DeployCommand) : Prop :=
  ∀ intent result output, deployPrepared contractModule command = .ok (intent, result) →
    CompactRuntime.serializeIntent intent = .ok output →
    (∃ text, jsonStringify result.private.privateState = .ok text) ∧
      Writes.Consistent (deployOutputs paths intent result)

/-- Once the result has been written, so is the rest, and the files do not overwrite each other. -/
def CircuitGoesThrough (paths : CircuitPaths P) (contractModule : ContractModule)
    (command : CircuitCommand) (reads : CircuitReads) : Prop :=
  ∀ intent result, circuitPrepared contractModule command reads = .ok (intent, result) →
    (∃ output, CompactRuntime.serializeIntent intent = .ok output) ∧
      (∃ text, jsonStringify result.private.privateState = .ok text) ∧
      Writes.Consistent (circuitOutputs paths intent result)

variable [DecidableEq P] {files : P → Option FileContent}

theorem runDeploy_atomic_iff {paths : DeployPaths P} {command : DeployCommand} :
    Writes.Atomic files (deployPlan paths contractModule command)
        (runDeploy paths contractModule command) ↔
      DeployGoesThrough paths contractModule command := by
  rw [runDeploy, Writes.atomic_iff runCommand_reports]
  constructor
  · intro h intent result output hprepared houtput
    have hmade := intentFile_made.mpr ⟨output, houtput⟩
    obtain ⟨hrest, hconsistent⟩ :=
      h _ _ (deployPlan_eq_ok.mpr ⟨intent, result, hprepared, rfl⟩) hmade
    have hall : Writes.AllMade (deployOutputs paths intent result) :=
      Writes.allMade_cons.mpr ⟨hmade, hrest⟩
    exact ⟨(deployOutputs_made.mp hall).2, hconsistent⟩
  · intro h w ws hplan hw
    obtain ⟨intent, result, hprepared, heq⟩ := deployPlan_eq_ok.mp hplan
    cases heq
    obtain ⟨output, houtput⟩ := intentFile_made.mp hw
    obtain ⟨hprivate, hconsistent⟩ := h intent result output hprepared houtput
    have hall : Writes.AllMade (deployOutputs paths intent result) :=
      deployOutputs_made.mpr ⟨⟨output, houtput⟩, hprivate⟩
    exact ⟨(Writes.allMade_cons.mp hall).2, hconsistent⟩

theorem runCircuitCommand_atomic_iff {paths : CircuitPaths P} {command : CircuitCommand}
    {reads : CircuitReads} :
    Writes.Atomic files (circuitPlan paths contractModule command reads)
        (runCircuitCommand paths contractModule command reads) ↔
      CircuitGoesThrough paths contractModule command reads := by
  rw [runCircuitCommand, Writes.atomic_iff runCommand_reports]
  constructor
  · intro h intent result hprepared
    have hmade := resultFile_made result.private.result
    obtain ⟨hrest, hconsistent⟩ :=
      h _ _ (circuitPlan_eq_ok.mpr ⟨intent, result, hprepared, rfl⟩) hmade
    have hall : Writes.AllMade (circuitOutputs paths intent result) :=
      Writes.allMade_cons.mpr ⟨hmade, hrest⟩
    obtain ⟨houtput, hprivate⟩ := circuitOutputs_made.mp hall
    exact ⟨houtput, hprivate, hconsistent⟩
  · intro h w ws hplan _
    obtain ⟨intent, result, hprepared, heq⟩ := circuitPlan_eq_ok.mp hplan
    obtain ⟨houtput, hprivate, hconsistent⟩ := h intent result hprepared
    cases heq
    have hall : Writes.AllMade (circuitOutputs paths intent result) :=
      circuitOutputs_made.mpr ⟨houtput, hprivate⟩
    exact ⟨(Writes.allMade_cons.mp hall).2, hconsistent⟩

end

/-- Both commands write in order and stop at a content that cannot be made. They are atomic exactly
if what follows their first file can be made too: the private state after the intent of `deploy`, the
intent and the private state after the result of `circuit`. -/
theorem command_output_files [DecidableEq P] (contractModule : ContractModule)
    (files : P → Option FileContent) :
    (∀ (paths : DeployPaths P) (command : DeployCommand),
      Writes.InOrder (deployPlan paths contractModule command)
          (runDeploy paths contractModule command) ∧
        (Writes.Atomic files (deployPlan paths contractModule command)
            (runDeploy paths contractModule command) ↔
          DeployGoesThrough paths contractModule command)) ∧
      ∀ (paths : CircuitPaths P) (command : CircuitCommand) (reads : CircuitReads),
        Writes.InOrder (circuitPlan paths contractModule command reads)
            (runCircuitCommand paths contractModule command reads) ∧
          (Writes.Atomic files (circuitPlan paths contractModule command reads)
              (runCircuitCommand paths contractModule command reads) ↔
            CircuitGoesThrough paths contractModule command reads) := by
  constructor
  · intro paths command
    exact ⟨Writes.inOrder runCommand_reports, runDeploy_atomic_iff⟩
  · intro paths command reads
    exact ⟨Writes.inOrder runCommand_reports, runCircuitCommand_atomic_iff⟩

end

namespace Sample
open MidnightJs.Sample

def deployPaths : DeployPaths JsString := ⟨js "deploy.bin", js "state.json", js "zswap.json"⟩

/-- A counter, which `JSON.stringify` cannot write. -/
def counterState : JsValue := .object [(js "round", .bigint 1)]

theorem deployPrepared_counter :
    deployPrepared (oneCircuitModule counterState counterState) deploy =
      .ok ((), ⟨⟨(), [], ⟨[js "01"], 1, 0⟩⟩, js "01", counterState, noCoins⟩) := by
  rw [deployPrepared, deployResult_eq, initializeInProcess_oneCircuit]
  rfl

/-- The intent is left behind when the private state cannot be written. -/
theorem deploy_half_written : ¬ Writes.Atomic (fun _ => none)
    (deployPlan deployPaths (oneCircuitModule counterState counterState) deploy)
    (runDeploy deployPaths (oneCircuitModule counterState counterState) deploy) := by
  rw [runDeploy_atomic_iff]
  intro h
  obtain ⟨⟨text, htext⟩, -⟩ := h _ _ [] deployPrepared_counter rfl
  cases htext

end Sample

section
variable [Runtime] [CompactRuntime] {P : Type}

/-! ## The commands as they are called

Each ends as its handler does, and if no step fails it has written the files of the handler. -/

def DeployFiles.writtenTo (paths : DeployPaths P) (written : DeployFiles) :
    List (P × FileContent) :=
  [(paths.outputFilePath, .bytes written.output),
   (paths.outputPrivateStateFilePath, .text written.outputPrivateState),
   (paths.outputZswapLocalStateFilePath, .text written.outputZswapLocalState)]

def CircuitFiles.writtenTo (paths : CircuitPaths P) (written : CircuitFiles) :
    List (P × FileContent) :=
  [(paths.outputResultFilePath, .text written.outputResult),
   (paths.outputFilePath, .bytes written.output),
   (paths.outputPrivateStateFilePath, .text written.outputPrivateState),
   (paths.outputZswapLocalStateFilePath, .text written.outputZswapLocalState)]

/-- The files of a deployment with a given intent. -/
def deployFilesOf (intent : Intent) (result : DeployResult) : ContractEffect DeployFiles := do
  let output ← Effects.sync (CompactRuntime.serializeIntent intent)
  let outputPrivateState ← privateStateFile result.private.privateState
  let outputZswapLocalState ← zswapLocalStateFile result.private.zswapLocalState
  return ⟨output, outputPrivateState, outputZswapLocalState⟩

theorem deployOutputs_yield (paths : DeployPaths P) (intent : Intent) (result : DeployResult) :
    Writes.Yields (Writes.run (deployOutputs paths intent result)) (deployFilesOf intent result)
      (DeployFiles.writtenTo paths) := by
  unfold deployOutputs deployFilesOf
  cases CompactRuntime.serializeIntent intent with
  | error e => exact ⟨rfl, nofun⟩
  | ok output =>
    cases privateStateFile result.private.privateState with
    | error e => exact ⟨rfl, nofun⟩
    | ok privateText =>
      cases zswapLocalStateFile result.private.zswapLocalState with
      | error e => exact ⟨rfl, nofun⟩
      | ok zswapText =>
        refine ⟨rfl, fun written h => ?_⟩
        cases h
        rfl

theorem deployFiles_eq (contractModule : ContractModule) (command : DeployCommand) :
    (deployResult contractModule command >>= deployFiles command) =
      deployPrepared contractModule command >>= fun prepared =>
        deployFilesOf prepared.1 prepared.2 := by
  unfold deployPrepared deployFiles deployIntent CompactRuntime.serializeDeploy
  cases deployResult contractModule command with
  | error e => rfl
  | ok result =>
    simp only [bind, Except.bind]
    cases asLedgerContractState result.contractState with
    | error e => rfl
    | ok ledgerContractState =>
      simp only
      cases CompactRuntime.intentOfDeploy command.ttl ledgerContractState with
      | error e => rfl
      | ok intent => rfl

theorem runDeploy_handler (paths : DeployPaths P) (contractModule : ContractModule)
    (command : DeployCommand) :
    Writes.Yields (runDeploy paths contractModule command) (deployHandler contractModule command)
      (DeployFiles.writtenTo paths) := by
  unfold runDeploy deployHandler
  rw [deployFiles_eq]
  exact runCommand_yields (Writes.yields_bind fun prepared =>
    deployOutputs_yield paths prepared.1 prepared.2)

/-- The files of a call with a given intent. -/
def circuitFilesOf (intent : Intent) (result : CallResult) : ContractEffect CircuitFiles := do
  let outputResult ← resultFile result.private.result
  let output ← Effects.sync (CompactRuntime.serializeIntent intent)
  let outputPrivateState ← privateStateFile result.private.privateState
  let outputZswapLocalState ← zswapLocalStateFile result.private.zswapLocalState
  return ⟨outputResult, output, outputPrivateState, outputZswapLocalState⟩

theorem circuitOutputs_yield (paths : CircuitPaths P) (intent : Intent) (result : CallResult) :
    Writes.Yields (Writes.run (circuitOutputs paths intent result)) (circuitFilesOf intent result)
      (CircuitFiles.writtenTo paths) := by
  unfold circuitOutputs circuitFilesOf
  cases resultFile result.private.result with
  | error e => exact ⟨rfl, nofun⟩
  | ok resultText =>
    cases CompactRuntime.serializeIntent intent with
    | error e => exact ⟨rfl, nofun⟩
    | ok output =>
      cases privateStateFile result.private.privateState with
      | error e => exact ⟨rfl, nofun⟩
      | ok privateText =>
        cases zswapLocalStateFile result.private.zswapLocalState with
        | error e => exact ⟨rfl, nofun⟩
        | ok zswapText =>
          refine ⟨rfl, fun written h => ?_⟩
          cases h
          rfl

theorem circuitResultOfReads_ofCommand (contractModule : ContractModule)
    (command : CircuitCommand) :
    circuitResultOfReads contractModule command (CircuitReads.ofCommand command) =
      circuitResult contractModule command
        (readPrivateState contractModule command.inputPrivateState)
        (readZswapLocalState command.inputZswapLocalState) := by
  unfold circuitResultOfReads CircuitReads.ofCommand
  cases hparser : contractModule.createArgumentParser with
  | error e =>
    unfold circuitResult circuitInputs
    rw [hparser]
    rfl
  | ok parser => cases hzswap : command.inputZswapLocalState <;> rfl

/-- The result goes to the console and into its file alike, so that the two steps cannot fail. -/
theorem circuitFiles_eq (contractModule : ContractModule) (command : CircuitCommand) :
    (circuitResult contractModule command
        (readPrivateState contractModule command.inputPrivateState)
        (readZswapLocalState command.inputZswapLocalState) >>=
      fun called => circuitFiles command called.1 called.2) =
      circuitPrepared contractModule command (CircuitReads.ofCommand command) >>= fun prepared =>
        circuitFilesOf prepared.1 prepared.2 := by
  unfold circuitPrepared circuitFiles circuitIntent CompactRuntime.serializeCall
  rw [circuitResultOfReads_ofCommand]
  cases circuitResult contractModule command
      (readPrivateState contractModule command.inputPrivateState)
      (readZswapLocalState command.inputZswapLocalState) with
  | error e => rfl
  | ok called =>
    obtain ⟨inputs, result⟩ := called
    obtain ⟨json, hjson⟩ := toJson_bigintsAsText result.private.result
    simp only [bind, Except.bind, circuitFilesOf, resultFile, jsonStringify, hjson]
    cases CompactRuntime.intentOfCall command.ttl (circuitCallPrototype command inputs result) with
    | error e => rfl
    | ok intent =>
      simp only [Effects.sync, Except.map, Except.mapError, pure, Except.pure, hjson]

theorem runCircuitCommand_handler (paths : CircuitPaths P) (contractModule : ContractModule)
    (command : CircuitCommand) :
    Writes.Yields
      (runCircuitCommand paths contractModule command (CircuitReads.ofCommand command))
      (circuitHandler contractModule command) (CircuitFiles.writtenTo paths) := by
  unfold runCircuitCommand circuitHandler
  rw [circuitFiles_eq]
  exact runCommand_yields (Writes.yields_bind fun prepared =>
    circuitOutputs_yield paths prepared.1 prepared.2)

end

end MidnightJs.CompactJs
