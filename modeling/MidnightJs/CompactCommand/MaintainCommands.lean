import MidnightJs.CompactCommand.OutputFiles
import MidnightJs.CompactJs.Maintenance

/-! # The commands `maintain circuit` and `maintain contract`

`compact-js-command/src/effect/internal/maintainCommand.ts`, `maintainCircuitCommand.ts` and
`maintainContractCommand.ts`. A command reads the state of a contract from a file, signs one
maintenance update made of it with the configured key, and writes the intent to another file. -/

namespace MidnightJs.CompactJs
open Foundations Foundations.Js Foundations.Effects
set_option autoImplicit false

class MaintenanceIntents [Runtime] [CompactRuntime] where
  /-- `Intent.new(ttl).addMaintenanceUpdate(update)`. -/
  intentOfMaintenance : ℕ → MaintenanceUpdate → Except JsError Intent
  /-- The updates in a serialized intent. -/
  maintenanceUpdates : List UInt8 → List MaintenanceUpdate

variable [Runtime] [CompactRuntime] [MaintenanceIntents] {P : Type}

/-! ## The handlers -/

/-- What all the commands take. Reading the input file may fail. -/
structure MaintainInputs where
  address : ContractAddress
  input : ContractEffect (List UInt8)
  /-- Ten minutes after the date of the command. -/
  ttl : ℕ

structure MaintainCircuitCommand extends MaintainInputs where
  circuitId : CircuitId
  /-- What reading the file comes to. -/
  verifierKeyPath : Option (ContractEffect (List UInt8))

structure MaintainContractCommand extends MaintainInputs where
  newSigningKey : SigningKey

omit [CompactRuntime] [MaintenanceIntents] in
/-- The root command `maintain`. -/
def maintainHandler : ContractEffect Unit :=
  fail (.contractRuntimeError (js "This command is not implemented.") none)

def removeCircuit (context : Context) (circuitId : CircuitId) (contractContext : ContractContext) :
    ContractEffect MaintenanceResult :=
  removeContractOperation context circuitId contractContext

def addOrReplaceCircuit (context : Context) (circuitId : CircuitId) (verifierKey : VerifierKey)
    (contractContext : ContractContext) : ContractEffect MaintenanceResult :=
  addOrReplaceContractOperation context circuitId verifierKey contractContext

/-- The state in the input file, an operation on it, and the intent of its update. -/
def maintenanceIntent (inputs : MaintainInputs)
    (operation : ContractContext → ContractEffect MaintenanceResult) : ContractEffect Intent := do
  let bytes ← inputs.input
  let ledgerContractState ← asLedgerContractStateFromBytes bytes
  let contractState ← asContractState ledgerContractState
  let result ← operation ⟨inputs.address, contractState⟩
  Effects.sync
    (MaintenanceIntents.intentOfMaintenance inputs.ttl result.public.maintenanceUpdate)

def maintainCircuitIntent (contractModule : ContractModule) (command : MaintainCircuitCommand) :
    ContractEffect Intent :=
  maintenanceIntent command.toMaintainInputs fun contractContext =>
    match command.verifierKeyPath with
    | some file => do
      addOrReplaceCircuit contractModule.context command.circuitId (← file) contractContext
    | none => removeCircuit contractModule.context command.circuitId contractContext

def maintainContractIntent (contractModule : ContractModule) (command : MaintainContractCommand) :
    ContractEffect Intent :=
  maintenanceIntent command.toMaintainInputs fun contractContext =>
    replaceContractMaintenanceAuthority contractModule.context (some command.newSigningKey)
      contractContext

/-- The only file is written last. -/
def intentOutput (outputFilePath : P) (intent : ContractEffect Intent) :
    ContractEffect (List (OutputFile P)) := do
  let intent ← intent
  return [(outputFilePath, bytesFile (Effects.sync (CompactRuntime.serializeIntent intent)))]

def runMaintainCircuit (outputFilePath : P) (contractModule : ContractModule)
    (command : MaintainCircuitCommand) : CommandRun P :=
  runCommand (js "Failed to apply maintenance operation")
    (intentOutput outputFilePath (maintainCircuitIntent contractModule command))

def runMaintainContract (outputFilePath : P) (contractModule : ContractModule)
    (command : MaintainContractCommand) : CommandRun P :=
  runCommand (js "Failed to apply maintenance operation")
    (intentOutput outputFilePath (maintainContractIntent contractModule command))

/-! ## Both commands as one -/

inductive MaintainCommand
  | circuit (command : MaintainCircuitCommand)
  | contract (command : MaintainContractCommand)

namespace MaintainCommand

def inputs (command : MaintainCommand) : MaintainInputs :=
  match command with
  | .circuit command => command.toMaintainInputs
  | .contract command => command.toMaintainInputs

def intent (contractModule : ContractModule) (command : MaintainCommand) : ContractEffect Intent :=
  match command with
  | .circuit command => maintainCircuitIntent contractModule command
  | .contract command => maintainContractIntent contractModule command

def run (outputFilePath : P) (contractModule : ContractModule) (command : MaintainCommand) :
    CommandRun P :=
  match command with
  | .circuit command => runMaintainCircuit outputFilePath contractModule command
  | .contract command => runMaintainContract outputFilePath contractModule command

/-- The operation that the command asks for. -/
def Asks (command : MaintainCommand) (op : MaintenanceOperation) : Prop :=
  match command with
  | .circuit ⟨_, circuitId, none⟩ => op = .removeContractOperation circuitId
  | .circuit ⟨_, circuitId, some file⟩ =>
    ∃ verifierKey, file = .ok verifierKey ∧ op = .addOrReplaceContractOperation circuitId verifierKey
  | .contract ⟨_, newSigningKey⟩ => op = .replaceContractMaintenanceAuthority (some newSigningKey)

end MaintainCommand

omit [MaintenanceIntents] in
/-- The bytes hold the state of a contract. -/
def StateFile (contractState : ContractState) (bytes : List UInt8) : Prop :=
  ∃ ledgerContractState, CompactRuntime.deserializeLedger bytes = .ok ledgerContractState ∧
    CompactRuntime.ofLedger ledgerContractState = .ok contractState

omit [MaintenanceIntents] in
theorem StateFile.unique {s s' : ContractState} {bytes : List UInt8} (h : StateFile s bytes)
    (h' : StateFile s' bytes) : s = s' := by
  obtain ⟨ledgerContractState, hbytes, hstate⟩ := h
  obtain ⟨ledgerContractState', hbytes', hstate'⟩ := h'
  rw [hbytes, Except.ok.injEq] at hbytes'
  subst hbytes'
  rw [hstate, Except.ok.injEq] at hstate'
  exact hstate'

omit [Runtime] [CompactRuntime] [MaintenanceIntents] in
theorem tryCatch_eq_ok {T α : Type} {x : Except T α} {catchError : T → ContractError} {a : α} :
    (Effects.tryCatch x catchError : ContractEffect α) = .ok a ↔ x = .ok a := by
  cases x <;> simp [Effects.tryCatch, Except.mapError]

theorem maintenanceIntent_eq_ok {inputs : MaintainInputs}
    {operation : ContractContext → ContractEffect MaintenanceResult} {intent : Intent} :
    maintenanceIntent inputs operation = .ok intent ↔ ∃ bytes s result, inputs.input = .ok bytes ∧
      StateFile s bytes ∧ operation ⟨inputs.address, s⟩ = .ok result ∧
      MaintenanceIntents.intentOfMaintenance inputs.ttl result.public.maintenanceUpdate =
        .ok intent := by
  unfold maintenanceIntent asLedgerContractStateFromBytes asContractState StateFile
  simp only [except_bind_ok, tryCatch_eq_ok, sync_eq_ok]
  constructor
  · intro ⟨bytes, hinput, l, hl, s, hs, result, hresult, hintent⟩
    exact ⟨bytes, s, result, hinput, ⟨l, hl, hs⟩, hresult, hintent⟩
  · intro ⟨bytes, s, result, hinput, ⟨l, hl, hs⟩, hresult, hintent⟩
    exact ⟨bytes, hinput, l, hl, s, hs, result, hresult, hintent⟩

namespace MaintainCommand

variable {contractModule : ContractModule} {command : MaintainCommand} {intent : Intent}

/-- The intent holds the update of the operation on the state in the input file. -/
theorem intent_eq_ok : command.intent contractModule = .ok intent ↔ ∃ op bytes s result,
      command.Asks op ∧ command.inputs.input = .ok bytes ∧ StateFile s bytes ∧
      op.run contractModule.context ⟨command.inputs.address, s⟩ = .ok result ∧
      MaintenanceIntents.intentOfMaintenance command.inputs.ttl result.public.maintenanceUpdate =
        .ok intent := by
  match command with
  | .circuit ⟨inputs, circuitId, none⟩ =>
    unfold MaintainCommand.intent maintainCircuitIntent
    rw [maintenanceIntent_eq_ok]
    constructor
    · intro ⟨bytes, s, result, hinput, hs, hresult, hintent⟩
      exact ⟨_, bytes, s, result, rfl, hinput, hs, hresult, hintent⟩
    · intro ⟨op, bytes, s, result, hop, hinput, hs, hresult, hintent⟩
      cases hop
      exact ⟨bytes, s, result, hinput, hs, hresult, hintent⟩
  | .circuit ⟨inputs, circuitId, some file⟩ =>
    unfold MaintainCommand.intent maintainCircuitIntent
    rw [maintenanceIntent_eq_ok]
    constructor
    · intro ⟨bytes, s, result, hinput, hs, hresult, hintent⟩
      obtain ⟨verifierKey, hfile, hresult⟩ := except_bind_ok.mp hresult
      exact ⟨_, bytes, s, result, ⟨verifierKey, hfile, rfl⟩, hinput, hs, hresult, hintent⟩
    · intro ⟨op, bytes, s, result, ⟨verifierKey, hfile, hop⟩, hinput, hs, hresult, hintent⟩
      cases hop
      exact ⟨bytes, s, result, hinput, hs, except_bind_ok.mpr ⟨verifierKey, hfile, hresult⟩, hintent⟩
  | .contract ⟨inputs, newSigningKey⟩ =>
    unfold MaintainCommand.intent maintainContractIntent
    rw [maintenanceIntent_eq_ok]
    constructor
    · intro ⟨bytes, s, result, hinput, hs, hresult, hintent⟩
      exact ⟨_, bytes, s, result, rfl, hinput, hs, hresult, hintent⟩
    · intro ⟨op, bytes, s, result, hop, hinput, hs, hresult, hintent⟩
      cases hop
      exact ⟨bytes, s, result, hinput, hs, hresult, hintent⟩

theorem run_eq (outputFilePath : P) : command.run outputFilePath contractModule =
    runCommand (js "Failed to apply maintenance operation")
      (intentOutput outputFilePath (command.intent contractModule)) := by
  cases command with
  | circuit command => rfl
  | contract command => rfl

/-- The command either succeeds, and then it has written the intent, or fails, and then it has
written nothing. -/
theorem run_cases (command : MaintainCommand) (contractModule : ContractModule)
    (outputFilePath : P) : (∃ intent output, command.intent contractModule = .ok intent ∧
      CompactRuntime.serializeIntent intent = .ok output ∧
      command.run outputFilePath contractModule = ([(outputFilePath, .bytes output)], .ok ())) ∨
    ∃ e, command.run outputFilePath contractModule = ([], .error e) := by
  rw [run_eq]
  unfold runCommand intentOutput
  cases command.intent contractModule with
  | error e =>
    right
    cases e with
    | fail failure => exact ⟨_, rfl⟩
    | die defect => exact ⟨_, rfl⟩
  | ok intent =>
    cases hintent : CompactRuntime.serializeIntent intent with
    | error e =>
      right
      refine ⟨.die e, ?_⟩
      simp only [bind, Except.bind, pure, Except.pure, Writes.runAfter, hintent]
      rfl
    | ok output =>
      left
      refine ⟨intent, output, rfl, hintent, ?_⟩
      simp only [bind, Except.bind, pure, Except.pure, Writes.runAfter, hintent]
      rfl

theorem of_run_ok {outputFilePath : P} {output : List UInt8}
    (h : command.run outputFilePath contractModule =
      ([(outputFilePath, .bytes output)], .ok ())) :
    ∃ intent, command.intent contractModule = .ok intent ∧
      CompactRuntime.serializeIntent intent = .ok output := by
  obtain ⟨intent, output', hintent, houtput, hrun⟩ | ⟨e, hrun⟩ :=
    command.run_cases contractModule outputFilePath
  · rw [hrun] at h
    cases h
    exact ⟨intent, hintent, houtput⟩
  · rw [hrun] at h
    cases h

end MaintainCommand

end MidnightJs.CompactJs
