import MidnightJs.CompactCommand.Chains

/-! # The Zswap state along a chain of commands

The encoded Zswap state crosses a file in the form of its schema, and is decoded by the runtime
before the circuit is handed its encoding again. Nothing is lost on the way, whatever the state. -/

namespace MidnightJs.CompactJs
open Foundations Foundations.Js Foundations.Effects Foundations.HandOver
set_option autoImplicit false

section
variable [Runtime] [CompactRuntime]

/-! ## A chain and the calls in one process -/

def CircuitCommand.withZswapLocalState (command : CircuitCommand) (file : JsString) :
    CircuitCommand :=
  { command with inputZswapLocalState := some file }

/-- The call of a command in one process, on a Zswap state that is handed over directly. The
private state is that of the command's own file. -/
def zswapProcessCall (contractModule : ContractModule) (command : CircuitCommand)
    (zswapLocalState : ZswapLocalState) : ContractEffect (CircuitInputs × CallResult) := do
  let privateState ← readPrivateState contractModule command.inputPrivateState
  circuitInProcess contractModule command privateState (some zswapLocalState)

/-- The commands after the deployment: the Zswap file each one reads, and how it ends. -/
def zswapCommandCalls (contractModule : ContractModule) (deploy : DeployCommand)
    (commands : List CircuitCommand) : List (JsString × ContractEffect CircuitFiles) :=
  match deployHandler contractModule deploy with
  | .ok files =>
    runCalls (fun command file => circuitHandler contractModule (command.withZswapLocalState file))
      CircuitFiles.outputZswapLocalState files.outputZswapLocalState commands
  | .error _ => []

/-- The same calls in one process: the Zswap state each one is handed, and how it ends. -/
def zswapProcessCalls (contractModule : ContractModule) (deploy : DeployCommand)
    (commands : List CircuitCommand) :
    List (ZswapLocalState × ContractEffect (CircuitInputs × CallResult)) :=
  match initializeInProcess contractModule deploy with
  | .ok result =>
    runCalls (zswapProcessCall contractModule) (fun p => p.2.private.zswapLocalState)
      result.private.zswapLocalState commands
  | .error _ => []

/-- Every command calls its circuit in a context with the Zswap state of the call in one process, so
that the circuit is handed that state's encoding. It writes what that call gives, and fails only where
that call fails, no intent can be made of its result, or its private state cannot be written. -/
structure ZswapStatesAgree (contractModule : ContractModule) (deploy : DeployCommand)
    (commands : List CircuitCommand) : Prop where
  deploys : ∀ result output text, initializeInProcess contractModule deploy = .ok result →
    deployIntent deploy result = .ok output →
    privateStateFile result.private.privateState = .ok text →
    ∃ files, deployHandler contractModule deploy = .ok files
  calls : ∀ (k : ℕ) (file : JsString) (exit : ContractEffect CircuitFiles),
    (zswapCommandCalls contractModule deploy commands)[k]? = some (file, exit) →
    ∃ (command : CircuitCommand) (zswapLocalState : ZswapLocalState)
      (result : ContractEffect (CircuitInputs × CallResult)), commands[k]? = some command ∧
      (zswapProcessCalls contractModule deploy commands)[k]? = some (zswapLocalState, result) ∧
      readZswapLocalState (some file) = .ok (some zswapLocalState) ∧
      (∀ inputs, handedInputs contractModule (command.withZswapLocalState file) = .ok inputs →
        inputs.circuitContext.zswapLocalState = some zswapLocalState ∧
        currentZswapLocalState contractModule.context inputs.circuitContext =
          .ok (encodeZswapLocalState zswapLocalState)) ∧
      (∀ files, exit = .ok files → ∃ inputs callResult,
        handedInputs contractModule (command.withZswapLocalState file) = .ok inputs ∧
        result = .ok (inputs, callResult) ∧ circuitFiles command inputs callResult = .ok files) ∧
      ∀ inputs callResult output text, result = .ok (inputs, callResult) →
        circuitIntent command inputs callResult = .ok output →
        privateStateFile callResult.private.privateState = .ok text → ∃ files, exit = .ok files

/-- Decoding inverts encoding, directly and through the text of a file. -/
structure EncodedStatesReadBack : Prop where
  decode_encode : ∀ state : EncodedZswapLocalState,
    decodeZswapLocalStateObject (encodeZswapLocalStateObject state) = .ok state
  decode_text : ∀ state : EncodedZswapLocalState, ∃ text,
    jsonStringify (encodeZswapLocalStateObject state) = .ok (some text) ∧
      ∃ v, jsonParse text = .ok v ∧ decodeZswapLocalStateObject v = .ok state

omit [Runtime] [CompactRuntime] in
theorem encodedStatesReadBack : EncodedStatesReadBack := by
  constructor
  · intro state
    rw [decodeZswapLocalStateObject, encodeZswapLocalStateObject, Schema.decode_encode]
  · intro state
    obtain ⟨text, hwrite, v, hread, hdecode⟩ := EncodedZswapLocalStateSchema.decode_text state
    refine ⟨text, hwrite, v, hread, ?_⟩
    rw [decodeZswapLocalStateObject, hdecode]

/-! ## One command -/

/-- The runtime decodes what it has encoded. -/
def DecodesEncoded : Prop :=
  ∀ s : ZswapLocalState, decodeZswapLocalState (encodeZswapLocalState s) = .ok s

/-- The file of a state reads as that state. -/
theorem readZswapLocalState_file (hcodec : DecodesEncoded) {s : ZswapLocalState} {file : JsString}
    (h : zswapLocalStateFile s = .ok file) : readZswapLocalState (some file) = .ok (some s) := by
  obtain ⟨text, hwrite, v, hparse, hdecode⟩ := zswapLocalStateFile_ok s
  rw [hwrite, Except.ok.injEq] at h
  subst h
  rw [readZswapLocalState, hparse]
  simp only [Effects.sync, ofEither, Except.mapError, bind, Except.bind, hdecode, hcodec s]
  rfl

/-- A command that reads a state from its file makes the call in one process on that state. -/
theorem zswapProcessCall_of_command {contractModule : ContractModule} {command : CircuitCommand}
    {file : JsString} {s : ZswapLocalState} {files : CircuitFiles}
    (hread : readZswapLocalState (some file) = .ok (some s))
    (h : circuitHandler contractModule (command.withZswapLocalState file) = .ok files) :
    ∃ inputs result, handedInputs contractModule (command.withZswapLocalState file) = .ok inputs ∧
      zswapProcessCall contractModule command s = .ok (inputs, result) ∧
      circuitFiles command inputs result = .ok files := by
  obtain ⟨privateState, z, inputs, result, hs, hz, hhanded, hcall, hfiles⟩ :=
    of_circuitHandler_ok h
  have heq : z = some s := by
    have hboth := hz.symm.trans hread
    rwa [Except.ok.injEq] at hboth
  subst heq
  exact ⟨inputs, result, hhanded, except_bind_ok.mpr ⟨privateState, hs, hcall⟩, hfiles⟩

theorem circuitHandler_zswap_step (hcodec : DecodesEncoded) (contractModule : ContractModule)
    (command : CircuitCommand) (file : JsString) (s : ZswapLocalState)
    (hread : readZswapLocalState (some file) = .ok (some s)) (files : CircuitFiles)
    (h : circuitHandler contractModule (command.withZswapLocalState file) = .ok files) :
    ∃ p, zswapProcessCall contractModule command s = .ok p ∧
      readZswapLocalState (some files.outputZswapLocalState) =
        .ok (some p.2.private.zswapLocalState) := by
  obtain ⟨inputs, result, -, hresult, hfiles⟩ := zswapProcessCall_of_command hread h
  exact ⟨(inputs, result), hresult, readZswapLocalState_file hcodec (of_circuitFiles_ok hfiles).2⟩

/-! ## Whole chains -/

theorem zswap_states_agree (hcodec : DecodesEncoded) (contractModule : ContractModule)
    (deploy : DeployCommand) (commands : List CircuitCommand) :
    EncodedStatesReadBack ∧ ZswapStatesAgree contractModule deploy commands := by
  refine ⟨encodedStatesReadBack, ?_, ?_⟩
  · intro result output text hresult hintent hwrite
    obtain ⟨files, hfiles⟩ := deployFiles_ok hintent hwrite
    exact ⟨files, deployHandler_eq_ok.mpr ⟨result, hresult, hfiles⟩⟩
  · intro k file exit hk
    cases hdeploy : deployHandler contractModule deploy with
    | error e => simp [zswapCommandCalls, hdeploy] at hk
    | ok files =>
      obtain ⟨result, hresult, hfiles⟩ := deployHandler_eq_ok.mp hdeploy
      have hback := readZswapLocalState_file hcodec (of_deployFiles_ok hfiles).2
      simp only [zswapCommandCalls, hdeploy] at hk
      simp only [zswapProcessCalls, hresult]
      -- The file of each command reads as the state of the process; no result is excluded.
      obtain ⟨command, s, hcommand, hcall, hexit, hread⟩ := runCalls_follows
        (fun (file : JsString) (s : ZswapLocalState) =>
          readZswapLocalState (some file) = .ok (some s))
        (fun _ : CircuitInputs × CallResult => True)
        (fun command file s hread _ => circuitHandler_zswap_step hcodec contractModule command file s
          hread) hback (fun _ _ _ _ => trivial) hk
      refine ⟨command, s, _, hcommand, hcall, hread, ?_, ?_, ?_⟩
      · intro inputs hhanded
        have hboth := (circuitInputs_ok hhanded).2.symm.trans hread
        rw [Except.ok.injEq] at hboth
        exact ⟨hboth, by rw [currentZswapLocalState, hboth]⟩
      · intro files' hfiles'
        rw [hexit] at hfiles'
        obtain ⟨inputs, callResult, hhanded, hresult', hwritten⟩ :=
          zswapProcessCall_of_command hread hfiles'
        exact ⟨inputs, callResult, hhanded, hresult', hwritten⟩
      · intro inputs callResult output text hcallResult hintent hwrite
        obtain ⟨files', hfiles'⟩ := circuitFiles_ok hintent hwrite
        obtain ⟨privateState, hs, hinProcess⟩ := except_bind_ok.mp hcallResult
        rw [hexit]
        exact ⟨files', circuitHandler_of_call hs hread hinProcess hfiles'⟩

end

namespace Sample
open MidnightJs.Sample

theorem zswap_states_agree_two_calls : EncodedStatesReadBack ∧
    ZswapStatesAgree (oneCircuitModule .null (.boolean true)) deploy [callNext, callNext] :=
  zswap_states_agree (fun _ => rfl) _ deploy [callNext, callNext]

end Sample

end MidnightJs.CompactJs
