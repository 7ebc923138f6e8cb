import MidnightJs.CompactCommand.MaintainCommands
import MidnightJs.Foundations.VersionedWrites

/-! # Maintaining contracts by commands

Several people maintain contracts with the commands. They save states of contracts to files at any
time, run commands on the saved files with any configuration, and hand in the intents in any order,
as often as they like. The chain decides on each. -/

namespace MidnightJs.CompactJs
open Foundations Foundations.Js Foundations.Effects
set_option autoImplicit false

section
variable [Runtime] [CompactRuntime]

/-! ## What an operation achieves -/

/-- The contract before and after the accepted update of an operation. -/
def MaintenanceOperation.Achieves (op : MaintenanceOperation) (before after : ContractState) :
    Prop :=
  match op with
  | .addOrReplaceContractOperation circuitId verifierKey =>
    before.hasVerifierKey circuitId = false ∧ Replaces before circuitId verifierKey after
  | .removeContractOperation circuitId =>
    before.hasVerifierKey circuitId = true ∧ after.operation circuitId = none ∧
      (∀ circuitId', circuitId' ≠ circuitId →
        after.operation circuitId' = before.operation circuitId') ∧
      after.maintenanceAuthority =
        { before.maintenanceAuthority with counter := before.counter + 1 }
  | .replaceContractMaintenanceAuthority newSigningKey =>
    after.operations = before.operations ∧ ∃ signingKey verifyingKey,
      (∀ key ∈ newSigningKey, key = signingKey) ∧
      CompactRuntime.signatureVerifyingKey signingKey = .ok verifyingKey ∧
      after.maintenanceAuthority = ⟨[verifyingKey], 1, before.counter + 1⟩

section
variable {context : Context} {contractContext : ContractContext} {op : MaintenanceOperation}
  {result : MaintenanceResult} {before after : ContractState} {update : MaintenanceUpdate}

/-- The single update that an operation makes of a contract with a counter. -/
def MaintenanceOperation.Makes (op : MaintenanceOperation) (counter : ℕ) (u : SingleUpdate) : Prop :=
  match op with
  | .addOrReplaceContractOperation circuitId verifierKey =>
    u = .verifierKeyInsert circuitId (js "v2") verifierKey
  | .removeContractOperation circuitId => u = .verifierKeyRemove circuitId (js "v2")
  | .replaceContractMaintenanceAuthority newSigningKey => ∃ signingKey verifyingKey,
    (∀ key ∈ newSigningKey, key = signingKey) ∧
      CompactRuntime.signatureVerifyingKey signingKey = .ok verifyingKey ∧
      u = .replaceAuthority ⟨[verifyingKey], 1, counter + 1⟩

theorem createMaintenanceAuthority_key {key : Option SigningKey} {s : Option ContractState}
    {cma : ContractMaintenanceAuthority} {signingKey : SigningKey}
    (h : createMaintenanceAuthority context key s = .ok (cma, signingKey)) :
    ∀ k ∈ key, k = signingKey := by
  intro k hk
  cases hk
  unfold createMaintenanceAuthority at h
  cases hkey : CompactRuntime.signatureVerifyingKey k with
  | ok verifyingKey =>
    simp only [Option.getD_some, hkey, Except.ok.injEq, Prod.mk.injEq] at h
    exact h.2
  | error e => simp only [Option.getD_some, hkey, reduceCtorEq] at h

theorem MaintenanceOperation.run_ok (h : op.run context contractContext = .ok result) :
    ∃ u, op.Makes contractContext.contractState.counter u ∧
      result.public.maintenanceUpdate.toMaintenanceData =
        ⟨contractContext.address, [u], contractContext.contractState.counter⟩ := by
  cases op with
  | addOrReplaceContractOperation circuitId verifierKey =>
    exact ⟨_, rfl, (createSignedMaintenanceUpdate_ok h).1.data⟩
  | removeContractOperation circuitId =>
    exact ⟨_, rfl, (createSignedMaintenanceUpdate_ok h).1.data⟩
  | replaceContractMaintenanceAuthority newSigningKey =>
    unfold MaintenanceOperation.run CompactJs.replaceContractMaintenanceAuthority at h
    obtain ⟨⟨cma, signingKey⟩, hcma, h⟩ := except_bind_ok.mp h
    obtain ⟨signed, hsigned, h⟩ := except_bind_ok.mp h
    cases h
    have hcma := ofEither_eq_ok.mp hcma
    obtain ⟨verifyingKey, hkey, hcommittee, hthreshold, hcounter⟩ := createMaintenanceAuthority_ok hcma
    refine ⟨_, ⟨signingKey, verifyingKey, createMaintenanceAuthority_key hcma, hkey, rfl⟩, ?_⟩
    rw [← hcounter _ rfl, ← hcommittee, ← hthreshold]
    exact (createSignedMaintenanceUpdate_ok hsigned).1.data

/-- An accepted update of an operation achieves it, whichever state it was made from. -/
theorem MaintenanceOperation.Makes.achieves {u : SingleUpdate} (hmakes : op.Makes update.counter u)
    (hsingle : update.updates = [u]) (h : before.accept update = some after) :
    op.Achieves before after := by
  have hcounter : update.counter = before.counter := by
    unfold ContractState.accept at h
    split at h
    · assumption
    · cases h
  have hafter : after = before.maintained update := ContractState.accept_eq_some h
  rw [ContractState.accept_single _ hcounter hsingle] at h
  cases op with
  | addOrReplaceContractOperation circuitId verifierKey =>
    cases hmakes
    simp only [ContractState.applyChecked] at h
    cases hkey : before.hasVerifierKey circuitId with
    | true => simp [hkey] at h
    | false =>
      rw [hafter]
      exact ⟨hkey, replaces_maintained hsingle⟩
  | removeContractOperation circuitId =>
    cases hmakes
    simp only [ContractState.applyChecked] at h
    cases hkey : before.hasVerifierKey circuitId with
    | false => simp [hkey] at h
    | true =>
      have hoperation : ∀ circuitId', (before.maintained update).operation circuitId' =
          if circuitId' = circuitId then none else before.operation circuitId' := by
        intro circuitId'
        unfold ContractState.maintained
        rw [hsingle]
        exact OrderedMap.get_delete ..
      rw [hafter]
      refine ⟨hkey, ?_, fun circuitId' hne => ?_, ?_⟩
      · rw [hoperation, if_pos rfl]
      · rw [hoperation, if_neg hne]
      · unfold ContractState.maintained
        rw [hsingle]
        rfl
  | replaceContractMaintenanceAuthority newSigningKey =>
    obtain ⟨signingKey, verifyingKey, hgiven, hkey, rfl⟩ := hmakes
    rw [hafter]
    unfold ContractState.maintained
    rw [hsingle]
    refine ⟨rfl, signingKey, verifyingKey, hgiven, hkey, ?_⟩
    rw [hcounter]
    rfl

end

/-! ## The people and the chain -/

variable [MaintenanceIntents]

structure AcceptedIntent where
  intent : List UInt8
  update : MaintenanceUpdate
  before : ContractState

/-- The contracts, all state files that were saved and all intents that were written, and the intents
that the chain has accepted so far. -/
structure Maintenance where
  contracts : ContractAddress → Option ContractState
  stateFiles : List (ContractAddress × List UInt8)
  intentFiles : List (List UInt8)
  accepted : List AcceptedIntent

namespace Maintenance

omit [CompactRuntime] [MaintenanceIntents] in
def install (n : Maintenance) (a : ContractAddress) (s : ContractState) : Maintenance :=
  { n with contracts := Function.update n.contracts a (some s) }

omit [CompactRuntime] [MaintenanceIntents] in
def saveState (n : Maintenance) (a : ContractAddress) (bytes : List UInt8) : Maintenance :=
  { n with stateFiles := (a, bytes) :: n.stateFiles }

omit [CompactRuntime] [MaintenanceIntents] in
def writeIntent (n : Maintenance) (output : List UInt8) : Maintenance :=
  { n with intentFiles := output :: n.intentFiles }

omit [CompactRuntime] [MaintenanceIntents] in
def accept (n : Maintenance) (e : AcceptedIntent) (after : ContractState) : Maintenance :=
  { n.install e.update.address after with accepted := n.accepted ++ [e] }

inductive Steps (n : Maintenance) : Maintenance → Prop
  | deploy {a : ContractAddress} (absent : n.contracts a = none) (s : ContractState) :
      Steps n (n.install a s)
  | call {a : ContractAddress} {s : ContractState} (contract : n.contracts a = some s)
      (data : StateValue) : Steps n (n.install a { s with data := data })
  | saveState {a : ContractAddress} {s : ContractState} {bytes : List UInt8}
      (contract : n.contracts a = some s) (file : StateFile s bytes) : Steps n (n.saveState a bytes)
  | command {command : MaintainCommand} {contractModule : ContractModule} {path : JsString}
      {bytes output : List UInt8} (saved : (command.inputs.address, bytes) ∈ n.stateFiles)
      (input : command.inputs.input = .ok bytes)
      (ran : command.run path contractModule = ([(path, .bytes output)], .ok ())) :
      Steps n (n.writeIntent output)
  | accept {e : AcceptedIntent} {after : ContractState} (written : e.intent ∈ n.intentFiles)
      (holds : MaintenanceIntents.maintenanceUpdates e.intent = [e.update])
      (contract : n.contracts e.update.address = some e.before)
      (signed : e.before.maintenanceAuthority.Accepts e.update)
      (accepted : e.before.accept e.update = some after) : Steps n (n.accept e after)

end Maintenance

/-- A serialized intent holds the update it was made of. -/
def IntentsKept : Prop :=
  ∀ ttl update intent output,
    MaintenanceIntents.intentOfMaintenance ttl update = .ok intent →
      CompactRuntime.serializeIntent intent = .ok output →
      MaintenanceIntents.maintenanceUpdates output = [update]

omit [Runtime] [CompactRuntime] [MaintenanceIntents] in
/-- The contents of state files, with the contract each one is of. -/
abbrev StateFiles := List (ContractAddress × List UInt8)

/-- The command has written the intent, and has read the state `s` from one of the files, saved of its
contract. -/
structure Wrote (stateFiles : StateFiles) (command : MaintainCommand)
    (contractModule : ContractModule) (s : ContractState) (bytes intent : List UInt8) : Prop where
  saved : (command.inputs.address, bytes) ∈ stateFiles
  file : StateFile s bytes
  input : command.inputs.input = .ok bytes
  ran : ∃ path : JsString, command.run path contractModule = ([(path, .bytes intent)], .ok ())

/-- A command wrote the intent, of an update that it made of the state `s`. -/
def Commanded (stateFiles : StateFiles) (s : ContractState) (update : MaintenanceUpdate)
    (intent : List UInt8) : Prop :=
  ∃ (command : MaintainCommand) (contractModule : ContractModule) (bytes : List UInt8)
    (op : MaintenanceOperation) (u : SingleUpdate),
      Wrote stateFiles command contractModule s bytes intent ∧ command.Asks op ∧ op.Makes s.counter u ∧
      update.toMaintenanceData = ⟨command.inputs.address, [u], s.counter⟩

/-! ## The commands write optimistically -/

omit [CompactRuntime] [MaintenanceIntents] in
/-- The counter guards operations and authority. -/
def counterGuard : Versioned.Guard ContractState
    (List (CircuitId × ContractOperation) × ContractMaintenanceAuthority) where
  version := ContractState.counter
  guarded s := (s.operations, s.maintenanceAuthority)
  version_congr h := congrArg (fun rules => rules.2.counter) h

omit [CompactRuntime] [MaintenanceIntents] in
/-- What is written to the board is an update with the intent that holds it. -/
abbrev Board := Versioned.Board ContractAddress ContractState (MaintenanceUpdate × List UInt8)

/-- The board shows what the people and the chain do. -/
structure Shows (v : Board) (n : Maintenance) : Prop where
  contents : v.contents = n.contracts
  copies : ∀ a bytes, (a, bytes) ∈ n.stateFiles → ∃ s, StateFile s bytes ∧ (a, s) ∈ v.copies
  intents : ∀ intent ∈ n.intentFiles, ∃ s update,
    MaintenanceIntents.maintenanceUpdates intent = [update] ∧
      (update.address, s, update, intent) ∈ v.prepared
  prepared : ∀ a s update intent, (a, s, update, intent) ∈ v.prepared →
    a = update.address ∧ Commanded n.stateFiles s update intent
  accepted : v.accepted.map (fun e => (e.key, e.write, e.before)) =
    n.accepted.map (fun e => (e.update.address, (e.update, e.intent), e.before))
  applied : ∀ e ∈ n.accepted, MaintenanceIntents.maintenanceUpdates e.intent = [e.update] ∧
    ∃ after, e.before.accept e.update = some after

variable {n n' n₀ : Maintenance} {v : Board}

theorem Commanded.mono {files files' : StateFiles} {s : ContractState} {update : MaintenanceUpdate}
    {intent : List UInt8} (hfiles : files ⊆ files') (h : Commanded files s update intent) :
    Commanded files' s update intent := by
  obtain ⟨command, contractModule, bytes, op, u, hwrote, h⟩ := h
  exact ⟨command, contractModule, bytes, op, u,
    ⟨hfiles hwrote.saved, hwrote.file, hwrote.input, hwrote.ran⟩, h⟩

theorem Commanded.counter_eq {files : StateFiles} {s : ContractState} {update : MaintenanceUpdate}
    {intent : List UInt8} (h : Commanded files s update intent) : update.counter = s.counter := by
  obtain ⟨command, contractModule, bytes, op, u, -, -, -, hdata⟩ := h
  exact congrArg MaintenanceData.counter hdata

omit [CompactRuntime] [MaintenanceIntents] in
theorem accept_counter {s s' : ContractState} {update : MaintenanceUpdate}
    (h : s.accept update = some s') : update.counter = s.counter ∧ s'.counter = s.counter + 1 := by
  unfold ContractState.accept at h
  split at h
  · rename_i hcounter
    obtain ⟨after, -, rfl⟩ := Option.map_eq_some_iff.mp h
    exact ⟨hcounter, rfl⟩
  · cases h

/-- A command writes the intent of an update that it made from the file. -/
theorem commanded_of_run (hkept : IntentsKept) {command : MaintainCommand}
    {contractModule : ContractModule} {path : JsString} {bytes output : List UInt8} {s : ContractState}
    (saved : (command.inputs.address, bytes) ∈ n.stateFiles)
    (input : command.inputs.input = .ok bytes) (hs : StateFile s bytes)
    (ran : command.run path contractModule = ([(path, .bytes output)], .ok ())) :
    ∃ update, MaintenanceIntents.maintenanceUpdates output = [update] ∧
      update.address = command.inputs.address ∧ Commanded n.stateFiles s update output := by
  obtain ⟨intent, hintent, houtput⟩ := MaintainCommand.of_run_ok ran
  obtain ⟨op, bytes', s', result, hasks, hinput, hs', hrun, hbuilt⟩ :=
    MaintainCommand.intent_eq_ok.mp hintent
  rw [input, Except.ok.injEq] at hinput
  subst hinput
  rw [hs'.unique hs] at hrun
  obtain ⟨u, hmakes, hdata⟩ := op.run_ok hrun
  exact ⟨_, hkept _ _ _ _ hbuilt houtput, congrArg MaintenanceData.address hdata, command,
    contractModule, bytes, op, u, ⟨saved, hs, input, path, ran⟩, hasks, hmakes, hdata⟩

theorem Shows.step (hkept : IntentsKept) (h : Shows v n) (step : n.Steps n') :
    ∃ v', v.Steps counterGuard v' ∧ Shows v' n' := by
  cases step with
  | deploy absent s =>
    refine ⟨v.put _ s, .create (by rw [h.contents]; exact absent) s, ?_⟩
    exact ⟨by rw [Maintenance.install, ← h.contents]; rfl, h.copies, h.intents, h.prepared,
      h.accepted, h.applied⟩
  | @call a s contract data =>
    have hcontent : v.contents a = some s := by rw [h.contents]; exact contract
    refine ⟨v.put a { s with data := data }, .change hcontent rfl, ?_⟩
    exact ⟨by rw [Maintenance.install, ← h.contents]; rfl, h.copies, h.intents, h.prepared,
      h.accepted, h.applied⟩
  | @saveState a s bytes contract file =>
    refine ⟨v.take a s, .take (by rw [h.contents]; exact contract), ?_⟩
    refine ⟨h.contents, fun a' bytes' hfile => ?_, h.intents, fun a' s' update intent hw => ?_,
      h.accepted, h.applied⟩
    · obtain heq | hfile := List.mem_cons.mp hfile
      · cases heq
        exact ⟨s, file, .inl rfl⟩
      · obtain ⟨s', hs', hcopy⟩ := h.copies a' bytes' hfile
        exact ⟨s', hs', .inr hcopy⟩
    · obtain ⟨haddress, hcommanded⟩ := h.prepared a' s' update intent hw
      exact ⟨haddress, hcommanded.mono (List.subset_cons_self ..)⟩
  | @command command contractModule path bytes output saved input ran =>
    obtain ⟨s, hs, hcopy⟩ := h.copies _ _ saved
    obtain ⟨update, hupdate, haddress, hcommanded⟩ := commanded_of_run hkept saved input hs ran
    rw [← haddress] at hcopy
    refine ⟨v.prepare update.address s (update, output), .prepare hcopy (update, output), ?_⟩
    refine ⟨h.contents, h.copies, fun intent hintent => ?_,
      fun a s' update' intent hprepared => ?_, h.accepted, h.applied⟩
    · obtain rfl | hintent := List.mem_cons.mp hintent
      · exact ⟨s, update, hupdate, .inl rfl⟩
      · obtain ⟨s', update', hupdate', hprepared⟩ := h.intents intent hintent
        exact ⟨s', update', hupdate', .inr hprepared⟩
    · obtain heq | hprepared := hprepared
      · cases heq
        exact ⟨rfl, hcommanded⟩
      · exact h.prepared a s' update' intent hprepared
  | @accept e after written holds contract signed accepted =>
    obtain ⟨s, update, hupdate, hprepared⟩ := h.intents e.intent written
    rw [holds, List.singleton_inj] at hupdate
    subst hupdate
    obtain ⟨hcounter, hraised⟩ := accept_counter accepted
    have hcurrent : s.counter = e.before.counter := by
      rw [← (h.prepared _ _ _ _ hprepared).2.counter_eq, hcounter]
    refine ⟨v.accept ⟨e.update.address, s, (e.update, e.intent), e.before⟩ after,
      .accept hprepared (by rw [h.contents]; exact contract) hcurrent ?_, ?_⟩
    · exact (Nat.lt_succ_self _).trans_eq hraised.symm
    · refine ⟨?_, h.copies, h.intents, h.prepared, ?_, fun e' he' => ?_⟩
      · unfold Maintenance.accept Maintenance.install
        rw [← h.contents]
        rfl
      · unfold Versioned.Board.accept Maintenance.accept
        simp only [List.map_append, h.accepted, List.map_cons, List.map_nil]
      · obtain he' | he' := List.mem_append.mp he'
        · exact h.applied e' he'
        · rw [List.mem_singleton.mp he']
          exact ⟨holds, after, accepted⟩

/-- The key that a command leaves the contract with. -/
def MaintainCommand.signingKey (command : MaintainCommand) (key : SigningKey) : SigningKey :=
  match command with
  | .circuit _ => key
  | .contract command => command.newSigningKey

/-- What the operation of the command requires of the contract. -/
def MaintainCommand.Applies (command : MaintainCommand) (s : ContractState) : Prop :=
  match command with
  | .circuit ⟨_, circuitId, none⟩ => s.hasVerifierKey circuitId = true
  | .circuit ⟨_, circuitId, some _⟩ => s.hasVerifierKey circuitId = false
  | .contract _ => True

/-- The contract states and configured keys that a maintainer goes through. Each command runs on a
saved file of the current state, with the key that the one before it left. -/
inductive CommandChain : ContractState → SigningKey → Prop
  | deploy {contractModule : ContractModule} {command : DeployCommand} {result : DeployResult}
      {key : SigningKey} (configured : contractModule.context.signingKey = some key)
      (ran : deployResult contractModule command = .ok result) :
      CommandChain result.contractState key
  | call {s : ContractState} {key : SigningKey} (chain : CommandChain s key) (data : StateValue) :
      CommandChain { s with data := data } key
  | maintain {s s' : ContractState} {key : SigningKey} (chain : CommandChain s key)
      {command : MaintainCommand} {contractModule : ContractModule} {path : JsString}
      {bytes output : List UInt8} {update : MaintenanceUpdate}
      (configured : contractModule.context.signingKey = some key) (file : StateFile s bytes)
      (input : command.inputs.input = .ok bytes)
      (ran : command.run path contractModule = ([(path, .bytes output)], .ok ()))
      (holds : MaintenanceIntents.maintenanceUpdates output = [update])
      (accepted : s.accept update = some s') : CommandChain s' (command.signingKey key)

section
variable {contractModule : ContractModule} {command : MaintainCommand} {s : ContractState}
  {key : SigningKey} {path : JsString} {bytes output : List UInt8}

omit [MaintenanceIntents] in
/-- With a configured key, the new contract has it. -/
theorem deployResult_maintainedWith {command : DeployCommand} {result : DeployResult}
    (configured : contractModule.context.signingKey = some key)
    (ran : deployResult contractModule command = .ok result) :
    MaintainedWith key result.contractState := by
  unfold deployResult at ran
  obtain ⟨_, -, ran⟩ := except_bind_ok.mp ran
  obtain ⟨args, -, ran⟩ := except_bind_ok.mp ran
  have hmaintained := initializeContract_maintainedWith ran
  unfold initializeContract at ran
  obtain ⟨_, -, ran⟩ := except_bind_ok.mp ran
  obtain ⟨_, -, ran⟩ := except_bind_ok.mp ran
  obtain ⟨_, -, ran⟩ := except_bind_ok.mp ran
  obtain ⟨⟨cma, signingKey⟩, hcma, ran⟩ := except_bind_ok.mp ran
  have hkey := createMaintenanceAuthority_key (ofEither_eq_ok.mp hcma) key configured
  cases ran
  rw [hkey]
  exact hmaintained

omit [CompactRuntime] [MaintenanceIntents] in
theorem accepts_of_sole {authority : ContractMaintenanceAuthority} {verifyingKey : VerifyingKey}
    {update : MaintenanceUpdate} {signature : Signature}
    (hcounter : update.counter = authority.counter) (hcommittee : authority.committee = [verifyingKey])
    (hthreshold : authority.threshold = 1) (hsignatures : update.signatures = [(0, signature)])
    (hverify : verifySignature verifyingKey update.dataToSign signature = true) :
    authority.Accepts update := by
  refine ⟨hcounter, ?_⟩
  rw [hthreshold, hsignatures]
  have hsigned : authority.signedBy update.dataToSign (0, signature) = true := by
    unfold ContractMaintenanceAuthority.signedBy
    rw [hcommittee]
    exact hverify
  simp only [List.filter_cons, hsigned, ↓reduceIte, List.filter_nil, List.length_singleton, le_refl]

/-- What a command of the maintainer comes to. -/
theorem command_of_maintainer (hverify : SignaturesVerify) (hkept : IntentsKept)
    (hkey : MaintainedWith key s) (configured : contractModule.context.signingKey = some key)
    (file : StateFile s bytes) (input : command.inputs.input = .ok bytes)
    (ran : command.run path contractModule = ([(path, .bytes output)], .ok ())) :
    ∃ op result, command.Asks op ∧
      MaintenanceIntents.maintenanceUpdates output = [result.public.maintenanceUpdate] ∧
      op.run contractModule.context ⟨command.inputs.address, s⟩ = .ok result ∧
      s.maintenanceAuthority.Accepts result.public.maintenanceUpdate ∧
      OperationHolds s key op result := by
  obtain ⟨intent, hintent, houtput⟩ := MaintainCommand.of_run_ok ran
  obtain ⟨op, bytes', s', result, hasks, hinput, hs', hrun, hbuilt⟩ :=
    MaintainCommand.intent_eq_ok.mp hintent
  rw [input, Except.ok.injEq] at hinput
  subst hinput
  rw [hs'.unique file] at hrun
  have holds := operation_holds hverify hkey configured hrun
  obtain ⟨verifyingKey, signature, hcommittee, hsignatures, hverified⟩ := holds.signed
  obtain ⟨verifyingKey', -, hcommittee', hthreshold⟩ := hkey
  refine ⟨op, result, hasks, hkept _ _ _ _ hbuilt houtput, hrun, ?_, holds⟩
  exact accepts_of_sole holds.counter hcommittee hthreshold hsignatures hverified

omit [Runtime] [CompactRuntime] [MaintenanceIntents] in
theorem Asks.isReplacement_iff {op : MaintenanceOperation} (h : command.Asks op) :
    op.IsReplacement ↔ ∃ c, command = .contract c := by
  match command with
  | .circuit ⟨inputs, circuitId, none⟩ =>
    cases h
    exact iff_of_false id nofun
  | .circuit ⟨inputs, circuitId, some file⟩ =>
    obtain ⟨verifierKey, -, rfl⟩ := h
    exact iff_of_false id nofun
  | .contract c =>
    cases h
    exact iff_of_true trivial ⟨c, rfl⟩

omit [MaintenanceIntents] in
/-- The update of the command is applied exactly if the contract is as the operation requires. -/
theorem accept_iff_applies {op : MaintenanceOperation} {context : Context} {address : ContractAddress}
    {result : MaintenanceResult} (hasks : command.Asks op)
    (hrun : op.run context ⟨address, s⟩ = .ok result) :
    (∃ s', s.accept result.public.maintenanceUpdate = some s') ↔ command.Applies s := by
  obtain ⟨u, hmakes, hdata⟩ := op.run_ok hrun
  have hcounter : result.public.maintenanceUpdate.counter = s.counter :=
    congrArg MaintenanceData.counter hdata
  have hsingle : result.public.maintenanceUpdate.updates = [u] :=
    congrArg MaintenanceData.updates hdata
  rw [s.accept_single hcounter hsingle]
  match command with
  | .circuit ⟨inputs, circuitId, none⟩ =>
    cases hasks
    cases hmakes
    unfold MaintainCommand.Applies
    simp only [ContractState.applyChecked]
    cases s.hasVerifierKey circuitId <;> simp
  | .circuit ⟨inputs, circuitId, some file⟩ =>
    obtain ⟨verifierKey, -, rfl⟩ := hasks
    cases hmakes
    unfold MaintainCommand.Applies
    simp only [ContractState.applyChecked]
    cases s.hasVerifierKey circuitId <;> simp
  | .contract ⟨inputs, newSigningKey⟩ =>
    cases hasks
    obtain ⟨signingKey, verifyingKey, -, -, rfl⟩ := hmakes
    exact iff_of_true ⟨_, rfl⟩ trivial

/-- A chain of commands never loses the contract. -/
theorem CommandChain.maintainedWith (hverify : SignaturesVerify) (hkept : IntentsKept)
    (chain : CommandChain s key) : MaintainedWith key s := by
  induction chain with
  | deploy configured ran => exact deployResult_maintainedWith configured ran
  | call _ data ih => exact ih
  | @maintain s s' key _ command contractModule path bytes output update configured file input ran
      holds accepted ih =>
    obtain ⟨op, result, hasks, hupdate, hrun, -, hoperation⟩ :=
      command_of_maintainer hverify hkept ih configured file input ran
    rw [holds, List.singleton_inj] at hupdate
    subst hupdate
    match command with
    | .circuit c =>
      have hop : ¬ op.IsReplacement := fun h => by
        obtain ⟨c', hc'⟩ := (Asks.isReplacement_iff hasks).mp h
        cases hc'
      obtain ⟨-, hauthority⟩ := hoperation.kept hop
      unfold MaintainedWith
      rw [hauthority s' accepted]
      exact ih
    | .contract ⟨inputs, newSigningKey⟩ =>
      cases hasks
      obtain ⟨u, hmakes, hdata⟩ := MaintenanceOperation.run_ok hrun
      rw [← hoperation.counter] at hmakes
      obtain ⟨-, signingKey, verifyingKey, hgiven, hverifying, hauthority⟩ :=
        hmakes.achieves (congrArg MaintenanceData.updates hdata) accepted
      cases hgiven _ rfl
      exact ⟨verifyingKey, hverifying, by rw [hauthority], by rw [hauthority]⟩

end

/-- Who deploys with a configured key, and always runs commands on the current state with the key that
the last command left, keeps the contract: every written intent is signed as the authority requires,
and it is applied exactly if the circuit has no verifier key to add one, or has one to remove it. -/
theorem maintainer_keeps_contract (hverify : SignaturesVerify) (hkept : IntentsKept)
    {s : ContractState} {key : SigningKey} (chain : CommandChain s key) :
    MaintainedWith key s ∧
      ∀ (command : MaintainCommand) (contractModule : ContractModule) (path : JsString)
        (bytes output : List UInt8), contractModule.context.signingKey = some key →
          StateFile s bytes → command.inputs.input = .ok bytes →
          command.run path contractModule = ([(path, .bytes output)], .ok ()) →
          ∃ update, MaintenanceIntents.maintenanceUpdates output = [update] ∧
            s.maintenanceAuthority.Accepts update ∧
            ((∃ s', s.accept update = some s') ↔ command.Applies s) ∧
            ∀ s', s.accept update = some s' → MaintainedWith (command.signingKey key) s' := by
  have hkey := chain.maintainedWith hverify hkept
  refine ⟨hkey, ?_⟩
  intro command contractModule path bytes output configured file input ran
  obtain ⟨op, result, hasks, hupdate, hrun, haccepts, -⟩ :=
    command_of_maintainer hverify hkept hkey configured file input ran
  refine ⟨_, hupdate, haccepts, accept_iff_applies hasks hrun, fun s' accepted => ?_⟩
  exact (CommandChain.maintain chain configured file input ran hupdate accepted).maintainedWith hverify
    hkept

end

/-! ## A key is added -/

namespace MaintainSample
open MidnightJs.Sample

def contract : ContractState := ⟨(), [(circuitId, ⟨[]⟩)], ⟨[js "1"], 1, 0⟩⟩

def insertion : MaintenanceUpdate :=
  let data : MaintenanceData := ⟨address, [.verifierKeyInsert circuitId (js "v2") [2]], 0⟩
  ⟨data, [(0, (js "1", data))]⟩

instance : DecidableEq Signature := inferInstanceAs (DecidableEq (SigningKey × MaintenanceData))

/-- All files hold the same contract, and the insertion is the only update there is an intent for. -/
scoped instance : CompactRuntime where
  ZswapLocalState := EncodedZswapLocalState
  encodeZswapLocalState s := s
  decodeZswapLocalState s := .ok s
  emptyZswapLocalState _ := ⟨⟨[]⟩, 0, [], []⟩
  setVerifierKey state circuitId operation verifierKey :=
    .ok (state.setOperation circuitId { operation with verifierKey := verifierKey })
  signatureVerifyingKey signingKey := .ok signingKey
  signData signingKey data := .ok (signingKey, data)
  LedgerContractState := ContractState
  deserializeLedger _ := .ok contract
  toLedger state := .ok state
  ofLedger state := .ok state
  ledgerOperation state circuitId := state.operation circuitId
  Intent := Unit
  intentOfDeploy _ _ := .ok ()
  intentOfCall _ _ := .ok ()
  serializeIntent _ := .ok []

scoped instance : MaintenanceIntents where
  intentOfMaintenance _ update :=
    if update.toMaintenanceData = insertion.toMaintenanceData ∧
        update.signatures = insertion.signatures then .ok () else .error (.error [])
  maintenanceUpdates _ := [insertion]

def contractModule : ContractModule where
  contractExecutable := ⟨js "counter", ⟨[], fun context _ =>
    .ok ⟨contract, context.initialPrivateState, context.initialZswapLocalState⟩⟩⟩
  context := ⟨js "00", some (js "1"), js "2", fun _ => .ok []⟩
  createInitialPrivateState := .undefined
  createArgumentParser := .ok ⟨fun _ => .ok [], fun _ _ => .ok []⟩

def addKey : MaintainCommand := .circuit ⟨⟨address, .ok [], 0⟩, circuitId, some (.ok [2])⟩

theorem intentsKept : IntentsKept := by
  intro ttl update intent output hintent _
  change (if _ then _ else _) = Except.ok intent at hintent
  split at hintent
  · rename_i heq
    obtain ⟨data, signatures⟩ := update
    obtain ⟨rfl, rfl⟩ := heq
    rfl
  · cases hintent

theorem signaturesVerify : SignaturesVerify := by
  intro signingKey verifyingKey data signature hkey hsign
  cases hkey
  cases hsign
  exact decide_eq_true rfl

theorem stateFile : StateFile contract [] := ⟨contract, rfl, rfl⟩

theorem addKey_writes (path : JsString) :
    addKey.run path contractModule = ([(path, .bytes [])], .ok ()) := rfl

def start : Maintenance := ⟨fun _ => some contract, [], [], []⟩

def keyed : ContractState := contract.maintained insertion

theorem commandChain_contract : CommandChain contract (js "1") := by
  have ran : deployResult contractModule ⟨[], 0⟩ =
      .ok ⟨contract, ⟨js "1", .undefined, ⟨⟨[]⟩, 0, [], []⟩⟩⟩ := rfl
  exact .deploy rfl ran

theorem maintainer_keeps_contract_keyed : ∃ update,
    MaintenanceIntents.maintenanceUpdates [] = [update] ∧
      contract.maintenanceAuthority.Accepts update ∧
      ((∃ s', contract.accept update = some s') ↔ addKey.Applies contract) ∧
      ∀ s', contract.accept update = some s' → MaintainedWith (addKey.signingKey (js "1")) s' :=
  (maintainer_keeps_contract signaturesVerify intentsKept commandChain_contract).2 addKey
    contractModule (js "output.bin") [] [] rfl stateFile rfl (addKey_writes _)

end MaintainSample

end MidnightJs.CompactJs
