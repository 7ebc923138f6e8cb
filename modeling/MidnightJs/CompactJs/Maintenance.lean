import MidnightJs.CompactJs.ContractExecutable
import MidnightJs.Contracts.MaintenanceChain

/-! # Maintaining a contract

The updates that an executable builds: their effect under the rule of the ledger, and the key, the
authority and the counter along a chain of them. -/

namespace MidnightJs
open Foundations Foundations.Js
set_option autoImplicit false

/-! ## The rule of the ledger -/

namespace ContractState
variable [Runtime]

/-- A key is inserted only where there is none, and removed only where there is one. -/
def applyChecked (s : ContractState) (u : SingleUpdate) : Option ContractState :=
  match u with
  | .replaceAuthority _ => some (s.apply u)
  | .verifierKeyRemove circuitId _ =>
    if s.hasVerifierKey circuitId then some (s.apply u) else none
  | .verifierKeyInsert circuitId _ _ =>
    if s.hasVerifierKey circuitId then none else some (s.apply u)

/-- The counter is the state's, and the single updates are applied in order, all of them or none. An
accepted update raises the counter. -/
def accept (s : ContractState) (update : MaintenanceUpdate) : Option ContractState :=
  if update.counter = s.counter then
    (update.updates.foldlM applyChecked s).map fun after => { after with
      maintenanceAuthority := { after.maintenanceAuthority with counter := s.counter + 1 } }
  else none

theorem applyChecked_eq_some {s s' : ContractState} {u : SingleUpdate}
    (h : s.applyChecked u = some s') : s' = s.apply u := by
  cases u with
  | replaceAuthority authority => exact (Option.some.inj h).symm
  | verifierKeyRemove circuitId version =>
    rw [applyChecked] at h
    split at h
    · exact (Option.some.inj h).symm
    · cases h
  | verifierKeyInsert circuitId version vk =>
    rw [applyChecked] at h
    split at h
    · cases h
    · exact (Option.some.inj h).symm

theorem foldlM_applyChecked {s s' : ContractState} {updates : List SingleUpdate}
    (h : updates.foldlM applyChecked s = some s') : s' = updates.foldl apply s := by
  induction updates generalizing s with
  | nil => exact (Option.some.inj h).symm
  | cons u updates ih =>
    rw [List.foldlM_cons, Option.bind_eq_bind, Option.bind_eq_some_iff] at h
    obtain ⟨s₁, hu, hrest⟩ := h
    rw [List.foldl_cons, ← applyChecked_eq_some hu]
    exact ih hrest

theorem accept_eq_some {s s' : ContractState} {update : MaintenanceUpdate}
    (h : s.accept update = some s') : s' = s.maintained update := by
  unfold accept at h
  split at h
  · obtain ⟨after, hafter, rfl⟩ := Option.map_eq_some_iff.mp h
    rw [foldlM_applyChecked hafter]
    rfl
  · cases h

theorem accept_single (s : ContractState) {update : MaintenanceUpdate} {u : SingleUpdate}
    (hcounter : update.counter = s.counter) (hsingle : update.updates = [u]) :
    s.accept update = (s.applyChecked u).map fun _ => s.maintained update := by
  unfold accept
  rw [if_pos hcounter, hsingle, List.foldlM_cons]
  cases h : s.applyChecked u with
  | none => rfl
  | some after =>
    have hafter := applyChecked_eq_some h
    subst hafter
    unfold maintained
    rw [hsingle]
    rfl

end ContractState

namespace CompactJs
open Effects

section
variable [Runtime] [CompactRuntime] {context : Context} {contractContext : ContractContext}
  {r : MaintenanceResult}

/-! ## Built updates -/

/-- What `createSignedMaintenanceUpdate` builds with the configured key. -/
structure BuiltWith (context : Context) (contractContext : ContractContext)
    (updates : List SingleUpdate) (update : MaintenanceUpdate) : Prop where
  data : update.toMaintenanceData =
    ⟨contractContext.address, updates, contractContext.contractState.counter⟩
  signed : ∃ signingKey signature, context.signingKey = some signingKey ∧
    CompactRuntime.signData signingKey update.toMaintenanceData = .ok signature ∧
    update.signatures = [(0, signature)]

theorem createSignedMaintenanceUpdate_ok {updates : List SingleUpdate}
    (h : createSignedMaintenanceUpdate (.ok updates) context contractContext = .ok r) :
    BuiltWith context contractContext updates r.public.maintenanceUpdate ∧
      context.signingKey = some r.private.signingKey := by
  unfold createSignedMaintenanceUpdate at h
  split at h
  · cases h
  · rename_i currentSigningKey hkey
    rw [except_bind_ok] at h
    obtain ⟨update, hupdate, h⟩ := h
    cases hupdate
    rw [except_bind_ok] at h
    obtain ⟨signature, hsignature, h⟩ := h
    cases h
    exact ⟨⟨rfl, currentSigningKey, signature, hkey, sync_eq_ok.mp hsignature, rfl⟩, hkey⟩

theorem createMaintenanceAuthority_ok {key : Option SigningKey}
    {contractState : Option ContractState} {cma : ContractMaintenanceAuthority}
    {signingKey : SigningKey}
    (h : createMaintenanceAuthority context key contractState = .ok (cma, signingKey)) :
    ∃ verifyingKey, CompactRuntime.signatureVerifyingKey signingKey = .ok verifyingKey ∧
      cma.committee = [verifyingKey] ∧ cma.threshold = 1 ∧
      ∀ s ∈ contractState, cma.counter = s.counter + 1 := by
  unfold createMaintenanceAuthority at h
  cases hkey : CompactRuntime.signatureVerifyingKey (key.getD context.sampledSigningKey) with
  | ok verifyingKey =>
    simp only [hkey, Except.ok.injEq, Prod.mk.injEq] at h
    obtain ⟨rfl, rfl⟩ := h
    refine ⟨verifyingKey, hkey, rfl, rfl, fun s hs => ?_⟩
    cases hs
    rfl
  | error e =>
    simp only [hkey, reduceCtorEq] at h

/-! ## Adding and replacing an operation -/

/-- The circuit has exactly the new key, and nothing else has changed but the counter. -/
structure Replaces (s : ContractState) (circuitId : CircuitId) (verifierKey : VerifierKey)
    (s' : ContractState) : Prop where
  key : s'.operation circuitId = some ⟨verifierKey⟩
  others : ∀ circuitId', circuitId' ≠ circuitId → s'.operation circuitId' = s.operation circuitId'
  authority : s'.maintenanceAuthority = { s.maintenanceAuthority with counter := s.counter + 1 }

omit [CompactRuntime] in
theorem replaces_maintained {s : ContractState} {update : MaintenanceUpdate} {circuitId : CircuitId}
    {version : JsString} {verifierKey : VerifierKey}
    (hsingle : update.updates = [.verifierKeyInsert circuitId version verifierKey]) :
    Replaces s circuitId verifierKey (s.maintained update) := by
  have hoperation : ∀ circuitId', (s.maintained update).operation circuitId' =
      if circuitId = circuitId' then some ⟨verifierKey⟩ else s.operation circuitId' := by
    intro circuitId'
    unfold ContractState.maintained
    rw [hsingle]
    exact OrderedMap.get_set ..
  constructor
  · rw [hoperation, if_pos rfl]
  · intro circuitId' hne
    rw [hoperation, if_neg (Ne.symm hne)]
  · unfold ContractState.maintained
    rw [hsingle]
    rfl

/-- The update is accepted, with the effect that the name promises, exactly if the circuit has no
verifier key: it only adds. -/
theorem addOrReplace_accepted_iff {circuitId : CircuitId} {verifierKey : VerifierKey}
    (h : addOrReplaceContractOperation context circuitId verifierKey contractContext = .ok r) :
    (∃ s', contractContext.contractState.accept r.public.maintenanceUpdate = some s' ∧
        Replaces contractContext.contractState circuitId verifierKey s') ↔
      contractContext.contractState.hasVerifierKey circuitId = false := by
  obtain ⟨built, -⟩ := createSignedMaintenanceUpdate_ok h
  have hcounter : r.public.maintenanceUpdate.counter = contractContext.contractState.counter :=
    congrArg MaintenanceData.counter built.data
  have hsingle : r.public.maintenanceUpdate.updates =
      [.verifierKeyInsert circuitId (js "v2") verifierKey] :=
    congrArg MaintenanceData.updates built.data
  rw [ContractState.accept_single _ hcounter hsingle, ContractState.applyChecked]
  cases contractContext.contractState.hasVerifierKey circuitId with
  | true =>
    refine iff_of_false ?_ Bool.noConfusion
    intro ⟨s', hs', _⟩
    cases hs'
  | false => exact iff_of_true ⟨_, rfl, replaces_maintained hsingle⟩ rfl

/-! ## Chains of operations -/

inductive MaintenanceOperation
  | replaceContractMaintenanceAuthority (newSigningKey : Option SigningKey)
  | removeContractOperation (impureCircuitId : CircuitId)
  | addOrReplaceContractOperation (impureCircuitId : CircuitId) (verifierKey : VerifierKey)

namespace MaintenanceOperation

def run (op : MaintenanceOperation) (context : Context) (contractContext : ContractContext) :
    ContractEffect MaintenanceResult :=
  match op with
  | .replaceContractMaintenanceAuthority newSigningKey =>
    CompactJs.replaceContractMaintenanceAuthority context newSigningKey contractContext
  | .removeContractOperation impureCircuitId =>
    CompactJs.removeContractOperation context impureCircuitId contractContext
  | .addOrReplaceContractOperation impureCircuitId verifierKey =>
    CompactJs.addOrReplaceContractOperation context impureCircuitId verifierKey contractContext

def IsReplacement (op : MaintenanceOperation) : Prop :=
  match op with
  | .replaceContractMaintenanceAuthority _ => True
  | _ => False

end MaintenanceOperation

/-- The contract states and signing keys that a chain leads to. Each operation runs on the state that
the last accepted update left, with the signing key that the last operation returned. -/
inductive Chain (executable : CompiledContract) : ContractState → SigningKey → Prop
  | start {context : Context} {initialPrivateState : JsValue} {args : List JsValue}
      {deployed : DeployResult}
      (ran : initializeContract executable context initialPrivateState args = .ok deployed) :
      Chain executable deployed.contractState deployed.private.signingKey
  | maintain {s : ContractState} {key : SigningKey} (chain : Chain executable s key)
      {op : MaintenanceOperation} {context : Context} {address : ContractAddress}
      {r : MaintenanceResult} {s' : ContractState} (configured : context.signingKey = some key)
      (ran : op.run context ⟨address, s⟩ = .ok r)
      (accepted : s.accept r.public.maintenanceUpdate = some s') :
      Chain executable s' r.private.signingKey

/-- The contract is maintained with this key alone. -/
def MaintainedWith (key : SigningKey) (s : ContractState) : Prop :=
  ∃ verifyingKey, CompactRuntime.signatureVerifyingKey key = .ok verifyingKey ∧
    s.maintenanceAuthority.committee = [verifyingKey] ∧ s.maintenanceAuthority.threshold = 1

/-- A signature verifies under the verifying key of its signing key. -/
def SignaturesVerify : Prop :=
  ∀ signingKey verifyingKey data signature,
    CompactRuntime.signatureVerifyingKey signingKey = .ok verifyingKey →
      CompactRuntime.signData signingKey data = .ok signature →
        verifySignature verifyingKey data signature = true

theorem initializeContract_maintainedWith {executable : CompiledContract}
    {initialPrivateState : JsValue} {args : List JsValue} {deployed : DeployResult}
    (h : initializeContract executable context initialPrivateState args = .ok deployed) :
    MaintainedWith deployed.private.signingKey deployed.contractState := by
  unfold initializeContract at h
  rw [except_bind_ok] at h
  obtain ⟨_, _, h⟩ := h
  rw [except_bind_ok] at h
  obtain ⟨verifierKeys, _, h⟩ := h
  rw [except_bind_ok] at h
  obtain ⟨contractState, _, h⟩ := h
  rw [except_bind_ok] at h
  obtain ⟨⟨cma, signingKey⟩, hcma, h⟩ := h
  obtain ⟨verifyingKey, hkey, hcommittee, hthreshold, -⟩ :=
    createMaintenanceAuthority_ok (ofEither_eq_ok.mp hcma)
  cases h
  exact ⟨verifyingKey, hkey, hcommittee, hthreshold⟩

/-- What an operation comes to that runs with the configured key `key`. -/
structure OperationHolds (s : ContractState) (key : SigningKey) (op : MaintenanceOperation)
    (r : MaintenanceResult) : Prop where
  counter : r.public.maintenanceUpdate.counter = s.counter
  signed : ∃ verifyingKey signature, s.maintenanceAuthority.committee = [verifyingKey] ∧
    r.public.maintenanceUpdate.signatures = [(0, signature)] ∧
    verifySignature verifyingKey r.public.maintenanceUpdate.dataToSign signature = true
  replaced : op.IsReplacement → ∃ verifyingKey s',
    CompactRuntime.signatureVerifyingKey r.private.signingKey = .ok verifyingKey ∧
      r.public.maintenanceUpdate.updates =
        [.replaceAuthority ⟨[verifyingKey], 1, s.counter + 1⟩] ∧
      s.accept r.public.maintenanceUpdate = some s' ∧
      s'.maintenanceAuthority = ⟨[verifyingKey], 1, s.counter + 1⟩
  kept : ¬ op.IsReplacement → r.private.signingKey = key ∧
    ∀ s', s.accept r.public.maintenanceUpdate = some s' →
      s'.maintenanceAuthority = { s.maintenanceAuthority with counter := s.counter + 1 }

/-- What a built update carries, whichever operation built it. -/
theorem BuiltWith.signed_by {s : ContractState} {address : ContractAddress} {key : SigningKey}
    {updates : List SingleUpdate} {update : MaintenanceUpdate} (hverify : SignaturesVerify)
    (hkey : MaintainedWith key s) (configured : context.signingKey = some key)
    (built : BuiltWith context ⟨address, s⟩ updates update) :
    ∃ verifyingKey signature, s.maintenanceAuthority.committee = [verifyingKey] ∧
      update.signatures = [(0, signature)] ∧
      verifySignature verifyingKey update.dataToSign signature = true := by
  obtain ⟨verifyingKey, hverifying, hcommittee, -⟩ := hkey
  obtain ⟨signingKey, signature, hsigning, hsign, hsignatures⟩ := built.signed
  rw [configured, Option.some.injEq] at hsigning
  subst hsigning
  exact ⟨verifyingKey, signature, hcommittee, hsignatures,
    hverify key verifyingKey _ signature hverifying hsign⟩

/-- An operation other than a replacement builds one single update that is no replacement. -/
theorem run_of_not_isReplacement {op : MaintenanceOperation} (hop : ¬ op.IsReplacement)
    (ran : op.run context contractContext = .ok r) :
    ∃ u, (∀ s : ContractState, (s.apply u).maintenanceAuthority = s.maintenanceAuthority) ∧
      BuiltWith context contractContext [u] r.public.maintenanceUpdate ∧
      context.signingKey = some r.private.signingKey := by
  cases op with
  | replaceContractMaintenanceAuthority newSigningKey => exact absurd trivial hop
  | removeContractOperation impureCircuitId =>
    exact ⟨_, fun _ => rfl, createSignedMaintenanceUpdate_ok ran⟩
  | addOrReplaceContractOperation impureCircuitId verifierKey =>
    exact ⟨_, fun _ => rfl, createSignedMaintenanceUpdate_ok ran⟩

/-- A replacement installs the key that it returns. -/
theorem run_of_isReplacement {op : MaintenanceOperation} (hop : op.IsReplacement)
    (ran : op.run context contractContext = .ok r) :
    ∃ verifyingKey,
      CompactRuntime.signatureVerifyingKey r.private.signingKey = .ok verifyingKey ∧
      BuiltWith context contractContext [.replaceAuthority
        ⟨[verifyingKey], 1, contractContext.contractState.counter + 1⟩]
        r.public.maintenanceUpdate := by
  cases op with
  | removeContractOperation impureCircuitId => exact absurd hop id
  | addOrReplaceContractOperation impureCircuitId verifierKey => exact absurd hop id
  | replaceContractMaintenanceAuthority newSigningKey =>
    unfold MaintenanceOperation.run replaceContractMaintenanceAuthority at ran
    rw [except_bind_ok] at ran
    obtain ⟨⟨cma, signingKey⟩, hcma, ran⟩ := ran
    rw [except_bind_ok] at ran
    obtain ⟨update, hupdate, ran⟩ := ran
    obtain ⟨verifyingKey, hkey, hcommittee, hthreshold, hcounter⟩ :=
      createMaintenanceAuthority_ok (ofEither_eq_ok.mp hcma)
    have hauthority : cma = ⟨[verifyingKey], 1, contractContext.contractState.counter + 1⟩ := by
      rw [← hcounter _ rfl, ← hcommittee, ← hthreshold]
    obtain ⟨built, -⟩ := createSignedMaintenanceUpdate_ok hupdate
    cases ran
    exact ⟨verifyingKey, hkey, hauthority ▸ built⟩

theorem operation_holds {s : ContractState} {key : SigningKey} {op : MaintenanceOperation}
    {address : ContractAddress} (hverify : SignaturesVerify) (hkey : MaintainedWith key s)
    (configured : context.signingKey = some key) (ran : op.run context ⟨address, s⟩ = .ok r) :
    OperationHolds s key op r := by
  by_cases hop : op.IsReplacement
  · obtain ⟨verifyingKey, hverifying, built⟩ := run_of_isReplacement hop ran
    have hcounter : r.public.maintenanceUpdate.counter = s.counter :=
      congrArg MaintenanceData.counter built.data
    have hsingle : r.public.maintenanceUpdate.updates =
        [.replaceAuthority ⟨[verifyingKey], 1, s.counter + 1⟩] :=
      congrArg MaintenanceData.updates built.data
    refine ⟨hcounter, built.signed_by hverify hkey configured, fun _ => ?_, fun h => absurd hop h⟩
    refine ⟨verifyingKey, s.maintained r.public.maintenanceUpdate, hverifying, hsingle, ?_, ?_⟩
    · rw [s.accept_single hcounter hsingle]
      rfl
    · unfold ContractState.maintained
      rw [hsingle]
      rfl
  · obtain ⟨u, hu, built, hreturned⟩ := run_of_not_isReplacement hop ran
    have hcounter : r.public.maintenanceUpdate.counter = s.counter :=
      congrArg MaintenanceData.counter built.data
    have hsingle : r.public.maintenanceUpdate.updates = [u] :=
      congrArg MaintenanceData.updates built.data
    refine ⟨hcounter, built.signed_by hverify hkey configured, fun h => absurd h hop, fun _ => ?_⟩
    constructor
    · rw [configured, Option.some.injEq] at hreturned
      exact hreturned.symm
    · intro s' accepted
      rw [ContractState.accept_eq_some accepted]
      unfold ContractState.maintained
      rw [hsingle]
      simp only [List.foldl_cons, List.foldl_nil, hu]

/-- One key maintains the contract all along a chain. -/
theorem Chain.maintainedWith {executable : CompiledContract} {s : ContractState} {key : SigningKey}
    (hverify : SignaturesVerify) (chain : Chain executable s key) : MaintainedWith key s := by
  induction chain with
  | start ran => exact initializeContract_maintainedWith ran
  | @maintain s key _ op context address r s' configured ran accepted ih =>
    have holds := operation_holds hverify ih configured ran
    by_cases hop : op.IsReplacement
    · obtain ⟨verifyingKey, after, hverifying, -, hafter, hauthority⟩ := holds.replaced hop
      rw [accepted, Option.some.injEq] at hafter
      subst hafter
      unfold MaintainedWith
      rw [hauthority]
      exact ⟨verifyingKey, hverifying, rfl, rfl⟩
    · obtain ⟨hreturned, hauthority⟩ := holds.kept hop
      unfold MaintainedWith
      rw [hreturned, hauthority s' accepted]
      exact ih

theorem run_without_key {op : MaintenanceOperation} (h : context.signingKey = none) :
    ∃ e, op.run context contractContext = .error e := by
  cases hrun : op.run context contractContext with
  | error e => exact ⟨e, rfl⟩
  | ok r =>
    -- What is built is signed with the configured key.
    have hbuilt : ∃ updates, BuiltWith context contractContext updates
        r.public.maintenanceUpdate := by
      by_cases hop : op.IsReplacement
      · obtain ⟨_, _, built⟩ := run_of_isReplacement hop hrun
        exact ⟨_, built⟩
      · obtain ⟨u, _, built, _⟩ := run_of_not_isReplacement hop hrun
        exact ⟨_, built⟩
    obtain ⟨updates, built⟩ := hbuilt
    obtain ⟨signingKey, _, hkey, _⟩ := built.signed
    rw [h] at hkey
    cases hkey

/-- Along every chain the contract is maintained with the key that the last operation returned, and
what is built with it is signed with it and carries the counter of the state. Without a key nothing
is built. -/
theorem maintenance_key_chain {executable : CompiledContract} {s : ContractState} {key : SigningKey}
    (hverify : SignaturesVerify) (chain : Chain executable s key) :
    MaintainedWith key s ∧
      (∀ (op : MaintenanceOperation) (context : Context) (address : ContractAddress)
        (r : MaintenanceResult), context.signingKey = some key →
          op.run context ⟨address, s⟩ = .ok r → OperationHolds s key op r) ∧
      ∀ (op : MaintenanceOperation) (context : Context) (address : ContractAddress),
        context.signingKey = none → ∃ e, op.run context ⟨address, s⟩ = .error e := by
  have hkey := chain.maintainedWith hverify
  refine ⟨hkey, ?_, ?_⟩
  · intro op context address r configured ran
    exact operation_holds hverify hkey configured ran
  · intro op context address hnone
    exact run_without_key hnone

end

namespace Sample
open MidnightJs.Sample

def executable : CompiledContract :=
  ⟨js "counter", ⟨[], fun context _ => .ok ⟨state [], context.initialPrivateState,
    context.initialZswapLocalState⟩⟩⟩

def contextWith (signingKey : Option SigningKey) : Context :=
  ⟨js "00", signingKey, js "2", fun _ => .ok []⟩

def initialized : ContractState := ⟨(), [(circuitId, ⟨[]⟩)], ⟨[js "1"], 1, 0⟩⟩

theorem chain_initialized : Chain executable initialized (js "1") := by
  have ran : initializeContract executable (contextWith (some (js "1"))) .undefined [] =
      .ok ⟨initialized, ⟨js "1", .undefined, ⟨⟨[]⟩, 0, [], []⟩⟩⟩ := rfl
  exact .start ran

theorem signaturesVerify : SignaturesVerify := by
  intro signingKey verifyingKey data signature hkey hsign
  cases hkey
  cases hsign
  exact decide_eq_true rfl

def signed (updates : List SingleUpdate) (counter : ℕ) : MaintenanceUpdate :=
  ⟨⟨address, updates, counter⟩, [(0, (js "1", ⟨address, updates, counter⟩))]⟩

def insertion : MaintenanceResult :=
  ⟨⟨signed [.verifierKeyInsert circuitId (js "v2") [2]] 0⟩, ⟨js "1"⟩⟩

def inserted : ContractState := ⟨(), [(circuitId, ⟨[2]⟩)], ⟨[js "1"], 1, 1⟩⟩

theorem chain_inserted : Chain executable inserted (js "1") := by
  have configured : (contextWith (some (js "1"))).signingKey = some (js "1") := rfl
  have ran : (MaintenanceOperation.addOrReplaceContractOperation circuitId [2]).run
      (contextWith (some (js "1"))) ⟨address, initialized⟩ = .ok insertion := rfl
  have accepted : initialized.accept insertion.public.maintenanceUpdate = some inserted := rfl
  exact .maintain chain_initialized configured ran accepted

/-- After an insertion the key is replaced by the sampled one. -/
theorem maintenance_key_chain_replaced : OperationHolds inserted (js "1")
    (.replaceContractMaintenanceAuthority none)
    ⟨⟨signed [.replaceAuthority ⟨[js "2"], 1, 2⟩] 1⟩, ⟨js "2"⟩⟩ :=
  (maintenance_key_chain signaturesVerify chain_inserted).2.1 _ (contextWith (some (js "1")))
    address _ rfl rfl

def keyed : ContractState := ⟨(), [(circuitId, ⟨[1]⟩)], ⟨[js "1"], 1, 0⟩⟩

theorem addOrReplace_accepted_empty :
    ∃ s', initialized.accept insertion.public.maintenanceUpdate = some s' ∧
      Replaces initialized circuitId [2] s' := by
  have ran : addOrReplaceContractOperation (contextWith (some (js "1"))) circuitId [2]
      ⟨address, initialized⟩ = .ok insertion := rfl
  exact (addOrReplace_accepted_iff ran).mpr rfl

/-- The circuit has a key, so the update that is to replace it is rejected. -/
theorem replacing_rejected :
    addOrReplaceContractOperation (contextWith (some (js "1"))) circuitId [2] ⟨address, keyed⟩ =
        .ok insertion ∧
      keyed.accept insertion.public.maintenanceUpdate = none :=
  ⟨rfl, rfl⟩

end Sample

end CompactJs

end MidnightJs
