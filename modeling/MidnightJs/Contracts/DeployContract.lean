import MidnightJs.Contracts.Custody

/-! # Deployed contracts and their life

`packages/contracts/src/deploy-contract.ts`, and sessions of everything a client does to a contract
afterwards: finding it again, calling it, maintaining it. The key and the private state that a later
find returns are those of the deployment, carried on by the authority replacements and the calls
whose transactions succeeded, and the interfaces it hands out are the ones the deployment did. -/

namespace MidnightJs
open Foundations Foundations.Js Foundations.Async
set_option autoImplicit false

section Life

variable [Runtime] (PS : Type)

structure DeployContractOptions where
  contract : Contract PS
  args : Option (List Value)
  signingKey : Option SigningKey
  privateStateId : Option PrivateStateId
  initialPrivateState : Option PS

structure DeployedContract where
  deployTxData : FinalizedDeployTxData PS
  callTx : CircuitCallTxInterface PS
  circuitMaintenanceTx : List (CircuitId × CircuitMaintenanceTxInterface PS)
  contractMaintenanceTx : ContractMaintenanceTxInterface PS

variable {PS}

def createDeployTxOptions (deployContractOptions : DeployContractOptions PS) :
    Promise PS (DeployTxOptions PS) := do
  -- Only an absent key is replaced by a fresh one; the empty string is kept.
  let signingKey ← match deployContractOptions.signingKey with
    | some signingKey => (return signingKey : Promise PS SigningKey)
    | none => provide .sampleSigningKey
  return {
    contract := deployContractOptions.contract
    args := deployContractOptions.args
    signingKey := signingKey
    initialPrivateState := deployContractOptions.initialPrivateState
    privateStateId := deployContractOptions.privateStateId }

variable [Undefined PS]

def deployContract (providers : ContractProviders) (options : DeployContractOptions PS) :
    Promise PS (DeployedContract PS) := do
  let deployTxOptions ← createDeployTxOptions options
  let deployTxData ← submitDeployTx providers deployTxOptions
  let contractAddress := deployTxData.public.contractAddress
  let callTx ← sync (createCircuitCallTxInterface providers options.contract contractAddress
    options.privateStateId)
  let circuitMaintenanceTx ← sync (createCircuitMaintenanceTxInterfaces options.contract
    contractAddress)
  let contractMaintenanceTx ← sync (createContractMaintenanceTxInterface contractAddress)
  return {
    deployTxData := deployTxData
    callTx := callTx
    circuitMaintenanceTx := circuitMaintenanceTx
    contractMaintenanceTx := contractMaintenanceTx }

variable {mayReject : ProviderCall PS → Prop} {s s' : PrivateStore PS}
  {tr : List (Event (Providers PS))}

/-! ## Interfaces -/

omit [Runtime] [Undefined PS] in
variable (PS) in
/-- The interfaces that the code makes for a contract at an address. -/
structure Interfaces [Runtime] where
  callTx : CircuitCallTxInterface PS
  circuitMaintenanceTx : List (CircuitId × CircuitMaintenanceTxInterface PS)
  contractMaintenanceTx : ContractMaintenanceTxInterface PS

def createInterfaces (providers : ContractProviders) (contract : Contract PS)
    (contractAddress : ContractAddress) (privateStateId : Option PrivateStateId) :
    Except JsError (Interfaces PS) := do
  let callTx ← createCircuitCallTxInterface providers contract contractAddress privateStateId
  let circuitMaintenanceTx ← createCircuitMaintenanceTxInterfaces contract contractAddress
  let contractMaintenanceTx ← createContractMaintenanceTxInterface contractAddress
  return ⟨callTx, circuitMaintenanceTx, contractMaintenanceTx⟩

def DeployedContract.interfaces (r : DeployedContract PS) : Interfaces PS :=
  ⟨r.callTx, r.circuitMaintenanceTx, r.contractMaintenanceTx⟩

def FoundContract.interfaces (r : FoundContract PS) : Interfaces PS :=
  ⟨r.callTx, r.circuitMaintenanceTx, r.contractMaintenanceTx⟩

theorem createInterfaces_ok {providers : ContractProviders} {contract : Contract PS}
    {a : ContractAddress} {id : Option PrivateStateId} {callTx : CircuitCallTxInterface PS}
    {circuitMaintenanceTx : List (CircuitId × CircuitMaintenanceTxInterface PS)}
    {contractMaintenanceTx : ContractMaintenanceTxInterface PS}
    (hcall : createCircuitCallTxInterface providers contract a id = .ok callTx)
    (hcircuits : createCircuitMaintenanceTxInterfaces contract a = .ok circuitMaintenanceTx)
    (hcontract : createContractMaintenanceTxInterface a = .ok contractMaintenanceTx) :
    createInterfaces providers contract a id =
      .ok ⟨callTx, circuitMaintenanceTx, contractMaintenanceTx⟩ := by
  rw [createInterfaces, hcall, hcircuits, hcontract]
  rfl

theorem exec_findDeployedContract_interfaces {providers : ContractProviders}
    {options : FindDeployedContractOptions PS} {r : FoundContract PS}
    (run : Exec (storeEnv mayReject) (findDeployedContract providers options) s tr (.ok r) s') :
    createInterfaces providers options.contract options.contractAddress options.privateStateId =
      .ok r.interfaces := by
  rw [findDeployedContract_eq] at run
  obtain ⟨found, _, _, _, _, run, _⟩ := exec_bind_ok.mp run
  obtain ⟨k, _, _, _, _, run, _⟩ := exec_bind_ok.mp run
  obtain ⟨v, _, _, _, _, run, _⟩ := exec_bind_ok.mp run
  obtain ⟨callTx, hcall, run⟩ := exec_sync_bind_ok run
  obtain ⟨circuitMaintenanceTx, hcircuits, run⟩ := exec_sync_bind_ok run
  obtain ⟨contractMaintenanceTx, hcontract, run⟩ := exec_sync_bind_ok run
  obtain ⟨_, hr, _⟩ := exec_resolve.mp run
  cases hr
  exact createInterfaces_ok hcall hcircuits hcontract

/-! ## Runs of a deployment -/

/-- The key of the options, or one that the run sampled. -/
def GivenOrSampled (options : DeployContractOptions PS) (tr : List (Event (Providers PS)))
    (k : SigningKey) : Prop :=
  match options.signingKey with
  | some given => k = given
  | none => ⟨.sampleSigningKey, .ok k⟩ ∈ tr

omit [Undefined PS] in
theorem GivenOrSampled.mono {options : DeployContractOptions PS}
    {tr tr' : List (Event (Providers PS))} {k : SigningKey} (h : GivenOrSampled options tr k)
    (htr : tr ⊆ tr') : GivenOrSampled options tr' k := by
  unfold GivenOrSampled at h ⊢
  split
  · next hgiven => rwa [hgiven] at h
  · next hgiven =>
    rw [hgiven] at h
    exact htr h

/-- What a resolved deployment returns and leaves. -/
structure Deployed (providers : ContractProviders) (options : DeployContractOptions PS)
    (s : PrivateStore PS) (tr : List (Event (Providers PS))) (r : DeployedContract PS)
    (s' : PrivateStore PS) : Prop where
  store : s' = (s.setAt options.privateStateId
    r.deployTxData.private.initialPrivateState).setSigningKey
      r.deployTxData.public.contractAddress r.deployTxData.private.signingKey
  key : GivenOrSampled options tr r.deployTxData.private.signingKey
  interfaces : createInterfaces providers options.contract r.deployTxData.public.contractAddress
    options.privateStateId = .ok r.interfaces

omit [Undefined PS] in
theorem exec_createDeployTxOptions {options : DeployContractOptions PS}
    {out : Except ContractsError (DeployTxOptions PS)}
    (run : Exec (storeEnv mayReject) (createDeployTxOptions options) s tr out s') :
    s' = s ∧ ((∃ e, out = .error e) ∨ ∃ deployTxOptions, out = .ok deployTxOptions ∧
      deployTxOptions.privateStateId = options.privateStateId ∧
      GivenOrSampled options tr deployTxOptions.signingKey) := by
  cases hgiven : options.signingKey with
  | some k =>
    rw [createDeployTxOptions, hgiven] at run
    obtain ⟨rfl, rfl, rfl⟩ := exec_resolve.mp run
    exact ⟨rfl, .inr ⟨_, rfl, rfl, by rw [GivenOrSampled, hgiven]⟩⟩
  | none =>
    rw [createDeployTxOptions, hgiven] at run
    obtain ⟨why, ⟨_, rfl⟩, _, rfl⟩ | ⟨k, s₁, tr₁, rfl, hrun, rfl⟩ := exec_provide_bind run
    · exact ⟨rfl, .inl ⟨_, rfl⟩⟩
    · obtain ⟨rfl, rfl, rfl⟩ := exec_resolve.mp hrun
      exact ⟨rfl, .inr ⟨_, rfl, rfl, by rw [GivenOrSampled, hgiven]; simp⟩⟩

/-- The runs of a deployment whose writes succeed. -/
inductive DeployContractRun (providers : ContractProviders) (options : DeployContractOptions PS)
    (s : PrivateStore PS) (tr : List (Event (Providers PS))) :
    Except ContractsError (DeployedContract PS) → PrivateStore PS → Prop
  | rejected (e : ContractsError) : DeployContractRun providers options s tr (.error e) s
  /-- Rejected after the writes: the drawn address is no contract address. -/
  | strayed (e : ContractsError) (v : PS) (k : SigningKey) {a : ContractAddress}
      {initialState : ContractState} (drawn : ⟨.newContractDeploy initialState, .ok a⟩ ∈ tr) :
      DeployContractRun providers options s tr (.error e)
        ((s.setAt options.privateStateId v).setSigningKey a k)
  | deployed {r : DeployedContract PS} {s' : PrivateStore PS} {initialState : ContractState}
      (drawn : ⟨.newContractDeploy initialState, .ok r.deployTxData.public.contractAddress⟩ ∈ tr)
      (leaves : Deployed providers options s tr r s') :
      DeployContractRun providers options s tr (.ok r) s'

theorem exec_deployContract {providers : ContractProviders} {options : DeployContractOptions PS}
    {out : Except ContractsError (DeployedContract PS)}
    (run : Exec (storeEnv MayFail) (deployContract providers options) s tr out s') :
    DeployContractRun providers options s tr out s' := by
  obtain ⟨e, hsample, rfl⟩ | ⟨deployTxOptions, s₁, tr₁, tr₂, hsample, hrun, rfl⟩ := exec_bind.mp run
  · obtain ⟨rfl, _⟩ := exec_createDeployTxOptions hsample
    exact .rejected e
  obtain ⟨rfl, ⟨_, ⟨⟩⟩ | ⟨_, ⟨⟩, hid, hkey⟩⟩ := exec_createDeployTxOptions hsample
  obtain ⟨e, hdeploy, rfl⟩ | ⟨data, s₂, tr₃, tr₄, hdeploy, hrun', rfl⟩ := exec_bind.mp hrun
  · obtain ⟨hfollows, _⟩ := Submission.spec (.deploy providers deployTxOptions) hdeploy
    rw [hfollows.rejects e rfl]
    exact .rejected e
  obtain ⟨_, hwrites⟩ := Submission.spec (.deploy providers deployTxOptions) hdeploy
  obtain ⟨hstore, hbuilt⟩ := hwrites data rfl
  change s₂ = (s₁.setAt deployTxOptions.privateStateId _).setSigningKey _ _ at hstore
  rw [hid] at hstore
  subst hstore
  obtain ⟨initialState, hdrawn⟩ := hbuilt.address
  replace hdrawn : ⟨.newContractDeploy initialState, .ok data.public.contractAddress⟩ ∈
      tr₁ ++ (tr₃ ++ tr₄) :=
    List.mem_append_right _ (List.mem_append_left _ hdrawn)
  rw [← hbuilt.signingKey] at hkey
  obtain ⟨e, _, rfl, rfl, rfl⟩ | ⟨callTx, hcall, hrest⟩ := exec_sync_bind hrun'
  · exact .strayed _ _ _ hdrawn
  obtain ⟨e, _, rfl, rfl, rfl⟩ | ⟨circuitMaintenanceTx, hcircuits, hrest⟩ := exec_sync_bind hrest
  · exact .strayed _ _ _ hdrawn
  obtain ⟨e, _, rfl, rfl, rfl⟩ | ⟨contractMaintenanceTx, hcontract, hrest⟩ := exec_sync_bind hrest
  · exact .strayed _ _ _ hdrawn
  obtain ⟨rfl, rfl, rfl⟩ := exec_resolve.mp hrest
  exact .deployed hdrawn
    ⟨rfl, hkey.mono fun _ h => List.mem_append_left _ h, createInterfaces_ok hcall hcircuits hcontract⟩

/-! ## The operations on a contract -/

variable (PS) in
inductive ContractOp
  | deploy (providers : ContractProviders) (options : DeployContractOptions PS)
  | find (providers : ContractProviders) (options : FindDeployedContractOptions PS)
  | call (providers : ContractProviders) (options : CallTxOptions PS)
  | replaceAuthority (contractAddress : ContractAddress) (newAuthority : SigningKey)
  | insertVerifierKey (contractAddress : ContractAddress) (circuitId : CircuitId)
      (newVk : VerifierKey)
  | removeVerifierKey (contractAddress : ContractAddress) (circuitId : CircuitId)

namespace ContractOp

def Result : ContractOp PS → Type
  | .deploy _ _ => DeployedContract PS
  | .find _ _ => FoundContract PS
  | .call _ _ => FinalizedCallTxData PS
  | _ => FinalizedTxData

def program : (op : ContractOp PS) → Promise PS op.Result
  | .deploy providers options => deployContract providers options
  | .find providers options => findDeployedContract providers options
  | .call providers options => submitCallTx providers options
  | .replaceAuthority a k => submitReplaceAuthorityTx a k
  | .insertVerifierKey a circuitId newVk => submitInsertVerifierKeyTx a circuitId newVk
  | .removeVerifierKey a circuitId => submitRemoveVerifierKeyTx a circuitId

omit [Undefined PS] in
/-- The operation gives the address a key that no authority replacement installed. -/
def GivesKey (op : ContractOp PS) (tr : List (Event (Providers PS))) (a : ContractAddress) : Prop :=
  match op with
  | .deploy _ _ => ∃ initialState, ⟨.newContractDeploy initialState, .ok a⟩ ∈ tr
  | .find _ options => options.contractAddress = a ∧ truthy options.signingKey = true
  | _ => False

omit [Undefined PS] in
/-- The operation stores a private state at the id that no call computed. -/
def GivesState (op : ContractOp PS) (id : PrivateStateId) : Prop :=
  match op with
  | .deploy _ options => options.privateStateId = some id
  | .find _ options => options.privateStateId = some id ∧ options.initialPrivateState.isSome
  | _ => False

omit [Undefined PS] in
/-- The key of the address after the operation: a resolved replacement installs its own. -/
def keyAfter (a : ContractAddress) (k : SigningKey) :
    (op : ContractOp PS) → Except ContractsError op.Result → SigningKey
  | .replaceAuthority contractAddress newAuthority, .ok _ =>
    if contractAddress = a then newAuthority else k
  | _, _ => k

omit [Undefined PS] in
/-- The private state at the id after the operation: a resolved call stores what its circuit
returned. -/
def stateAfter (id : PrivateStateId) (v : PS) :
    (op : ContractOp PS) → Except ContractsError op.Result → PS
  | .call _ options, .ok r => if options.privateStateId = some id then r.private.nextPrivateState
    else v
  | _, _ => v

omit [Undefined PS] in
/-- What a resolved deployment was given and returned. -/
def deployedBy : (op : ContractOp PS) → Except ContractsError op.Result →
    Option (ContractProviders × DeployContractOptions PS × DeployedContract PS)
  | .deploy providers options, .ok r => some (providers, options, r)
  | _, _ => none

omit [Undefined PS] in
/-- What a resolved find was given and returned. -/
def foundBy : (op : ContractOp PS) → Except ContractsError op.Result →
    Option (ContractProviders × FindDeployedContractOptions PS × FoundContract PS)
  | .find providers options, .ok r => some (providers, options, r)
  | _, _ => none

omit [Undefined PS] in
/-- A resolved call at the id executed one circuit, on the given private state. -/
def RunsOn (id : PrivateStateId) (v : PS) (op : ContractOp PS)
    (out : Except ContractsError op.Result) (tr : List (Event (Providers PS))) : Prop :=
  match op, out with
  | .call _ options, .ok r =>
    options.privateStateId = some id → executions tr = [(v, r.private.nextPrivateState)]
  | _, _ => True

end ContractOp

variable (PS) in
def contractOps : Service (Providers PS) ContractsError :=
  ⟨ContractOp PS, ContractOp.Result, ContractOp.program⟩

/-! ## One operation -/

/-- What an operation of `submissions` other than a deployment does to the store. -/
theorem exec_submission (op : Submission PS) {out : Except ContractsError op.Result}
    (run : Exec (storeEnv MayFail) op.program s tr out s') :
    ((∃ e, out = .error e) ∧ s' = s) ∨ ∃ r, out = .ok r ∧ s' = op.writes r s := by
  obtain ⟨hfollows, hwrites⟩ := Submission.spec op run
  cases out with
  | ok r => exact .inr ⟨r, rfl, (hwrites r rfl).1⟩
  | error e => exact .inl ⟨⟨e, rfl⟩, hfollows.rejects e rfl⟩

theorem ContractOp.signingKeys_after (op : ContractOp PS) {out : Except ContractsError op.Result}
    (run : Exec (storeEnv MayFail) op.program s tr out s') {a : ContractAddress} {k : SigningKey}
    (hgives : ¬ op.GivesKey tr a) (hstored : s.signingKeys a = some k) (hk : k ≠ []) :
    s'.signingKeys a = some (keyAfter a k op out) := by
  have huntouched : ∀ {v : PS} {id : Option PrivateStateId},
      (s.setAt id v).signingKeys a = some k := by
    intro v id
    rw [PrivateStore.setAt_signingKeys, hstored]
  cases op with
  | deploy providers options =>
    have hother : ∀ {a' initialState}, ⟨.newContractDeploy initialState, .ok a'⟩ ∈ tr → a ≠ a' :=
      fun hdrawn h => hgives ⟨_, h ▸ hdrawn⟩
    cases exec_deployContract run with
    | rejected => exact hstored
    | strayed _ _ _ drawn =>
      rw [PrivateStore.setSigningKey_signingKeys_of_ne (hother drawn)]
      exact huntouched
    | deployed drawn leaves =>
      rw [leaves.store, PrivateStore.setSigningKey_signingKeys_of_ne (hother drawn)]
      exact huntouched
  | find providers options =>
    have hkey : ∀ {k' s''}, KeyStep options s tr k' s'' → s''.signingKeys a = some k := by
      intro k' s'' h
      by_cases ha : a = options.contractAddress
      · subst ha
        cases h with
        | kept => exact hstored
        | given hg hne =>
          exact absurd ⟨rfl, by rw [hg, truthy_some, hne]⟩ hgives
        | sampled _ hn _ =>
          rw [hstored, truthy_some, (truthy_string k).mpr hk] at hn
          cases hn
      · rw [h.signingKeys_of_ne ha, hstored]
    cases (exec_findDeployedContract run).2 with
    | early => exact hstored
    | late key => exact hkey key
    | found key state =>
      rw [state.signingKeys]
      exact hkey key
  | call providers options =>
    obtain ⟨_, rfl⟩ | ⟨r, rfl, rfl⟩ := exec_submission (.call providers options) run
    · exact hstored
    · exact huntouched
  | replaceAuthority a' k' =>
    obtain ⟨⟨e, rfl⟩, rfl⟩ | ⟨r, rfl, rfl⟩ := exec_submission (.replaceAuthority a' k') run
    · exact hstored
    · change (s.setSigningKey a' k').signingKeys a = some (if a' = a then k' else k)
      split
      · next h => rw [h, PrivateStore.setSigningKey_signingKeys_self]
      · next h => rw [PrivateStore.setSigningKey_signingKeys_of_ne (Ne.symm h), hstored]
  | insertVerifierKey a' circuitId newVk =>
    obtain ⟨_, rfl⟩ | ⟨_, _, rfl⟩ :=
      exec_submission (.insertVerifierKey a' circuitId newVk) run
    · exact hstored
    · exact hstored
  | removeVerifierKey a' circuitId =>
    obtain ⟨_, rfl⟩ | ⟨_, _, rfl⟩ := exec_submission (.removeVerifierKey a' circuitId) run
    · exact hstored
    · exact hstored

theorem ContractOp.privateStates_after (op : ContractOp PS)
    {out : Except ContractsError op.Result}
    (run : Exec (storeEnv MayFail) op.program s tr out s') {id : PrivateStateId} {v : PS}
    (hgives : ¬ op.GivesState id) (hstored : s.privateStates id = some v) :
    s'.privateStates id = some (stateAfter id v op out) ∧ op.RunsOn id v out tr := by
  cases op with
  | deploy providers options =>
    have huntouched : ∀ {v' : PS}, (s.setAt options.privateStateId v').privateStates id = some v :=
      fun {_} => (PrivateStore.setAt_privateStates_of_ne hgives).trans hstored
    cases exec_deployContract run with
    | rejected => exact ⟨hstored, trivial⟩
    | strayed => exact ⟨huntouched, trivial⟩
    | deployed drawn leaves =>
      rw [leaves.store]
      exact ⟨huntouched, trivial⟩
  | find providers options =>
    refine ⟨?_, trivial⟩
    cases (exec_findDeployedContract run).2 with
    | early => exact hstored
    | late key =>
      rw [key.privateStates]
      exact hstored
    | found key state =>
      rw [state.privateStates_of_not hgives, key.privateStates]
      exact hstored
  | call providers options =>
    obtain ⟨hfollows, hwrites⟩ := Submission.spec (.call providers options) run
    cases out with
    | error e =>
      rw [hfollows.rejects e rfl]
      exact ⟨hstored, trivial⟩
    | ok r =>
      obtain ⟨rfl, w, hinput, hexec⟩ := hwrites r rfl
      change (s.setAt options.privateStateId r.private.nextPrivateState).privateStates id =
        some (if options.privateStateId = some id then r.private.nextPrivateState else v) ∧ _
      by_cases hid : options.privateStateId = some id
      · rw [if_pos hid]
        rw [hid] at hinput ⊢
        obtain rfl : w = v := Option.some.inj (hinput.1.symm.trans hstored)
        exact ⟨PrivateStore.set_privateStates_self, fun _ => hexec⟩
      · rw [if_neg hid, PrivateStore.setAt_privateStates_of_ne hid]
        exact ⟨hstored, fun h => absurd h hid⟩
  | replaceAuthority a' k' =>
    obtain ⟨_, rfl⟩ | ⟨_, _, rfl⟩ := exec_submission (.replaceAuthority a' k') run
    · exact ⟨hstored, trivial⟩
    · exact ⟨hstored, trivial⟩
  | insertVerifierKey a' circuitId newVk =>
    obtain ⟨_, rfl⟩ | ⟨_, _, rfl⟩ :=
      exec_submission (.insertVerifierKey a' circuitId newVk) run
    · exact ⟨hstored, trivial⟩
    · exact ⟨hstored, trivial⟩
  | removeVerifierKey a' circuitId =>
    obtain ⟨_, rfl⟩ | ⟨_, _, rfl⟩ := exec_submission (.removeVerifierKey a' circuitId) run
    · exact ⟨hstored, trivial⟩
    · exact ⟨hstored, trivial⟩

theorem ContractOp.deployedBy_spec (op : ContractOp PS) {out : Except ContractsError op.Result}
    (run : Exec (storeEnv MayFail) op.program s tr out s') {providers : ContractProviders}
    {options : DeployContractOptions PS} {r : DeployedContract PS}
    (h : op.deployedBy out = some (providers, options, r)) :
    Deployed providers options s tr r s' := by
  cases op with
  | deploy providers' options' =>
    cases exec_deployContract run with
    | rejected => cases h
    | strayed => cases h
    | deployed drawn leaves =>
      cases h
      exact leaves
  | _ => cases h

/-- A find that gives neither a key nor a private state, of an address with a key, returns what is
stored and leaves it as it is. -/
theorem ContractOp.foundBy_spec (op : ContractOp PS) {out : Except ContractsError op.Result}
    (run : Exec (storeEnv MayFail) op.program s tr out s') {providers : ContractProviders}
    {options : FindDeployedContractOptions PS} {r : FoundContract PS} {k : SigningKey}
    (h : op.foundBy out = some (providers, options, r)) (hgiven : options.signingKey = none)
    (hinitial : options.initialPrivateState = none)
    (hstored : s.signingKeys options.contractAddress = some k) (hk : k ≠ []) :
    s' = s ∧ r.deployTxData.private.signingKey = k ∧
      (∀ id, options.privateStateId = some id →
        s.privateStates id = some r.deployTxData.private.initialPrivateState) ∧
      createInterfaces providers options.contract options.contractAddress options.privateStateId =
        .ok r.interfaces := by
  cases op with
  | find providers' options' =>
    cases out with
    | error e => cases h
    | ok r' =>
      cases h
      have hinterfaces := exec_findDeployedContract_interfaces run
      cases (exec_findDeployedContract run).2 with
      | @found _ k' v s₁ _ key state returned =>
        rw [returned]
        cases key with
        | given hg => rw [hgiven] at hg; cases hg
        | sampled _ hn =>
          rw [hstored, truthy_some, (truthy_string k).mpr hk] at hn
          cases hn
        | kept _ hkept =>
          obtain rfl : k' = k := Option.some.inj (hkept.symm.trans hstored)
          cases state with
          | stored _ hv => rw [hinitial] at hv; cases hv
          | read hid _ hv =>
            refine ⟨rfl, rfl, fun id hid' => ?_, hinterfaces⟩
            cases hid'.symm.trans hid
            exact hv
          | absent hid =>
            refine ⟨rfl, rfl, fun id hid' => ?_, hinterfaces⟩
            cases hid'.symm.trans hid
  | _ => cases h

/-! ## Sessions -/

variable (PS) in
abbrev PerformedOp : Type := Performed (contractOps PS) (PrivateStore PS)

/-- The key of the address after a session. -/
def keyAfterAll (a : ContractAddress) (k : SigningKey) (done : List (PerformedOp PS)) :
    SigningKey :=
  done.foldl (fun k d => ContractOp.keyAfter a k d.op d.outcome) k

/-- The private state at the id after a session. -/
def stateAfterAll (id : PrivateStateId) (v : PS) (done : List (PerformedOp PS)) : PS :=
  done.foldl (fun v d => ContractOp.stateAfter id v d.op d.outcome) v

/-- The new keys of authority replacements are not empty. -/
def InstallsNonempty (done : List (PerformedOp PS)) : Prop :=
  ∀ d ∈ done, ∀ a k, d.op = .replaceAuthority a k → k ≠ []

omit [Undefined PS] in
theorem ContractOp.keyAfter_ne_nil {op : ContractOp PS} {out : Except ContractsError op.Result}
    {a : ContractAddress} {k : SigningKey} (hk : k ≠ [])
    (hop : ∀ a k, op = .replaceAuthority a k → k ≠ []) : op.keyAfter a k out ≠ [] := by
  cases op with
  | replaceAuthority a' k' =>
    cases out with
    | error e => exact hk
    | ok r =>
      change (if a' = a then k' else k) ≠ []
      split
      · exact hop _ _ rfl
      · exact hk
  | _ => exact hk

theorem signingKeys_session {a : ContractAddress} {k : SigningKey} {s₁ : PrivateStore PS}
    {done : List (PerformedOp PS)} (session : Session (storeEnv MayFail) s done s₁)
    (hstored : s.signingKeys a = some k) (hk : k ≠ [])
    (hgives : ∀ d ∈ done, ¬ ContractOp.GivesKey d.op d.trace a) (hinstalls : InstallsNonempty done) :
    s₁.signingKeys a = some (keyAfterAll a k done) ∧ keyAfterAll a k done ≠ [] := by
  refine session.foldl_rel (R := fun s k => s.signingKeys a = some k ∧ k ≠ []) ⟨hstored, hk⟩ ?_
  rintro d hd valid k' ⟨hstored, hk⟩
  exact ⟨ContractOp.signingKeys_after d.op valid (hgives d hd) hstored hk,
    ContractOp.keyAfter_ne_nil hk (hinstalls d hd)⟩

theorem privateStates_session {id : PrivateStateId} {v : PS} {s₁ : PrivateStore PS}
    {done : List (PerformedOp PS)} (session : Session (storeEnv MayFail) s done s₁)
    (hstored : s.privateStates id = some v) (hgives : ∀ d ∈ done, ¬ ContractOp.GivesState d.op id) :
    s₁.privateStates id = some (stateAfterAll id v done) := by
  refine session.foldl_rel (R := fun s v => s.privateStates id = some v) hstored ?_
  intro d hd valid v' hstored
  exact (ContractOp.privateStates_after d.op valid (hgives d hd) hstored).1

/-- Nothing between the deployment and the find gives the address a key or the id a state, except
authority replacements and calls. -/
structure OnlyMaintainedAndCalled (a : ContractAddress) (privateStateId : Option PrivateStateId)
    (done : List (PerformedOp PS)) : Prop where
  key : ∀ d ∈ done, ¬ ContractOp.GivesKey d.op d.trace a
  state : ∀ d ∈ done, ∀ id, privateStateId = some id → ¬ ContractOp.GivesState d.op id
  installs : InstallsNonempty done

/-- A deployed contract is found again as it was left: with the key of its last resolved authority
replacement, else the one it was deployed with; with the private state that its resolved calls, each
run on what the one before it returned, made of the constructor's; and with the same interfaces.
The find itself changes nothing. -/
theorem found_as_left {s₀ s₁ : PrivateStore PS} {pre mid post : List (PerformedOp PS)}
    {d₀ d₁ : PerformedOp PS} {providers providers' : ContractProviders}
    {options : DeployContractOptions PS} {r : DeployedContract PS}
    {options' : FindDeployedContractOptions PS} {r' : FoundContract PS}
    (session : Session (storeEnv MayFail) s₀ (pre ++ d₀ :: (mid ++ d₁ :: post)) s₁)
    (hdeployed : ContractOp.deployedBy d₀.op d₀.outcome = some (providers, options, r))
    (hfound : ContractOp.foundBy d₁.op d₁.outcome = some (providers', options', r'))
    (haddress : options'.contractAddress = r.deployTxData.public.contractAddress)
    (hid : options'.privateStateId = options.privateStateId)
    (hgiven : options'.signingKey = none) (hinitial : options'.initialPrivateState = none)
    (hk : r.deployTxData.private.signingKey ≠ [])
    (hmid : OnlyMaintainedAndCalled r.deployTxData.public.contractAddress options.privateStateId
      mid) :
    r'.deployTxData.private.signingKey = keyAfterAll r.deployTxData.public.contractAddress
        r.deployTxData.private.signingKey mid ∧
      (∀ id, options.privateStateId = some id →
        r'.deployTxData.private.initialPrivateState =
            stateAfterAll id r.deployTxData.private.initialPrivateState mid ∧
          ∀ pre' d post', mid = pre' ++ d :: post' → ContractOp.RunsOn id
            (stateAfterAll id r.deployTxData.private.initialPrivateState pre') d.op d.outcome
            d.trace) ∧
      d₁.after = d₁.before ∧
      (providers' = providers → options'.contract = options.contract →
        r'.interfaces = r.interfaces) := by
  obtain ⟨_, valid₀, hrest⟩ := session.split
  obtain ⟨hbetween, valid₁, _⟩ := hrest.split
  have hleaves := ContractOp.deployedBy_spec d₀.op valid₀ hdeployed
  have hkey₀ : d₀.after.signingKeys r.deployTxData.public.contractAddress =
      some r.deployTxData.private.signingKey := by
    rw [hleaves.store, PrivateStore.setSigningKey_signingKeys_self]
  have hstate₀ : ∀ id, options.privateStateId = some id →
      d₀.after.privateStates id = some r.deployTxData.private.initialPrivateState := by
    intro id hid
    rw [hleaves.store, hid]
    exact PrivateStore.set_privateStates_self
  obtain ⟨hkey₁, hne⟩ := signingKeys_session hbetween hkey₀ hk hmid.key hmid.installs
  rw [← haddress] at hkey₁ hne
  obtain ⟨hafter, hkey, hstate, hinterfaces⟩ :=
    ContractOp.foundBy_spec d₁.op valid₁ hfound hgiven hinitial hkey₁ hne
  refine ⟨by rw [hkey, haddress], fun id hid' => ⟨?_, ?_⟩, hafter, ?_⟩
  · have hstored := hstate id (hid.trans hid')
    rw [privateStates_session hbetween (hstate₀ id hid') fun d hd => hmid.state d hd id hid']
      at hstored
    exact (Option.some.inj hstored).symm
  · rintro pre' d post' rfl
    obtain ⟨hbefore, valid, _⟩ := hbetween.split
    have hstored := privateStates_session hbefore (hstate₀ id hid') fun d hd =>
      hmid.state d (List.mem_append_left _ hd) id hid'
    exact (ContractOp.privateStates_after d.op valid (hmid.state d (by simp) id hid') hstored).2
  · rintro rfl hcontract
    rw [hcontract, haddress, hid, hleaves.interfaces] at hinterfaces
    exact (Except.ok.inj hinterfaces).symm

end Life

namespace Sample

/-- A contract deployed under a fresh key, called once, given a new authority, and found again. -/
def life : List (PerformedOp (Option ℕ)) × PrivateStore (Option ℕ) :=
  (contractOps (Option ℕ)).perform (storeHandler (reply .SucceedEntirely))
    [.deploy providers ⟨contract 1, none, none, some (js "id"), some (some 5)⟩,
      .call providers ⟨contract 1, circuitId, address, none, some (js "id")⟩,
      .replaceAuthority address (key 2),
      .find providers (findOptions none (some (js "id")) none)]
    (store none none)

def lived (n : Fin 4) : PerformedOp (Option ℕ) := life.1.get ⟨n, n.isLt⟩

theorem only_maintained_and_called :
    OnlyMaintainedAndCalled address (some (js "id")) [lived 1, lived 2] where
  key d hd := by
    obtain rfl | rfl := List.mem_pair.mp hd <;> exact id
  state d hd id _ := by
    obtain rfl | rfl := List.mem_pair.mp hd <;> exact fun h => h
  installs d hd a k hop := by
    obtain rfl | rfl := List.mem_pair.mp hd
    · cases hop
    · cases hop
      decide

theorem found_as_left_life : ∃ providers options r,
    ContractOp.foundBy (lived 3).op (lived 3).outcome = some (providers, options, r) ∧
      r.deployTxData.private.signingKey = key 2 ∧
      r.deployTxData.private.initialPrivateState = some 6 := by
  have session : Session (storeEnv MayFail) (store none none) life.1 life.2 :=
    session_perform (storeEnv_storeHandler fun _ h => h) _ _
  have hlife : life.1 = [] ++ lived 0 :: ([lived 1, lived 2] ++ lived 3 :: []) := rfl
  rw [hlife] at session
  obtain ⟨hkey, hstate, _⟩ := found_as_left session rfl rfl rfl rfl rfl rfl (by decide)
    only_maintained_and_called
  exact ⟨_, _, _, rfl, hkey, (hstate _ rfl).1⟩

end Sample

end MidnightJs
