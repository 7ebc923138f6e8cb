import MidnightJs.Contracts.Executions

/-! # Sessions of the submitting operations

`submitCallTx`, `submitDeployTx`, `submitReplaceAuthorityTx`, `submitInsertVerifierKeyTx` and
`submitRemoveVerifierKeyTx` as instances of `transact`, and what a session of them does to the
store when any step but a write may fail. -/

namespace MidnightJs
open Foundations Foundations.Js Foundations.Async
set_option autoImplicit false

section Operations

variable [Runtime] {PS : Type}

/-! ## The maintenance operations -/

/-- The part of a maintenance operation before its submission. -/
def maintenanceBuild (contractAddress : ContractAddress)
    (check : ContractState → Except JsError Unit)
    (tx : ContractState → SigningKey → UnprovenTransaction) : Promise PS UnprovenTransaction := do
  sync (assertIsContractAddress contractAddress)
  let contractState ← definedContractState contractAddress
    (← provide (.queryContractState contractAddress))
  sync (check contractState)
  let signingKey ← definedSigningKey contractAddress (← provide (.getSigningKey contractAddress))
  return tx contractState signingKey

theorem prepares_maintenanceBuild (also : ContractsError → Prop) (a : ContractAddress)
    (check : ContractState → Except JsError Unit)
    (tx : ContractState → SigningKey → UnprovenTransaction) :
    Prepares ProviderCall.IsPreparation also (maintenanceBuild a check tx : Promise PS _) := by
  refine .bind (.sync _) fun _ => .bind (.provide trivial) fun _ => .bind (.sync _) fun _ => ?_
  refine .bind (.sync _) fun _ => .bind (.provide trivial) fun _ => .bind (.sync _) fun _ => ?_
  exact .resolve _

theorem submitReplaceAuthorityTx_eq (a : ContractAddress) (k : SigningKey) :
    (submitReplaceAuthorityTx a k : Promise PS _) = transact
      (maintenanceBuild a (fun _ => .ok ()) (createUnprovenReplaceAuthorityTx a k))
      (fun tx => ⟨tx, none, none⟩) .replaceMaintenanceAuthorityTxFailed
      (fun _ => provide (.setSigningKey a k)) (fun _ data => data) := by
  simp only [submitReplaceAuthorityTx, transact, maintenanceBuild, Program.bind_eq,
    Program.bind_assoc, Program.pure_eq, Program.resolve_bind]
  rfl

theorem submitInsertVerifierKeyTx_eq (a : ContractAddress) (circuitId : CircuitId)
    (newVk : VerifierKey) :
    (submitInsertVerifierKeyTx a circuitId newVk : Promise PS _) = transact
      (maintenanceBuild a (fun contractState => assertUndefined (contractState.operation circuitId)
          (js "Circuit '" ++ circuitId ++ js "' is already defined for contract at address '" ++
            a ++ js "'"))
        (createUnprovenInsertVerifierKeyTx a circuitId newVk))
      (fun tx => ⟨tx, none, none⟩) .insertVerifierKeyTxFailed
      (fun _ => .resolve ()) (fun _ data => data) := by
  simp only [submitInsertVerifierKeyTx, transact, maintenanceBuild, Program.bind_eq,
    Program.bind_assoc, Program.pure_eq, Program.resolve_bind]

theorem sync_map_bind {α β γ : Type} (x : Except JsError α) (g : α → β) (f : β → Promise PS γ) :
    (sync (x.map g) : Promise PS β).bind f = (sync x : Promise PS α).bind fun a => f (g a) := by
  cases x <;> rfl

theorem submitRemoveVerifierKeyTx_eq (a : ContractAddress) (circuitId : CircuitId) :
    (submitRemoveVerifierKeyTx a circuitId : Promise PS _) = transact
      (maintenanceBuild a (fun contractState =>
          (assertDefined (contractState.operation circuitId)
            (js "Circuit '" ++ circuitId ++ js "' not found for contract at address '" ++ a ++
              js "'")).map fun _ => ())
        (createUnprovenRemoveVerifierKeyTx a circuitId))
      (fun tx => ⟨tx, none, none⟩) .removeVerifierKeyTxFailed
      (fun _ => .resolve ()) (fun _ data => data) := by
  simp only [submitRemoveVerifierKeyTx, transact, maintenanceBuild, Program.bind_eq,
    Program.bind_assoc, Program.pure_eq, Program.resolve_bind, sync_map_bind]

/-! ## Calls and deployments -/

variable [Undefined PS]

/-- The part of `submitCallTx` before the submission. -/
def callBuild (providers : ContractProviders) (options : CallTxOptions PS) :
    Promise PS (UnsubmittedCallTxData PS) := do
  sync (assertIsContractAddress options.contractAddress)
  let _circuit ← sync (assertDefined (options.contract.impureCircuit options.circuitId)
    (js "Circuit '" ++ options.circuitId ++ js "' is undefined"))
  if options.privateStateId.isSome && !providers.hasPrivateStateProvider then
    .reject .incompleteCallTxPrivateStateConfig
  else createUnprovenCallTx providers options

theorem prepares_callBuild (providers : ContractProviders) (options : CallTxOptions PS) :
    Prepares ProviderCall.BuildsCall ContractsError.IsNoPrivateState
      (callBuild providers options) := by
  refine .bind (.sync _) fun _ => .bind (.sync _) fun _ => ?_
  split
  · exact .reject trivial
  · exact prepares_createUnprovenCallTx _ _

theorem submitCallTx_eq (providers : ContractProviders) (options : CallTxOptions PS) :
    submitCallTx providers options = transact (callBuild providers options)
      (fun d => ⟨d.private.unprovenTx, some d.private.newCoins, some options.circuitId⟩)
      (fun data => .callTxFailed data options.circuitId)
      (fun d => setPrivateState
        (if providers.hasPrivateStateProvider then options.privateStateId else none)
        d.private.nextPrivateState)
      (fun d data => ⟨⟨d.public, data⟩, d.private⟩) := by
  simp only [submitCallTx, transact, callBuild, Program.bind_eq, Program.bind_assoc]
  congr 1
  funext _
  congr 1
  funext _
  split <;> rfl

theorem submitDeployTx_eq (providers : ContractProviders) (options : DeployTxOptions PS) :
    submitDeployTx providers options = transact (createUnprovenDeployTx providers options)
      (fun d => ⟨d.private.unprovenTx, some d.private.newCoins, none⟩) .deployTxFailed
      (fun d => do
        setPrivateState options.privateStateId d.private.initialPrivateState
        provide (.setSigningKey d.public.contractAddress d.private.signingKey))
      (fun d data => ⟨⟨data, d.public⟩, d.private⟩) := by
  simp only [submitDeployTx, transact, Program.bind_eq, Program.bind_assoc]

/-! ## What was built -/

variable {mayReject : ProviderCall PS → Prop} {s s' : PrivateStore PS}
  {tr : List (Event (Providers PS))}

theorem exec_callBuild_ok {providers : ContractProviders} {options : CallTxOptions PS}
    {d : UnsubmittedCallTxData PS}
    (run : Exec (storeEnv mayReject) (callBuild providers options) s tr (.ok d) s') :
    (if providers.hasPrivateStateProvider then options.privateStateId else none) =
        options.privateStateId ∧
      ∃ v, InputOf s options.privateStateId v ∧
        executions tr = [(v, d.private.nextPrivateState)] := by
  obtain ⟨_, _, run⟩ := exec_sync_bind_ok run
  obtain ⟨_, _, run⟩ := exec_sync_bind_ok run
  split at run
  · obtain ⟨_, h, _⟩ := exec_reject.mp run
    cases h
  · next h =>
    refine ⟨?_, exec_createUnprovenCallTx_executions run⟩
    cases hid : options.privateStateId with
    | none => simp
    | some id =>
      rw [hid] at h
      simpa using h

/-- A deployment is built of what the constructor returns for the options, under the key of the
options, at the address drawn for it. -/
structure BuiltDeployment (providers : ContractProviders) (options : DeployTxOptions PS)
    (tr : List (Event (Providers PS))) (d : UnsubmittedDeployTxData PS) : Prop where
  constructed : ∃ cpk constructed,
    parseCoinPublicKeyToHex providers.walletProvider.coinPublicKey = .ok cpk ∧
    callContractConstructor (createContractConstructorOptions options cpk) = .ok constructed ∧
    d.private.initialPrivateState = constructed.nextPrivateState
  signingKey : d.private.signingKey = options.signingKey
  address : ∃ initialState,
    ⟨.newContractDeploy initialState, .ok d.public.contractAddress⟩ ∈ tr

omit [Undefined PS] in
theorem exec_createUnprovenLedgerDeployTx_ok {verifierKeys : List (CircuitId × VerifierKey)}
    {sk : SigningKey} {contractState : ContractState} {zswapState : ZswapLocalState}
    {epk : JsString} {res : ContractAddress × ContractState × UnprovenTransaction}
    (run : Exec (storeEnv mayReject) (createUnprovenLedgerDeployTx verifierKeys sk contractState
      zswapState epk : Promise PS _) s tr (.ok res) s') :
    ⟨.newContractDeploy res.2.1, .ok res.1⟩ ∈ tr := by
  obtain ⟨withVerifierKeys, _, run⟩ := exec_sync_bind_ok run
  obtain ⟨address, s₁, tr₁, _, run₁, rfl⟩ := exec_provide_bind_ok run
  obtain ⟨offer, _, run₁⟩ := exec_sync_bind_ok run₁
  obtain ⟨rfl, hres, _⟩ := exec_resolve.mp run₁
  cases hres
  simp

theorem exec_createUnprovenDeployTx_ok {providers : ContractProviders}
    {options : DeployTxOptions PS} {d : UnsubmittedDeployTxData PS}
    (run : Exec (storeEnv mayReject) (createUnprovenDeployTx providers options) s tr (.ok d) s') :
    BuiltDeployment providers options tr d := by
  obtain ⟨verifierKeys, s₁, tr₁, _, run₁, rfl⟩ := exec_provide_bind_ok run
  obtain ⟨cpk, hcpk, run₁⟩ := exec_sync_bind_ok run₁
  obtain ⟨constructed, hconstructed, run₁⟩ := exec_sync_bind_ok run₁
  obtain ⟨res, s₂, tr₂, tr₃, hdeploy, run₂, rfl⟩ := exec_bind_ok.mp run₁
  obtain ⟨rfl, hres, _⟩ := exec_resolve.mp run₂
  cases hres
  have haddress := exec_createUnprovenLedgerDeployTx_ok hdeploy
  exact ⟨⟨cpk, constructed, hcpk, hconstructed, rfl⟩, rfl, res.2.1, by simp [haddress]⟩

/-! ## Writes that succeed -/

/-- Every call but a write to the store may be rejected. -/
def MayFail (c : ProviderCall PS) : Prop := ¬ c.IsWrite

def WritesExactly (write : Promise PS Unit) (effect : PrivateStore PS → PrivateStore PS) : Prop :=
  ∀ s tr out s', Exec (storeEnv MayFail) write s tr out s' →
    out = .ok () ∧ AllOk tr ∧ executions tr = [] ∧ s' = effect s

omit [Undefined PS] in
theorem writesExactly_resolve : WritesExactly (.resolve () : Promise PS Unit) id := by
  intro s tr out s' run
  obtain ⟨rfl, rfl, rfl⟩ := exec_resolve.mp run
  exact ⟨rfl, allOk_nil, rfl, rfl⟩

omit [Undefined PS] in
theorem writesExactly_setSigningKey (a : ContractAddress) (k : SigningKey) :
    WritesExactly (provide (.setSigningKey a k) : Promise PS Unit) (·.setSigningKey a k) := by
  intro s tr out s' run
  obtain ⟨r, hr, rfl, rfl⟩ := (exec_call (E := Providers PS)).mp run
  cases r with
  | ok reply => exact ⟨rfl, allOk_cons.mpr ⟨isOk_ok, allOk_nil⟩, rfl, hr⟩
  | error why => exact absurd trivial hr.1

omit [Undefined PS] in
theorem writesExactly_setPrivateState (id : Option PrivateStateId) (v : PS) :
    WritesExactly (setPrivateState id v) (·.setAt id v) := by
  cases id with
  | none => exact writesExactly_resolve
  | some id =>
    intro s tr out s' run
    obtain ⟨r, hr, rfl, rfl⟩ := (exec_call (E := Providers PS)).mp run
    cases r with
    | ok reply => exact ⟨rfl, allOk_cons.mpr ⟨isOk_ok, allOk_nil⟩, rfl, hr⟩
    | error why => exact absurd trivial hr.1

omit [Undefined PS] in
theorem WritesExactly.bind {p q : Promise PS Unit} {f g : PrivateStore PS → PrivateStore PS}
    (hp : WritesExactly p f) (hq : WritesExactly q g) :
    WritesExactly (p >>= fun _ => q) (fun s => g (f s)) := by
  intro s tr out s' run
  obtain ⟨e, hrun, rfl⟩ | ⟨_, s₁, tr₁, tr₂, hrun, hrun', rfl⟩ := exec_bind.mp run
  · obtain ⟨h, _⟩ := hp _ _ _ _ hrun
    cases h
  · obtain ⟨_, hok, hexec, rfl⟩ := hp _ _ _ _ hrun
    obtain ⟨rfl, hok', hexec', rfl⟩ := hq _ _ _ _ hrun'
    refine ⟨rfl, allOk_append.mpr ⟨hok, hok'⟩, ?_, rfl⟩
    rw [executions_append, hexec, hexec']
    rfl

section Transact

variable {δ ρ : Type} {build : Promise PS δ} {options : δ → SubmitTxOptions}
  {failed : FinalizedTxData → ContractsError} {write : δ → Promise PS Unit}
  {result : δ → FinalizedTxData → ρ} {effect : δ → PrivateStore PS → PrivateStore PS}
  {also : ContractsError → Prop}

/-- The outcome of an operation and the store it leaves, against its steps and its final status. -/
structure FollowsTransaction (s : PrivateStore PS) (tr : List (Event (Providers PS)))
    (out : Except ContractsError ρ) (s' : PrivateStore PS) : Prop where
  resolves_iff : (∃ r, out = .ok r) ↔ FinalizedAs tr .SucceedEntirely
  notFailed : ∀ r, out = .ok r → ¬ Failed tr out
  rejects : ∀ e, out = .error e → s' = s

omit [Undefined PS] in
theorem transact_followsTransaction {out : Except ContractsError ρ}
    (hbuild : Prepares ProviderCall.IsPreparation also build)
    (hwrite : ∀ d, WritesExactly (write d) (effect d))
    (run : Exec (storeEnv MayFail) (transact build options failed write result) s tr out s') :
    FollowsTransaction s tr out s' := by
  obtain ⟨⟨e, rfl⟩, rfl, hstatus⟩ | ⟨d, data, tr₁, tr₂, written, hsucc, hw, rfl, rfl⟩ :=
    exec_transact hbuild run
  · refine ⟨?_, ?_, fun _ _ => rfl⟩
    · simp [hstatus]
    · rintro r h
      cases h
  · obtain ⟨rfl, hok, _, rfl⟩ := hwrite d _ _ _ _ hw
    refine ⟨⟨fun _ => hsucc.finalizedAs, fun _ => ⟨_, rfl⟩⟩, ?_, ?_⟩
    · rintro r - (hfailed | ⟨e, h, _⟩)
      · exact hfailed (allOk_append.mpr ⟨hsucc.allOk, hok⟩)
      · cases h
    · rintro e h
      cases h

omit [Undefined PS] in
/-- A resolved operation wrote what it built, and executed circuits only while building it. -/
theorem transact_resolved {r : ρ} (hbuild : Prepares ProviderCall.IsPreparation also build)
    (hwrite : ∀ d, WritesExactly (write d) (effect d))
    (run : Exec (storeEnv MayFail) (transact build options failed write result) s tr (.ok r) s') :
    ∃ d data tr₁ tr₂, Exec (storeEnv MayFail) build s tr₁ (.ok d) s ∧ r = result d data ∧
      s' = effect d s ∧ tr = tr₁ ++ tr₂ ∧ executions tr = executions tr₁ := by
  obtain ⟨⟨e, h⟩, _⟩ | ⟨d, data, tr₁, tr₂, written, hsucc, hw, rfl, hres⟩ :=
    exec_transact hbuild run
  · cases h
  · obtain ⟨rfl, _, hexec, rfl⟩ := hwrite d _ _ _ _ hw
    cases hres
    obtain ⟨tr₃, tr₄, rfl, hb, hs⟩ := hsucc.parts
    refine ⟨d, data, tr₃, tr₄ ++ tr₂, hb, rfl, rfl, List.append_assoc _ _ _, ?_⟩
    have hsubmit : executions tr₄ = [] :=
      (prepares_submitTx NoOther _).executions_eq_nil (fun _ h => h.circuitInput) hs
    simp [executions_append, hexec, hsubmit]

end Transact

/-! ## Sessions -/

variable (PS) in
inductive Submission
  | call (providers : ContractProviders) (options : CallTxOptions PS)
  | deploy (providers : ContractProviders) (options : DeployTxOptions PS)
  | replaceAuthority (contractAddress : ContractAddress) (newAuthority : SigningKey)
  | insertVerifierKey (contractAddress : ContractAddress) (circuitId : CircuitId)
      (newVk : VerifierKey)
  | removeVerifierKey (contractAddress : ContractAddress) (circuitId : CircuitId)

namespace Submission

def Result : Submission PS → Type
  | .call _ _ => FinalizedCallTxData PS
  | .deploy _ _ => FinalizedDeployTxData PS
  | _ => FinalizedTxData

def program : (op : Submission PS) → Promise PS op.Result
  | .call providers options => submitCallTx providers options
  | .deploy providers options => submitDeployTx providers options
  | .replaceAuthority a k => submitReplaceAuthorityTx a k
  | .insertVerifierKey a circuitId newVk => submitInsertVerifierKeyTx a circuitId newVk
  | .removeVerifierKey a circuitId => submitRemoveVerifierKeyTx a circuitId

/-- The documented writes of a resolved operation. -/
def writes : (op : Submission PS) → op.Result → PrivateStore PS → PrivateStore PS
  | .call _ options, r, s => s.setAt options.privateStateId r.private.nextPrivateState
  | .deploy _ options, r, s =>
    (s.setAt options.privateStateId r.private.initialPrivateState).setSigningKey
      r.public.contractAddress r.private.signingKey
  | .replaceAuthority a k, _, s => s.setSigningKey a k
  | .insertVerifierKey _ _ _, _, s => s
  | .removeVerifierKey _ _, _, s => s

/-- Where the written values come from: the one circuit the call executed, on the private state
stored at its id; the constructor, the options and the drawn address of the deployment. -/
def Provenance : (op : Submission PS) → op.Result → List (Event (Providers PS)) →
    PrivateStore PS → Prop
  | .call _ options, r, tr, s => ∃ v, InputOf s options.privateStateId v ∧
      executions tr = [(v, r.private.nextPrivateState)]
  | .deploy providers options, r, tr, _ =>
    BuiltDeployment providers options tr ⟨r.public.toUnsubmittedDeployTxPublicData, r.private⟩
  | _, _, _, _ => True

end Submission

variable (PS) in
def submissions : Service (Providers PS) ContractsError :=
  ⟨Submission PS, Submission.Result, Submission.program⟩

omit [Undefined PS] in
/-- A maintenance transaction, by what it writes at the end. -/
theorem maintenance_spec {contractAddress : ContractAddress}
    {check : ContractState → Except JsError Unit}
    {tx : ContractState → SigningKey → UnprovenTransaction}
    {options : UnprovenTransaction → SubmitTxOptions} {failed : FinalizedTxData → ContractsError}
    {write : Promise PS Unit} {effect : PrivateStore PS → PrivateStore PS}
    (hwrite : WritesExactly write effect) {out : Except ContractsError FinalizedTxData}
    (run : Exec (storeEnv MayFail) (transact (maintenanceBuild contractAddress check tx) options
      failed (fun _ => write) (fun _ data => data)) s tr out s') :
    FollowsTransaction s tr out s' ∧ ∀ r, out = .ok r → s' = effect s := by
  have hbuild : Prepares ProviderCall.IsPreparation NoOther
      (maintenanceBuild contractAddress check tx : Promise PS _) :=
    prepares_maintenanceBuild NoOther contractAddress check tx
  refine ⟨transact_followsTransaction hbuild (fun _ => hwrite) run, ?_⟩
  rintro r rfl
  obtain ⟨_, _, _, _, _, _, rfl, _⟩ := transact_resolved hbuild (fun _ => hwrite) run
  rfl

theorem Submission.spec (op : Submission PS) {out : Except ContractsError op.Result}
    (run : Exec (storeEnv MayFail) op.program s tr out s') :
    FollowsTransaction s tr out s' ∧
      ∀ r, out = .ok r → s' = op.writes r s ∧ op.Provenance r tr s := by
  cases op with
  | call providers options =>
    have hbuild := (prepares_callBuild providers options).mono fun _ h => h.isPreparation
    have hwrite := fun d : UnsubmittedCallTxData PS => writesExactly_setPrivateState
      (if providers.hasPrivateStateProvider then options.privateStateId else none)
      d.private.nextPrivateState
    change Exec _ (submitCallTx providers options) s tr out s' at run
    rw [submitCallTx_eq] at run
    refine ⟨transact_followsTransaction hbuild hwrite run, ?_⟩
    rintro r rfl
    obtain ⟨d, data, tr₁, tr₂, hb, rfl, rfl, rfl, hexec⟩ := transact_resolved hbuild hwrite run
    obtain ⟨hid, v, hv, htr₁⟩ := exec_callBuild_ok hb
    refine ⟨?_, v, hv, hexec.trans htr₁⟩
    rw [hid]
    rfl
  | deploy providers options =>
    have hbuild := (prepares_createUnprovenDeployTx NoOther providers options).mono
      fun _ h => h.isPreparation
    have hwrite := fun d : UnsubmittedDeployTxData PS =>
      (writesExactly_setPrivateState options.privateStateId d.private.initialPrivateState).bind
        (writesExactly_setSigningKey d.public.contractAddress d.private.signingKey)
    change Exec _ (submitDeployTx providers options) s tr out s' at run
    rw [submitDeployTx_eq] at run
    refine ⟨transact_followsTransaction hbuild hwrite run, ?_⟩
    rintro r rfl
    obtain ⟨d, data, tr₁, tr₂, hb, rfl, rfl, rfl, _⟩ := transact_resolved hbuild hwrite run
    obtain ⟨hconstructed, hkey, initialState, haddress⟩ := exec_createUnprovenDeployTx_ok hb
    exact ⟨rfl, hconstructed, hkey, initialState, List.mem_append_left _ haddress⟩
  | replaceAuthority a k =>
    change Exec _ (submitReplaceAuthorityTx a k) s tr out s' at run
    rw [submitReplaceAuthorityTx_eq] at run
    obtain ⟨hfollows, hwrites⟩ := maintenance_spec (writesExactly_setSigningKey a k) run
    exact ⟨hfollows, fun r hr => ⟨hwrites r hr, trivial⟩⟩
  | insertVerifierKey a circuitId newVk =>
    change Exec _ (submitInsertVerifierKeyTx a circuitId newVk) s tr out s' at run
    rw [submitInsertVerifierKeyTx_eq] at run
    obtain ⟨hfollows, hwrites⟩ := maintenance_spec writesExactly_resolve run
    exact ⟨hfollows, fun r hr => ⟨hwrites r hr, trivial⟩⟩
  | removeVerifierKey a circuitId =>
    change Exec _ (submitRemoveVerifierKeyTx a circuitId) s tr out s' at run
    rw [submitRemoveVerifierKeyTx_eq] at run
    obtain ⟨hfollows, hwrites⟩ := maintenance_spec writesExactly_resolve run
    exact ⟨hfollows, fun r hr => ⟨hwrites r hr, trivial⟩⟩

/-- What an operation does to the store: its documented writes if it resolved. -/
def submissionEffect (s : PrivateStore PS) (d : Performed (submissions PS) (PrivateStore PS)) :
    PrivateStore PS :=
  match d.outcome with
  | .ok r => Submission.writes d.op r s
  | .error _ => s

/-- The store follows the successful transactions: an operation resolves iff none of its steps
failed and its transaction succeeded entirely, a rejected one leaves the store as it was, and the
store after the session is the initial one after the documented writes of the resolved ones. -/
theorem store_follows_transactions {s₀ s : PrivateStore PS}
    {done : List (Performed (submissions PS) (PrivateStore PS))}
    (session : Session (storeEnv MayFail) s₀ done s) :
    (∀ d ∈ done,
      (d.Resolved ↔ ¬ Failed d.trace d.outcome ∧ FinalizedAs d.trace .SucceedEntirely) ∧
      (∀ e, d.outcome = .error e → d.after = d.before) ∧
      ∀ r, d.outcome = .ok r → d.after = Submission.writes d.op r d.before ∧
        Submission.Provenance d.op r d.trace d.before) ∧
    s = done.foldl submissionEffect s₀ := by
  have hspec : ∀ d ∈ done, FollowsTransaction d.before d.trace d.outcome d.after ∧
      ∀ r, d.outcome = .ok r → d.after = Submission.writes d.op r d.before ∧
        Submission.Provenance d.op r d.trace d.before :=
    fun d hd => Submission.spec d.op (session.valid_of_mem hd)
  refine ⟨fun d hd => ⟨⟨?_, ?_⟩, (hspec d hd).1.rejects, (hspec d hd).2⟩, ?_⟩
  · rintro ⟨r, hr⟩
    exact ⟨(hspec d hd).1.notFailed r hr, (hspec d hd).1.resolves_iff.mp ⟨r, hr⟩⟩
  · rintro ⟨_, hfinalized⟩
    exact (hspec d hd).1.resolves_iff.mpr hfinalized
  refine session.foldl fun d hd => ?_
  obtain ⟨hfollows, hwrites⟩ := hspec d hd
  unfold submissionEffect
  split
  · next r hr => exact (hwrites r hr).1
  · next e he => exact hfollows.rejects e he

end Operations

namespace Sample

def submissionOps : List (Submission (Option ℕ)) :=
  [.deploy providers ⟨contract 1, none, key 1, some (some 5), some (js "id")⟩,
    .call providers ⟨contract 1, circuitId, address, none, some (js "id")⟩,
    .replaceAuthority address (key 2)]

def submissionSession : List (Performed (submissions (Option ℕ)) (PrivateStore (Option ℕ))) ×
    PrivateStore (Option ℕ) :=
  (submissions (Option ℕ)).perform (storeHandler (reply .SucceedEntirely)) submissionOps
    (store none none)

theorem store_follows_transactions_sample :
    submissionSession.2 = submissionSession.1.foldl submissionEffect (store none none) ∧
      submissionSession.2.privateStates (js "id") = some (some 6) ∧
      submissionSession.2.signingKeys address = some (key 2) :=
  ⟨(store_follows_transactions (session_perform
    (storeEnv_storeHandler fun _ h => h) _ _)).2, by decide, by decide⟩

end Sample

end MidnightJs
