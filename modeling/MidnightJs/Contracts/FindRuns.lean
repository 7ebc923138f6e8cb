import MidnightJs.Contracts.SubmissionSessions

/-! # Runs of a find and of a deployment

`findDeployedContract` reads the chain, then gives or keeps or samples a signing key (`KeyStep`),
then stores or reads a private state (`StateStep`). `submitDeployTx` writes a private state, then a
signing key. The runs of both are described with the store they leave, whatever call is rejected.
-/

namespace MidnightJs
open Foundations Foundations.Js Foundations.Async
set_option autoImplicit false

section Runs

variable [Runtime] {PS : Type}

/-- The calls that only read the chain and the ZK artifacts. -/
def ProviderCall.ReadsChain : ProviderCall PS → Prop
  | .queryContractState _ | .queryDeployContractState _ | .watchForDeployTxData _
  | .getVerifierKeys _ => True
  | _ => False

theorem ProviderCall.ReadsChain.not_isWrite {c : ProviderCall PS} (h : c.ReadsChain) :
    ¬ c.IsWrite := by
  cases c <;> first | exact id | exact fun _ => h

/-! ## The signing key -/

/-- What `setOrGetInitialSigningKey` returns and leaves. -/
inductive KeyStep (options : FindDeployedContractOptions PS) (s : PrivateStore PS)
    (tr : List (Event (Providers PS))) : SigningKey → PrivateStore PS → Prop
  | given {k : SigningKey} (given : options.signingKey = some k) (nonempty : truthy k = true) :
      KeyStep options s tr k (s.setSigningKey options.contractAddress k)
  | kept {k : SigningKey} (notGiven : truthy options.signingKey = false)
      (stored : s.signingKeys options.contractAddress = some k) (nonempty : truthy k = true) :
      KeyStep options s tr k s
  | sampled {k : SigningKey} (notGiven : truthy options.signingKey = false)
      (notStored : truthy (s.signingKeys options.contractAddress) = false)
      (drawn : ⟨.sampleSigningKey, .ok k⟩ ∈ tr) :
      KeyStep options s tr k (s.setSigningKey options.contractAddress k)

theorem KeyStep.mono {options : FindDeployedContractOptions PS} {s s' : PrivateStore PS}
    {tr tr' : List (Event (Providers PS))} {k : SigningKey} (h : KeyStep options s tr k s')
    (htr : tr ⊆ tr') : KeyStep options s tr' k s' := by
  cases h with
  | given hk hne => exact .given hk hne
  | kept hn hs hne => exact .kept hn hs hne
  | sampled hn hs hd => exact .sampled hn hs (htr hd)

variable {mayReject : ProviderCall PS → Prop} {s s' : PrivateStore PS}
  {tr : List (Event (Providers PS))}

theorem KeyStep.privateStates {options : FindDeployedContractOptions PS} {k : SigningKey}
    (h : KeyStep options s tr k s') : s'.privateStates = s.privateStates := by
  cases h <;> rfl

theorem KeyStep.signingKeys_of_ne {options : FindDeployedContractOptions PS} {k : SigningKey}
    {a : ContractAddress} (h : KeyStep options s tr k s') (ha : a ≠ options.contractAddress) :
    s'.signingKeys a = s.signingKeys a := by
  cases h with
  | kept => rfl
  | given | sampled => exact PrivateStore.setSigningKey_signingKeys_of_ne ha

theorem KeyStep.signingKeys_self {options : FindDeployedContractOptions PS} {k : SigningKey}
    (h : KeyStep options s tr k s') : s'.signingKeys options.contractAddress = some k := by
  cases h with
  | kept _ stored _ => exact stored
  | given | sampled => exact PrivateStore.setSigningKey_signingKeys_self

/-- A key is sampled only when none is given and none is stored. -/
def SamplesRightly (options : FindDeployedContractOptions PS) (s : PrivateStore PS)
    (tr : List (Event (Providers PS))) : Prop :=
  ∀ e ∈ tr, e.call = .sampleSigningKey → truthy options.signingKey = false ∧
    truthy (s.signingKeys options.contractAddress) = false

theorem exec_storeFreshSigningKey {options : FindDeployedContractOptions PS}
    {out : Except ContractsError SigningKey}
    (run : Exec (storeEnv mayReject)
      (setOrGetInitialSigningKey.storeFreshSigningKey options) s tr out s') :
    (∃ why, out = .error (.rejected why) ∧ s' = s) ∨
      ∃ k, out = .ok k ∧ s' = s.setSigningKey options.contractAddress k ∧
        ⟨.sampleSigningKey, .ok k⟩ ∈ tr := by
  obtain ⟨why, ⟨_, rfl⟩, _, rfl⟩ | ⟨k, s₁, tr₁, rfl, hrun, rfl⟩ := exec_provide_bind run
  · exact .inl ⟨why, rfl, rfl⟩
  obtain ⟨why, ⟨_, rfl⟩, _, rfl⟩ | ⟨_, s₂, tr₂, hset, hrun', rfl⟩ := exec_provide_bind hrun
  · exact .inl ⟨why, rfl, rfl⟩
  obtain ⟨_, rfl, rfl⟩ := exec_resolve.mp hrun'
  exact .inr ⟨k, rfl, hset, by simp⟩

theorem exec_getOrSampleSigningKey {options : FindDeployedContractOptions PS}
    {out : Except ContractsError SigningKey} (hgiven : truthy options.signingKey = false)
    (run : Exec (storeEnv mayReject)
      (setOrGetInitialSigningKey.getOrSampleSigningKey options) s tr out s') :
    SamplesRightly options s tr ∧ ((∃ why, out = .error (.rejected why) ∧ s' = s) ∨
      ∃ k, out = .ok k ∧ KeyStep options s tr k s') := by
  have hget : ∀ r, (⟨.getSigningKey options.contractAddress, r⟩ : Event (Providers PS)).call ≠
      .sampleSigningKey := fun r h => by cases h
  obtain ⟨why, ⟨_, rfl⟩, rfl, rfl⟩ | ⟨stored, s₁, tr₁, ⟨rfl, rfl⟩, hrun, rfl⟩ :=
    exec_provide_bind run
  · refine ⟨fun e he hc => ?_, .inl ⟨why, rfl, rfl⟩⟩
    rw [List.mem_singleton.mp he] at hc
    exact absurd hc (hget _)
  by_cases hstored : truthy (s₁.signingKeys options.contractAddress) = true
  · obtain ⟨k, hk, htruthy⟩ : ∃ k, s₁.signingKeys options.contractAddress = some k ∧
        truthy k = true := by
      cases hk : s₁.signingKeys options.contractAddress with
      | none => rw [hk] at hstored; cases hstored
      | some k => exact ⟨k, rfl, by simpa [hk] using hstored⟩
    simp only [hk, htruthy, if_true] at hrun
    obtain ⟨rfl, rfl, rfl⟩ := exec_resolve.mp hrun
    refine ⟨fun e he hc => ?_, .inr ⟨k, rfl, .kept hgiven hk htruthy⟩⟩
    rw [List.mem_singleton.mp he] at hc
    exact absurd hc (hget _)
  · have hfresh : Exec (storeEnv mayReject)
        (setOrGetInitialSigningKey.storeFreshSigningKey options) s₁ tr₁ out s' := by
      cases hk : s₁.signingKeys options.contractAddress with
      | none => simpa only [hk] using hrun
      | some k =>
        rw [hk, truthy_some] at hstored
        simpa only [hk, hstored, Bool.false_eq_true, if_false] using hrun
    have hnot := Bool.eq_false_iff.mpr hstored
    refine ⟨fun _ _ _ => ⟨hgiven, hnot⟩, ?_⟩
    obtain h | ⟨k, rfl, rfl, hdrawn⟩ := exec_storeFreshSigningKey hfresh
    · exact .inl h
    · exact .inr ⟨k, rfl, .sampled hgiven hnot (List.mem_cons_of_mem _ hdrawn)⟩

theorem exec_setOrGetInitialSigningKey {options : FindDeployedContractOptions PS}
    {out : Except ContractsError SigningKey}
    (run : Exec (storeEnv mayReject) (setOrGetInitialSigningKey options) s tr out s') :
    SamplesRightly options s tr ∧ ((∃ why, out = .error (.rejected why) ∧ s' = s) ∨
      ∃ k, out = .ok k ∧ KeyStep options s tr k s') := by
  unfold setOrGetInitialSigningKey at run
  split at run
  · next k hk =>
    split at run
    · next htruthy =>
      obtain ⟨why, ⟨_, rfl⟩, rfl, rfl⟩ | ⟨_, s₁, tr₁, hset, hrun, rfl⟩ := exec_provide_bind run
      · refine ⟨fun e he hc => ?_, .inl ⟨why, rfl, rfl⟩⟩
        rw [List.mem_singleton.mp he] at hc
        cases hc
      · obtain ⟨rfl, rfl, rfl⟩ := exec_resolve.mp hrun
        refine ⟨fun e he hc => ?_, .inr ⟨k, rfl, ?_⟩⟩
        · rw [List.mem_singleton.mp he] at hc
          cases hc
        · rw [show s' = _ from hset]
          exact .given hk htruthy
    · next htruthy =>
      exact exec_getOrSampleSigningKey (by simpa [hk] using htruthy) run
  · next hk => exact exec_getOrSampleSigningKey (by simp [hk]) run

/-! ## The private state -/

variable [Undefined PS]

/-- What `setOrGetInitialPrivateState` returns and leaves. -/
inductive StateStep (options : FindDeployedContractOptions PS) (s : PrivateStore PS) :
    PS → PrivateStore PS → Prop
  | stored {id : PrivateStateId} {v : PS} (id_given : options.privateStateId = some id)
      (given : options.initialPrivateState = some v) : StateStep options s v (s.set id v)
  | read {id : PrivateStateId} {v : PS} (id_given : options.privateStateId = some id)
      (notGiven : options.initialPrivateState = none) (stored : s.privateStates id = some v) :
      StateStep options s v s
  | absent (id_notGiven : options.privateStateId = none)
      (notGiven : options.initialPrivateState = none) : StateStep options s undefined s

/-- The rejections of the private state part of a find. -/
def PrivateStateRejection (tr : List (Event (Providers PS))) (e : ContractsError) : Prop :=
  e = .incompleteFindContractPrivateStateConfig ∨ e.IsNoPrivateState ∨
    ∃ id why, (⟨.get id, .error why⟩ : Event (Providers PS)) ∈ tr ∨
      ∃ v, (⟨.set id v, .error why⟩ : Event (Providers PS)) ∈ tr

theorem exec_setOrGetInitialPrivateState {options : FindDeployedContractOptions PS}
    {out : Except ContractsError PS}
    (run : Exec (storeEnv mayReject) (setOrGetInitialPrivateState options) s tr out s') :
    (∀ e ∈ tr, e.call ≠ .sampleSigningKey) ∧
      ((∃ e, out = .error e ∧ s' = s ∧ PrivateStateRejection tr e) ∨
        ∃ v, out = .ok v ∧ StateStep options s v s') := by
  unfold setOrGetInitialPrivateState at run
  split at run
  · next id v hid hv =>
    obtain ⟨why, ⟨_, rfl⟩, rfl, rfl⟩ | ⟨_, s₁, tr₁, hset, hrun, rfl⟩ := exec_provide_bind run
    · exact ⟨by simp, .inl ⟨_, rfl, rfl, .inr (.inr ⟨id, why, .inr ⟨v, by simp⟩⟩)⟩⟩
    · obtain ⟨rfl, rfl, rfl⟩ := exec_resolve.mp hrun
      refine ⟨by simp, .inr ⟨v, rfl, ?_⟩⟩
      rw [show s' = _ from hset]
      exact .stored hid hv
  · next id hid hv =>
    obtain ⟨why, ⟨_, rfl⟩, rfl, rfl⟩ | ⟨stored, s₁, tr₁, ⟨rfl, rfl⟩, hrun, rfl⟩ :=
      exec_provide_bind run
    · exact ⟨by simp, .inl ⟨_, rfl, rfl, .inr (.inr ⟨id, why, .inl (by simp)⟩)⟩⟩
    · cases out with
      | ok v =>
        obtain ⟨hstored, _, rfl, rfl⟩ := definedPrivateState_ok.mp hrun
        exact ⟨by simp, .inr ⟨v, rfl, .read hid hv hstored⟩⟩
      | error e =>
        obtain ⟨hlack, rfl, rfl⟩ := definedPrivateState_error hrun
        exact ⟨by simp, .inl ⟨e, rfl, rfl, .inr (.inl hlack)⟩⟩
  · obtain ⟨rfl, rfl, rfl⟩ := exec_reject.mp run
    exact ⟨by simp, .inl ⟨_, rfl, rfl, .inl rfl⟩⟩
  · next hid hv =>
    obtain ⟨rfl, rfl, rfl⟩ := exec_resolve.mp run
    exact ⟨by simp, .inr ⟨_, rfl, .absent hid hv⟩⟩

/-! ## The whole find -/

/-- The part of a find before its first look at the store. -/
def foundChecks (options : FindDeployedContractOptions PS) :
    Promise PS (FinalizedTxData × ContractState) := do
  let contractAddress := options.contractAddress
  let notDeployed := js "No contract deployed at contract address '" ++ contractAddress ++ js "'"
  sync (assertIsContractAddress contractAddress)
  let finalizedTxData ← provide (.watchForDeployTxData contractAddress)
  let initialContractState ← sync (assertDefined
    (← provide (.queryDeployContractState contractAddress)) notDeployed)
  let currentContractState ← sync (assertDefined
    (← provide (.queryContractState contractAddress)) notDeployed)
  let verifierKeys ← provide (.getVerifierKeys (getImpureCircuitIds options.contract))
  .ofExcept (verifyContractState verifierKeys currentContractState)
  return (finalizedTxData, initialContractState)

/-- The part of a find after its last look at the store. -/
def foundContract (providers : ContractProviders) (options : FindDeployedContractOptions PS)
    (found : FinalizedTxData × ContractState) (signingKey : SigningKey) (initialPrivateState : PS) :
    Promise PS (FoundContract PS) := do
  let contractAddress := options.contractAddress
  let callTx ← sync (createCircuitCallTxInterface providers options.contract contractAddress
    options.privateStateId)
  let circuitMaintenanceTx ← sync (createCircuitMaintenanceTxInterfaces options.contract
    contractAddress)
  let contractMaintenanceTx ← sync (createContractMaintenanceTxInterface contractAddress)
  return {
    deployTxData := {
      «private» := ⟨signingKey, initialPrivateState⟩
      «public» := ⟨found.1, ⟨contractAddress, found.2⟩⟩ }
    callTx := callTx
    circuitMaintenanceTx := circuitMaintenanceTx
    contractMaintenanceTx := contractMaintenanceTx }

theorem findDeployedContract_eq (providers : ContractProviders)
    (options : FindDeployedContractOptions PS) :
    findDeployedContract providers options = (do
      let found ← foundChecks options
      let signingKey ← setOrGetInitialSigningKey options
      let initialPrivateState ← setOrGetInitialPrivateState options
      foundContract providers options found signingKey initialPrivateState) := by
  simp only [findDeployedContract, foundChecks, foundContract, Program.bind_eq,
    Program.bind_assoc, Program.pure_eq, Program.resolve_bind]

omit [Undefined PS] in
theorem prepares_foundChecks (options : FindDeployedContractOptions PS) :
    Prepares ProviderCall.ReadsChain NoOther (foundChecks options) := by
  refine .bind (.sync _) fun _ => .bind (.provide trivial) fun _ => ?_
  refine .bind (.provide trivial) fun _ => .bind (.sync _) fun _ => ?_
  refine .bind (.provide trivial) fun _ => .bind (.sync _) fun _ => ?_
  refine .bind (.provide trivial) fun _ => .bind ⟨Program.uses_ofExcept _, ?_⟩ fun _ => .resolve _
  refine Program.propagates_ofExcept fun e he => .inl ?_
  simp only [verifyContractState] at he
  split at he
  · cases he
    trivial
  · cases he

omit [Undefined PS] in
theorem exec_foundChecks_ok {options : FindDeployedContractOptions PS}
    {found : FinalizedTxData × ContractState}
    (run : Exec (storeEnv mayReject) (foundChecks options) s tr (.ok found) s') :
    assertIsContractAddress options.contractAddress = .ok () := by
  obtain ⟨_, h, _⟩ := exec_sync_bind_ok run
  exact h

omit [Runtime] [Undefined PS] in
theorem mapM_ok {α β : Type} {f : α → Except JsError β} (h : ∀ a, ∃ b, f a = .ok b) (l : List α) :
    ∃ bs, l.mapM f = .ok bs := by
  induction l with
  | nil => exact ⟨[], rfl⟩
  | cons a l ih =>
    obtain ⟨b, hb⟩ := h a
    obtain ⟨bs, hbs⟩ := ih
    refine ⟨b :: bs, ?_⟩
    rw [List.mapM_cons, hb]
    change (l.mapM f >>= fun bs => pure (b :: bs)) = _
    rw [hbs]
    rfl

omit [Undefined PS] in
theorem createCircuitMaintenanceTxInterfaces_ok {a : ContractAddress}
    (h : assertIsContractAddress a = .ok ()) (contract : Contract PS) :
    ∃ maintenance, createCircuitMaintenanceTxInterfaces contract a = .ok maintenance := by
  unfold createCircuitMaintenanceTxInterfaces
  rw [h]
  refine mapM_ok (fun circuitId => ?_) _
  rw [createCircuitMaintenanceTxInterface, h]
  exact ⟨_, rfl⟩

/-- The interfaces repeat the address check and cannot throw after it. -/
theorem foundContract_eq {options : FindDeployedContractOptions PS}
    (h : assertIsContractAddress options.contractAddress = .ok ()) (providers : ContractProviders)
    (found : FinalizedTxData × ContractState) (k : SigningKey) (v : PS) :
    ∃ r, foundContract providers options found k v = .resolve r ∧
      r.deployTxData.private = ⟨k, v⟩ := by
  obtain ⟨maintenance, hmaintenance⟩ :=
    createCircuitMaintenanceTxInterfaces_ok h options.contract
  simp only [foundContract, createCircuitCallTxInterface, createContractMaintenanceTxInterface, h,
    hmaintenance]
  exact ⟨_, rfl, rfl⟩

/-- The runs of a find. -/
inductive FindRun (options : FindDeployedContractOptions PS) (s : PrivateStore PS)
    (tr : List (Event (Providers PS))) :
    Except ContractsError (FoundContract PS) → PrivateStore PS → Prop
  /-- Rejected with the store as it was. -/
  | early (e : ContractsError) : FindRun options s tr (.error e) s
  /-- Rejected by the private state part, after the signing key part. -/
  | late {e : ContractsError} {k : SigningKey} {s' : PrivateStore PS}
      (key : KeyStep options s tr k s') (reason : PrivateStateRejection tr e) :
      FindRun options s tr (.error e) s'
  | found {r : FoundContract PS} {k : SigningKey} {v : PS} {s₁ s' : PrivateStore PS}
      (key : KeyStep options s tr k s₁) (state : StateStep options s₁ v s')
      (returned : r.deployTxData.private = ⟨k, v⟩) : FindRun options s tr (.ok r) s'

omit [Undefined PS] in
theorem PrivateStateRejection.append {tr' : List (Event (Providers PS))} {e : ContractsError}
    (h : PrivateStateRejection tr e) : PrivateStateRejection (tr' ++ tr) e := by
  refine h.imp_right (Or.imp_right ?_)
  rintro ⟨id, why, h | ⟨v, h⟩⟩
  · exact ⟨id, why, .inl (List.mem_append_right _ h)⟩
  · exact ⟨id, why, .inr ⟨v, List.mem_append_right _ h⟩⟩

theorem exec_findDeployedContract {providers : ContractProviders}
    {options : FindDeployedContractOptions PS} {out : Except ContractsError (FoundContract PS)}
    (run : Exec (storeEnv mayReject) (findDeployedContract providers options) s tr out s') :
    SamplesRightly options s tr ∧ FindRun options s tr out s' := by
  have hchecks := prepares_foundChecks options
  have hreads : ∀ {out' tr' s''}, Exec (storeEnv mayReject) (foundChecks options) s tr' out' s'' →
      ∀ e ∈ tr', e.call ≠ .sampleSigningKey := by
    intro out' tr' s'' h e he hc
    have hallowed := h.allowed_of_mem hchecks.uses he
    rw [hc] at hallowed
    exact hallowed
  rw [findDeployedContract_eq] at run
  obtain ⟨e, hc, rfl⟩ | ⟨found, s₁, tr₁, tr₂, hc, hrun, rfl⟩ := exec_bind.mp run
  · rw [hchecks.frame (fun _ h => h.not_isWrite) hc]
    exact ⟨fun e he h => absurd h (hreads hc e he), .early e⟩
  have haddress := exec_foundChecks_ok hc
  have hsample₁ := hreads hc
  obtain rfl := hchecks.frame (fun _ h => h.not_isWrite) hc
  obtain ⟨e, hk, rfl⟩ | ⟨k, s₂, tr₃, tr₄, hk, hrun', rfl⟩ := exec_bind.mp hrun
  · obtain ⟨hsample₂, ⟨why, ⟨⟩, rfl⟩ | ⟨k, ⟨⟩, _⟩⟩ := exec_setOrGetInitialSigningKey hk
    refine ⟨fun e he h => ?_, .early _⟩
    obtain he | he := List.mem_append.mp he
    · exact absurd h (hsample₁ e he)
    · exact hsample₂ e he h
  obtain ⟨hsample₂, ⟨why, ⟨⟩, _⟩ | ⟨_, ⟨⟩, hkey⟩⟩ := exec_setOrGetInitialSigningKey hk
  have hsample : ∀ {tr'}, (∀ e ∈ tr', e.call ≠ .sampleSigningKey) →
      SamplesRightly options s₁ (tr₁ ++ (tr₃ ++ tr')) := by
    intro tr' h' e he h
    obtain he | he := List.mem_append.mp he
    · exact absurd h (hsample₁ e he)
    obtain he | he := List.mem_append.mp he
    · exact hsample₂ e he h
    · exact absurd h (h' e he)
  obtain ⟨e, hv, rfl⟩ | ⟨v, s₃, tr₅, tr₆, hv, hrun'', rfl⟩ := exec_bind.mp hrun'
  · obtain ⟨hsample₃, ⟨e, ⟨⟩, rfl, hreason⟩ | ⟨v, ⟨⟩, _⟩⟩ := exec_setOrGetInitialPrivateState hv
    refine ⟨hsample hsample₃, .late (hkey.mono fun e he => ?_) hreason.append.append⟩
    simp [he]
  obtain ⟨hsample₃, ⟨e, ⟨⟩, _⟩ | ⟨_, ⟨⟩, hstate⟩⟩ := exec_setOrGetInitialPrivateState hv
  obtain ⟨r, hr, hprivate⟩ := foundContract_eq haddress providers found k v
  rw [hr] at hrun''
  obtain ⟨rfl, rfl, rfl⟩ := exec_resolve.mp hrun''
  rw [List.append_nil]
  refine ⟨hsample hsample₃, .found (hkey.mono fun e he => ?_) hstate hprivate⟩
  simp [he]

theorem StateStep.signingKeys {options : FindDeployedContractOptions PS} {v : PS}
    (h : StateStep options s v s') : s'.signingKeys = s.signingKeys := by
  cases h <;> rfl

/-! ## The whole deployment -/

/-- The runs of a deployment. -/
inductive DeployRun (options : DeployTxOptions PS) (s : PrivateStore PS)
    (tr : List (Event (Providers PS))) :
    Except ContractsError (FinalizedDeployTxData PS) → PrivateStore PS → Prop
  /-- Rejected with the store as it was. -/
  | early (e : ContractsError) : DeployRun options s tr (.error e) s
  /-- Rejected by the write of the signing key, after the write of the private state. -/
  | late {why : JsError} {a : ContractAddress} (v : PS)
      (rejected : ⟨.setSigningKey a options.signingKey, .error why⟩ ∈ tr) :
      DeployRun options s tr (.error (.rejected why)) (s.setAt options.privateStateId v)
  | deployed {a : ContractAddress} (r : FinalizedDeployTxData PS) (v : PS)
      (drawn : ∃ initialState, ⟨.newContractDeploy initialState, .ok a⟩ ∈ tr) :
      DeployRun options s tr (.ok r)
        ((s.setAt options.privateStateId v).setSigningKey a options.signingKey)

omit [Undefined PS] in
theorem exec_setPrivateState {id : Option PrivateStateId} {v : PS}
    {out : Except ContractsError Unit}
    (run : Exec (storeEnv mayReject) (setPrivateState id v) s tr out s') :
    (∃ why, out = .error (.rejected why) ∧ s' = s) ∨ out = .ok () ∧ s' = s.setAt id v := by
  cases id with
  | none =>
    obtain ⟨rfl, rfl, rfl⟩ := exec_resolve.mp run
    exact .inr ⟨rfl, rfl⟩
  | some id =>
    obtain ⟨r, hr, rfl, rfl⟩ := (exec_call (E := Providers PS)).mp run
    cases r with
    | ok reply => exact .inr ⟨rfl, hr⟩
    | error why => exact .inl ⟨why, rfl, hr.2⟩

theorem uses_submitDeployTx (providers : ContractProviders) (options : DeployTxOptions PS) :
    (submitDeployTx providers options).Uses fun c : ProviderCall PS =>
      c.Deploys ∨ c.Submits ∨ c.IsWrite := by
  have hset : ∀ v : PS, (setPrivateState options.privateStateId v).Uses
      fun c : ProviderCall PS => c.Deploys ∨ c.Submits ∨ c.IsWrite := by
    intro v
    cases options.privateStateId with
    | none => trivial
    | some id => exact Program.uses_call (E := Providers PS) (.inr (.inr trivial))
  refine Program.uses_bind ((prepares_createUnprovenDeployTx NoOther _ _).uses.mono
    fun _ h => .inl h) fun d => ?_
  refine Program.uses_bind ((prepares_submitTx NoOther _).uses.mono fun _ h => .inr (.inl h))
    fun data => ?_
  split
  · trivial
  · refine Program.uses_bind (hset _) fun _ => ?_
    refine Program.uses_bind ?_ fun _ => trivial
    exact Program.uses_call (E := Providers PS) (.inr (.inr trivial))

theorem submitDeployTx_not_samples {providers : ContractProviders} {options : DeployTxOptions PS}
    {out : Except ContractsError (FinalizedDeployTxData PS)}
    (run : Exec (storeEnv mayReject) (submitDeployTx providers options) s tr out s') :
    ∀ e ∈ tr, e.call ≠ .sampleSigningKey := by
  intro e he hc
  have hallowed := run.allowed_of_mem (uses_submitDeployTx providers options) he
  rw [hc] at hallowed
  obtain h | h | h := hallowed <;> exact h

theorem exec_submitDeployTx {providers : ContractProviders} {options : DeployTxOptions PS}
    {out : Except ContractsError (FinalizedDeployTxData PS)}
    (run : Exec (storeEnv mayReject) (submitDeployTx providers options) s tr out s') :
    DeployRun options s tr out s' := by
  rw [submitDeployTx_eq] at run
  obtain ⟨⟨e, rfl⟩, rfl, _⟩ | ⟨d, data, tr₁, tr₂, written, hsucc, hw, rfl, rfl⟩ :=
    exec_transact ((prepares_createUnprovenDeployTx NoOther providers options).mono
      fun _ h => h.isPreparation) run
  · exact .early e
  obtain ⟨tr₃, tr₄, rfl, hb, _⟩ := hsucc.parts
  have hbuilt := exec_createUnprovenDeployTx_ok hb
  rw [hbuilt.signingKey] at hw
  obtain ⟨e, hset, rfl⟩ | ⟨_, s₁, tr₅, tr₆, hset, hkey, rfl⟩ := exec_bind.mp hw
  · obtain ⟨why, ⟨⟩, rfl⟩ | ⟨⟨⟩, _⟩ := exec_setPrivateState hset
    exact .early _
  obtain ⟨why, ⟨⟩, _⟩ | ⟨_, rfl⟩ := exec_setPrivateState hset
  obtain ⟨r, hr, rfl, rfl⟩ := (exec_call (E := Providers PS)).mp hkey
  cases r with
  | error why =>
    rw [hr.2]
    exact .late (a := d.public.contractAddress) _ (by simp)
  | ok reply =>
    rw [show s' = _ from hr]
    obtain ⟨initialState, hdrawn⟩ := hbuilt.address
    exact .deployed _ _ ⟨initialState, by simp [hdrawn]⟩

end Runs

end MidnightJs
