import MidnightJs.Contracts.DeployContract
import MidnightJs.Foundations.JsonRoundTrip
import MidnightJs.Foundations.Simulation
import MidnightJs.LevelProvider.SequentialRuns

/-! # Contract sessions over a Level database

The functions of `packages/contracts` are given a private state provider. Here it is the Level
provider: every call of the store is a whole operation on the databases. Sessions over the databases
are sessions over the two maps of `PrivateStore`, with the same calls and outcomes, unless a private
state is `null` or `undefined`. Such a state is not stored, and a deployment that is to store it is
rejected after its transaction, without its signing key. -/

namespace MidnightJs
open Foundations Foundations.Js Foundations.Async
set_option autoImplicit false

/-- `ToBoolean`. -/
def JsValue.toBoolean (v : JsValue) : Bool :=
  match v with
  | .undefined => false
  | .null => false
  | .boolean b => b
  | .number .nan => false
  | .number (.infinity _) => true
  | .number (.finite _ magnitude _) => magnitude ≠ 0
  | .bigint n => n ≠ 0
  | .string s => truthy s
  | _ => true

instance : Undefined JsValue where
  truthy := JsValue.toBoolean
  undefined := .undefined
  truthy_undefined := rfl

section OverLevel

variable [Runtime] [SuperJson]

/-! ## The store behind the calls -/

/-- An operation on the databases, alone and up to its end. -/
def Performs (config : LevelPrivateStateProviderConfig) (op : ProviderOp) (s : Databases)
    (out : Except LevelError JsValue) (s' : Databases) : Prop :=
  ∃ tr, Exec levelEnv (levelPrivateStateProvider config op) s tr out s'

/-- `null` stands for what is not there. -/
def nonNull (v : JsValue) : Option JsValue :=
  match v with
  | .null => none
  | v => some v

def signingKeyOf (v : JsValue) : Option SigningKey :=
  match v with
  | .string k => some k
  | _ => none

/-- The calls of the store are operations on the databases, whose errors reject them; the other calls
are answered as before. -/
def overLevel (config : LevelPrivateStateProviderConfig) (reason : LevelError → JsError)
    (mayReject : ProviderCall JsValue → Prop) : Env (Providers JsValue) Databases := fun c s r s' =>
  match c, r with
  | .get id, r => ∃ out, Performs config (.get id) s out s' ∧ r = (out.map nonNull).mapError reason
  | .set id v, r =>
    ∃ out, Performs config (.set id v) s out s' ∧ r = (out.map fun _ => ()).mapError reason
  | .getSigningKey a, r =>
    ∃ out, Performs config (.getSigningKey a) s out s' ∧ r = (out.map signingKeyOf).mapError reason
  | .setSigningKey a k, r =>
    ∃ out, Performs config (.setSigningKey a k) s out s' ∧ r = (out.map fun _ => ()).mapError reason
  | c, r => (∀ m, storeEnv mayReject c m r m) ∧ s' = s

/-- superjson reads back every string. -/
def StringsReadBack : Prop :=
  ∀ s : JsString, SuperJson.parse (SuperJson.stringify (.string s)) = .ok (.string s)

/-- A private state that is written can be stored, and superjson reads it back. -/
def StoresState (e : Event (Providers JsValue)) : Prop :=
  ∀ id v, e.call = .set id v →
    v.isNullish = false ∧ SuperJson.parse (SuperJson.stringify v) = .ok v

variable {config : LevelPrivateStateProviderConfig} {reason : LevelError → JsError}
  {mayReject : ProviderCall JsValue → Prop} {s s' : Databases} {m : PrivateStore JsValue}

omit [Runtime] in
theorem Represents.performs (h : Represents config s m)
    (apart : config.privateStateStoreName ≠ config.signingKeyStoreName) {op : ProviderOp}
    {out : Except LevelError JsValue} (run : Performs config op s out s')
    (hlossless : op.access.Lossless) (hstorable : op.access.Storable) :
    out = .ok (op.answer m) ∧ Represents config s' (op.effect m) := by
  obtain ⟨tr, run⟩ := run
  exact h.exec apart run hlossless hstorable

omit [Runtime] in
theorem Represents.nonNull (h : Represents config s m) (id : PrivateStateId) :
    nonNull ((ProviderOp.get id).answer m) = m.privateStates id := by
  change MidnightJs.nonNull ((m.privateStates id).getD .null) = m.privateStates id
  cases hv : m.privateStates id with
  | none => rfl
  | some v =>
    have hdefined := h.privateStates.defined id v hv
    cases v <;> first | rfl | cases hdefined

/-- The databases answer as the two maps, as long as what is written can be stored. -/
theorem overLevel_simulates (apart : config.privateStateStoreName ≠ config.signingKeyStoreName)
    (strings : StringsReadBack) : Simulates (overLevel config reason mayReject)
      (storeEnv mayReject) (Represents config) StoresState := by
  intro c s r s' m hstores hanswer hrep
  cases c with
  | get id =>
    obtain ⟨out, hrun, rfl⟩ := hanswer
    obtain ⟨rfl, hrep'⟩ := hrep.performs apart hrun trivial trivial
    exact ⟨m, ⟨hrep.nonNull id, rfl⟩, hrep'⟩
  | set id v =>
    obtain ⟨out, hrun, rfl⟩ := hanswer
    obtain ⟨hstorable, hlossless⟩ := hstores id v rfl
    obtain ⟨rfl, hrep'⟩ := hrep.performs apart hrun hlossless hstorable
    exact ⟨m.set id v, rfl, hrep'⟩
  | getSigningKey a =>
    obtain ⟨out, hrun, rfl⟩ := hanswer
    obtain ⟨rfl, hrep'⟩ := hrep.performs apart hrun trivial trivial
    refine ⟨m, ⟨?_, rfl⟩, hrep'⟩
    change signingKeyOf (((m.signingKeys a).map JsValue.string).getD .null) = m.signingKeys a
    cases m.signingKeys a <;> rfl
  | setSigningKey a k =>
    obtain ⟨out, hrun, rfl⟩ := hanswer
    obtain ⟨rfl, hrep'⟩ := hrep.performs apart hrun (strings k) rfl
    exact ⟨m.setSigningKey a k, rfl, hrep'⟩
  | _ =>
    obtain ⟨hother, rfl⟩ := hanswer
    exact ⟨m, hother m, hrep⟩

/-- A session of contract functions over the databases, none of which is to store `null` or
`undefined`, is one over the two maps, with the same operations, calls and outcomes. The databases
hold the maps before and after every operation. -/
theorem contract_sessions_over_level
    (apart : config.privateStateStoreName ≠ config.signingKeyStoreName) (strings : StringsReadBack)
    {S : Service (Providers JsValue) ContractsError} {s₀ : Databases} {m₀ : PrivateStore JsValue}
    (h₀ : Represents config s₀ m₀) {done : List (Performed S Databases)}
    (session : Session (overLevel config reason mayReject) s₀ done s)
    (stores : ∀ d ∈ done, ∀ e ∈ d.trace, StoresState e) :
    ∃ (done' : List (Performed S (PrivateStore JsValue))) (m : PrivateStore JsValue),
      Session (storeEnv mayReject) m₀ done' m ∧
      List.Forall₂ (Alike (Represents config)) done done' ∧ Represents config s m :=
  (overLevel_simulates apart strings).session session stores h₀

/-! ## A deployment whose private state is not stored -/

def ProviderCall.IsStoreCall (c : ProviderCall JsValue) : Prop :=
  match c with
  | .get _ => True
  | .set _ _ => True
  | .getSigningKey _ => True
  | .setSigningKey _ _ => True
  | _ => False

omit [SuperJson] in
theorem ProviderCall.Deploys.not_isStoreCall {c : ProviderCall JsValue} (h : c.Deploys) :
    ¬ c.IsStoreCall := by
  cases c <;> first | exact id | exact fun _ => h

omit [SuperJson] in
theorem ProviderCall.Submits.not_isStoreCall {c : ProviderCall JsValue} (h : c.Submits) :
    ¬ c.IsStoreCall := by
  cases c <;> first | exact id | exact fun _ => h

/-- Without a call of the store the databases stay as they are. -/
theorem overLevel_simulates_aside (s₀ : Databases) (m₀ : PrivateStore JsValue) :
    Simulates (overLevel config reason mayReject) (storeEnv mayReject)
      (fun s m => s = s₀ ∧ m = m₀) fun e => ¬ ProviderCall.IsStoreCall e.call := by
  rintro c s r s' m haside hanswer ⟨rfl, rfl⟩
  cases c with
  | get id => exact absurd trivial haside
  | set id v => exact absurd trivial haside
  | getSigningKey a => exact absurd trivial haside
  | setSigningKey a k => exact absurd trivial haside
  | _ => exact ⟨m, hanswer.1 m, hanswer.2, rfl⟩

omit [Runtime] in
theorem performs_put {op : ProviderOp} {key : JsString} {v : JsValue}
    (hop : op.access = .put key v) (hget : op.isGet = false)
    (closed : s.holder config.midnightDbName = none) {out : Except LevelError JsValue}
    (run : Performs config op s out s') :
    (v.isNullish = true → out = .error .invalidValue ∧ s'.content = s.content) ∧
      (v.isNullish = false → out = .ok .undefined ∧
        s'.content config.midnightDbName (op.levelName config) key =
          some (SuperJson.stringify v)) ∧
      s'.holder = s.holder := by
  obtain ⟨tr, run⟩ := run
  obtain ⟨rfl, hcontent, hholder⟩ := exec_provider closed run
  refine ⟨fun hnull => ?_, fun hdefined => ?_, hholder⟩
  · rw [hcontent]
    simp [ProviderOp.perform, hop, LevelAccess.perform, hnull, Except.map]
  · rw [hcontent]
    simp [ProviderOp.perform, hop, LevelAccess.perform, hdefined, Except.map, ProviderOp.result, hget]

omit [SuperJson] in
/-- `transact` up to its write. -/
theorem transact_bind {δ ρ : Type} (build : Promise JsValue δ) (options : δ → SubmitTxOptions)
    (failed : FinalizedTxData → ContractsError) (write : δ → Promise JsValue Unit)
    (result : δ → FinalizedTxData → ρ) :
    transact build options failed write result =
      (transact build options failed (fun _ => .resolve ()) Prod.mk).bind fun built =>
        (write built.1).bind fun _ => .resolve (result built.1 built.2) := by
  simp only [transact, Program.bind_eq, Program.bind_assoc]
  congr 1
  funext d
  congr 1
  funext data
  split <;> rfl

omit [SuperJson] in
theorem uses_deployment (providers : ContractProviders) (options : DeployTxOptions JsValue) :
    (transact (createUnprovenDeployTx providers options)
      (fun d => ⟨d.private.unprovenTx, some d.private.newCoins, none⟩) .deployTxFailed
      (fun _ => .resolve ()) Prod.mk).Uses fun c : ProviderCall JsValue => ¬ c.IsStoreCall := by
  refine Program.uses_bind ((prepares_createUnprovenDeployTx NoOther _ _).uses.mono
    fun _ h => h.not_isStoreCall) fun d => ?_
  refine Program.uses_bind ((prepares_submitTx NoOther _).uses.mono fun _ h => h.not_isStoreCall)
    fun data => ?_
  split <;> trivial

/-- Up to its writes a deployment leaves the databases as they are, and it comes to them when its
transaction has succeeded. -/
theorem deployment_up_to_writes {providers : ContractProviders} {options : DeployTxOptions JsValue}
    {tr : List (Event (Providers JsValue))}
    {out : Except ContractsError (UnsubmittedDeployTxData JsValue × FinalizedTxData)}
    (run : Exec (overLevel config reason mayReject)
      (transact (createUnprovenDeployTx providers options)
        (fun d => ⟨d.private.unprovenTx, some d.private.newCoins, none⟩) .deployTxFailed
        (fun _ => .resolve ()) Prod.mk) s tr out s') :
    s' = s ∧ ((∃ e, out = .error e) ∧ ¬ FinalizedAs tr .SucceedEntirely ∨
      ∃ built, out = .ok built ∧ BuiltDeployment providers options tr built.1) := by
  let m₀ : PrivateStore JsValue := ⟨fun _ => none, fun _ => none⟩
  obtain ⟨m, hrun, rfl, rfl⟩ := (overLevel_simulates_aside s m₀).exec run
    (fun e he => run.allowed_of_mem (uses_deployment providers options) he) ⟨rfl, rfl⟩
  refine ⟨rfl, ?_⟩
  have hprepares := (prepares_createUnprovenDeployTx NoOther providers options).mono
    fun _ h => h.isPreparation
  obtain hearly | ⟨d, data, tr₁, tr₂, written, hsucc, hw, rfl, rfl⟩ := exec_transact hprepares hrun
  · exact .inl ⟨hearly.rejects, hearly.notSucceeded⟩
  · obtain ⟨rfl, rfl, _⟩ := exec_resolve.mp hw
    obtain ⟨tr₃, tr₄, rfl, hbuild, _⟩ := hsucc.parts
    obtain ⟨hconstructed, hkey, initialState, haddress⟩ := exec_createUnprovenDeployTx_ok hbuild
    exact .inr ⟨(d, data), rfl, hconstructed, hkey, initialState, by simp [haddress]⟩

theorem exec_setPrivateState_over_level {id : Option PrivateStateId} {v : JsValue}
    {tr : List (Event (Providers JsValue))} {out : Except ContractsError Unit}
    (closed : s.holder config.midnightDbName = none)
    (run : Exec (overLevel config reason mayReject) (setPrivateState id v) s tr out s') :
    s'.holder = s.holder ∧
      (out = .ok () ∧ (id = none ∨ v.isNullish = false) ∨
        out = .error (.rejected (reason .invalidValue)) ∧ ¬ (id = none ∨ v.isNullish = false) ∧
          s'.content = s.content) := by
  cases id with
  | none =>
    obtain ⟨_, rfl, rfl⟩ := exec_resolve.mp run
    exact ⟨rfl, .inl ⟨rfl, .inl rfl⟩⟩
  | some id =>
    obtain ⟨r, ⟨result, hrun, rfl⟩, _, rfl⟩ := (exec_call (E := Providers JsValue)).mp run
    obtain ⟨hnull, hdefined, hholder⟩ := performs_put rfl rfl closed hrun
    refine ⟨hholder, ?_⟩
    cases hv : v.isNullish with
    | true =>
      obtain ⟨rfl, hcontent⟩ := hnull hv
      exact .inr ⟨rfl, by simp, hcontent⟩
    | false =>
      obtain ⟨rfl, _⟩ := hdefined hv
      exact .inl ⟨rfl, .inr rfl⟩

/-- A deployment whose transaction has succeeded resolves, with its signing key stored, if and only
if the private state that its constructor returned can be stored or is not to be. Else it is
rejected, and neither the private state nor the signing key is stored. -/
theorem deployment_keeps_key_iff {providers : ContractProviders} {options : DeployTxOptions JsValue}
    {tr : List (Event (Providers JsValue))}
    {out : Except ContractsError (FinalizedDeployTxData JsValue)}
    (closed : s.holder config.midnightDbName = none)
    (run : Exec (overLevel config reason mayReject) (submitDeployTx providers options) s tr out s')
    (hfinal : FinalizedAs tr .SucceedEntirely) :
    ∃ cpk constructed initialState address,
      parseCoinPublicKeyToHex providers.walletProvider.coinPublicKey = .ok cpk ∧
      callContractConstructor (createContractConstructorOptions options cpk) = .ok constructed ∧
      ⟨.newContractDeploy initialState, .ok address⟩ ∈ tr ∧
      ((∃ r, out = .ok r) ↔
        options.privateStateId = none ∨ constructed.nextPrivateState.isNullish = false) ∧
      ((∃ r, out = .ok r) → s'.content config.midnightDbName config.signingKeyStoreName address =
        some (SuperJson.stringify (.string options.signingKey))) ∧
      ((¬ ∃ r, out = .ok r) → out = .error (.rejected (reason .invalidValue)) ∧
        s'.content = s.content) := by
  rw [submitDeployTx_eq, transact_bind] at run
  obtain ⟨e, hbuilt, rfl⟩ | ⟨built, s₁, tr₁, tr₂, hbuilt, hwrites, rfl⟩ := exec_bind.mp run
  · obtain ⟨rfl, ⟨_, hnot⟩ | ⟨_, ⟨⟩, _⟩⟩ := deployment_up_to_writes hbuilt
    exact absurd hfinal hnot
  obtain ⟨rfl, ⟨⟨_, ⟨⟩⟩, _⟩ | ⟨_, ⟨⟩, hdeployment⟩⟩ := deployment_up_to_writes hbuilt
  obtain ⟨⟨cpk, constructed, hcpk, hconstructed, hstate⟩, hkey, initialState, haddress⟩ := hdeployment
  refine ⟨cpk, constructed, initialState, built.1.public.contractAddress, hcpk, hconstructed,
    by simp [haddress], ?_⟩
  rw [hstate, hkey] at hwrites
  obtain ⟨e, hfails, rfl⟩ | ⟨_, s₂, tr₃, tr₄, hwritten, hresolve, rfl⟩ := exec_bind.mp hwrites
  · obtain ⟨e', hset, ⟨⟩⟩ | ⟨_, s₂, tr₃, tr₄, hset, hsign, rfl⟩ := exec_bind.mp hfails
    · obtain ⟨hholder, ⟨⟨⟩, _⟩ | ⟨⟨⟩, hnot, hcontent⟩⟩ := exec_setPrivateState_over_level closed hset
      exact ⟨by simpa using hnot, by simp, fun _ => ⟨rfl, hcontent⟩⟩
    · obtain ⟨hholder, _⟩ := exec_setPrivateState_over_level closed hset
      obtain ⟨r, ⟨result, hrun, rfl⟩, _, hr⟩ := (exec_call (E := Providers JsValue)).mp hsign
      obtain ⟨_, hdefined, _⟩ := performs_put rfl rfl (hholder ▸ closed) hrun
      obtain ⟨rfl, _⟩ := hdefined rfl
      cases hr
  · obtain ⟨_, rfl, rfl⟩ := exec_resolve.mp hresolve
    obtain ⟨_, s₂, tr₅, tr₆, hset, hsign, rfl⟩ := exec_bind_ok.mp hwritten
    obtain ⟨hholder, ⟨_, hstores⟩ | ⟨⟨⟩, _⟩⟩ := exec_setPrivateState_over_level closed hset
    obtain ⟨r, ⟨result, hrun, rfl⟩, _, hr⟩ := (exec_call (E := Providers JsValue)).mp hsign
    obtain ⟨_, hdefined, _⟩ := performs_put rfl rfl (hholder ▸ closed) hrun
    obtain ⟨rfl, hstored⟩ := hdefined rfl
    exact ⟨⟨fun _ => hstores, fun _ => ⟨_, rfl⟩⟩, fun _ => hstored, fun hnot => absurd ⟨_, rfl⟩ hnot⟩

end OverLevel

/-! ## Sessions on concrete inputs -/

namespace Sample

/-- The constructor returns the private state that it is given. -/
def stateless : Contract JsValue where
  impureCircuits := []
  initialState context _ := .ok ⟨state [], context.initialPrivateState,
    context.initialZswapLocalState⟩

/-- Every transaction succeeds; nothing else fails. -/
def answer : (c : ProviderCall JsValue) → (Providers JsValue).Settled c
  | .queryContractState _ | .queryDeployContractState _ => .ok (some (state []))
  | .queryZSwapAndContractState _ => .ok (some ((), state []))
  | .watchForDeployTxData _ | .watchForTxData _ => .ok (finalized .SucceedEntirely)
  | .getZkConfig id => .ok ⟨id, [], ()⟩
  | .getVerifierKeys ids => .ok (ids.map fun id => (id, []))
  | .proveTx tx _ => .ok ⟨tx.contracts⟩
  | .balanceTx tx _ => .ok ⟨tx.contracts⟩
  | .submitTx _ => .ok (js "tx")
  | .get _ => .ok none
  | .getSigningKey _ => .ok none
  | .set _ _ | .setSigningKey _ _ => .ok ()
  | .runCircuit circuit context args => circuit context args
  | .newContractDeploy _ => .ok address
  | .communicationCommitmentRandomness => .ok ()
  | .sampleSigningKey => .ok (key 0)
  | .dateNow => .ok 0

def refusal : LevelError → JsError := fun _ => .error (js "level")

/-- The operation, run to its end. -/
def performed (op : ProviderOp) (s : Databases) : Except LevelError JsValue × Databases :=
  ((levelPrivateStateProvider DEFAULT_CONFIG op).run levelHandler s).2

theorem performs_performed (op : ProviderOp) (s : Databases) :
    Performs DEFAULT_CONFIG op s (performed op s).1 (performed op s).2 :=
  ⟨_, Program.exec_run (fun _ _ => rfl) _ _⟩

def overLevelHandler : (c : ProviderCall JsValue) → Databases →
    (Providers JsValue).Settled c × Databases
  | .get id, s => let r := performed (.get id) s; ((r.1.map nonNull).mapError refusal, r.2)
  | .set id v, s => let r := performed (.set id v) s; ((r.1.map fun _ => ()).mapError refusal, r.2)
  | .getSigningKey a, s =>
    let r := performed (.getSigningKey a) s; ((r.1.map signingKeyOf).mapError refusal, r.2)
  | .setSigningKey a k, s =>
    let r := performed (.setSigningKey a k) s; ((r.1.map fun _ => ()).mapError refusal, r.2)
  | c, s => (answer c, s)

theorem overLevel_overLevelHandler (c : ProviderCall JsValue) (s : Databases) :
    overLevel DEFAULT_CONFIG refusal MayFail c s (overLevelHandler c s).1
      (overLevelHandler c s).2 := by
  cases c with
  | get id => exact ⟨_, performs_performed _ s, rfl⟩
  | set id v => exact ⟨_, performs_performed _ s, rfl⟩
  | getSigningKey a => exact ⟨_, performs_performed _ s, rfl⟩
  | setSigningKey a k => exact ⟨_, performs_performed _ s, rfl⟩
  | runCircuit circuit context args =>
    refine ⟨fun m => ?_, rfl⟩
    change storeEnv MayFail (.runCircuit circuit context args) m (circuit context args) m
    cases hr : circuit context args with
    | ok reply => exact ⟨hr, rfl⟩
    | error why => exact ⟨fun h => h, rfl⟩
  | _ => exact ⟨fun m => rfl, rfl⟩

/-- A contract is deployed with a private state, and given a new authority. -/
def levelSession : List (Performed (contractOps JsValue) Databases) × Databases :=
  (contractOps JsValue).perform overLevelHandler
    [.deploy providers ⟨stateless, none, none, some id, some (.string (js "one"))⟩,
      .replaceAuthority address (key 2)]
    noDatabases

def storesString (e : Event (Providers JsValue)) : Bool :=
  match e.call with
  | .set _ (.string _) => true
  | .set _ _ => false
  | _ => true

theorem stringsReadBack : StringsReadBack := by
  intro s
  have hwell : (Json.object [(js "json", .string s)]).WellFormed :=
    ⟨List.nodup_singleton _, trivial, trivial⟩
  simp only [SuperJson.parse, SuperJson.stringify, parse_stringify hwell]

theorem levelSession_stores : ∀ d ∈ levelSession.1, ∀ e ∈ d.trace, StoresState e := by
  have hall : (levelSession.1.all fun d => d.trace.all storesString) = true := by decide +kernel
  intro d hd e he id v hcall
  have hstring := List.all_eq_true.mp (List.all_eq_true.mp hall d hd) e he
  rw [storesString, hcall] at hstring
  cases v with
  | string text => exact ⟨rfl, stringsReadBack text⟩
  | _ => cases hstring

theorem contract_sessions_over_level_deployed :
    (levelSession.1.all fun d => d.outcome.isOk) = true ∧ ∃ done' m,
      Session (S := contractOps JsValue) (storeEnv MayFail) emptyStore done' m ∧
        List.Forall₂ (Alike (Represents DEFAULT_CONFIG)) levelSession.1 done' ∧
        Represents DEFAULT_CONFIG levelSession.2 m :=
  ⟨by decide +kernel, contract_sessions_over_level defaults_stores_ne stringsReadBack
    represents_emptyStore (session_perform overLevel_overLevelHandler _ _) levelSession_stores⟩

/-- Its constructor returns `undefined`, which is to be stored. -/
def undefinedDeployment : List (Event (Providers JsValue)) ×
    Except ContractsError (FinalizedDeployTxData JsValue) × Databases :=
  (submitDeployTx providers ⟨stateless, none, key 1, none, some id⟩).run overLevelHandler noDatabases

theorem deployment_keeps_key_iff_undefined :
    (¬ ∃ r, undefinedDeployment.2.1 = .ok r) ∧
      undefinedDeployment.2.2.content = noDatabases.content := by
  have run : Exec (overLevel DEFAULT_CONFIG refusal MayFail)
      (submitDeployTx providers ⟨stateless, none, key 1, none, some id⟩) noDatabases
      undefinedDeployment.1 undefinedDeployment.2.1 undefinedDeployment.2.2 :=
    Program.exec_run overLevel_overLevelHandler _ _
  have hfinal : FinalizedAs undefinedDeployment.1 .SucceedEntirely := by decide +kernel
  have hrejected : undefinedDeployment.2.1.isOk = false := by decide +kernel
  have hnot : ¬ ∃ r, undefinedDeployment.2.1 = .ok r := by
    rintro ⟨r, h⟩
    rw [h] at hrejected
    cases hrejected
  obtain ⟨_, _, _, _, _, _, _, _, _, hleft⟩ := deployment_keeps_key_iff rfl run hfinal
  exact ⟨hnot, (hleft hnot).2⟩

end Sample

end MidnightJs
