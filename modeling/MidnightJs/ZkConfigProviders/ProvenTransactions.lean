import MidnightJs.Contracts.PrivateStateRuns
import MidnightJs.Foundations.Clock
import MidnightJs.ZkConfigProviders.ZkConfigProvider

/-! # The artifacts that transactions are proven with

The functions of `packages/contracts` are given a provider of artifacts, whose files may be written
while they run. A call is proven with the artifacts of its own circuit, read one after another; other
transactions are proven without. -/

namespace MidnightJs
open Foundations Foundations.Js Foundations.Async
set_option autoImplicit false

section Proving

variable [Runtime] {PS σ : Type} {E : Interface}

/-- `toData` makes what the prover is given of the prover key and the zkIR. -/
def Artifacts.toZKConfig (toData : List UInt8 → List UInt8 → ProverData) (artifacts : Artifacts) :
    ZKConfig :=
  ⟨artifacts.circuitId, artifacts.verifierKey, toData artifacts.proverKey artifacts.zkir⟩

/-- `getVerifierKeys`, which reads all keys at the same time, each of them within the whole. -/
def ReadsKeys (env : Env E ℕ) (provider : ZKConfigProvider E) (circuitIds : List CircuitId)
    (now : ℕ) (keys : List (CircuitId × VerifierKey)) (later : ℕ) : Prop :=
  now ≤ later ∧ List.Forall₂ (fun circuitId entry => entry.1 = circuitId ∧
    ∃ i tr j, now ≤ i ∧ j ≤ later ∧ Exec env (provider.getVerifierKey circuitId) i tr (.ok entry.2) j)
    circuitIds keys

/-- Artifacts come from the provider; the other calls are answered by `others`, and take their
time. -/
def artifactEnv (env : Env E ℕ) (provider : ZKConfigProvider E)
    (toData : List UInt8 → List UInt8 → ProverData) (others : Env (Providers PS) σ) :
    Env (Providers PS) (σ × ℕ) := fun c s r s' =>
  match c, r with
  | .getZkConfig circuitId, .ok zkConfig => s'.1 = s.1 ∧ ∃ tr artifacts,
      Exec env (provider.get circuitId) s.2 tr (.ok artifacts) s'.2 ∧
      zkConfig = artifacts.toZKConfig toData
  | .getVerifierKeys circuitIds, .ok keys =>
    s'.1 = s.1 ∧ ReadsKeys env provider circuitIds s.2 keys s'.2
  | c, r => others c s.1 r s'.1 ∧ s.2 ≤ s'.2

variable {env : Env E ℕ} {provider : ZKConfigProvider E} {files : ArtifactFiles}
  {toData : List UInt8 → List UInt8 → ProverData} {others : Env (Providers PS) σ} {s s' : σ × ℕ}
  {tr : List (Event (Providers PS))}

theorem ticks_artifactEnv (reads : ReadsArtifacts env files provider) :
    Ticks (artifactEnv env provider toData others) Prod.snd := by
  intro c s r s' h
  cases c with
  | getZkConfig circuitId =>
    cases r with
    | ok zkConfig =>
      obtain ⟨_, _, _, hrun, _⟩ := h
      exact (reads.get hrun).1
    | error e => exact h.2
  | getVerifierKeys circuitIds =>
    cases r with
    | ok keys => exact h.2.1
    | error e => exact h.2
  | _ => exact h.2

/-! ## What is proven -/

/-- A transaction is proven with no other config. -/
def ProvesOnly (zkConfig : Option ZKConfig) (c : ProviderCall PS) : Prop :=
  ∀ tx zkConfig', c = .proveTx tx zkConfig' → zkConfig' = zkConfig

def NeverProves (c : ProviderCall PS) : Prop := ∀ tx zkConfig, c ≠ .proveTx tx zkConfig

/-- The config of a call with the circuit id, and of a transaction without one. -/
def ProvenWith (files : ArtifactFiles) (toData : List UInt8 → List UInt8 → ProverData)
    (circuitId : Option CircuitId) (start finish : ℕ) (zkConfig : Option ZKConfig) : Prop :=
  match circuitId with
  | some circuitId =>
    if truthy circuitId then ∃ artifacts, artifacts.circuitId = circuitId ∧
      ReadInOrder files start finish artifacts ∧ zkConfig = some (artifacts.toZKConfig toData)
    else zkConfig = none
  | none => zkConfig = none

theorem exec_zkConfigOf (reads : ReadsArtifacts env files provider) {circuitId : Option CircuitId}
    {zkConfig : Option ZKConfig}
    (run : Exec (artifactEnv env provider toData others) (zkConfigOf circuitId : Promise PS _) s tr
      (.ok zkConfig) s') : ProvenWith files toData circuitId s.2 s'.2 zkConfig := by
  unfold zkConfigOf at run
  unfold ProvenWith
  cases circuitId with
  | none =>
    obtain ⟨_, h, _⟩ := exec_resolve.mp run
    exact Except.ok.inj h
  | some circuitId =>
    dsimp only at run ⊢
    split_ifs at run ⊢
    · obtain ⟨reply, s₁, _, ⟨_, _, artifacts, hrun, rfl⟩, hreturn, _⟩ := exec_provide_bind_ok run
      obtain ⟨_, hout, rfl⟩ := exec_resolve.mp hreturn
      obtain ⟨hid, hread⟩ := (reads.get hrun).2 artifacts rfl
      exact ⟨artifacts, hid, hread, Except.ok.inj hout⟩
    · obtain ⟨_, h, _⟩ := exec_resolve.mp run
      exact Except.ok.inj h

omit [Runtime] in
theorem ReadInOrder.mono {start start' finish finish' : ℕ} {artifacts : Artifacts}
    (h : ReadInOrder files start finish artifacts) (hstart : start' ≤ start)
    (hfinish : finish ≤ finish') : ReadInOrder files start' finish' artifacts := by
  obtain ⟨i, j, k, hi, hj, hk, hlast, hread⟩ := h
  exact ⟨i, j, k, hstart.trans hi, hj, hk, hlast.trans hfinish, hread⟩

theorem ProvenWith.mono {circuitId : Option CircuitId} {start start' finish finish' : ℕ}
    {zkConfig : Option ZKConfig} (h : ProvenWith files toData circuitId start finish zkConfig)
    (hstart : start' ≤ start) (hfinish : finish ≤ finish') :
    ProvenWith files toData circuitId start' finish' zkConfig := by
  unfold ProvenWith at h ⊢
  cases circuitId with
  | none => exact h
  | some circuitId =>
    dsimp only at h ⊢
    split_ifs at h ⊢
    · obtain ⟨artifacts, hid, hread, hconfig⟩ := h
      exact ⟨artifacts, hid, hread.mono hstart hfinish, hconfig⟩
    · exact h

theorem uses_zkConfigOf_neverProves (circuitId : Option CircuitId) :
    (zkConfigOf circuitId : Promise PS _).Uses NeverProves := by
  unfold zkConfigOf
  split
  · split
    · exact Program.uses_bind (Program.uses_call (E := Providers PS) nofun) fun _ => trivial
    · trivial
  · trivial

theorem exec_submitTx_proven (reads : ReadsArtifacts env files provider) {options : SubmitTxOptions}
    {out : Except ContractsError FinalizedTxData}
    (run : Exec (artifactEnv env provider toData others) (submitTx options : Promise PS _) s tr out s')
    {tx : UnprovenTransaction} {zkConfig : Option ZKConfig} {r : Except JsError UnbalancedTransaction}
    (h : (⟨.proveTx tx zkConfig, r⟩ : Event (Providers PS)) ∈ tr) :
    ProvenWith files toData options.circuitId s.2 s'.2 zkConfig := by
  have hconfig := @uses_zkConfigOf_neverProves _ PS options.circuitId
  have hrest : ∀ zkConfig : Option ZKConfig, (do
      let unbalancedTx ← provide (.proveTx options.unprovenTx zkConfig)
      let balancedTx ← provide (.balanceTx unbalancedTx (options.newCoins.getD []))
      let txId ← provide (.submitTx balancedTx)
      provide (.watchForTxData txId) : Promise PS FinalizedTxData).Uses (ProvesOnly zkConfig) := by
    intro zkConfig
    refine Program.uses_bind (Program.uses_call (E := Providers PS) ?_) fun _ => ?_
    · intro tx zkConfig' hcall
      cases hcall
      rfl
    refine Program.uses_bind (Program.uses_call (E := Providers PS) nofun) fun _ => ?_
    refine Program.uses_bind (Program.uses_call (E := Providers PS) nofun) fun _ => ?_
    exact Program.uses_call (E := Providers PS) nofun
  obtain ⟨e, hfetch, _⟩ | ⟨fetched, s₁, tr₁, tr₂, hfetch, hprove, rfl⟩ := exec_bind.mp run
  · exact absurd rfl (hfetch.allowed_of_mem hconfig h tx zkConfig)
  · obtain hmem | hmem := List.mem_append.mp h
    · exact absurd rfl (hfetch.allowed_of_mem hconfig hmem tx zkConfig)
    · rw [hprove.allowed_of_mem (hrest fetched) hmem tx zkConfig rfl]
      exact (exec_zkConfigOf reads hfetch).mono le_rfl ((ticks_artifactEnv reads).exec hprove)

/-! ## The submitting operations -/

/-- What is proven in a run of `transact` is proven while the built transaction is submitted. -/
theorem exec_transact_proves (reads : ReadsArtifacts env files provider) {δ ρ : Type}
    {build : Promise PS δ} {options : δ → SubmitTxOptions} {failed : FinalizedTxData → ContractsError}
    {write : δ → Promise PS Unit} {result : δ → FinalizedTxData → ρ}
    (hbuild : build.Uses NeverProves) (hwrite : ∀ d, (write d).Uses ProviderCall.IsWrite)
    {out : Except ContractsError ρ}
    (run : Exec (artifactEnv env provider toData others)
      (transact build options failed write result) s tr out s')
    {tx : UnprovenTransaction} {zkConfig : Option ZKConfig} {r : Except JsError UnbalancedTransaction}
    (h : (⟨.proveTx tx zkConfig, r⟩ : Event (Providers PS)) ∈ tr) :
    ∃ d s₁ s₂ tr₁ tr₂ out₂,
      Exec (artifactEnv env provider toData others) build s tr₁ (.ok d) s₁ ∧
      Exec (artifactEnv env provider toData others) (submitTx (options d)) s₁ tr₂ out₂ s₂ ∧
      (⟨.proveTx tx zkConfig, r⟩ : Event (Providers PS)) ∈ tr₂ ∧ s₂.2 ≤ s'.2 := by
  obtain ⟨e, hbuilt, _⟩ | ⟨d, s₁, tr₁, tr₂, hbuilt, hsubmits, rfl⟩ := exec_bind.mp run
  · exact absurd rfl (hbuilt.allowed_of_mem hbuild h tx zkConfig)
  obtain hmem | hmem := List.mem_append.mp h
  · exact absurd rfl (hbuilt.allowed_of_mem hbuild hmem tx zkConfig)
  obtain ⟨e, hsubmit, _⟩ | ⟨data, s₂, tr₃, tr₄, hsubmit, hends, rfl⟩ := exec_bind.mp hsubmits
  · exact ⟨d, s₁, s', tr₁, tr₂, _, hbuilt, hsubmit, hmem, le_rfl⟩
  obtain hmem | hmem := List.mem_append.mp hmem
  · exact ⟨d, s₁, s₂, tr₁, tr₃, _, hbuilt, hsubmit, hmem, (ticks_artifactEnv reads).exec hends⟩
  · have hwrites := uses_transact_end (hwrite d) failed (result d) data
    exact absurd (hends.allowed_of_mem hwrites hmem) fun h => h

theorem transact_proven (reads : ReadsArtifacts env files provider) {δ ρ : Type}
    {build : Promise PS δ} {options : δ → SubmitTxOptions} {failed : FinalizedTxData → ContractsError}
    {write : δ → Promise PS Unit} {result : δ → FinalizedTxData → ρ}
    (hbuild : build.Uses NeverProves) (hwrite : ∀ d, (write d).Uses ProviderCall.IsWrite)
    {circuitId : Option CircuitId} (hcircuit : ∀ d, (options d).circuitId = circuitId)
    {out : Except ContractsError ρ}
    (run : Exec (artifactEnv env provider toData others)
      (transact build options failed write result) s tr out s')
    {tx : UnprovenTransaction} {zkConfig : Option ZKConfig} {r : Except JsError UnbalancedTransaction}
    (h : (⟨.proveTx tx zkConfig, r⟩ : Event (Providers PS)) ∈ tr) :
    ProvenWith files toData circuitId s.2 s'.2 zkConfig := by
  obtain ⟨d, s₁, s₂, _, _, _, hbuilt, hsubmit, hmem, hlater⟩ :=
    exec_transact_proves reads hbuild hwrite run h
  rw [← hcircuit d]
  exact (exec_submitTx_proven reads hsubmit hmem).mono ((ticks_artifactEnv reads).exec hbuilt) hlater

variable [Undefined PS]

omit [Undefined PS] in
theorem uses_maintenanceBuild_neverProves (a : ContractAddress)
    (check : ContractState → Except JsError Unit)
    (tx : ContractState → SigningKey → UnprovenTransaction) :
    (maintenanceBuild a check tx : Promise PS _).Uses NeverProves := by
  refine Program.uses_bind (Program.uses_ofExcept _) fun _ => ?_
  refine Program.uses_bind (Program.uses_call (E := Providers PS) nofun) fun _ => ?_
  refine Program.uses_bind (Program.uses_ofExcept _) fun _ => ?_
  refine Program.uses_bind (Program.uses_ofExcept _) fun _ => ?_
  refine Program.uses_bind (Program.uses_call (E := Providers PS) nofun) fun _ => ?_
  exact Program.uses_bind (Program.uses_ofExcept _) fun _ => trivial

omit [Undefined PS] in
theorem uses_storeDeployed_isWrite (id : Option PrivateStateId) (v : PS) (a : ContractAddress)
    (k : SigningKey) : (do
      setPrivateState id v
      provide (.setSigningKey a k) : Promise PS Unit).Uses ProviderCall.IsWrite := by
  refine Program.uses_bind (prepares_setPrivateState NoOther id v).uses fun _ => ?_
  exact Program.uses_call (E := Providers PS) trivial

omit [Undefined PS] in
theorem ProviderCall.BuildsCall.neverProves {c : ProviderCall PS} (h : c.BuildsCall) :
    NeverProves c := by
  rintro tx zkConfig rfl
  exact h

omit [Undefined PS] in
theorem ProviderCall.Deploys.neverProves {c : ProviderCall PS} (h : c.Deploys) : NeverProves c := by
  rintro tx zkConfig rfl
  exact h

theorem exec_submitCallTx_proven (reads : ReadsArtifacts env files provider)
    {providers : ContractProviders} {options : CallTxOptions PS}
    {out : Except ContractsError (FinalizedCallTxData PS)}
    (run : Exec (artifactEnv env provider toData others) (submitCallTx providers options) s tr out s')
    {tx : UnprovenTransaction} {zkConfig : Option ZKConfig} {r : Except JsError UnbalancedTransaction}
    (h : (⟨.proveTx tx zkConfig, r⟩ : Event (Providers PS)) ∈ tr) :
    ProvenWith files toData (some options.circuitId) s.2 s'.2 zkConfig := by
  have hbuild := (prepares_callBuild providers options).uses.mono fun _ h => h.neverProves
  rw [submitCallTx_eq] at run
  refine transact_proven reads hbuild ?_ ?_ run h
  · exact fun d => (prepares_setPrivateState NoOther _ _).uses
  · exact fun d => rfl

omit [Undefined PS] in
/-- The circuit that an operation calls. -/
def Submission.circuitId : Submission PS → Option CircuitId
  | .call _ options => some options.circuitId
  | _ => none

/-- Whatever is written to the files while an operation runs, as long as every read is at once: a call
hands its transaction to the prover with artifacts of its own circuit, the prover key, the verifier key
and the zkIR as they were at three moments of the run in this order; another operation, and a call of
the empty circuit id, hands it over without artifacts. -/
theorem proven_with_own_artifacts (reads : ReadsArtifacts env files provider) (op : Submission PS)
    {out : Except ContractsError op.Result}
    (run : Exec (artifactEnv env provider toData others) op.program s tr out s')
    {tx : UnprovenTransaction} {zkConfig : Option ZKConfig} {r : Except JsError UnbalancedTransaction}
    (h : (⟨.proveTx tx zkConfig, r⟩ : Event (Providers PS)) ∈ tr) :
    ProvenWith files toData op.circuitId s.2 s'.2 zkConfig := by
  cases op with
  | call providers options => exact exec_submitCallTx_proven reads run h
  | deploy providers options =>
    have hbuild := (prepares_createUnprovenDeployTx NoOther providers options).uses.mono
      fun _ h => h.neverProves
    change Exec _ (submitDeployTx providers options) _ _ _ _ at run
    rw [submitDeployTx_eq] at run
    refine transact_proven reads hbuild ?_ ?_ run h
    · exact fun d => uses_storeDeployed_isWrite _ _ _ _
    · exact fun d => rfl
  | replaceAuthority a k =>
    change Exec _ (submitReplaceAuthorityTx a k) _ _ _ _ at run
    rw [submitReplaceAuthorityTx_eq] at run
    refine transact_proven reads (uses_maintenanceBuild_neverProves _ _ _) ?_ ?_ run h
    · exact fun _ => Program.uses_call (E := Providers PS) trivial
    · exact fun _ => rfl
  | insertVerifierKey a circuitId newVk =>
    change Exec _ (submitInsertVerifierKeyTx a circuitId newVk) _ _ _ _ at run
    rw [submitInsertVerifierKeyTx_eq] at run
    refine transact_proven reads (uses_maintenanceBuild_neverProves _ _ _) ?_ ?_ run h
    · exact fun _ => trivial
    · exact fun _ => rfl
  | removeVerifierKey a circuitId =>
    change Exec _ (submitRemoveVerifierKeyTx a circuitId) _ _ _ _ at run
    rw [submitRemoveVerifierKeyTx_eq] at run
    refine transact_proven reads (uses_maintenanceBuild_neverProves _ _ _) ?_ ?_ run h
    · exact fun _ => trivial
    · exact fun _ => rfl

end Proving

namespace Sample

/-- Every file is written at every moment. -/
def rewritten : FileHistory := fun t _ => some [UInt8.ofNat t]

def artifactProvider : ZKConfigProvider FileReads := NodeZkConfigProvider.new (js "/managed")

/-- A read takes a moment. -/
def readHandler (_ : JsString) (t : ℕ) : Except JsError (List UInt8) × ℕ :=
  (.ok [UInt8.ofNat (t + 1)], t + 1)

theorem readsOf_readHandler (path : JsString) (t : ℕ) :
    readsOf AtOnce rewritten (js "/") path t (readHandler path t).1 (readHandler path t).2 := by
  refine ⟨Nat.le_succ t, fun bytes hread => ?_⟩
  cases hread
  exact ⟨t + 1, Nat.le_succ t, le_rfl, rfl⟩

def noData (_ _ : List UInt8) : ProverData := ()

def provingHandler : (c : ProviderCall (Option ℕ)) → PrivateStore (Option ℕ) × ℕ →
    (Providers (Option ℕ)).Settled c × PrivateStore (Option ℕ) × ℕ
  | .getZkConfig id, (s, t) => (.ok ⟨id, [UInt8.ofNat (t + 2)], ()⟩, s, t + 3)
  | .getVerifierKeys ids, (s, t) => (.ok (ids.map fun id => (id, [UInt8.ofNat (t + 1)])), s, t + 1)
  | c, (s, t) =>
    let r := storeHandler (reply .SucceedEntirely) c s
    (r.1, r.2, t)

theorem artifactEnv_provingHandler (c : ProviderCall (Option ℕ)) (s : PrivateStore (Option ℕ) × ℕ) :
    artifactEnv (readsOf AtOnce rewritten (js "/")) artifactProvider noData (storeEnv MayFail) c s
      (provingHandler c s).1 (provingHandler c s).2 := by
  have hothers : storeEnv MayFail c s.1 (storeHandler (reply .SucceedEntirely) c s.1).1
      (storeHandler (reply .SucceedEntirely) c s.1).2 := storeEnv_storeHandler (fun _ h => h) c s.1
  cases c with
  | getZkConfig id =>
    exact ⟨rfl, _, _, Program.exec_run (E := FileReads) readsOf_readHandler _ _, rfl⟩
  | getVerifierKeys ids =>
    refine ⟨rfl, Nat.le_succ s.2, ?_⟩
    rw [List.forall₂_map_right_iff, List.forall₂_same]
    intro circuitId _
    exact ⟨rfl, s.2, _, s.2 + 1, le_rfl, le_rfl,
      Program.exec_run (E := FileReads) readsOf_readHandler _ _⟩
  | _ => exact ⟨hothers, le_rfl⟩

def provenCall : Submission (Option ℕ) :=
  .call providers ⟨contract 1, circuitId, address, none, some (js "id")⟩

/-- The files change while they are read. -/
theorem proven_with_own_artifacts_rewritten :
    ∃ tx r, (⟨.proveTx tx (some ⟨circuitId, [2], ()⟩), r⟩ : Event (Providers (Option ℕ))) ∈
        (provenCall.program.run provingHandler (deployed (some 5), 0)).1 ∧
      ProvenWith (.under rewritten (js "/managed")) noData (some circuitId) 0 3
        (some ⟨circuitId, [2], ()⟩) := by
  have hcalls : ∃ tx r, (⟨.proveTx tx (some ⟨circuitId, [2], ()⟩), r⟩ :
      Event (Providers (Option ℕ))) ∈
        (provenCall.program.run provingHandler (deployed (some 5), 0)).1 :=
    ⟨_, _, List.mem_of_getElem? (i := 6) rfl⟩
  obtain ⟨tx, r, hmem⟩ := hcalls
  exact ⟨tx, r, hmem, proven_with_own_artifacts
    (NodeZkConfigProvider.readsArtifacts atomic_atOnce rewritten (js "/") (by decide))
    provenCall (Program.exec_run artifactEnv_provingHandler _ _) hmem⟩

end Sample

end MidnightJs
