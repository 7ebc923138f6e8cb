import MidnightJs.Contracts.FindRuns
import MidnightJs.Contracts.VerifierKeys
import MidnightJs.ZkConfigProviders.ProvenTransactions

/-! # The keys of a contract and the artifacts of its calls

A deployment gives the contract the verifier keys that are in the files, and a find compares them
with those of the contract. A call is proven later, with what the files hold then. -/

namespace MidnightJs
open Foundations Foundations.Js Foundations.Async
set_option autoImplicit false

section Proving

variable [Runtime]

/-! ## Keys of a list -/

/-- The last entry of a circuit gives its key, and any of them will do. -/
theorem addVerifierKeys_fits {verifierKeys : List (CircuitId × VerifierKey)}
    {s s' : ContractState} (h : addVerifierKeys verifierKeys s = .ok s') {circuitId : CircuitId}
    {Fits : VerifierKey → Prop}
    (hentries : ∀ entry ∈ verifierKeys, entry.1 = circuitId → Fits entry.2)
    (hsome : (∃ entry ∈ verifierKeys, entry.1 = circuitId) ∨
      ∃ key, s.keys circuitId = some key ∧ Fits key) :
    ∃ key, s'.keys circuitId = some key ∧ Fits key := by
  induction verifierKeys generalizing s with
  | nil =>
    cases h
    obtain ⟨_, hmem, _⟩ | hkey := hsome
    · exact absurd hmem List.not_mem_nil
    · exact hkey
  | cons entry verifierKeys ih =>
    rw [addVerifierKeys_cons, except_bind_ok] at h
    obtain ⟨operation, -, h⟩ := h
    apply ih h (fun entry' hmem => hentries entry' (List.mem_cons_of_mem _ hmem))
    rw [ContractState.keys_setOperation]
    by_cases hid : entry.1 = circuitId
    · right
      exact ⟨entry.2, by rw [hid, Function.update_self], hentries entry List.mem_cons_self hid⟩
    · rw [Function.update_of_ne (Ne.symm hid)]
      refine hsome.imp_left ?_
      rintro ⟨entry', hmem, hid'⟩
      obtain rfl | hmem := List.mem_cons.mp hmem
      · exact absurd hid' hid
      · exact ⟨entry', hmem, hid'⟩

variable {PS σ : Type} {E : Interface} {env : Env E ℕ} {provider : ZKConfigProvider E}
  {files : ArtifactFiles} {toData : List UInt8 → List UInt8 → ProverData}
  {others : Env (Providers PS) σ} {s s' : σ × ℕ} {tr : List (Event (Providers PS))}

/-- Between two moments, the file of the circuit held this verifier key. -/
def HeldKey (files : ArtifactFiles) (start finish : ℕ) (circuitId : CircuitId)
    (key : VerifierKey) : Prop :=
  ∃ t, start ≤ t ∧ t ≤ finish ∧ files.verifier circuitId t = some key

/-- The contract has a key for each of the circuits, which was in the circuit's file between two
moments. -/
def KeysHeld (files : ArtifactFiles) (circuitIds : List CircuitId) (start finish : ℕ)
    (state : ContractState) : Prop :=
  ∀ circuitId ∈ circuitIds, ∃ key, state.keys circuitId = some key ∧
    HeldKey files start finish circuitId key

omit [Runtime] in
theorem HeldKey.mono {start start' finish finish' : ℕ} {circuitId : CircuitId} {key : VerifierKey}
    (h : HeldKey files start finish circuitId key) (hstart : start' ≤ start)
    (hfinish : finish ≤ finish') : HeldKey files start' finish' circuitId key := by
  obtain ⟨t, ht, ht', hkey⟩ := h
  exact ⟨t, hstart.trans ht, ht'.trans hfinish, hkey⟩

theorem KeysHeld.mono {circuitIds : List CircuitId} {start start' finish finish' : ℕ}
    {state : ContractState} (h : KeysHeld files circuitIds start finish state)
    (hstart : start' ≤ start) (hfinish : finish ≤ finish') :
    KeysHeld files circuitIds start' finish' state := by
  intro circuitId hmem
  obtain ⟨key, hkey, hheld⟩ := h circuitId hmem
  exact ⟨key, hkey, hheld.mono hstart hfinish⟩

omit [Runtime] in
theorem ReadsKeys.held (reads : ReadsArtifacts env files provider) {circuitIds : List CircuitId}
    {now later : ℕ} {keys : List (CircuitId × VerifierKey)}
    (h : ReadsKeys env provider circuitIds now keys later) :
    (∀ entry ∈ keys, HeldKey files now later entry.1 entry.2) ∧
      ∀ circuitId ∈ circuitIds, ∃ entry ∈ keys, entry.1 = circuitId := by
  obtain ⟨-, hkeys⟩ := h
  induction hkeys with
  | nil => simp
  | cons hentry _ ih =>
    obtain ⟨rfl, i, _, j, hi, hj, hrun⟩ := hentry
    obtain ⟨-, hread⟩ := reads.verifier _ _ _ _ _ hrun
    obtain ⟨t, hfrom, huntil, hkey⟩ := hread _ rfl
    refine ⟨?_, ?_⟩
    · intro entry hmem
      obtain rfl | hmem := List.mem_cons.mp hmem
      · exact ⟨t, hi.trans hfrom, huntil.trans hj, hkey⟩
      · exact ih.1 entry hmem
    · intro circuitId hmem
      obtain rfl | hmem := List.mem_cons.mp hmem
      · exact ⟨_, List.mem_cons_self, rfl⟩
      · obtain ⟨entry, hentry, hid⟩ := ih.2 circuitId hmem
        exact ⟨entry, List.mem_cons_of_mem _ hentry, hid⟩

/-! ## Deployed and found contracts -/

/-- No other transaction is proven. -/
def ProvesTx (tx : UnprovenTransaction) (c : ProviderCall PS) : Prop :=
  ∀ tx' zkConfig, c = .proveTx tx' zkConfig → tx' = tx

theorem uses_submitTx_provesTx (options : SubmitTxOptions) :
    (submitTx options : Promise PS _).Uses (ProvesTx options.unprovenTx) := by
  have hconfig := (uses_zkConfigOf_neverProves options.circuitId).mono
    fun (c : ProviderCall PS) (h : NeverProves c) =>
      show ProvesTx options.unprovenTx c from fun tx zkConfig hc => absurd hc (h tx zkConfig)
  refine Program.uses_bind hconfig fun zkConfig => ?_
  refine Program.uses_bind (Program.uses_call (E := Providers PS) ?_) fun _ => ?_
  · intro tx zkConfig' hcall
    cases hcall
    rfl
  refine Program.uses_bind (Program.uses_call (E := Providers PS) nofun) fun _ => ?_
  refine Program.uses_bind (Program.uses_call (E := Providers PS) nofun) fun _ => ?_
  exact Program.uses_call (E := Providers PS) nofun

theorem exec_createUnprovenDeployTx_keys (reads : ReadsArtifacts env files provider)
    [Undefined PS] {providers : ContractProviders} {options : DeployTxOptions PS}
    {d : UnsubmittedDeployTxData PS}
    (run : Exec (artifactEnv env provider toData others) (createUnprovenDeployTx providers options)
      s tr (.ok d) s') :
    ∃ deploy, d.private.unprovenTx.contracts = [.deploy deploy] ∧
      KeysHeld files (getImpureCircuitIds options.contract) s.2 s'.2 deploy.initialState := by
  obtain ⟨verifierKeys, s₁, _, ⟨_, hkeys⟩, hbuild, _⟩ := exec_provide_bind_ok run
  obtain ⟨hentries, hall⟩ := hkeys.held reads
  have hlater := (ticks_artifactEnv reads).exec hbuild
  obtain ⟨coinPublicKey, _, hbuild⟩ := exec_sync_bind_ok hbuild
  obtain ⟨constructed, _, hbuild⟩ := exec_sync_bind_ok hbuild
  obtain ⟨built, s₂, _, _, hledger, hreturn, _⟩ := exec_bind_ok.mp hbuild
  obtain ⟨withVerifierKeys, hadd, hledger⟩ := exec_sync_bind_ok hledger
  obtain ⟨address, _, _, _, hledger, _⟩ := exec_provide_bind_ok hledger
  obtain ⟨offer, _, hledger⟩ := exec_sync_bind_ok hledger
  obtain ⟨_, hout, _⟩ := exec_resolve.mp hledger
  cases hout
  obtain ⟨_, hd, _⟩ := exec_resolve.mp hreturn
  cases hd
  refine ⟨_, rfl, fun circuitId hmem => ?_⟩
  have hkeys := addVerifierKeys_fits hadd
    (fun entry hentry hid => hid ▸ (hentries entry hentry).mono le_rfl hlater)
    (.inl (hall circuitId hmem))
  exact hkeys

theorem exec_submitDeployTx_keys (reads : ReadsArtifacts env files provider)
    [Undefined PS] {providers : ContractProviders} {options : DeployTxOptions PS}
    {out : Except ContractsError (FinalizedDeployTxData PS)}
    (run : Exec (artifactEnv env provider toData others) (submitDeployTx providers options)
      s tr out s')
    {tx : UnprovenTransaction} {zkConfig : Option ZKConfig} {r : Except JsError UnbalancedTransaction}
    (h : (⟨.proveTx tx zkConfig, r⟩ : Event (Providers PS)) ∈ tr) :
    ∃ deploy, tx.contracts = [.deploy deploy] ∧
      KeysHeld files (getImpureCircuitIds options.contract) s.2 s'.2 deploy.initialState := by
  have hbuild := (prepares_createUnprovenDeployTx NoOther providers options).uses.mono
    fun _ h => h.neverProves
  rw [submitDeployTx_eq] at run
  obtain ⟨d, s₁, s₂, _, _, _, hbuilt, hsubmit, hmem, hlater⟩ :=
    exec_transact_proves reads hbuild (fun d => uses_storeDeployed_isWrite _ _ _ _) run h
  obtain ⟨deploy, hdeploy, hheld⟩ := exec_createUnprovenDeployTx_keys reads hbuilt
  obtain rfl := hsubmit.allowed_of_mem (uses_submitTx_provesTx _) hmem tx zkConfig rfl
  exact ⟨deploy, hdeploy, hheld.mono le_rfl (((ticks_artifactEnv reads).exec hsubmit).trans hlater)⟩

theorem exec_foundChecks_keys (reads : ReadsArtifacts env files provider)
    {options : FindDeployedContractOptions PS} {found : FinalizedTxData × ContractState}
    (run : Exec (artifactEnv env provider toData others) (foundChecks options) s tr (.ok found) s')
    {a : ContractAddress} {state : ContractState}
    (h : (⟨.queryContractState a, .ok (some state)⟩ : Event (Providers PS)) ∈ tr) :
    KeysHeld files (getImpureCircuitIds options.contract) s.2 s'.2 state := by
  obtain ⟨_, _, hasked⟩ := exec_sync_bind_ok run
  obtain ⟨data, s₁, tr₁, hwatch, hfirst, rfl⟩ := exec_provide_bind_ok hasked
  obtain ⟨initial, s₂, tr₂, hinitial, hsecond, rfl⟩ := exec_provide_bind_ok hfirst
  obtain ⟨_, _, hthird⟩ := exec_sync_bind_ok hsecond
  obtain ⟨current, s₃, tr₃, hcurrent, hfourth, rfl⟩ := exec_provide_bind_ok hthird
  obtain ⟨state', hdefined, hfifth⟩ := exec_sync_bind_ok hfourth
  obtain ⟨verifierKeys, s₄, tr₄, hkeys, hlast, rfl⟩ := exec_provide_bind_ok hfifth
  obtain ⟨_, s₅, tr₅, tr₆, hverified, hreturn, rfl⟩ := exec_bind_ok.mp hlast
  obtain ⟨rfl, hpasses, rfl⟩ := exec_ofExcept.mp hverified
  obtain ⟨rfl, _, rfl⟩ := exec_resolve.mp hreturn
  obtain ⟨rfl, _⟩ := assertDefined_eq_ok.mp hdefined
  -- the current state is asked for once
  obtain rfl : state = state' := by
    simp only [List.append_nil, List.mem_cons, List.not_mem_nil, or_false] at h
    obtain h | h | h | h := h <;> cases h
    rfl
  have hentries := (checksAgainst_keys verifierKeys).passes.mp hpasses.symm
  have ticks : Ticks (artifactEnv env provider toData others) Prod.snd := ticks_artifactEnv reads
  have hbefore := (ticks _ _ _ _ hwatch).trans ((ticks _ _ _ _ hinitial).trans (ticks _ _ _ _ hcurrent))
  obtain ⟨hheld, hall⟩ := hkeys.2.held reads
  intro circuitId hmem
  obtain ⟨entry, hentry, rfl⟩ := hall circuitId hmem
  exact ⟨entry.2, hentries entry hentry, (hheld entry hentry).mono hbefore le_rfl⟩

def NeverQueries (c : ProviderCall PS) : Prop := ∀ a, c ≠ .queryContractState a

theorem uses_setOrGetInitialSigningKey_neverQueries (options : FindDeployedContractOptions PS) :
    (setOrGetInitialSigningKey options).Uses NeverQueries := by
  have hfresh : (setOrGetInitialSigningKey.storeFreshSigningKey options).Uses NeverQueries := by
    refine Program.uses_bind (Program.uses_call (E := Providers PS) nofun) fun _ => ?_
    exact Program.uses_bind (Program.uses_call (E := Providers PS) nofun) fun _ => trivial
  have hexisting : (setOrGetInitialSigningKey.getOrSampleSigningKey options).Uses NeverQueries := by
    refine Program.uses_bind (Program.uses_call (E := Providers PS) nofun) fun existing => ?_
    split
    · split
      · trivial
      · exact hfresh
    · exact hfresh
  unfold setOrGetInitialSigningKey
  split
  · split
    · exact Program.uses_bind (Program.uses_call (E := Providers PS) nofun) fun _ => trivial
    · exact hexisting
  · exact hexisting

variable [Undefined PS]

theorem uses_setOrGetInitialPrivateState_neverQueries (options : FindDeployedContractOptions PS) :
    (setOrGetInitialPrivateState options).Uses NeverQueries := by
  unfold setOrGetInitialPrivateState
  split
  · exact Program.uses_bind (Program.uses_call (E := Providers PS) nofun) fun _ => trivial
  · refine Program.uses_bind (Program.uses_call (E := Providers PS) nofun) fun _ => ?_
    exact Program.uses_ofExcept _
  · trivial
  · trivial

theorem uses_foundContract_neverQueries (providers : ContractProviders)
    (options : FindDeployedContractOptions PS) (found : FinalizedTxData × ContractState)
    (k : SigningKey) (v : PS) : (foundContract providers options found k v).Uses NeverQueries := by
  refine Program.uses_bind (Program.uses_ofExcept _) fun _ => ?_
  refine Program.uses_bind (Program.uses_ofExcept _) fun _ => ?_
  exact Program.uses_bind (Program.uses_ofExcept _) fun _ => trivial

theorem exec_findDeployedContract_keys (reads : ReadsArtifacts env files provider)
    {providers : ContractProviders} {options : FindDeployedContractOptions PS}
    {found : FoundContract PS}
    (run : Exec (artifactEnv env provider toData others) (findDeployedContract providers options)
      s tr (.ok found) s')
    {a : ContractAddress} {state : ContractState}
    (h : (⟨.queryContractState a, .ok (some state)⟩ : Event (Providers PS)) ∈ tr) :
    KeysHeld files (getImpureCircuitIds options.contract) s.2 s'.2 state := by
  rw [findDeployedContract_eq] at run
  obtain ⟨checked, s₁, tr₁, tr₂, hchecks, hstores, rfl⟩ := exec_bind_ok.mp run
  have hlater := (ticks_artifactEnv reads).exec hstores
  obtain hmem | hmem := List.mem_append.mp h
  · exact (exec_foundChecks_keys reads hchecks hmem).mono le_rfl hlater
  · have huses := Program.uses_bind (uses_setOrGetInitialSigningKey_neverQueries options) fun k =>
      Program.uses_bind (uses_setOrGetInitialPrivateState_neverQueries options) fun v =>
        uses_foundContract_neverQueries providers options checked k v
    exact absurd rfl (hstores.allowed_of_mem huses hmem a)

/-! ## Calls of deployed and of found contracts -/

/-- A client starts with a contract in this state: its deployment was handed to the prover, or the
contract was found on the chain. -/
inductive StartsWith (env : Env (Providers PS) (σ × ℕ)) (s s' : σ × ℕ) :
    Contract PS → ContractState → Prop
  | deployed {providers : ContractProviders} {options : DeployTxOptions PS}
      {tr : List (Event (Providers PS))} {out : Except ContractsError (FinalizedDeployTxData PS)}
      {tx : UnprovenTransaction} {zkConfig : Option ZKConfig}
      {r : Except JsError UnbalancedTransaction} {deploy : ContractDeploy}
      (run : Exec env (submitDeployTx providers options) s tr out s')
      (proved : (⟨.proveTx tx zkConfig, r⟩ : Event (Providers PS)) ∈ tr)
      (deploys : .deploy deploy ∈ tx.contracts) :
      StartsWith env s s' options.contract deploy.initialState
  | found {providers : ContractProviders} {options : FindDeployedContractOptions PS}
      {tr : List (Event (Providers PS))} {found : FoundContract PS} {a : ContractAddress}
      {state : ContractState}
      (run : Exec env (findDeployedContract providers options) s tr (.ok found) s')
      (queried : (⟨.queryContractState a, .ok (some state)⟩ : Event (Providers PS)) ∈ tr) :
      StartsWith env s s' options.contract state

theorem StartsWith.keysHeld (reads : ReadsArtifacts env files provider) {contract : Contract PS}
    {state : ContractState}
    (h : StartsWith (artifactEnv env provider toData others) s s' contract state) :
    KeysHeld files (getImpureCircuitIds contract) s.2 s'.2 state := by
  cases h with
  | deployed run proved deploys =>
    obtain ⟨deploy, hdeploy, hheld⟩ := exec_submitDeployTx_keys reads run proved
    rw [hdeploy, List.mem_singleton] at deploys
    cases deploys
    exact hheld
  | found run queried => exact exec_findDeployedContract_keys reads run queried

/-- The prover is given the artifacts of the circuit, with the verifier key that the contract has for
it. -/
def ProvenFor (state : ContractState) (circuitId : CircuitId) (zkConfig : Option ZKConfig) : Prop :=
  ∃ given, zkConfig = some given ∧ given.circuitId = circuitId ∧
    state.keys circuitId = some given.verifierKey

/-- Whatever is written to the files, as long as every read is at once: a contract that was deployed or
found has for each of its circuits a verifier key that was in the circuit's file meanwhile. A later call
of one of the circuits is proven for this key if and only if the file held the same at two moments,
one of the deployment or the find and one of the call. -/
theorem proven_for_contract_iff (reads : ReadsArtifacts env files provider) {contract : Contract PS}
    {state : ContractState}
    (starts : StartsWith (artifactEnv env provider toData others) s s' contract state) :
    KeysHeld files (getImpureCircuitIds contract) s.2 s'.2 state ∧
    ∀ (providers : ContractProviders) (options : CallTxOptions PS) (s₁ s₁' : σ × ℕ)
      (tr : List (Event (Providers PS))) (out : Except ContractsError (FinalizedCallTxData PS))
      (tx : UnprovenTransaction) (zkConfig : Option ZKConfig)
      (r : Except JsError UnbalancedTransaction),
      options.circuitId ∈ getImpureCircuitIds contract → truthy options.circuitId = true →
      Exec (artifactEnv env provider toData others) (submitCallTx providers options) s₁ tr out s₁' →
      (⟨.proveTx tx zkConfig, r⟩ : Event (Providers PS)) ∈ tr →
      ∃ key given t t', state.keys options.circuitId = some key ∧ zkConfig = some given ∧
        (s.2 ≤ t ∧ t ≤ s'.2 ∧ files.verifier options.circuitId t = some key) ∧
        (s₁.2 ≤ t' ∧ t' ≤ s₁'.2 ∧ files.verifier options.circuitId t' = some given.verifierKey) ∧
        (ProvenFor state options.circuitId zkConfig ↔
          files.verifier options.circuitId t = files.verifier options.circuitId t') := by
  refine ⟨starts.keysHeld reads, ?_⟩
  intro providers options s₁ s₁' tr out tx zkConfig r hcircuit hid run h
  obtain ⟨key, hkey, t, hfrom, huntil, hheld⟩ := starts.keysHeld reads _ hcircuit
  have hproven := exec_submitCallTx_proven reads run h
  unfold ProvenWith at hproven
  dsimp only at hproven
  rw [if_pos hid] at hproven
  obtain ⟨artifacts, hown, ⟨i, t', k, hi, hit', ht'k, hk, _, hverifier, _⟩, rfl⟩ := hproven
  rw [hown] at hverifier
  refine ⟨key, _, t, t', hkey, rfl, ⟨hfrom, huntil, hheld⟩, ⟨hi.trans hit', ht'k.trans hk, hverifier⟩,
    ?_⟩
  rw [hheld, hverifier]
  constructor
  · rintro ⟨given, hgiven, _, hsame⟩
    cases hgiven
    exact hkey.symm.trans hsame
  · intro hsame
    exact ⟨_, rfl, hown, hkey.trans hsame⟩

end Proving

namespace Sample

/-- The run of a deployment. -/
def provenDeployment : List (Event (Providers (Option ℕ))) ×
    Except ContractsError (FinalizedDeployTxData (Option ℕ)) × PrivateStore (Option ℕ) × ℕ :=
  (submitDeployTx providers ⟨contract 1, none, key 1, some (some 5), some (js "id")⟩).run
    provingHandler (store none none, 0)

/-- The run of a call after it. -/
def provenCallLater : List (Event (Providers (Option ℕ))) ×
    Except ContractsError (FinalizedCallTxData (Option ℕ)) × PrivateStore (Option ℕ) × ℕ :=
  (submitCallTx providers ⟨contract 1, circuitId, address, none, some (js "id")⟩).run
    provingHandler provenDeployment.2.2

theorem startsWith_provenDeployment : StartsWith
    (artifactEnv (readsOf AtOnce rewritten (js "/")) artifactProvider noData (storeEnv MayFail))
    (store none none, 0) provenDeployment.2.2 (contract 1)
    ⟨(), [(circuitId, ⟨[1]⟩)], ⟨[key 1], 1, 0⟩⟩ := by
  have hproved : ∃ tx zkConfig r,
      (⟨.proveTx tx zkConfig, r⟩ : Event (Providers (Option ℕ))) ∈ provenDeployment.1 ∧
        .deploy ⟨address, ⟨(), [(circuitId, ⟨[1]⟩)], ⟨[key 1], 1, 0⟩⟩⟩ ∈ tx.contracts :=
    ⟨_, _, _, List.mem_of_getElem? (i := 2) rfl, List.mem_singleton_self _⟩
  obtain ⟨tx, zkConfig, r, hproved, hdeploys⟩ := hproved
  exact .deployed (Program.exec_run artifactEnv_provingHandler _ _) hproved hdeploys

/-- The keys are written again between the deployment and the call. -/
theorem proven_for_contract_iff_rewritten :
    KeysHeld (.under rewritten (js "/managed")) [circuitId] 0 1
        ⟨(), [(circuitId, ⟨[1]⟩)], ⟨[key 1], 1, 0⟩⟩ ∧
      ∃ key given t t', some [1] = some key ∧ some (⟨circuitId, [3], ()⟩ : ZKConfig) = some given ∧
        (0 ≤ t ∧ t ≤ 1 ∧ rewritten t [] = some key) ∧
        (1 ≤ t' ∧ t' ≤ 4 ∧ rewritten t' [] = some given.verifierKey) ∧
        (ProvenFor ⟨(), [(circuitId, ⟨[1]⟩)], ⟨[Sample.key 1], 1, 0⟩⟩ circuitId
            (some ⟨circuitId, [3], ()⟩) ↔ rewritten t [] = rewritten t' []) := by
  have hproved : ∃ tx r, (⟨.proveTx tx (some ⟨circuitId, [3], ()⟩), r⟩ :
      Event (Providers (Option ℕ))) ∈ provenCallLater.1 :=
    ⟨_, _, List.mem_of_getElem? (i := 6) rfl⟩
  obtain ⟨tx, r, hmem⟩ := hproved
  have hproven := proven_for_contract_iff
    (NodeZkConfigProvider.readsArtifacts atomic_atOnce rewritten (js "/") (by decide))
    startsWith_provenDeployment
  exact ⟨hproven.1, hproven.2 _ _ _ _ _ _ _ _ _ (by decide) (by decide)
    (Program.exec_run artifactEnv_provingHandler _ _) hmem⟩

end Sample

end MidnightJs
