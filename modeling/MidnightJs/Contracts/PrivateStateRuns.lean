import MidnightJs.Contracts.SubmissionSessions

/-! # Sequential calls and the stored private state

A session of `callTx.<circuit>` calls against the stored private state. As long as the private
state id is not empty and the stored value converts to `true`, every circuit is executed on the
stored value, no call rejects for lack of one, and the stored value is afterwards what the
circuits of the successful calls made of it. An empty id, and a stored value such as `0`, are taken
for missing ones by the code. -/

namespace MidnightJs
open Foundations Foundations.Js Foundations.Async
set_option autoImplicit false

section Runs

variable [Runtime] {PS : Type}

/-! ## The part of an operation after its build -/

/-- The errors of a run with a failed transaction. -/
def ContractsError.IsTxFailed (e : ContractsError) : Prop := e.finalizedTxData.isSome = true

theorem prepares_setPrivateState (also : ContractsError → Prop) (id : Option PrivateStateId)
    (v : PS) : Prepares ProviderCall.IsWrite also (setPrivateState id v) := by
  cases id with
  | none => exact .resolve _
  | some id => exact .provide trivial

/-- After its transaction was watched, a submitting operation only writes. -/
theorem uses_transact_end {ρ : Type} {write : Promise PS Unit}
    (hwrite : write.Uses ProviderCall.IsWrite) (failed : FinalizedTxData → ContractsError)
    (result : FinalizedTxData → ρ) (data : FinalizedTxData) :
    (if data.status ≠ .SucceedEntirely then .reject (failed data)
      else do
        write
        return result data : Promise PS ρ).Uses ProviderCall.IsWrite := by
  split
  · trivial
  · exact Program.uses_bind hwrite fun _ => trivial

theorem exec_transact_build {δ ρ : Type} {build : Promise PS δ} {options : δ → SubmitTxOptions}
    {failed : FinalizedTxData → ContractsError} {write : δ → Promise PS Unit}
    {result : δ → FinalizedTxData → ρ} {mayReject : ProviderCall PS → Prop}
    {s s' : PrivateStore PS} {tr : List (Event (Providers PS))} {out : Except ContractsError ρ}
    (hfailed : ∀ data, (failed data).IsTxFailed)
    (hwrite : ∀ d, Prepares ProviderCall.IsWrite ContractsError.IsTxFailed (write d))
    (run : Exec (storeEnv mayReject) (transact build options failed write result) s tr out s') :
    ∃ built s₁ tr₁ tr₂, Exec (storeEnv mayReject) build s tr₁ built s₁ ∧ tr = tr₁ ++ tr₂ ∧
      circuitInputs tr₂ = [] ∧
      ∀ e, out = .error e → built = .error e ∨ ¬ e.IsNoPrivateState := by
  obtain ⟨e, hb, rfl⟩ | ⟨d, s₁, tr₁, tr₂, hb, hrun, rfl⟩ := exec_bind.mp run
  · refine ⟨.error e, s', tr, [], hb, by simp, rfl, fun e' h => .inl ?_⟩
    cases h
    rfl
  have hrest : Prepares (fun c => c.Submits ∨ c.IsWrite) ContractsError.IsTxFailed (do
      let data ← submitTx (options d)
      if data.status ≠ .SucceedEntirely then .reject (failed data)
      else do
        write d
        return result d data : Promise PS ρ) := by
    refine .bind ((prepares_submitTx _ _).mono fun _ => .inl) fun data => ?_
    split
    · exact .reject_also (hfailed data)
    · exact .bind ((hwrite d).mono fun _ => .inr) fun _ => .resolve _
  refine ⟨.ok d, s₁, tr₁, tr₂, hb, rfl, ?_, ?_⟩
  · refine List.filterMap_eq_nil_iff.mpr fun e he => ?_
    obtain h | h := hrun.allowed_of_mem hrest.uses he
    · exact h.circuitInput
    · exact ProviderCall.IsWrite.circuitInput h
  · rintro e rfl
    refine .inr fun hlack => ?_
    obtain ⟨h | h, _⟩ | ⟨_, _, _, _, _, rfl⟩ := hrun.error_cases hrest.propagates
    · cases e <;> first | exact hlack | exact h
    · cases e <;> first | exact hlack | cases h
    · exact hlack

/-! ## The part of a call that reads the private state -/

variable {mayReject : ProviderCall PS → Prop} {s s' : PrivateStore PS}
  {tr : List (Event (Providers PS))} {α β : Type}

theorem Prepares.not_isNoPrivateState {allowed : ProviderCall PS → Prop} {p : Promise PS α}
    {e : ContractsError} (hp : Prepares allowed NoOther p)
    (run : Exec (storeEnv mayReject) p s tr (.error e) s') : ¬ e.IsNoPrivateState := by
  intro hlack
  obtain ⟨h | h, _⟩ | ⟨_, _, _, _, _, rfl⟩ := run.error_cases hp.propagates
  · cases e <;> first | exact hlack | exact h
  · exact h
  · exact hlack

variable [Undefined PS]

/-- The run executes circuits on the stored value only, and does not reject for lack of a value
when there is one that converts to `true`. -/
structure ReadsPrivateState (stored : Option PS) (tr : List (Event (Providers PS)))
    (out : Except ContractsError α) : Prop where
  inputs : ∀ v ∈ circuitInputs tr, stored = some v
  present : ∀ v, stored = some v → truthy v = true → ∀ e, out = .error e → ¬ e.IsNoPrivateState

theorem readsPrivateState_sync_bind {stored : Option PS} {x : Except JsError α}
    {f : α → Promise PS β} {out : Except ContractsError β}
    (run : Exec (storeEnv mayReject) (sync x >>= f) s tr out s')
    (h : ∀ a, x = .ok a → Exec (storeEnv mayReject) (f a) s tr out s' →
      ReadsPrivateState stored tr out) :
    ReadsPrivateState stored tr out := by
  obtain ⟨e, _, rfl, rfl, _⟩ | ⟨a, ha, hrest⟩ := exec_sync_bind run
  · constructor
    · rintro v ⟨⟩
    · rintro v - - _ ⟨⟩ hlack
      exact hlack
  · exact h a ha hrest

theorem exec_getStates_error {a : ContractAddress} {id : PrivateStateId} {e : ContractsError}
    {v : PS} (run : Exec (storeEnv mayReject) (getStates a id) s tr (.error e) s')
    (hstored : s.privateStates id = some v) (hv : truthy v = true) : ¬ e.IsNoPrivateState := by
  obtain ⟨e, hpublic, ⟨⟩⟩ | ⟨publicStates, s₁, tr₁, tr₂, hpublic, hrun, rfl⟩ := exec_bind.mp run
  · exact (prepares_getPublicStates NoOther a).not_isNoPrivateState hpublic
  obtain rfl := (prepares_getPublicStates NoOther a).frame
    (by rintro _ rfl; exact fun h => h) hpublic
  obtain ⟨e, hget, ⟨⟩⟩ | ⟨stored, s₂, tr₃, tr₄, hget, hrun', rfl⟩ := exec_bind.mp hrun
  · have hp : Prepares (fun _ => True) NoOther (provide (.get id) : Promise PS (Option PS)) :=
      .provide trivial
    exact hp.not_isNoPrivateState hget
  · obtain ⟨⟨rfl, rfl⟩, rfl⟩ := (exec_call_ok (E := Providers PS)).mp hget
    rw [hstored] at hrun'
    rw [definedPrivateState, assertDefined_eq_ok.mpr ⟨rfl, hv⟩] at hrun'
    obtain ⟨_, h, _⟩ := exec_resolve.mp hrun'
    cases h

theorem exec_createUnprovenCallTx_reads {providers : ContractProviders}
    {options : CallTxOptions PS} {id : PrivateStateId} {out : Except ContractsError _}
    (hid : options.privateStateId = some id) (hprovider : providers.hasPrivateStateProvider = true)
    (run : Exec (storeEnv mayReject) (createUnprovenCallTx providers options) s tr out s') :
    ReadsPrivateState (s.privateStates id) tr out := by
  refine readsPrivateState_sync_bind run fun _ _ run => ?_
  refine readsPrivateState_sync_bind run fun _ _ run => ?_
  simp only [hid, hprovider, Bool.not_true, Bool.false_eq_true, if_false] at run
  have hinputs : ∀ {out' tr' s₁}, Exec (storeEnv mayReject)
      (getStates options.contractAddress id) s tr' out' s₁ → circuitInputs tr' = [] := by
    intro out' tr' s₁ h
    refine List.filterMap_eq_nil_iff.mpr fun e he => ?_
    obtain hc | hc := h.allowed_of_mem (prepares_getStates _ _).uses he <;> rw [hc] <;> rfl
  obtain ⟨e, hstates, rfl⟩ | ⟨states, s₁, tr₁, tr₂, hstates, hrun, rfl⟩ := exec_bind.mp run
  · refine ⟨fun v hv => ?_, ?_⟩
    · rw [hinputs hstates] at hv
      cases hv
    · rintro v hv htruthy _ ⟨⟩
      exact exec_getStates_error hstates hv htruthy
  · obtain ⟨hstored, htruthy⟩ := exec_getStates_ok hstates
    have hreads : ReadsPrivateState (s.privateStates id) tr₂ out := by
      refine readsPrivateState_sync_bind hrun fun _ _ hrun => ?_
      refine readsPrivateState_sync_bind hrun fun callOptions hoptions hrun => ?_
      have hinitial : callOptions.initialPrivateState = some states.privateState := by
        obtain ⟨_, _, h⟩ := except_bind_ok.mp hoptions
        cases h
        simp [htruthy]
      have hp := prepares_createUnprovenCallTxFromInitialStates NoOther callOptions
        providers.walletProvider.coinPublicKey providers.walletProvider.encryptionPublicKey
      refine ⟨fun v hv => ?_, fun v _ _ e he => ?_⟩
      · rw [hp.circuitInputs_eq hrun v hv, hinitial]
        exact hstored
      · subst he
        exact hp.not_isNoPrivateState hrun
    refine ⟨fun v hv => hreads.inputs v ?_, hreads.present⟩
    rwa [circuitInputs_append, hinputs hstates] at hv

/-! ## Sessions of `callTx` -/

/-- One use of `callTx.<circuit>`. -/
structure CallTx where
  circuitId : CircuitId
  args : List Value

/-- The calls through the interface of a contract, made for a private state id. -/
def callTxs (providers : ContractProviders) (contract : Contract PS)
    (contractAddress : ContractAddress) (privateStateId : PrivateStateId) :
    Service (Providers PS) ContractsError where
  Op := CallTx
  Result _ := FinalizedCallTxData PS
  program callTx := submitCallTx providers
    (createCallTxOptions contract callTx.circuitId contractAddress (some privateStateId)
      callTx.args)

/-- The interface made for a contract offers exactly these programs. -/
theorem createCircuitCallTxInterface_program {providers : ContractProviders}
    {contract : Contract PS} {a : ContractAddress} {id : PrivateStateId}
    {callTx : CircuitCallTxInterface PS} {entry : CircuitId × _}
    (h : createCircuitCallTxInterface providers contract a (some id) = .ok callTx)
    (hentry : entry ∈ callTx) (args : List Value) :
    entry.2 args = (callTxs providers contract a id).program ⟨entry.1, args⟩ := by
  obtain ⟨_, _, h⟩ := except_bind_ok.mp h
  cases h
  obtain ⟨circuitId, _, rfl⟩ := List.mem_map.mp hentry
  rfl

variable {providers : ContractProviders} {contract : Contract PS} {a : ContractAddress}
  {id : PrivateStateId}

/-- The stored value after a call, when the store follows the successful calls. -/
def nextStored (stored : Option PS)
    (d : Performed (callTxs providers contract a id) (PrivateStore PS)) : Option PS :=
  if FinalizedAs d.trace .SucceedEntirely then (executions d.trace).head?.map Prod.snd else stored

/-- Every circuit runs on the stored value, no call rejects for lack of it, and the store holds what
the successful calls made of it. -/
structure SimulatesPrivateState (s₀ : PrivateStore PS)
    (done : List (Performed (callTxs providers contract a id) (PrivateStore PS)))
    (s : PrivateStore PS) : Prop where
  inputs : ∀ d ∈ done, ∀ v ∈ circuitInputs d.trace, d.before.privateStates id = some v
  present : ∀ d ∈ done, ∀ e, d.outcome = .error e → ¬ e.IsNoPrivateState
  final : s.privateStates id = done.foldl nextStored (s₀.privateStates id)

theorem callTx_reads {callTx : CallTx} {out : Except ContractsError (FinalizedCallTxData PS)}
    (hprovider : providers.hasPrivateStateProvider = true) (hid : id ≠ [])
    (run : Exec (storeEnv mayReject) ((callTxs providers contract a id).program callTx) s tr out
      s') : ReadsPrivateState (s.privateStates id) tr out := by
  change Exec _ (submitCallTx _ _) s tr out s' at run
  rw [submitCallTx_eq] at run
  obtain ⟨built, s₁, tr₁, tr₂, hb, rfl, htr₂, herror⟩ := exec_transact_build
    (by intro _; rfl) (fun _ => prepares_setPrivateState _ _ _) run
  have htruthy : truthy id = true := truthy_string id |>.mpr hid
  have hbuild : ReadsPrivateState (s.privateStates id) tr₁ built := by
    refine readsPrivateState_sync_bind hb fun _ _ hb => ?_
    refine readsPrivateState_sync_bind hb fun _ _ hb => ?_
    simp only [hprovider, Bool.not_true, Bool.and_false, Bool.false_eq_true, if_false] at hb
    exact exec_createUnprovenCallTx_reads (by simp [createCallTxOptions, htruthy]) hprovider hb
  refine ⟨fun v hv => hbuild.inputs v ?_, fun v hv htrue e he => ?_⟩
  · rwa [circuitInputs_append, htr₂, List.append_nil] at hv
  · exact (herror e he).elim (hbuild.present v hv htrue e) fun h => h

theorem callTx_final {callTx : CallTx} {out : Except ContractsError (FinalizedCallTxData PS)}
    (hid : id ≠ [])
    (run : Exec (storeEnv MayFail) ((callTxs providers contract a id).program callTx) s tr out
      s') :
    s'.privateStates id = if FinalizedAs tr .SucceedEntirely then
      (executions tr).head?.map Prod.snd else s.privateStates id := by
  obtain ⟨hfollows, hwrites⟩ := Submission.spec (.call providers
    (createCallTxOptions contract callTx.circuitId a (some id) callTx.args)) run
  have htruthy : truthy id = true := truthy_string id |>.mpr hid
  cases out with
  | ok r =>
    obtain ⟨rfl, v, _, hexec⟩ := hwrites r rfl
    rw [if_pos (hfollows.resolves_iff.mp ⟨r, rfl⟩), hexec]
    simp [Submission.writes, createCallTxOptions, htruthy, PrivateStore.setAt]
  | error e =>
    have hnot : ¬ FinalizedAs tr .SucceedEntirely := fun h => by
      obtain ⟨r, hr⟩ := hfollows.resolves_iff.mpr h
      cases hr
    rw [if_neg hnot, hfollows.rejects e rfl]

theorem callTx_simulates_private_state {s₀ : PrivateStore PS}
    {done : List (Performed (callTxs providers contract a id) (PrivateStore PS))}
    (session : Session (storeEnv MayFail) s₀ done s)
    (hprovider : providers.hasPrivateStateProvider = true) (hid : id ≠ [])
    (hstored : ∀ d ∈ done, ∃ v, d.before.privateStates id = some v ∧ truthy v = true) :
    SimulatesPrivateState s₀ done s := by
  have hreads : ∀ d ∈ done, ReadsPrivateState (d.before.privateStates id) d.trace d.outcome :=
    fun d hd => callTx_reads hprovider hid (session.valid_of_mem hd)
  refine ⟨fun d hd => (hreads d hd).inputs, fun d hd e he => ?_, ?_⟩
  · obtain ⟨v, hv, htruthy⟩ := hstored d hd
    exact (hreads d hd).present v hv htruthy e he
  · clear hstored hreads
    induction session with
    | nil => rfl
    | @snoc done d before valid ih =>
      rw [List.foldl_append, ← ih]
      exact callTx_final hid valid

end Runs

namespace Sample

/-- The store after the deployment of a contract with a private state. -/
def deployed (initialPrivateState : Option ℕ) : PrivateStore (Option ℕ) :=
  ((submissions (Option ℕ)).perform (storeHandler (reply .SucceedEntirely))
    [.deploy providers ⟨contract 1, none, key 1, some initialPrivateState, some (js "id")⟩]
    (store none none)).2

/-- One call of the circuit on that store. -/
def callSession (initialPrivateState : Option ℕ) :
    List (Performed (callTxs providers (contract 1) address (js "id")) (PrivateStore (Option ℕ))) ×
      PrivateStore (Option ℕ) :=
  (callTxs providers (contract 1) address (js "id")).perform
    (storeHandler (reply .SucceedEntirely)) [⟨circuitId, []⟩] (deployed initialPrivateState)

theorem session_callSession (v : Option ℕ) :
    Session (storeEnv MayFail) (deployed v) (callSession v).1 (callSession v).2 :=
  session_perform (storeEnv_storeHandler fun _ h => h) _ _

theorem callTx_simulates_private_state_five :
    SimulatesPrivateState (deployed (some 5)) (callSession (some 5)).1 (callSession (some 5)).2 ∧
      (callSession (some 5)).2.privateStates (js "id") = some (some 6) := by
  refine ⟨callTx_simulates_private_state (session_callSession _) rfl (by decide) ?_, by decide⟩
  intro d hd
  obtain rfl := List.mem_singleton.mp hd
  exact ⟨some 5, by decide, rfl⟩

/-- The value `0` is stored by the deployment, and the next call rejects for lack of a private
state. -/
theorem stored_zero_is_taken_for_missing :
    (deployed (some 0)).privateStates (js "id") = some (some 0) ∧
      Session (storeEnv MayFail) (deployed (some 0)) (callSession (some 0)).1
        (callSession (some 0)).2 ∧
      ¬ SimulatesPrivateState (deployed (some 0)) (callSession (some 0)).1
        (callSession (some 0)).2 := by
  refine ⟨by decide, session_callSession _, fun h => ?_⟩
  exact h.present _ (List.mem_singleton.mpr rfl) _ rfl trivial

end Sample

end MidnightJs
