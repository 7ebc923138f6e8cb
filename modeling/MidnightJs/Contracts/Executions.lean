import MidnightJs.Contracts.Submission

/-! # Circuit executions in a trace

`circuitInputs tr` are the private states on which the run executed circuits, `executions tr` those
together with the private states they returned. A call that builds a transaction executes exactly
one circuit, on the private state that was read for it, and the next private state of its result is
the one the circuit returned. -/

namespace MidnightJs
open Foundations Foundations.Js Foundations.Async
set_option autoImplicit false

variable [Runtime] {PS : Type}

def ProviderCall.circuitInput : ProviderCall PS → Option PS
  | .runCircuit _ context _ => some context.currentPrivateState
  | _ => none

def execution (e : Event (Providers PS)) : Option (PS × PS) :=
  match e with
  | ⟨.runCircuit _ context _, .ok results⟩ =>
    some (context.currentPrivateState, results.context.currentPrivateState)
  | _ => none

def circuitInputs (tr : List (Event (Providers PS))) : List PS :=
  tr.filterMap fun e => ProviderCall.circuitInput e.call

def executions (tr : List (Event (Providers PS))) : List (PS × PS) := tr.filterMap execution

theorem execution_eq_none {e : Event (Providers PS)}
    (h : ProviderCall.circuitInput e.call = none) : execution e = none := by
  obtain ⟨c, r⟩ := e
  cases c <;> first | rfl | cases h

theorem executions_eq_nil {tr : List (Event (Providers PS))}
    (h : ∀ e ∈ tr, ProviderCall.circuitInput e.call = none) : executions tr = [] :=
  List.filterMap_eq_nil_iff.mpr fun e he => execution_eq_none (h e he)

variable {mayReject : ProviderCall PS → Prop} {s s' : PrivateStore PS}
  {tr : List (Event (Providers PS))} {α : Type}

theorem Prepares.executions_eq_nil {allowed : ProviderCall PS → Prop} {also : ContractsError → Prop}
    {p : Promise PS α}
    {out : Except ContractsError α} (hp : Prepares allowed also p)
    (h : ∀ c, allowed c → c.circuitInput = none) (run : Exec (storeEnv mayReject) p s tr out s') :
    executions tr = [] :=
  MidnightJs.executions_eq_nil fun _ he => h _ (run.allowed_of_mem hp.uses he)

/-- Every circuit was executed on `v`. -/
theorem Prepares.circuitInputs_eq {v : PS} {also : ContractsError → Prop} {p : Promise PS α}
    {out : Except ContractsError α} (hp : Prepares (ProviderCall.ExecutesOn v) also p)
    (run : Exec (storeEnv mayReject) p s tr out s') : ∀ w ∈ circuitInputs tr, w = v := by
  intro w hw
  obtain ⟨⟨c, r⟩, he, hw⟩ := List.mem_filterMap.mp hw
  have hc := run.allowed_of_mem hp.uses he
  cases c with
  | runCircuit circuit context args =>
    cases hw
    exact hc
  | _ => cases hw

theorem ProviderCall.Submits.circuitInput {c : ProviderCall PS} (h : c.Submits) :
    c.circuitInput = none := by
  cases c <;> first | rfl | cases h

theorem ProviderCall.IsWrite.circuitInput {c : ProviderCall PS} (h : c.IsWrite) :
    c.circuitInput = none := by
  cases c <;> first | rfl | cases h

theorem circuitInputs_append (tr tr' : List (Event (Providers PS))) :
    circuitInputs (tr ++ tr') = circuitInputs tr ++ circuitInputs tr' :=
  List.filterMap_append

theorem executions_append (tr tr' : List (Event (Providers PS))) :
    executions (tr ++ tr') = executions tr ++ executions tr' :=
  List.filterMap_append

variable [Undefined PS]

/-- A call executes its circuit once. -/
theorem exec_call_executions {options : CallOptions PS} {res : CallResult PS}
    (run : Exec (storeEnv mayReject) (call options) s tr (.ok res) s') :
    executions tr =
      [(options.initialPrivateState.getD undefined, res.private.nextPrivateState)] := by
  obtain ⟨circuit, _, run⟩ := exec_sync_bind_ok run
  obtain ⟨now, s₁, tr₁, _, run₁, rfl⟩ := exec_provide_bind_ok run
  obtain ⟨cpk, _, run₁⟩ := exec_sync_bind_ok run₁
  obtain ⟨results, s₂, tr₂, _, run₂, rfl⟩ := exec_provide_bind_ok run₁
  obtain ⟨transcript, _, run₂⟩ := exec_sync_bind_ok run₂
  obtain ⟨rfl, hres, rfl⟩ := exec_resolve.mp run₂
  cases hres
  rfl

theorem exec_createUnprovenCallTxFromInitialStates_executions {options : CallOptions PS}
    {cpk epk : JsString} {res : UnsubmittedCallTxData PS}
    (run : Exec (storeEnv mayReject) (createUnprovenCallTxFromInitialStates options cpk epk) s tr
      (.ok res) s') :
    executions tr =
      [(options.initialPrivateState.getD undefined, res.private.nextPrivateState)] := by
  obtain ⟨_, _, run⟩ := exec_sync_bind_ok run
  obtain ⟨_, _, run⟩ := exec_sync_bind_ok run
  obtain ⟨callResult, s₁, tr₁, tr₂, hcall, run₁, rfl⟩ := exec_bind_ok.mp run
  obtain ⟨_, _, run₁⟩ := exec_sync_bind_ok run₁
  obtain ⟨unprovenTx, s₂, tr₃, tr₄, htx, run₂, rfl⟩ := exec_bind_ok.mp run₁
  obtain ⟨_, _, run₂⟩ := exec_sync_bind_ok run₂
  obtain ⟨rfl, hres, rfl⟩ := exec_resolve.mp run₂
  cases hres
  have htx' : executions tr₃ = [] := by
    obtain ⟨_, _, htx⟩ := exec_sync_bind_ok htx
    obtain ⟨_, _, htx⟩ := exec_sync_bind_ok htx
    obtain ⟨_, _, tr₅, _, htx₁, rfl⟩ := exec_provide_bind_ok htx
    obtain ⟨rfl, _, _⟩ := exec_resolve.mp htx₁
    rfl
  rw [executions_append, exec_call_executions hcall, executions_append, htx']
  rfl

omit [Undefined PS] in
theorem definedPrivateState_ok [Truthy PS] {id : PrivateStateId} {stored : Option PS} {v : PS} :
    Exec (storeEnv mayReject) (definedPrivateState id stored) s tr (.ok v) s' ↔
      stored = some v ∧ truthy v = true ∧ tr = [] ∧ s' = s := by
  rw [definedPrivateState, exec_ofExcept]
  constructor
  · rintro ⟨rfl, h, rfl⟩
    cases hx : assertDefined stored _ with
    | ok w =>
      rw [hx] at h
      cases h
      obtain ⟨hstored, hv⟩ := assertDefined_eq_ok.mp hx
      exact ⟨hstored, hv, rfl, rfl⟩
    | error e =>
      rw [hx] at h
      cases h
  · rintro ⟨hstored, hv, rfl, rfl⟩
    refine ⟨rfl, ?_, rfl⟩
    rw [assertDefined_eq_ok.mpr ⟨hstored, hv⟩]
    rfl

omit [Undefined PS] in
theorem definedPrivateState_error [Truthy PS] {id : PrivateStateId} {stored : Option PS}
    {e : ContractsError}
    (run : Exec (storeEnv mayReject) (definedPrivateState id stored) s tr (.error e) s') :
    e.IsNoPrivateState ∧ tr = [] ∧ s' = s := by
  obtain ⟨rfl, he, rfl⟩ := exec_ofExcept.mp run
  refine ⟨?_, rfl, rfl⟩
  cases hx : assertDefined stored _ with
  | ok v =>
    rw [hx] at he
    cases he
  | error e' =>
    rw [hx] at he
    cases he
    trivial

/-- `getStates` returns the stored private state, and only a value that converts to `true`. -/
theorem exec_getStates_ok {a : ContractAddress} {id : PrivateStateId} {states : ContractStates PS}
    (run : Exec (storeEnv mayReject) (getStates a id) s tr (.ok states) s') :
    s.privateStates id = some states.privateState ∧ truthy states.privateState = true := by
  obtain ⟨publicStates, s₁, tr₁, tr₂, hpublic, run₁, rfl⟩ := exec_bind_ok.mp run
  obtain rfl := (prepares_getPublicStates NoOther a).frame (by rintro _ rfl; exact fun h => h) hpublic
  obtain ⟨stored, s₂, tr₃, ⟨rfl, rfl⟩, run₂, rfl⟩ := exec_provide_bind_ok run₁
  obtain ⟨v, s₃, tr₄, tr₅, hv, run₃, rfl⟩ := exec_bind_ok.mp run₂
  obtain ⟨hstored, htruthy, rfl, rfl⟩ := definedPrivateState_ok.mp hv
  obtain ⟨rfl, hres, rfl⟩ := exec_resolve.mp run₃
  cases hres
  exact ⟨hstored, htruthy⟩

/-- The private state a call is run on: the stored one, or `undefined` if no id was given. -/
def InputOf (s : PrivateStore PS) (privateStateId : Option PrivateStateId) (v : PS) : Prop :=
  match privateStateId with
  | some id => s.privateStates id = some v ∧ truthy v = true
  | none => v = undefined

theorem exec_createUnprovenCallTx_executions {providers : ContractProviders}
    {options : CallTxOptions PS} {res : UnsubmittedCallTxData PS}
    (run : Exec (storeEnv mayReject) (createUnprovenCallTx providers options) s tr (.ok res) s') :
    ∃ v, InputOf s options.privateStateId v ∧
      executions tr = [(v, res.private.nextPrivateState)] := by
  obtain ⟨_, _, run⟩ := exec_sync_bind_ok run
  obtain ⟨_, _, run⟩ := exec_sync_bind_ok run
  dsimp only at run
  split at run
  · next id hid =>
    split at run
    · obtain ⟨_, h, _⟩ := exec_reject.mp run
      cases h
    · obtain ⟨states, s₁, tr₁, tr₂, hstates, run₁, rfl⟩ := exec_bind_ok.mp run
      obtain ⟨cpk, _, run₁⟩ := exec_sync_bind_ok run₁
      obtain ⟨callOptions, hoptions, run₁⟩ := exec_sync_bind_ok run₁
      obtain ⟨hstored, htruthy⟩ := exec_getStates_ok hstates
      have hexec := (prepares_getStates _ _).executions_eq_nil
        (by rintro _ (rfl | rfl) <;> rfl) hstates
      have hinitial : callOptions.initialPrivateState = some states.privateState := by
        obtain ⟨_, _, h⟩ := except_bind_ok.mp hoptions
        cases h
        simp [htruthy]
      refine ⟨states.privateState, ?_, ?_⟩
      · rw [hid]
        exact ⟨hstored, htruthy⟩
      · rw [executions_append, hexec,
          exec_createUnprovenCallTxFromInitialStates_executions run₁, hinitial]
        rfl
  · next hid =>
    obtain ⟨states, s₁, tr₁, tr₂, hstates, run₁, rfl⟩ := exec_bind_ok.mp run
    obtain ⟨cpk, _, run₁⟩ := exec_sync_bind_ok run₁
    obtain ⟨callOptions, hoptions, run₁⟩ := exec_sync_bind_ok run₁
    have hexec := (prepares_getPublicStates NoOther _).executions_eq_nil (by rintro _ rfl; rfl) hstates
    have hinitial : callOptions.initialPrivateState = none := by
      obtain ⟨_, _, h⟩ := except_bind_ok.mp hoptions
      cases h
      simp
    refine ⟨undefined, ?_, ?_⟩
    · rw [hid]
      rfl
    · rw [executions_append, hexec,
        exec_createUnprovenCallTxFromInitialStates_executions run₁, hinitial]
      rfl

end MidnightJs
