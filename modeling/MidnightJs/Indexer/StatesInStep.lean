import MidnightJs.Contracts.Custody
import MidnightJs.Indexer.ClientSessions

/-! # The private and the public state of a contract

A call works on the private state from the store and on the contract state from the indexer, which
know nothing of each other. The next call under the same id after a resolved one gets the private
state that the resolved one left together with a contract state that shows its transaction. -/

namespace MidnightJs.Indexer
open Foundations Foundations.Js Foundations.Async
set_option autoImplicit false

section Programs

variable [Runtime] {PS : Type}

/-- The id under which an operation stores a private state. -/
def storesUnder : Submission PS → Option PrivateStateId
  | .call _ options => options.privateStateId
  | .deploy _ options => options.privateStateId
  | _ => none

theorem writes_privateStates_of_ne {op : Submission PS} (r : op.Result) {s : PrivateStore PS}
    {id : PrivateStateId} (h : storesUnder op ≠ some id) :
    (op.writes r s).privateStates id = s.privateStates id := by
  cases op with
  | call providers options => exact PrivateStore.setAt_privateStates_of_ne h
  | deploy providers options => exact PrivateStore.setAt_privateStates_of_ne h
  | _ => rfl

/-- A submission that resolves was told about its transaction. -/
theorem exec_submitTx_told {σ : Type} {env : Env (Providers PS) σ} {s s' : σ}
    {tr : List (Event (Providers PS))} {options : SubmitTxOptions} {data : FinalizedTxData}
    (run : Exec env (submitTx options : Promise PS _) s tr (.ok data) s') :
    ∃ txId, (⟨.watchForTxData txId, .ok data⟩ : Event (Providers PS)) ∈ tr := by
  obtain ⟨_, _, _, _, _, hprove, rfl⟩ := exec_bind_ok.mp run
  obtain ⟨_, _, _, _, hbalance, rfl⟩ := exec_provide_bind_ok hprove
  obtain ⟨_, _, _, _, hsubmit, rfl⟩ := exec_provide_bind_ok hbalance
  obtain ⟨txId, _, _, _, hwatch, rfl⟩ := exec_provide_bind_ok hsubmit
  obtain ⟨_, rfl⟩ := (exec_call_ok (E := Providers PS)).mp hwatch
  exact ⟨txId, by simp⟩

variable [Undefined PS]

theorem exec_submitCallTx_told {σ : Type} {env : Env (Providers PS) σ} {s s' : σ}
    {tr : List (Event (Providers PS))} {providers : ContractProviders} {options : CallTxOptions PS}
    {result : FinalizedCallTxData PS}
    (run : Exec env (submitCallTx providers options) s tr (.ok result) s') :
    ∃ txId, (⟨.watchForTxData txId, .ok result.public.toFinalizedTxData⟩ :
      Event (Providers PS)) ∈ tr := by
  rw [submitCallTx_eq] at run
  obtain ⟨d, _, _, _, _, hrest, rfl⟩ := exec_bind_ok.mp run
  obtain ⟨data, _, _, _, hsubmit, hend, rfl⟩ := exec_bind_ok.mp hrest
  obtain ⟨txId, htold⟩ := exec_submitTx_told hsubmit
  have hdata : result.public.toFinalizedTxData = data := by
    split at hend
    · obtain ⟨_, h, _⟩ := exec_reject.mp hend
      cases h
    · obtain ⟨_, _, _, _, _, hreturn, _⟩ := exec_bind_ok.mp hend
      obtain ⟨_, h, _⟩ := exec_resolve.mp hreturn
      cases h
      rfl
  exact ⟨txId, by simp [hdata, htold]⟩

variable {mayReject : ProviderCall PS → Prop} {s s' : PrivateStore PS}

/-- A call executes its circuit on the stored private state only. -/
theorem exec_submitCallTx_inputs {tr : List (Event (Providers PS))} {providers : ContractProviders}
    {options : CallTxOptions PS} {id : PrivateStateId} {out : Except ContractsError _}
    (hid : options.privateStateId = some id)
    (run : Exec (storeEnv mayReject) (submitCallTx providers options) s tr out s') :
    ∀ v ∈ circuitInputs tr, s.privateStates id = some v := by
  rw [submitCallTx_eq] at run
  obtain ⟨built, s₁, tr₁, tr₂, hb, rfl, htr₂, _⟩ := exec_transact_build
    (by intro _; rfl) (fun _ => prepares_setPrivateState _ _ _) run
  rw [circuitInputs_append, htr₂, List.append_nil]
  obtain ⟨_, _, rfl, _⟩ | ⟨_, _, hassert⟩ := exec_sync_bind hb
  · exact nofun
  obtain ⟨_, _, rfl, _⟩ | ⟨_, _, hbuild⟩ := exec_sync_bind hassert
  · exact nofun
  split at hbuild
  · obtain ⟨rfl, _⟩ := exec_reject.mp hbuild
    exact nofun
  · next hconfig =>
    have hprovider : providers.hasPrivateStateProvider = true := by
      rw [hid] at hconfig
      simpa using hconfig
    exact (exec_createUnprovenCallTx_reads hid hprovider hbuild).inputs

end Programs

section Sessions

variable [Runtime] [Codec] [ZswapStates] {PS : Type} {networkId : NetworkId} {c : Chain}
  {mayReject : ProviderCall PS → Prop}

/-- The answers of the indexer leave the store as it is. -/
theorem storeEnv_of_indexerEnv (call : ProviderCall PS) (s : PrivateStore PS × ℕ)
    (r : (Providers PS).Settled call) (s' : PrivateStore PS × ℕ)
    (h : indexerEnv networkId c (storeEnv mayReject) call s r s') :
    storeEnv mayReject call s.1 r s'.1 := by
  cases call with
  | queryContractState a => cases r <;> exact h.1
  | queryZSwapAndContractState a => cases r <;> exact h.1
  | watchForTxData txId => cases r <;> exact h.1
  | _ => exact h.1

variable [Undefined PS]

/-- Operations that store under other ids, or nowhere, leave a private state as it is. -/
theorem privateState_kept {s₀ s : PrivateStore PS × ℕ}
    {done : List (Performed (submissions PS) (PrivateStore PS × ℕ))} {id : PrivateStateId}
    (session : Session (indexerEnv networkId c (storeEnv MayFail)) s₀ done s)
    (elsewhere : ∀ d ∈ done, storesUnder d.op ≠ some id) :
    s.1.privateStates id = s₀.1.privateStates id := by
  refine session.invariant (I := fun s => s.1.privateStates id = s₀.1.privateStates id) rfl ?_
  intro d hd valid hbefore
  obtain ⟨hfollows, hwrites⟩ := Submission.spec d.op (valid.project storeEnv_of_indexerEnv)
  cases houtcome : d.outcome with
  | ok r => rw [(hwrites r houtcome).1, writes_privateStates_of_ne r (elsewhere d hd), hbefore]
  | error e => rw [hfollows.rejects e houtcome, hbefore]

/-- The next call under the id of a resolved one: its circuit is executed on the private state that
the resolved call returned, and on a contract state that shows the transaction of the resolved call. -/
theorem states_in_step {s₀ s before after : PrivateStore PS × ℕ}
    {pre mid post : List (Performed (submissions PS) (PrivateStore PS × ℕ))}
    {e : Performed (submissions PS) (PrivateStore PS × ℕ)}
    {providers providers' : ContractProviders} {options options' : CallTxOptions PS}
    {trace : List (Event (Providers PS))} {result : FinalizedCallTxData PS}
    (session : Session (indexerEnv networkId c (storeEnv MayFail)) s₀
      (pre ++ ⟨.call providers options, before, trace, .ok result, after⟩ :: (mid ++ e :: post)) s)
    (next : e.op = .call providers' options') {id : PrivateStateId}
    (hid : options.privateStateId = some id) (hid' : options'.privateStateId = some id)
    (elsewhere : ∀ d ∈ mid, storesUnder d.op ≠ some id)
    {circuit : Circuit PS} {context : CircuitContext PS} {args : List Value}
    {r : Except JsError (CircuitResults PS)}
    (run : (⟨.runCircuit circuit context args, r⟩ : Event (Providers PS)) ∈ e.trace) :
    context.currentPrivateState = result.private.nextPrivateState ∧
      ∃ txId n m, ∃ found : Finalized c txId result.public.toFinalizedTxData n,
        n ≤ after.2 ∧ e.before.2 ≤ m ∧ m ≤ e.after.2 ∧
        ∀ action ∈ found.transaction.contractActions,
          action.address = prependNetworkIdHex networkId options'.contractAddress →
          ShowsAction action.address (c.at m).blocks action (some context.originalState) := by
  obtain ⟨-, hd, hrest⟩ := session.split
  obtain ⟨hmid, he, -⟩ := hrest.split
  obtain ⟨op, before', trace', outcome, after'⟩ := e
  obtain rfl : op = .call providers' options' := next
  constructor
  · have hwritten := ((Submission.spec (.call providers options)
      (hd.project storeEnv_of_indexerEnv)).2 result rfl).1
    have hstored : after.1.privateStates id = some result.private.nextPrivateState := by
      rw [hwritten]
      simp [Submission.writes, hid, PrivateStore.setAt]
    have hread := exec_submitCallTx_inputs hid' (he.project storeEnv_of_indexerEnv)
      context.currentPrivateState (List.mem_filterMap.mpr ⟨_, run, rfl⟩)
    rw [privateState_kept hmid elsewhere, hstored] at hread
    exact (Option.some.inj hread).symm
  · obtain ⟨txId, told⟩ := exec_submitCallTx_told hd
    obtain ⟨s₁, s₂, hwatch, _, hwatched⟩ := ticks_indexerEnv.reply hd told
    obtain ⟨n, m, found, hn, hfrom, huntil, hshows⟩ := exec_submitCallTx_shows hwatch
      (hwatched.trans (ticks_indexerEnv.session hmid)) he run
    exact ⟨txId, n, m, found, hn.trans hwatched, hfrom, huntil, hshows⟩

end Sessions

namespace Sample
open MidnightJs.Sample

def idOptions : CallTxOptions (Option ℕ) :=
  ⟨contract 1, circuitId, contractAddress, none, some (js "id")⟩

/-- Two calls under the id, where `5` is stored. -/
def twoCalls : List (Performed (submissions (Option ℕ)) (PrivateStore (Option ℕ) × ℕ)) ×
    PrivateStore (Option ℕ) × ℕ :=
  (submissions (Option ℕ)).perform indexerHandler
    [.call providers idOptions, .call providers idOptions] (store (some (some 5)) none, 0)

/-- The second of them is executed on `6`, and on the state after the call of someone else. -/
theorem states_in_step_twice : ∃ context : CircuitContext (Option ℕ),
    context.currentPrivateState = some 6 ∧ context.originalState = ⟨(), [(js "1", ⟨[]⟩)], ⟨[], 0, 0⟩⟩ ∧
      ∃ txId n m, ∃ found : Finalized toldChain txId toldData n, n ≤ 2 ∧ 2 ≤ m ∧ m ≤ 3 ∧
        ∀ action ∈ found.transaction.contractActions, action.address = localAddress →
          ShowsAction action.address (toldChain.at m).blocks action (some context.originalState) := by
  have session : Session (indexerEnv .Undeployed toldChain (storeEnv MayFail))
      (store (some (some 5)) none, 0) twoCalls.1 twoCalls.2 :=
    session_perform indexerEnv_indexerHandler _ _
  have hboth : ∃ result : FinalizedCallTxData (Option ℕ),
      twoCalls.1 = [] ++ ⟨.call providers idOptions, (store (some (some 5)) none, 0),
        twoCalls.1[0].trace, .ok result, twoCalls.1[0].after⟩ :: ([] ++ twoCalls.1[1] :: []) ∧
      result.private.nextPrivateState = some 6 ∧ result.public.toFinalizedTxData = toldData :=
    ⟨_, rfl, rfl, rfl⟩
  obtain ⟨result, hboth, hprivate, hpublic⟩ := hboth
  rw [hboth] at session
  have executed : ∃ circuit context args r,
      (⟨.runCircuit circuit context args, r⟩ : Event (Providers (Option ℕ))) ∈
          twoCalls.1[1].trace ∧
        context.originalState = ⟨(), [(js "1", ⟨[]⟩)], ⟨[], 0, 0⟩⟩ :=
    ⟨_, _, _, _, List.mem_of_getElem? (i := 3) rfl, rfl⟩
  obtain ⟨circuit, context, args, r, run, hstate⟩ := executed
  have hstep := states_in_step session rfl rfl rfl (fun _ hd => absurd hd List.not_mem_nil) run
  rw [hprivate, hpublic] at hstep
  obtain ⟨hinput, hshown⟩ := hstep
  exact ⟨context, hinput, hstate, hshown⟩

end Sample

end MidnightJs.Indexer
