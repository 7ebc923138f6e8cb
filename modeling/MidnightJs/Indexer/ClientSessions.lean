import MidnightJs.Contracts.PrivateStateRuns
import MidnightJs.Foundations.Clock
import MidnightJs.Indexer.FinalizedReads

/-! # Calls after finalized transactions

The contract functions over the indexer client: `submitTx` ends with a watch, and a later call starts
with a query. The circuit of the call is executed on a state that shows what the watched transaction
did. -/

namespace MidnightJs.Indexer
open Foundations Foundations.Js Foundations.Async
set_option autoImplicit false

section Programs

variable [Runtime] {PS : Type}

/-- A circuit is executed on this contract state only. -/
def RunsOn (state : ContractState) (c : ProviderCall PS) : Prop :=
  ∀ circuit context args, c = .runCircuit circuit context args → context.originalState = state

def NeverRuns (c : ProviderCall PS) : Prop := ∀ circuit context args, c ≠ .runCircuit circuit context args

theorem neverRuns_of_submits {c : ProviderCall PS} (h : c.Submits) : NeverRuns c := by
  rintro circuit context args rfl
  exact h

theorem neverRuns_of_isWrite {c : ProviderCall PS} (h : c.IsWrite) : NeverRuns c := by
  rintro circuit context args rfl
  exact h

variable [Undefined PS]

theorem uses_call_runsOn (options : CallOptions PS) :
    (call options).Uses (RunsOn options.initialContractState) := by
  refine Program.uses_bind (Program.uses_ofExcept _) fun circuit => ?_
  refine Program.uses_bind (Program.uses_call (E := Providers PS) nofun) fun now => ?_
  refine Program.uses_bind (Program.uses_ofExcept _) fun coinPublicKey => ?_
  refine Program.uses_bind (Program.uses_call (E := Providers PS) ?_) fun results => ?_
  · intro circuit context args hc
    cases hc
    rfl
  · exact Program.uses_bind (Program.uses_ofExcept _) fun _ => trivial

theorem uses_createUnprovenCallTxFromInitialStates_runsOn (options : CallOptions PS)
    (cpk epk : JsString) :
    (createUnprovenCallTxFromInitialStates options cpk epk).Uses
      (RunsOn options.initialContractState) := by
  refine Program.uses_bind (Program.uses_ofExcept _) fun _ => ?_
  refine Program.uses_bind (Program.uses_ofExcept _) fun _ => ?_
  refine Program.uses_bind (uses_call_runsOn options) fun callResult => ?_
  refine Program.uses_bind (Program.uses_ofExcept _) fun _ => ?_
  refine Program.uses_bind ?_ fun unprovenTx => ?_
  · refine Program.uses_bind (Program.uses_ofExcept _) fun _ => ?_
    refine Program.uses_bind (Program.uses_ofExcept _) fun _ => ?_
    exact Program.uses_bind (Program.uses_call (E := Providers PS) nofun) fun _ => trivial
  · exact Program.uses_bind (Program.uses_ofExcept _) fun _ => trivial

variable {σ : Type} {env : Env (Providers PS) σ} {s s' : σ} {tr : List (Event (Providers PS))}

omit [Undefined PS] in
theorem exec_getPublicStates_read {a : ContractAddress} {states : PublicContractStates}
    (run : Exec env (getPublicStates a : Promise PS _) s tr (.ok states) s') :
    (⟨.queryZSwapAndContractState a, .ok (some (states.zswapChainState, states.contractState))⟩ :
      Event (Providers PS)) ∈ tr := by
  obtain ⟨_, _, hasked⟩ := exec_sync_bind_ok run
  obtain ⟨reply, s₁, tr₁, _, hmatch, rfl⟩ := exec_provide_bind_ok hasked
  cases reply with
  | none =>
    obtain ⟨_, h, _⟩ := exec_ofExcept.mp hmatch
    cases h
  | some both =>
    obtain ⟨_, h, _⟩ := exec_resolve.mp hmatch
    cases h
    exact List.mem_cons_self

omit [Undefined PS] in
/-- What is executed after the states are read is executed on the contract state that was read. -/
theorem exec_read_bind_runsOn {α β : Type} {read : Promise PS α} {a : ContractAddress}
    {allowed : ProviderCall PS → Prop} {next : α → Promise PS β} (state : α → ContractState)
    (hread : read.Uses allowed) (hnever : ∀ c, allowed c → NeverRuns c)
    (hasked : ∀ {x s₁ tr₁}, Exec env read s tr₁ (.ok x) s₁ → ∃ zswapChainState,
      (⟨.queryZSwapAndContractState a, .ok (some (zswapChainState, state x))⟩ :
        Event (Providers PS)) ∈ tr₁)
    (hnext : ∀ x, (next x).Uses (RunsOn (state x))) {out : Except ContractsError β}
    (run : Exec env (read >>= next) s tr out s')
    {circuit : Circuit PS} {context : CircuitContext PS} {args : List Value}
    {r : Except JsError (CircuitResults PS)}
    (h : (⟨.runCircuit circuit context args, r⟩ : Event (Providers PS)) ∈ tr) :
    ∃ zswapChainState, (⟨.queryZSwapAndContractState a,
      .ok (some (zswapChainState, context.originalState))⟩ : Event (Providers PS)) ∈ tr := by
  have hbefore : ∀ {tr₁ out₁ s₁}, Exec env read s tr₁ out₁ s₁ →
      (⟨.runCircuit circuit context args, r⟩ : Event (Providers PS)) ∉ tr₁ :=
    fun hrun hmem => hnever _ (hrun.allowed_of_mem hread hmem) circuit context args rfl
  obtain ⟨e, hfailed, _⟩ | ⟨x, s₁, tr₁, tr₂, hfirst, hrest, rfl⟩ := exec_bind.mp run
  · exact absurd h (hbefore hfailed)
  · obtain hmem | hmem := List.mem_append.mp h
    · exact absurd hmem (hbefore hfirst)
    · obtain ⟨zswapChainState, hin⟩ := hasked hfirst
      have hstate := hrest.allowed_of_mem (hnext x) hmem circuit context args rfl
      exact ⟨zswapChainState, List.mem_append_left _ (hstate ▸ hin)⟩

theorem uses_callOptions_runsOn (options : CallTxOptions PS) (cpk epk : JsString)
    (contractState : ContractState) (zswapChainState : ZswapChainState) (v : Option PS) :
    (do
      let coinPublicKey ← sync (parseCoinPublicKeyToHex cpk)
      let callOptions ← sync (createCallOptions options coinPublicKey contractState zswapChainState v)
      createUnprovenCallTxFromInitialStates callOptions cpk epk : Promise PS _).Uses
        (RunsOn contractState) := by
  refine Program.uses_bind (Program.uses_ofExcept _) fun coinPublicKey => ?_
  change (Program.bind (sync _) _).Uses _
  cases hoptions : createCallOptions options coinPublicKey contractState zswapChainState v with
  | error e => trivial
  | ok callOptions =>
    obtain ⟨_, _, hok⟩ := except_bind_ok.mp hoptions
    have hstate : callOptions.initialContractState = contractState := by
      cases hok
      rfl
    rw [← hstate]
    exact uses_createUnprovenCallTxFromInitialStates_runsOn callOptions cpk epk

theorem exec_createUnprovenCallTx_runsOn {providers : ContractProviders} {options : CallTxOptions PS}
    {out : Except ContractsError (UnsubmittedCallTxData PS)}
    (run : Exec env (createUnprovenCallTx providers options) s tr out s')
    {circuit : Circuit PS} {context : CircuitContext PS} {args : List Value}
    {r : Except JsError (CircuitResults PS)}
    (h : (⟨.runCircuit circuit context args, r⟩ : Event (Providers PS)) ∈ tr) :
    ∃ zswapChainState, (⟨.queryZSwapAndContractState options.contractAddress,
      .ok (some (zswapChainState, context.originalState))⟩ : Event (Providers PS)) ∈ tr := by
  obtain ⟨_, _, rfl, _⟩ | ⟨_, _, hassert⟩ := exec_sync_bind run
  · exact absurd h List.not_mem_nil
  obtain ⟨_, _, rfl, _⟩ | ⟨_, _, hbuild⟩ := exec_sync_bind hassert
  · exact absurd h List.not_mem_nil
  dsimp only at hbuild
  split at hbuild
  · next id _ =>
    split at hbuild
    · obtain ⟨rfl, _⟩ := exec_reject.mp hbuild
      exact absurd h List.not_mem_nil
    · have hstates : Prepares _ _ (getStates options.contractAddress id : Promise PS _) :=
        prepares_getStates options.contractAddress id
      refine exec_read_bind_runsOn (fun states => states.contractState) hstates.uses ?_ ?_ ?_ hbuild h
      · rintro c (rfl | rfl) <;> exact nofun
      · intro states s₁ tr₁ hread
        obtain ⟨publicStates, s₂, tr₂, tr₃, hpublic, hprivate, rfl⟩ := exec_bind_ok.mp hread
        obtain ⟨_, _, _, _, hrest, _⟩ := exec_provide_bind_ok hprivate
        obtain ⟨_, _, _, _, _, hreturn, _⟩ := exec_bind_ok.mp hrest
        obtain ⟨_, hout, _⟩ := exec_resolve.mp hreturn
        cases hout
        exact ⟨_, List.mem_append_left _ (exec_getPublicStates_read hpublic)⟩
      · intro states
        exact uses_callOptions_runsOn options _ _ states.contractState states.zswapChainState _
  · have hstates : Prepares _ _ (getPublicStates options.contractAddress : Promise PS _) :=
      prepares_getPublicStates NoOther options.contractAddress
    refine exec_read_bind_runsOn PublicContractStates.contractState hstates.uses ?_ ?_ ?_ hbuild h
    · rintro c rfl
      exact nofun
    · intro states s₁ tr₁ hread
      exact ⟨_, exec_getPublicStates_read hread⟩
    · intro states
      exact uses_callOptions_runsOn options _ _ states.contractState states.zswapChainState _

/-- The circuit of a call is executed on a contract state that the call has read. -/
theorem exec_submitCallTx_runsOn {providers : ContractProviders} {options : CallTxOptions PS}
    {out : Except ContractsError (FinalizedCallTxData PS)}
    (run : Exec env (submitCallTx providers options) s tr out s')
    {circuit : Circuit PS} {context : CircuitContext PS} {args : List Value}
    {r : Except JsError (CircuitResults PS)}
    (h : (⟨.runCircuit circuit context args, r⟩ : Event (Providers PS)) ∈ tr) :
    ∃ zswapChainState, (⟨.queryZSwapAndContractState options.contractAddress,
      .ok (some (zswapChainState, context.originalState))⟩ : Event (Providers PS)) ∈ tr := by
  have hbuilt : ∀ {tr₁ out₁ s₁}, Exec env (callBuild providers options) s tr₁ out₁ s₁ →
      (⟨.runCircuit circuit context args, r⟩ : Event (Providers PS)) ∈ tr₁ →
      ∃ zswapChainState, (⟨.queryZSwapAndContractState options.contractAddress,
        .ok (some (zswapChainState, context.originalState))⟩ : Event (Providers PS)) ∈ tr₁ := by
    intro tr₁ out₁ s₁ hrun hmem
    obtain ⟨_, _, rfl, _⟩ | ⟨_, _, hassert⟩ := exec_sync_bind hrun
    · exact absurd hmem List.not_mem_nil
    obtain ⟨_, _, rfl, _⟩ | ⟨_, _, hbuild⟩ := exec_sync_bind hassert
    · exact absurd hmem List.not_mem_nil
    split at hbuild
    · obtain ⟨rfl, _⟩ := exec_reject.mp hbuild
      exact absurd hmem List.not_mem_nil
    · exact exec_createUnprovenCallTx_runsOn hbuild hmem
  rw [submitCallTx_eq] at run
  obtain ⟨e, hfailed, _⟩ | ⟨d, s₁, tr₁, tr₂, hbuild, hrest, rfl⟩ := exec_bind.mp run
  · exact hbuilt hfailed h
  obtain hmem | hmem := List.mem_append.mp h
  · obtain ⟨zswapChainState, hin⟩ := hbuilt hbuild hmem
    exact ⟨zswapChainState, List.mem_append_left _ hin⟩
  · have hsubmit : (submitTx ⟨d.private.unprovenTx, some d.private.newCoins,
        some options.circuitId⟩ : Promise PS _).Uses NeverRuns :=
      (prepares_submitTx NoOther _).uses.mono fun _ => neverRuns_of_submits
    have hwrite := (prepares_setPrivateState NoOther
      (if providers.hasPrivateStateProvider then options.privateStateId else none)
      d.private.nextPrivateState).uses
    have hend := fun data : FinalizedTxData => (uses_transact_end hwrite
      (fun data => .callTxFailed data options.circuitId)
      (fun data => (⟨⟨d.public, data⟩, d.private⟩ : FinalizedCallTxData PS)) data).mono
        fun _ => neverRuns_of_isWrite
    have huses := Program.uses_bind hsubmit hend
    exact absurd rfl (hrest.allowed_of_mem huses hmem circuit context args)

end Programs

/-! ## The indexer behind the providers -/

section Sessions

variable [Runtime] [Codec] [ZswapStates] {PS σ : Type}

/-- The indexer knows more and more blocks of the chain, and answers with those it knows by then. A
watch polls until it is told. All else is answered by `others`, and takes its time. -/
def indexerEnv (networkId : NetworkId) (c : Chain) (others : Env (Providers PS) σ) :
    Env (Providers PS) (σ × ℕ) := fun call s r s' =>
  match call, r with
  | .queryContractState a, .ok reply => s'.1 = s.1 ∧ s.2 ≤ s'.2 ∧
      PublicDataProvider.queryContractState networkId ⟨c.at s'.2, []⟩ a none = .ok reply
  | .queryZSwapAndContractState a, .ok reply => s'.1 = s.1 ∧ s.2 ≤ s'.2 ∧
      PublicDataProvider.queryZSwapAndContractState networkId ⟨c.at s'.2, []⟩ a none = .ok reply
  | .watchForTxData txId, .ok data => s'.1 = s.1 ∧ s.2 ≤ s'.2 ∧ ∃ polls : List ℕ,
      (∀ n ∈ polls, n ≤ s'.2) ∧ PublicDataProvider.watchForTxData ⟨c, polls⟩ txId = some (.ok data)
  | call, r => others call s.1 r s'.1 ∧ s.2 ≤ s'.2

variable {networkId : NetworkId} {c : Chain} {others : Env (Providers PS) σ}

theorem ticks_indexerEnv : Ticks (indexerEnv networkId c others) Prod.snd := by
  intro call s r s' h
  cases call with
  | queryContractState a =>
    cases r with
    | ok reply => exact h.2.1
    | error e => exact h.2
  | queryZSwapAndContractState a =>
    cases r with
    | ok reply => exact h.2.1
    | error e => exact h.2
  | watchForTxData txId =>
    cases r with
    | ok data => exact h.2.1
    | error e => exact h.2
  | _ => exact h.2

variable [Undefined PS]

/-- A call after a watch was told is executed on a contract state that shows the watched transaction,
or what came after. -/
theorem exec_submitCallTx_shows {s₁ s₂ s s' : σ × ℕ} {txId : TransactionId} {data : FinalizedTxData}
    (told : indexerEnv networkId c others (.watchForTxData txId) s₁ (.ok data) s₂)
    (hlater : s₂.2 ≤ s.2) {providers : ContractProviders} {options : CallTxOptions PS}
    {tr : List (Event (Providers PS))} {out : Except ContractsError (FinalizedCallTxData PS)}
    (call : Exec (indexerEnv networkId c others) (submitCallTx providers options) s tr out s')
    {circuit : Circuit PS} {context : CircuitContext PS} {args : List Value}
    {r : Except JsError (CircuitResults PS)}
    (run : (⟨.runCircuit circuit context args, r⟩ : Event (Providers PS)) ∈ tr) :
    ∃ n m, ∃ found : Finalized c txId data n, n ≤ s₂.2 ∧ s.2 ≤ m ∧ m ≤ s'.2 ∧
      ∀ action ∈ found.transaction.contractActions,
        action.address = prependNetworkIdHex networkId options.contractAddress →
        ShowsAction action.address (c.at m).blocks action (some context.originalState) := by
  obtain ⟨_, _, polls, hpolls, hwatch⟩ := told
  obtain ⟨n, hn, ⟨found⟩⟩ := finalized_of_watch hwatch
  obtain ⟨zswapChainState, hread⟩ := exec_submitCallTx_runsOn call run
  obtain ⟨s₃, s₄, ⟨_, hasked, hquery⟩, hfrom, huntil⟩ := ticks_indexerEnv.reply call hread
  obtain ⟨_, valid, _⟩ := except_bind_ok.mp hquery
  have hlatest : ∃ both, PublicDataProvider.queryZSwapAndContractState networkId ⟨c.at s₄.2, []⟩
      options.contractAddress none = .ok both ∧ both.map Prod.snd =
        stateAfter (prependNetworkIdHex networkId options.contractAddress) (c.at s₄.2).blocks :=
    PublicDataProvider.queryZSwapAndContractState_latest valid
  obtain ⟨both, hboth, hstate⟩ := hlatest
  obtain rfl := Except.ok.inj (hboth.symm.trans hquery)
  have htold : n ≤ s₂.2 := hpolls n hn
  have hread : s.2 ≤ s₄.2 := hfrom.trans hasked
  obtain ⟨later, hat⟩ := found.blocks_at (htold.trans (hlater.trans hread))
  refine ⟨n, s₄.2, found, htold, hread, huntil, ?_⟩
  intro action haction haddress
  change some context.originalState = _ at hstate
  rw [hstate, ← haddress]
  rw [hat]
  exact showsAction_stateAfter found.inBlock haction rfl

/-- Whatever fails in a session and whatever others do to the chain: once an operation has been told
that a transaction is on the chain, the circuit of every later call is executed on a contract state
that shows what the transaction did to the contract, or what came after. -/
theorem calls_see_predecessors {s₀ s : σ × ℕ}
    {pre mid post : List (Performed (submissions PS) (σ × ℕ))}
    {d e : Performed (submissions PS) (σ × ℕ)}
    (session : Session (indexerEnv networkId c others) s₀ (pre ++ d :: (mid ++ e :: post)) s)
    {txId : TransactionId} {data : FinalizedTxData}
    (told : (⟨.watchForTxData txId, .ok data⟩ : Event (Providers PS)) ∈ d.trace)
    {providers : ContractProviders} {options : CallTxOptions PS}
    (call : e.op = .call providers options)
    {circuit : Circuit PS} {context : CircuitContext PS} {args : List Value}
    {r : Except JsError (CircuitResults PS)}
    (run : (⟨.runCircuit circuit context args, r⟩ : Event (Providers PS)) ∈ e.trace) :
    ∃ n m, ∃ found : Finalized c txId data n, n ≤ d.after.2 ∧ e.before.2 ≤ m ∧ m ≤ e.after.2 ∧
      ∀ action ∈ found.transaction.contractActions,
        action.address = prependNetworkIdHex networkId options.contractAddress →
        ShowsAction action.address (c.at m).blocks action (some context.originalState) := by
  obtain ⟨hd, he, hbetween⟩ := ticks_indexerEnv.follows session
  obtain ⟨s₁, s₂, hwatch, _, hwatched⟩ := ticks_indexerEnv.reply hd told
  obtain ⟨op, before, trace, outcome, after⟩ := e
  obtain rfl : op = .call providers options := call
  obtain ⟨n, m, found, hn, hfrom, huntil, hshows⟩ :=
    exec_submitCallTx_shows hwatch (hwatched.trans hbetween) he run
  exact ⟨n, m, found, hn.trans hwatched, hfrom, huntil, hshows⟩

end Sessions

namespace Sample
open MidnightJs.Sample

/-- The deployment, and a call by someone else. -/
def toldChain : Chain where
  blocks := [⟨js "b0", 0, [⟨js "t0", [], js "SucceedEntirely", [js "tx"],
    [⟨.contractDeploy, localAddress, circuitId⟩]⟩]⟩, actionBlock 1 .contractCall]
  heights := by decide
  hashes := by decide

/-- With every answer of the indexer there is a block more. -/
def indexerHandler : (call : ProviderCall (Option ℕ)) → PrivateStore (Option ℕ) × ℕ →
    (Providers (Option ℕ)).Settled call × PrivateStore (Option ℕ) × ℕ
  | .queryContractState a, (s, n) => (PublicDataProvider.queryContractState .Undeployed
      ⟨toldChain.at (n + 1), []⟩ a none, s, n + 1)
  | .queryZSwapAndContractState a, (s, n) =>
    (PublicDataProvider.queryZSwapAndContractState .Undeployed
      ⟨toldChain.at (n + 1), []⟩ a none, s, n + 1)
  | .watchForTxData txId, (s, n) =>
    ((PublicDataProvider.watchForTxData ⟨toldChain, [n + 1]⟩ txId).getD
      (.error (.error (js "not found"))), s, n + 1)
  | call, (s, n) =>
    let r := storeHandler (reply .SucceedEntirely) call s
    (r.1, r.2, n)

theorem indexerEnv_indexerHandler (call : ProviderCall (Option ℕ))
    (s : PrivateStore (Option ℕ) × ℕ) :
    indexerEnv .Undeployed toldChain (storeEnv MayFail) call s (indexerHandler call s).1
      (indexerHandler call s).2 := by
  have hothers : storeEnv MayFail call s.1 (storeHandler (reply .SucceedEntirely) call s.1).1
      (storeHandler (reply .SucceedEntirely) call s.1).2 := storeEnv_storeHandler (fun _ h => h) call s.1
  cases call with
  | queryContractState a =>
    change indexerEnv .Undeployed toldChain (storeEnv MayFail) (.queryContractState a) s
      (PublicDataProvider.queryContractState .Undeployed ⟨toldChain.at (s.2 + 1), []⟩ a none)
      (s.1, s.2 + 1)
    cases hquery : PublicDataProvider.queryContractState .Undeployed
      ⟨toldChain.at (s.2 + 1), []⟩ a none with
    | ok reply => exact ⟨rfl, Nat.le_succ _, hquery⟩
    | error e => exact ⟨⟨fun h => h, rfl⟩, Nat.le_succ _⟩
  | queryZSwapAndContractState a =>
    change indexerEnv .Undeployed toldChain (storeEnv MayFail) (.queryZSwapAndContractState a) s
      (PublicDataProvider.queryZSwapAndContractState .Undeployed
        ⟨toldChain.at (s.2 + 1), []⟩ a none) (s.1, s.2 + 1)
    cases hquery : PublicDataProvider.queryZSwapAndContractState .Undeployed
      ⟨toldChain.at (s.2 + 1), []⟩ a none with
    | ok reply => exact ⟨rfl, Nat.le_succ _, hquery⟩
    | error e => exact ⟨⟨fun h => h, rfl⟩, Nat.le_succ _⟩
  | watchForTxData txId =>
    change indexerEnv .Undeployed toldChain (storeEnv MayFail) (.watchForTxData txId) s
      ((PublicDataProvider.watchForTxData ⟨toldChain, [s.2 + 1]⟩ txId).getD
        (.error (.error (js "not found")))) (s.1, s.2 + 1)
    cases hwatch : PublicDataProvider.watchForTxData ⟨toldChain, [s.2 + 1]⟩ txId with
    | none => exact ⟨⟨fun h => h, rfl⟩, Nat.le_succ _⟩
    | some result =>
      cases result with
      | ok data => exact ⟨rfl, Nat.le_succ _, _, by simp, hwatch⟩
      | error e => exact ⟨⟨fun h => h, rfl⟩, Nat.le_succ _⟩
  | _ => exact ⟨hothers, le_rfl⟩

def indexerSession : List (Performed (submissions (Option ℕ)) (PrivateStore (Option ℕ) × ℕ)) ×
    PrivateStore (Option ℕ) × ℕ :=
  (submissions (Option ℕ)).perform indexerHandler
    [.deploy providers ⟨contract 1, none, key 1, some (some 5), some (js "id")⟩,
      .call providers ⟨contract 1, circuitId, contractAddress, none, some (js "id")⟩]
    (store none none, 0)

def toldData : FinalizedTxData := ⟨⟨[]⟩, .SucceedEntirely, js "tx", js "t0", js "b0", 0⟩

/-- The call of someone else is in the state that the circuit is executed on. -/
theorem calls_see_predecessors_deployed : ∃ n m,
    ∃ found : Finalized toldChain (js "tx") toldData n, n ≤ 1 ∧ 1 ≤ m ∧ m ≤ 2 ∧
      ∀ action ∈ found.transaction.contractActions, action.address = localAddress →
        ShowsAction action.address (toldChain.at m).blocks action
          (some ⟨(), [(js "1", ⟨[]⟩)], ⟨[], 0, 0⟩⟩) := by
  have session : Session (indexerEnv .Undeployed toldChain (storeEnv MayFail)) (store none none, 0)
      indexerSession.1 indexerSession.2 := session_perform indexerEnv_indexerHandler _ _
  have hboth : indexerSession.1 = [] ++ indexerSession.1[0] :: ([] ++ indexerSession.1[1] :: []) := rfl
  rw [hboth] at session
  have told : (⟨.watchForTxData (js "tx"), .ok toldData⟩ : Event (Providers (Option ℕ))) ∈
      indexerSession.1[0].trace := List.mem_of_getElem? (i := 5) rfl
  have executed : ∃ circuit context args r,
      (⟨.runCircuit circuit context args, r⟩ : Event (Providers (Option ℕ))) ∈
          indexerSession.1[1].trace ∧
        context.originalState = ⟨(), [(js "1", ⟨[]⟩)], ⟨[], 0, 0⟩⟩ :=
    ⟨_, _, _, _, List.mem_of_getElem? (i := 3) rfl, rfl⟩
  obtain ⟨circuit, context, args, r, run, hstate⟩ := executed
  rw [← hstate]
  exact calls_see_predecessors session told rfl run

end Sample

end MidnightJs.Indexer
