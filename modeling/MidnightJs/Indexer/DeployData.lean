import MidnightJs.Indexer.StatesFromBlocks

/-! # The deployment data of a contract

Both functions look at the latest action of the contract. A call leads them to the deployment, and
the deployment is itself the latest action as long as nothing follows it. A maintenance update has
no link to the deployment, and is taken for it. -/

namespace MidnightJs.Indexer
open Foundations Foundations.Js Foundations.Rx
set_option autoImplicit false

/-- The history of a contract: its deployment, then calls and maintenance updates, each in a
transaction of its own. -/
structure History (c : Chain) (address : JsString) where
  deploy : Chain.Entry
  later : List Chain.Entry
  entries_eq : Chain.entries address c.blocks = deploy :: later
  deployed : deploy.action.typename = .contractDeploy
  deployed_once : ∀ e ∈ later, e.action.typename ≠ .contractDeploy
  transactions : ((deploy :: later).map fun e => e.transaction.hash).Nodup
  actionsBefore : List ContractAction
  actionsAfter : List ContractAction
  actions_eq : deploy.transaction.contractActions = actionsBefore ++ deploy.action :: actionsAfter
  others : ∀ action ∈ actionsBefore, action.address ≠ address
  status : TxStatus
  status_eq : toTxStatus deploy.transaction.applyStage = .ok status

namespace History

variable {c : Chain} {address : JsString} (history : History c address)

def latest : Chain.Entry := history.later.getLastD history.deploy

theorem latestEntry_eq : latestEntry address c.blocks = some history.latest := by
  rw [latestEntry, history.entries_eq, latest, List.getLast?_cons, List.getLastD_eq_getLast?]

theorem latest_mem : history.latest ∈ history.deploy :: history.later :=
  List.mem_of_getLast? (history.entries_eq ▸ history.latestEntry_eq)

theorem latestWithDeploy_eq : latestWithDeploy address c.blocks = some (history.latest,
    if history.latest.action.typename = .contractCall then some history.deploy else none) := by
  rw [latestWithDeploy, history.latestEntry_eq, history.entries_eq, List.find?_cons_of_pos (by
    simpa using history.deployed)]
  rfl

theorem deploy_action_address : history.deploy.action.address = address := by
  have hdeploy : history.deploy ∈ Chain.entries address c.blocks := by
    rw [history.entries_eq]
    exact List.mem_cons_self ..
  obtain ⟨b, _, hdeploy⟩ := List.mem_flatMap.mp hdeploy
  obtain ⟨t, _, hdeploy⟩ := List.mem_flatMap.mp hdeploy
  obtain ⟨action, haction, heq⟩ := List.mem_map.mp hdeploy
  rw [← heq]
  exact of_decide_eq_true (List.mem_filter.mp haction).2

theorem find_deploy_action : history.deploy.transaction.contractActions.find?
    (·.address = address) = some history.deploy.action := by
  rw [history.actions_eq, List.find?_append, List.find?_eq_none.mpr fun action haction => by
    simpa using history.others action haction]
  simp [history.deploy_action_address]

theorem findIdx_deploy_action : history.deploy.transaction.contractActions.findIdx?
    (·.address = address) = some history.actionsBefore.length := by
  rw [history.actions_eq, List.findIdx?_append, List.findIdx?_eq_none_iff.mpr fun action haction => by
    simpa using history.others action haction]
  simp [List.findIdx?_cons, history.deploy_action_address]

/-- The deployment is the latest action, or the latest one has another transaction. -/
theorem latest_cases : history.latest = history.deploy ∨
    history.latest.action.typename ≠ .contractDeploy ∧
      history.latest.transaction.hash ≠ history.deploy.transaction.hash := by
  rcases List.mem_cons.mp history.latest_mem with h | h
  · exact .inl h
  · refine .inr ⟨history.deployed_once _ h, fun hhash => ?_⟩
    exact (List.nodup_cons.mp history.transactions).1 (List.mem_map.mpr ⟨_, h, hhash⟩)

/-! ## What the functions return -/

variable [Runtime] [Codec]

/-- The data of the transaction of the deployment. -/
def data : DeployTxData where
  tx := deserializeTransaction history.deploy.transaction.raw
  status := history.status
  txId := history.deploy.transaction.identifiers[history.actionsBefore.length]?
  txHash := history.deploy.transaction.hash
  blockHash := history.deploy.block.hash
  blockHeight := history.deploy.block.height

theorem deployTxData_deploy :
    deployTxData address history.deploy.transaction history.deploy.block = .ok history.data := by
  rw [deployTxData, history.status_eq, history.findIdx_deploy_action]
  rfl

theorem queryDeployContractState_eq (polls : List ℕ) :
    queryDeployContractState ⟨c, polls⟩ address = .ok (maybeContractState
      (if history.latest.action.typename = .contractCall then history.deploy.action.state
        else history.latest.action.state)) := by
  by_cases hcall : history.latest.action.typename = .contractCall
  · simp [queryDeployContractState, history.latestWithDeploy_eq, hcall, history.find_deploy_action]
  · simp [queryDeployContractState, history.latestWithDeploy_eq, hcall]

/-- The first poll that finds the contract sees the history. -/
structure IsPolled (address : JsString) (c : Chain) (polls : List ℕ) : Prop where
  parts : ∃ polled later, polls = polled ++ c.blocks.length :: later ∧
    ∀ n ∈ polled, ∀ b ∈ c.blocks.take n, ¬ b.ActsOn address

theorem watchForDeployTxData_eq {polls : List ℕ} (hpolls : IsPolled address c polls) :
    watchForDeployTxData ⟨c, polls⟩ address = some
      (let entry := if history.latest.action.typename = .contractCall then history.deploy
        else history.latest
      deployTxData address entry.transaction entry.block) := by
  obtain ⟨polled, later, rfl, hpolled⟩ := hpolls.parts
  have hfirst : (polled ++ c.blocks.length :: later).findSome?
      (fun n => latestWithDeploy address (c.blocks.take n)) = latestWithDeploy address c.blocks := by
    have hnone : polled.findSome? (fun n => latestWithDeploy address (c.blocks.take n)) = none := by
      refine List.findSome?_eq_none_iff.mpr fun n hn => ?_
      rw [latestWithDeploy, latestEntry_eq_none.mpr (hpolled n hn)]
      rfl
    rw [List.findSome?_append, hnone, List.findSome?_cons, List.take_length,
      history.latestWithDeploy_eq]
    rfl
  rw [watchForDeployTxData, Observable.firstValue, Observable.map_next, List.head?_map,
    head?_watchQuery]
  dsimp only [id]
  rw [hfirst, history.latestWithDeploy_eq]
  split <;> rfl

/-- Both functions return what belongs to the deployment. -/
structure ReturnsDeployment (polls : List ℕ) : Prop where
  state : queryDeployContractState ⟨c, polls⟩ address =
    .ok (maybeContractState history.deploy.action.state)
  txData : watchForDeployTxData ⟨c, polls⟩ address = some (.ok history.data)

/-- Both functions return what belongs to the deployment if and only if the latest action is no
maintenance update. -/
theorem returnsDeployment_iff {polls : List ℕ} (hpolls : IsPolled address c polls) :
    history.ReturnsDeployment polls ↔ history.latest.action.typename ≠ .contractUpdate := by
  constructor
  · rintro ⟨_, htx⟩ hupdate
    rw [history.watchForDeployTxData_eq hpolls, hupdate] at htx
    simp only [reduceCtorEq, if_false, Option.some.injEq] at htx
    obtain ⟨status, _, hdata⟩ := except_bind_ok.mp htx
    have hhash : history.latest.transaction.hash = history.deploy.transaction.hash :=
      congrArg DeployTxData.txHash (Except.ok.inj hdata)
    obtain heq | ⟨_, hne⟩ := history.latest_cases
    · rw [heq, history.deployed] at hupdate
      cases hupdate
    · exact hne hhash
  · intro hupdate
    have hlatest : (if history.latest.action.typename = .contractCall then history.deploy
        else history.latest) = history.deploy := by
      obtain heq | ⟨hne, _⟩ := history.latest_cases
      · rw [heq, ite_self]
      · refine if_pos ?_
        cases htype : history.latest.action.typename with
        | contractDeploy => exact absurd htype hne
        | contractCall => rfl
        | contractUpdate => exact absurd htype hupdate
    constructor
    · rw [history.queryDeployContractState_eq]
      congr 2
      rw [← apply_ite fun e : Chain.Entry => e.action.state, hlatest]
    · rw [history.watchForDeployTxData_eq hpolls, hlatest]
      exact congrArg some history.deployTxData_deploy

end History

namespace Sample
open MidnightJs.Sample

def deployTx : Transaction :=
  ⟨js "t0", [], js "SucceedEntirely", [js "i0"], [⟨.contractDeploy, js "c", js "00"⟩]⟩

def laterTx (typename : ContractActionType) : Transaction :=
  ⟨js "t1", [], js "SucceedEntirely", [js "i1"], [⟨typename, js "c", js "01"⟩]⟩

/-- A deployment and one action after it. -/
def deployedChain (typename : ContractActionType) : Chain where
  blocks := [⟨js "b0", 0, [deployTx]⟩, ⟨js "b1", 1, [laterTx typename]⟩]
  heights := by cases typename <;> decide
  hashes := by cases typename <;> decide

def deployedHistory (typename : ContractActionType) (h : typename ≠ .contractDeploy) :
    History (deployedChain typename) (js "c") where
  deploy := ⟨⟨.contractDeploy, js "c", js "00"⟩, deployTx, ⟨js "b0", 0, [deployTx]⟩⟩
  later := [⟨⟨typename, js "c", js "01"⟩, laterTx typename, ⟨js "b1", 1, [laterTx typename]⟩⟩]
  entries_eq := rfl
  deployed := rfl
  deployed_once := by simpa using h
  transactions := by cases typename <;> decide
  actionsBefore := []
  actionsAfter := []
  actions_eq := rfl
  others := by simp
  status := .SucceedEntirely
  status_eq := rfl

theorem isPolled_deployedChain (typename : ContractActionType) :
    History.IsPolled (js "c") (deployedChain typename) [0, 2] :=
  ⟨[0], [], rfl, by simp⟩

theorem returnsDeployment_iff_call :
    (deployedHistory .contractCall (by decide)).ReturnsDeployment [0, 2] ↔
      (deployedHistory .contractCall (by decide)).latest.action.typename ≠ .contractUpdate :=
  History.returnsDeployment_iff _ (isPolled_deployedChain .contractCall)

/-- After a maintenance update its transaction is returned for that of the deployment. -/
theorem update_is_taken_for_deployment :
    ¬ (deployedHistory .contractUpdate (by decide)).ReturnsDeployment [0, 2] := by
  intro h
  have hhash : some (js "t1") = some (js "t0") := congrArg (fun result =>
    result.bind fun data => data.toOption.map DeployTxData.txHash) h.txData
  exact absurd hhash (by decide)

end Sample

end MidnightJs.Indexer
