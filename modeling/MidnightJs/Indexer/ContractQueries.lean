import MidnightJs.Indexer.FirstStates
import MidnightJs.Utils.Hex

/-! # Queries for the state of a contract

The one-off queries of `packages/indexer-public-data-provider/src/indexer-public-data-provider.ts`,
and the provider that is handed out, which checks the address and puts the network id in front. A
query at a block has one answer from the moment the block is there, and the observable that starts
after the block goes on exactly where that answer ends. -/

namespace MidnightJs.Indexer
open Foundations Foundations.Js Foundations.Rx
set_option autoImplicit false

/-! ## Network identifiers -/

inductive NetworkId
  | Undeployed
  | DevNet
  | TestNet
  | MainNet
  deriving DecidableEq

def networkIdToHex : NetworkId → JsString
  | .Undeployed => js "00"
  | .DevNet => js "01"
  | .TestNet => js "02"
  | .MainNet => js "04"

def prependNetworkIdHex (networkId : NetworkId) (contractAddress : ContractAddress) : JsString :=
  networkIdToHex networkId ++ contractAddress

/-! ## The answers of the indexer -/

/-- `BlockHeightConfig | BlockHashConfig`. -/
inductive BlockConfig
  | blockHeight (blockHeight : ℕ)
  | blockHash (blockHash : JsString)

def BlockConfig.offset : BlockConfig → BlockOffset
  | .blockHeight n => .height n
  | .blockHash h => .hash h

/-- The configuration of an observable that starts at the block. -/
def BlockConfig.observe (inclusive : Option Bool) : BlockConfig → ContractStateObservableConfig
  | .blockHeight n => .blockHeight n inclusive
  | .blockHash h => .blockHash h inclusive

/-- The blocks up to the one at the offset; none if it is not there. -/
def blocksUpTo (offset : BlockOffset) (blocks : List Block) : List Block :=
  match blockAt offset blocks with
  | some block => blocks.takeWhile (fun b => !offset.matches b) ++ [block]
  | none => []

/-- `contractAction(address, offset)` is the latest action of the contract, or the latest up to the
block at the offset. -/
def contractActionAt (address : JsString) (offset : Option BlockOffset) (blocks : List Block) :
    Option Chain.Entry :=
  latestEntry address (match offset with
    | some offset => blocksUpTo offset blocks
    | none => blocks)

/-- The field `chainState` of an action, and how it is read. -/
class ZswapStates [Runtime] where
  chainState : Chain.Entry → JsString
  deserializeZswapState : JsString → ZswapChainState

export ZswapStates (chainState deserializeZswapState)

/-! ## The queries -/

section Provider

variable [Runtime] [Codec]

def queryContractState (client : ApolloClient) (address : JsString)
    (config : Option BlockConfig) : Option ContractState :=
  let maybeState := (contractActionAt address (config.map BlockConfig.offset)
    client.chain.blocks).map fun contract => contract.action.state
  maybeState.bind maybeContractState

/-- Here the test is on the action and not on its state. -/
def queryZSwapAndContractState [ZswapStates] (client : ApolloClient) (address : JsString)
    (config : Option BlockConfig) : Option (ZswapChainState × ContractState) :=
  (contractActionAt address (config.map BlockConfig.offset) client.chain.blocks).map
    fun contract =>
      (deserializeZswapState (chainState contract), deserializeContractState contract.action.state)

/-- The promise settles with the first value. -/
def watchForContractState (client : ApolloClient) (contractAddress : JsString) :
    Option ContractState :=
  ((waitForContractToAppear client contractAddress).map deserializeContractState).firstValue

def watchForTxData (client : ApolloClient) (txId : TransactionId) :
    Option (Except JsError FinalizedTxData) :=
  (((client.watchQuery (transactionsWith txId)).filterMap List.head?).map
    fun (transaction, block) => do
      let status ← toTxStatus transaction.applyStage
      return {
        tx := deserializeTransaction transaction.raw
        status := status
        txId := txId
        txHash := transaction.hash
        blockHash := block.hash
        blockHeight := block.height }).firstValue

/-! ## The provider that is handed out -/

namespace PublicDataProvider

variable (networkId : NetworkId) (client : ApolloClient) (contractAddress : ContractAddress)

/-- Asserts the address, and goes on with it as the indexer has it. -/
def withAddress {α : Type} (f : JsString → α) : Except JsError α := do
  assertIsContractAddress contractAddress
  return f (prependNetworkIdHex networkId contractAddress)

def contractStateObservable (config : ContractStateObservableConfig) :
    Except JsError (Observable ContractState) :=
  withAddress networkId contractAddress fun address =>
    Indexer.contractStateObservable client address config

def queryContractState (config : Option BlockConfig) : Except JsError (Option ContractState) :=
  withAddress networkId contractAddress fun address =>
    Indexer.queryContractState client address config

def queryDeployContractState : Except JsError (Option ContractState) := do
  let state ← withAddress networkId contractAddress (Indexer.queryDeployContractState client)
  state

def queryZSwapAndContractState [ZswapStates] (config : Option BlockConfig) :
    Except JsError (Option (ZswapChainState × ContractState)) :=
  withAddress networkId contractAddress fun address =>
    Indexer.queryZSwapAndContractState client address config

def watchForContractState : Except JsError (Option ContractState) :=
  withAddress networkId contractAddress (Indexer.watchForContractState client)

def watchForDeployTxData : Except JsError (Option (Except JsError DeployTxData)) :=
  withAddress networkId contractAddress (Indexer.watchForDeployTxData client)

/-- A transaction is looked for under its own identifier. -/
def watchForTxData (txId : TransactionId) : Option (Except JsError FinalizedTxData) :=
  Indexer.watchForTxData client txId

end PublicDataProvider

end Provider

/-! ## The blocks up to an offset -/

theorem blocksUpTo_append {offset : BlockOffset} {before : List Block} {b : Block}
    (after : List Block) (hbefore : ∀ b' ∈ before, offset.matches b' = false)
    (hb : offset.matches b = true) : blocksUpTo offset (before ++ b :: after) = before ++ [b] := by
  have hat : blockAt offset (before ++ b :: after) = some b := by
    rw [blockAt, List.find?_append, List.find?_eq_none.mpr fun b' hb' => by simp [hbefore b' hb'],
      Option.none_or, List.find?_cons_of_pos hb]
  rw [blocksUpTo, hat]
  dsimp only
  rw [List.takeWhile_append_of_pos fun b' hb' => by simp [hbefore b' hb'],
    List.takeWhile_cons_of_neg (by simp [hb]), List.append_nil]

/-- The first blocks of the chain. -/
def Chain.at (c : Chain) (n : ℕ) : Chain where
  blocks := c.blocks.take n
  heights := c.heights.sublist ((List.take_sublist n _).map _)
  hashes := c.hashes.sublist ((List.take_sublist n _).map _)

/-- Once the block is there, it and the blocks before it stay as they are. -/
theorem Chain.blocksUpTo_at {c : Chain} {before : List Block} {b : Block} {after : List Block}
    (hc : c.blocks = before ++ b :: after) {offset : BlockOffset} (hb : offset.matches b = true)
    {n : ℕ} (hn : ∃ b' ∈ (c.at n).blocks, offset.matches b' = true) :
    blocksUpTo offset (c.at n).blocks = before ++ [b] := by
  have hbefore := c.not_matches_before hc hb
  have hlength : before.length < n := by
    by_contra hle
    obtain ⟨b', hb', hmatches⟩ := hn
    have hmem : b' ∈ before := by
      have htake : (c.at n).blocks = before.take n := by
        change c.blocks.take n = _
        rw [hc, List.take_append_of_le_length (Nat.le_of_not_lt hle)]
      rw [htake] at hb'
      exact List.mem_of_mem_take hb'
    rw [hbefore b' hmem] at hmatches
    cases hmatches
  have htake : (c.at n).blocks = before ++ b :: after.take (n - before.length - 1) := by
    change c.blocks.take n = _
    rw [hc, List.take_append, List.take_of_length_le (Nat.le_of_lt hlength)]
    obtain ⟨m, hm⟩ := Nat.exists_eq_add_of_lt hlength
    rw [show n - before.length = m + 1 by omega, List.take_succ_cons]
    rfl
  rw [htake]
  exact blocksUpTo_append _ hbefore hb

/-! ## The state after a block -/

/-- No state of the contract is serialized to the empty string. -/
def Readable (address : JsString) (c : Chain) : Prop :=
  ∀ e ∈ Chain.entries address c.blocks, e.action.state ≠ []

instance (address : JsString) (c : Chain) : Decidable (Readable address c) :=
  inferInstanceAs (Decidable (∀ e ∈ Chain.entries address c.blocks, e.action.state ≠ []))

section States

variable [Runtime] [Codec]

theorem latestEntry_state (address : JsString) (blocks : List Block) :
    ((latestEntry address blocks).map fun e => deserializeContractState e.action.state) =
      stateAfter address blocks := by
  rw [stateAfter, statesIn, ← Chain.entries_action, List.map_map, List.getLast?_map]
  rfl

/-- A query is answered with the latest state in the blocks it looks at, since the state is no empty
string. -/
theorem bind_maybeContractState {address : JsString} {c : Chain} (readable : Readable address c)
    {blocks : List Block} (hblocks : blocks <+: c.blocks) :
    ((latestEntry address blocks).map fun e => e.action.state).bind maybeContractState =
      stateAfter address blocks := by
  rw [← latestEntry_state]
  cases h : latestEntry address blocks with
  | none => rfl
  | some e =>
    have hmem : e ∈ Chain.entries address c.blocks := by
      obtain ⟨after, hafter⟩ := hblocks
      rw [← hafter, Chain.entries_append]
      exact List.mem_append_left _ (List.mem_of_getLast? h)
    change maybeContractState e.action.state = some (deserializeContractState e.action.state)
    rw [maybeContractState, if_pos ((truthy_string _).mpr (readable e hmem))]

theorem statesIn_eq_of_stateAfter (address : JsString) (blocks : List Block) :
    ∃ earlier, statesIn address blocks = earlier ++ (stateAfter address blocks).toList ∧
      (stateAfter address blocks = none → earlier = []) := by
  unfold stateAfter
  obtain h | ⟨earlier, state, h⟩ := List.eq_nil_or_concat (statesIn address blocks)
  · exact ⟨[], by simp [h], fun _ => rfl⟩
  · rw [h, List.concat_eq_append]
    exact ⟨earlier, by simp, fun hnone => by simp at hnone⟩

end States

/-! ## Query, then subscribe -/

namespace PublicDataProvider

variable [Runtime] [Codec] [ZswapStates]

omit [Runtime] [Codec] [ZswapStates] in
theorem withAddress_of_valid {α : Type} {networkId : NetworkId} {contractAddress : ContractAddress}
    (valid : assertIsContractAddress contractAddress = .ok ()) (f : JsString → α) :
    withAddress networkId contractAddress f =
      .ok (f (prependNetworkIdHex networkId contractAddress)) := by
  rw [withAddress, valid]
  rfl

omit [ZswapStates] in
/-- A query at a block has one answer from the moment the block is there. -/
theorem queryContractState_block {networkId : NetworkId} {client : ApolloClient}
    {contractAddress : ContractAddress} (valid : assertIsContractAddress contractAddress = .ok ())
    (readable : Readable (prependNetworkIdHex networkId contractAddress) client.chain)
    {before after : List Block} {b : Block} (hchain : client.chain.blocks = before ++ b :: after)
    {config : BlockConfig} (hmatches : config.offset.matches b = true) {m : ℕ}
    (known : ∃ b ∈ (client.chain.at m).blocks, config.offset.matches b = true) (polls : List ℕ) :
    queryContractState networkId ⟨client.chain.at m, polls⟩ contractAddress (some config) =
      .ok (stateAfter (prependNetworkIdHex networkId contractAddress) (before ++ [b])) := by
  have hupTo := client.chain.blocksUpTo_at hchain hmatches known
  have hprefix : before ++ [b] <+: client.chain.blocks := ⟨after, by rw [hchain]; simp⟩
  rw [queryContractState, withAddress_of_valid valid, Indexer.queryContractState]
  dsimp only [Option.map_some, contractActionAt]
  rw [hupTo, bind_maybeContractState readable hprefix]

/-- Query the state at a block, at any moment from which the block is there, and observe the contract
after the block: the states of the contract are some earlier ones, the queried one, and then exactly
the emitted ones. Both queries answer with the same state. -/
theorem query_then_subscribe (networkId : NetworkId) (client : ApolloClient)
    {contractAddress : ContractAddress} (valid : assertIsContractAddress contractAddress = .ok ())
    (readable : Readable (prependNetworkIdHex networkId contractAddress) client.chain)
    {config : BlockConfig}
    (found : ∃ n ∈ client.polls, ∃ b ∈ (client.chain.at n).blocks, config.offset.matches b = true)
    {n : ℕ} (known : ∃ b ∈ (client.chain.at n).blocks, config.offset.matches b = true)
    (polls : List ℕ) :
    ∃ earlier state emitted,
      queryContractState networkId ⟨client.chain.at n, polls⟩ contractAddress (some config) =
        .ok state ∧
      (∃ both, queryZSwapAndContractState networkId ⟨client.chain.at n, polls⟩ contractAddress
        (some config) = .ok both ∧ both.map Prod.snd = state) ∧
      contractStateObservable networkId client contractAddress (config.observe (some false)) =
        .ok emitted ∧
      statesIn (prependNetworkIdHex networkId contractAddress) client.chain.blocks =
        earlier ++ (state.toList ++ emitted.next) ∧
      (state = none → earlier = []) := by
  have hemits : EmitsFromBlocks client (prependNetworkIdHex networkId contractAddress)
      (.block config.offset (some false)) (Indexer.contractStateObservable client
        (prependNetworkIdHex networkId contractAddress) (config.observe (some false))) := by
    cases config <;> exact emits_block _ _ _ _
  obtain ⟨rest, ⟨before, b, after, hchain, hmatches, hrest⟩, hnext⟩ := hemits.emits found
  replace hnext : _ = statesIn _ after := hnext.trans (congrArg _ hrest)
  have hupTo := client.chain.blocksUpTo_at hchain hmatches known
  obtain ⟨earlier, hearlier, hnone⟩ := statesIn_eq_of_stateAfter
    (prependNetworkIdHex networkId contractAddress) (before ++ [b])
  refine ⟨earlier, stateAfter (prependNetworkIdHex networkId contractAddress) (before ++ [b]), _,
    ?_, ⟨_, withAddress_of_valid valid _, ?_⟩, withAddress_of_valid valid _, ?_, hnone⟩
  · exact queryContractState_block valid readable hchain hmatches known polls
  · rw [Indexer.queryZSwapAndContractState, Option.map_map]
    dsimp only [Option.map_some, contractActionAt]
    rw [hupTo, ← latestEntry_state]
    rfl
  · rw [hnext, ← List.append_assoc, ← hearlier, ← statesIn_append, hchain]
    simp

end PublicDataProvider

namespace Sample
open MidnightJs.Sample

scoped instance : ZswapStates where
  chainState _ := []
  deserializeZswapState _ := ()

/-- 34 bytes. -/
def contractAddress : ContractAddress := List.replicate 68 0x30

/-- The address as the indexer has it. -/
def localAddress : JsString := prependNetworkIdHex .Undeployed contractAddress

def actionBlock (height : ℕ) (typename : ContractActionType) : Block where
  hash := naturalText height
  height := height
  transactions := [⟨[], [], [], [], [⟨typename, localAddress, naturalText height⟩]⟩]

/-- A deployment and two calls, each in a block of its own. -/
def queriedChain : Chain where
  blocks := [actionBlock 0 .contractDeploy, actionBlock 1 .contractCall,
    actionBlock 2 .contractCall]
  heights := by decide
  hashes := by decide

theorem query_then_subscribe_second : ∃ earlier state emitted,
    PublicDataProvider.queryContractState .Undeployed ⟨queriedChain.at 2, []⟩ contractAddress
        (some (.blockHeight 1)) = .ok state ∧
      PublicDataProvider.contractStateObservable .Undeployed ⟨queriedChain, [3]⟩
        contractAddress (.blockHeight 1 (some false)) = .ok emitted ∧
      statesIn localAddress queriedChain.blocks = earlier ++ (state.toList ++ emitted.next) := by
  have known (n : ℕ) (hn : 2 ≤ n) : ∃ b ∈ (queriedChain.at n).blocks,
      (BlockConfig.blockHeight 1).offset.matches b = true := by
    obtain ⟨m, rfl⟩ := Nat.exists_eq_add_of_le' hn
    exact ⟨actionBlock 1 .contractCall, by simp [Chain.at, queriedChain], rfl⟩
  have valid : assertIsContractAddress contractAddress = .ok () := by decide
  have readable : Readable localAddress queriedChain := by decide
  obtain ⟨earlier, state, emitted, hquery, _, hobserve, hstates, _⟩ :=
    PublicDataProvider.query_then_subscribe .Undeployed ⟨queriedChain, [3]⟩ valid readable
      ⟨3, by simp, known 3 (by decide)⟩ (known 2 (by decide)) []
  exact ⟨earlier, state, emitted, hquery, hobserve, hstates⟩

end Sample

end MidnightJs.Indexer
