import MidnightJs.Indexer.ContractQueries

/-! # Reads after a finalized transaction

`watchForTxData` is what `submitTx` ends with. Once it has resolved, every later query for the state
of a contract is answered with what the transaction did to it, or with what came after. -/

namespace MidnightJs.Indexer
open Foundations Foundations.Js Foundations.Rx
set_option autoImplicit false

/-! ## The first transaction with an identifier -/

theorem transactionsWith_append (txId : TransactionId) (blocks blocks' : List Block) :
    transactionsWith txId (blocks ++ blocks') =
      transactionsWith txId blocks ++ transactionsWith txId blocks' :=
  List.flatMap_append

theorem of_mem_transactionsWith {txId : TransactionId} {blocks : List Block}
    {found : Transaction × Block} (h : found ∈ transactionsWith txId blocks) :
    found.2 ∈ blocks ∧ found.1 ∈ found.2.transactions ∧ txId ∈ found.1.identifiers := by
  obtain ⟨b, hb, h⟩ := List.mem_flatMap.mp h
  obtain ⟨t, ht, rfl⟩ := List.mem_map.mp h
  obtain ⟨ht, hcontains⟩ := List.mem_filter.mp ht
  exact ⟨hb, ht, List.contains_iff_mem.mp hcontains⟩

/-- Blocks that are added do not change which transaction is found. -/
theorem head?_transactionsWith {txId : TransactionId} {blocks blocks' : List Block}
    (h : blocks <+: blocks') {found : Transaction × Block}
    (hfound : (transactionsWith txId blocks).head? = some found) :
    (transactionsWith txId blocks').head? = some found := by
  obtain ⟨added, rfl⟩ := h
  rw [transactionsWith_append, List.head?_append, hfound]
  rfl

section States

variable [Runtime] [Codec]

/-- What `watchForTxData` makes of a transaction. -/
def finalizedTxData (txId : TransactionId) (found : Transaction × Block) :
    Except JsError FinalizedTxData := do
  let status ← toTxStatus found.1.applyStage
  return {
    tx := deserializeTransaction found.1.raw
    status := status
    txId := txId
    txHash := found.1.hash
    blockHash := found.2.hash
    blockHeight := found.2.height }

theorem watchForTxData_eq (client : ApolloClient) (txId : TransactionId) :
    watchForTxData client txId = (client.polls.findSome? fun n =>
      (transactionsWith txId (client.chain.at n).blocks).head?).map (finalizedTxData txId) := by
  rw [watchForTxData, Observable.firstValue, Observable.map_next, List.head?_map, head?_watchQuery]
  rfl

/-- The transaction that a resolved watch was told about. -/
structure Finalized (c : Chain) (txId : TransactionId) (data : FinalizedTxData) (n : ℕ) where
  before : List Block
  block : Block
  after : List Block
  blocks_eq : c.blocks = before ++ block :: after
  polled : before.length < n
  transaction : Transaction
  inBlock : transaction ∈ block.transactions
  identified : txId ∈ transaction.identifiers
  first : (transactionsWith txId c.blocks).head? = some (transaction, block)
  data_eq : finalizedTxData txId (transaction, block) = .ok data

/-- A resolved watch was told about the first transaction with the identifier, at one of its polls. -/
theorem finalized_of_watch {client : ApolloClient} {txId : TransactionId} {data : FinalizedTxData}
    (h : watchForTxData client txId = some (.ok data)) :
    ∃ n ∈ client.polls, Nonempty (Finalized client.chain txId data n) := by
  rw [watchForTxData_eq] at h
  obtain ⟨⟨t, b⟩, hfound, hdata⟩ := Option.map_eq_some_iff.mp h
  obtain ⟨n, hn, hhead⟩ := List.exists_of_findSome?_eq_some hfound
  obtain ⟨hb, ht, hidentified⟩ := of_mem_transactionsWith (List.mem_of_head? hhead)
  obtain ⟨before, rest, hblocks⟩ := List.append_of_mem hb
  change client.chain.blocks.take n = _ at hblocks
  have hprefix : client.chain.blocks.take n <+: client.chain.blocks := List.take_prefix _ _
  obtain ⟨after, hafter⟩ := hprefix
  refine ⟨n, hn, ⟨before, b, rest ++ after, ?_, ?_, t, ht, hidentified, ?_, hdata⟩⟩
  · rw [← hafter, hblocks, List.append_assoc, List.cons_append]
  · have hlength := congrArg List.length hblocks
    rw [List.length_append, List.length_cons, List.length_take] at hlength
    omega
  · exact head?_transactionsWith ⟨after, hafter⟩ hhead

namespace Finalized

variable {c : Chain} {txId : TransactionId} {data : FinalizedTxData} {n : ℕ}

theorem data_block (found : Finalized c txId data n) : data.blockHeight = found.block.height ∧
    data.blockHash = found.block.hash ∧ data.txHash = found.transaction.hash := by
  obtain ⟨status, _, h⟩ := except_bind_ok.mp found.data_eq
  have hdata := (Except.ok.inj h).symm
  exact ⟨congrArg FinalizedTxData.blockHeight hdata, congrArg FinalizedTxData.blockHash hdata,
    congrArg FinalizedTxData.txHash hdata⟩

/-- From the poll on, the block is there behind the same blocks. -/
theorem blocks_at (found : Finalized c txId data n) {m : ℕ} (hm : n ≤ m) :
    ∃ later, (c.at m).blocks = found.before ++ found.block :: later := by
  obtain ⟨k, hk⟩ := Nat.exists_eq_add_of_lt (found.polled.trans_le hm)
  refine ⟨found.after.take k, ?_⟩
  change c.blocks.take m = _
  rw [found.blocks_eq, List.take_append, List.take_of_length_le (by omega)]
  rw [show m - found.before.length = k + 1 by omega, List.take_succ_cons]

/-- All who watch for the transaction are told the same. -/
theorem watch_eq (found : Finalized c txId data n) {polls : List ℕ}
    {result : Except JsError FinalizedTxData} (h : watchForTxData ⟨c, polls⟩ txId = some result) :
    result = .ok data := by
  rw [watchForTxData_eq] at h
  obtain ⟨other, hother, rfl⟩ := Option.map_eq_some_iff.mp h
  obtain ⟨k, _, hhead⟩ := List.exists_of_findSome?_eq_some hother
  have hprefix : (c.at k).blocks <+: c.blocks := List.take_prefix _ _
  have hsame := (head?_transactionsWith hprefix hhead).symm.trans found.first
  rw [Option.some.inj hsame]
  exact found.data_eq

/-- Who polls when the transaction is known is told about it. -/
theorem watch_settles (found : Finalized c txId data n) {polls : List ℕ} {m : ℕ} (hm : m ∈ polls)
    (hn : n ≤ m) : watchForTxData ⟨c, polls⟩ txId = some (.ok data) := by
  obtain ⟨later, hat⟩ := found.blocks_at hn
  have hmem : (found.transaction, found.block) ∈ transactionsWith txId (c.at m).blocks := by
    refine List.mem_flatMap.mpr ⟨found.block, by simp [hat], ?_⟩
    refine List.mem_map.mpr ⟨found.transaction, List.mem_filter.mpr ⟨found.inBlock, ?_⟩, rfl⟩
    exact List.contains_iff_mem.mpr found.identified
  have hpolled : (polls.findSome? fun k =>
      (transactionsWith txId (c.at k).blocks).head?).isSome = true := by
    exact List.findSome?_isSome_iff.mpr ⟨m, hm, List.isSome_head?.mpr (List.ne_nil_of_mem hmem)⟩
  obtain ⟨first, hfirst⟩ := Option.isSome_iff_exists.mp hpolled
  have hwatch : watchForTxData ⟨c, polls⟩ txId = some (finalizedTxData txId first) := by
    rw [watchForTxData_eq]
    change Option.map _ (polls.findSome? _) = _
    rw [hfirst]
    rfl
  rw [hwatch, found.watch_eq hwatch]

end Finalized

/-! ## Queries -/

/-- The answer is the state that the action left, or that of a later action on the contract. -/
def ShowsAction (address : JsString) (blocks : List Block) (action : ContractAction)
    (answer : Option ContractState) : Prop :=
  ∃ earlier later, statesIn address blocks =
      earlier ++ deserializeContractState action.state :: later ∧
    answer = (deserializeContractState action.state :: later).getLast?

theorem showsAction_stateAfter {address : JsString} {before after : List Block} {b : Block}
    {t : Transaction} (ht : t ∈ b.transactions) {action : ContractAction}
    (haction : action ∈ t.contractActions) (haddress : action.address = address) :
    ShowsAction address (before ++ b :: after) action (stateAfter address (before ++ b :: after)) := by
  have hmem : action ∈ b.actionsOn address := by
    refine List.mem_filter.mpr ⟨List.mem_flatMap.mpr ⟨t, ht, haction⟩, ?_⟩
    simpa using haddress
  obtain ⟨pre, post, hsplit⟩ := List.append_of_mem hmem
  have hstates : statesIn address (before ++ b :: after) =
      (statesIn address before ++ pre.map fun a => deserializeContractState a.state) ++
        deserializeContractState action.state ::
          ((post.map fun a => deserializeContractState a.state) ++ statesIn address after) := by
    rw [statesIn_append, ← List.singleton_append, statesIn_append, statesIn_singleton, hsplit]
    simp
  refine ⟨_, _, hstates, ?_⟩
  rw [stateAfter, hstates]
  exact List.getLast?_append_of_ne_nil _ (List.cons_ne_nil _ _)

namespace PublicDataProvider

theorem queryContractState_latest {networkId : NetworkId} {client : ApolloClient}
    {contractAddress : ContractAddress} (valid : assertIsContractAddress contractAddress = .ok ())
    (readable : Readable (prependNetworkIdHex networkId contractAddress) client.chain) (m : ℕ)
    (polls : List ℕ) :
    queryContractState networkId ⟨client.chain.at m, polls⟩ contractAddress none =
      .ok (stateAfter (prependNetworkIdHex networkId contractAddress) (client.chain.at m).blocks) := by
  have hprefix : (client.chain.at m).blocks <+: client.chain.blocks := List.take_prefix _ _
  rw [queryContractState, withAddress_of_valid valid, Indexer.queryContractState]
  dsimp only [Option.map_none, contractActionAt]
  rw [bind_maybeContractState readable hprefix]

theorem queryZSwapAndContractState_latest [ZswapStates] {networkId : NetworkId}
    {client : ApolloClient} {contractAddress : ContractAddress}
    (valid : assertIsContractAddress contractAddress = .ok ()) :
    ∃ both, queryZSwapAndContractState networkId client contractAddress none = .ok both ∧
      both.map Prod.snd =
        stateAfter (prependNetworkIdHex networkId contractAddress) client.chain.blocks := by
  refine ⟨_, withAddress_of_valid valid _, ?_⟩
  rw [Indexer.queryZSwapAndContractState, Option.map_map, ← latestEntry_state]
  rfl

/-- Once a watch for a transaction has resolved, all watches for it that settle resolve with the same
data, and those that poll from then on do settle; a query at the block of the data, by its height or by
its hash, has one answer; and that answer, as well as that of every later query without a block, shows
what the transaction did to the contract, or what came after. -/
theorem reads_follow_finality [ZswapStates] (networkId : NetworkId) {client : ApolloClient}
    {txId : TransactionId} {data : FinalizedTxData}
    (resolved : PublicDataProvider.watchForTxData client txId = some (.ok data)) :
    ∃ n ∈ client.polls, ∃ found : Finalized client.chain txId data n,
      (∀ polls result, PublicDataProvider.watchForTxData ⟨client.chain, polls⟩ txId = some result →
        result = .ok data) ∧
      (∀ polls, ∀ m ∈ polls, n ≤ m →
        PublicDataProvider.watchForTxData ⟨client.chain, polls⟩ txId = some (.ok data)) ∧
      ∀ contractAddress, assertIsContractAddress contractAddress = .ok () →
        Readable (prependNetworkIdHex networkId contractAddress) client.chain →
        ∀ m ≥ n, ∀ polls, ∃ atBlock latest,
          queryContractState networkId ⟨client.chain.at m, polls⟩ contractAddress
            (some (.blockHeight data.blockHeight)) = .ok atBlock ∧
          queryContractState networkId ⟨client.chain.at m, polls⟩ contractAddress
            (some (.blockHash data.blockHash)) = .ok atBlock ∧
          queryContractState networkId ⟨client.chain.at m, polls⟩ contractAddress none = .ok latest ∧
          (∃ both, queryZSwapAndContractState networkId ⟨client.chain.at m, polls⟩ contractAddress
            none = .ok both ∧ both.map Prod.snd = latest) ∧
          ∀ action ∈ found.transaction.contractActions,
            action.address = prependNetworkIdHex networkId contractAddress →
            ShowsAction action.address (found.before ++ [found.block]) action atBlock ∧
              ShowsAction action.address (client.chain.at m).blocks action latest := by
  obtain ⟨n, hn, ⟨found⟩⟩ := finalized_of_watch resolved
  refine ⟨n, hn, found, fun polls result h => found.watch_eq h,
    fun polls m hm hle => found.watch_settles hm hle, ?_⟩
  intro contractAddress valid readable m hm polls
  obtain ⟨hheight, hhash, _⟩ := found.data_block
  obtain ⟨later, hat⟩ := found.blocks_at hm
  have hknown : found.block ∈ (client.chain.at m).blocks := by
    rw [hat]
    exact List.mem_append_right _ List.mem_cons_self
  have hquery : ∀ config : BlockConfig, config.offset.matches found.block = true → _ :=
    fun config hmatches =>
      queryContractState_block valid readable found.blocks_eq hmatches
        ⟨found.block, hknown, hmatches⟩ polls
  refine ⟨_, _, hquery _ ?_, hquery _ ?_, queryContractState_latest valid readable m polls,
    queryZSwapAndContractState_latest valid, ?_⟩
  · simpa [BlockConfig.offset, BlockOffset.matches] using hheight.symm
  · simpa [BlockConfig.offset, BlockOffset.matches] using hhash.symm
  · intro action haction haddress
    rw [← haddress]
    refine ⟨showsAction_stateAfter found.inBlock haction rfl, ?_⟩
    rw [hat]
    exact showsAction_stateAfter found.inBlock haction rfl

end PublicDataProvider

end States

namespace Sample
open MidnightJs.Sample

def calledTx : Transaction :=
  ⟨js "t1", [], js "SucceedEntirely", [js "i1"], [⟨.contractCall, localAddress, js "01"⟩]⟩

/-- A deployment, the call that is watched, and one more call. -/
def calledChain : Chain where
  blocks := [actionBlock 0 .contractDeploy, ⟨js "b1", 1, [calledTx]⟩, actionBlock 2 .contractCall]
  heights := by decide
  hashes := by decide

def calledData : FinalizedTxData := ⟨⟨[]⟩, .SucceedEntirely, js "i1", js "t1", js "b1", 1⟩

theorem reads_follow_finality_called : ∃ n ∈ [1, 2, 3],
    ∃ found : Finalized calledChain (js "i1") calledData n, ∀ m ≥ n, ∃ latest,
      PublicDataProvider.queryContractState .Undeployed ⟨calledChain.at m, []⟩ contractAddress none =
        .ok latest ∧
      ∀ action ∈ found.transaction.contractActions, action.address = localAddress →
        ShowsAction action.address (calledChain.at m).blocks action latest := by
  have resolved : PublicDataProvider.watchForTxData ⟨calledChain, [1, 2, 3]⟩ (js "i1") =
      some (.ok calledData) := by rfl
  have valid : assertIsContractAddress contractAddress = .ok () := by decide
  have readable : Readable localAddress calledChain := by decide
  obtain ⟨n, hn, found, _, _, hreads⟩ :=
    PublicDataProvider.reads_follow_finality .Undeployed resolved
  refine ⟨n, hn, found, fun m hm => ?_⟩
  obtain ⟨_, latest, _, _, hlatest, _, hshows⟩ := hreads contractAddress valid readable m hm []
  exact ⟨latest, hlatest, fun action haction haddress => (hshows action haction haddress).2⟩

end Sample

end MidnightJs.Indexer
