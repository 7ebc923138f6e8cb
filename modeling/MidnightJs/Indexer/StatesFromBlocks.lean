import MidnightJs.Indexer.PublicDataProvider

/-! # Contract states from a block on

The observable that starts at a block emits the states of the contract in a suffix of the chain,
each once and in order, wherever the polls fall. What two such observables emit are suffixes of one
sequence. -/

namespace MidnightJs.Indexer
open Foundations Foundations.Js Foundations.Rx
set_option autoImplicit false

/-- The configurations that start at a block. -/
inductive BlockStart
  | all
  | latest
  | block (offset : BlockOffset) (inclusive : Option Bool)

def BlockStart.config : BlockStart → ContractStateObservableConfig
  | .all => .all
  | .latest => .latest
  | .block (.height n) inclusive => .blockHeight n inclusive
  | .block (.hash h) inclusive => .blockHash h inclusive

def Block.ActsOn (address : JsString) (b : Block) : Prop := b.actionsOn address ≠ []

/-- Some poll found what the observable waits for. -/
def BlockStart.Found (client : ApolloClient) (address : JsString) : BlockStart → Prop
  | .all | .latest => ∃ n ∈ client.polls, ∃ b ∈ client.chain.blocks.take n, b.ActsOn address
  | .block offset _ => ∃ n ∈ client.polls, ∃ b ∈ client.chain.blocks.take n, offset.matches b = true

/-- These are the blocks of the chain from the start on: all blocks, those from the last block that
acts on the contract when it is first found, or those from the named block or the one after it. -/
def BlockStart.IsRest (client : ApolloClient) (address : JsString) (rest : List Block) :
    BlockStart → Prop
  | .all => rest = client.chain.blocks
  | .latest => ∃ polled n later before b between, client.polls = polled ++ n :: later ∧
    (∀ m ∈ polled, ∀ b ∈ client.chain.blocks.take m, ¬ b.ActsOn address) ∧
    client.chain.blocks.take n = before ++ b :: between ∧ b.ActsOn address ∧
    (∀ b' ∈ between, ¬ b'.ActsOn address) ∧ client.chain.blocks = before ++ rest
  | .block offset inclusive => ∃ before b after, client.chain.blocks = before ++ b :: after ∧
    offset.matches b = true ∧ rest = if inclusive.getD true then b :: after else after

theorem BlockStart.IsRest.suffix {client : ApolloClient} {address : JsString} {rest : List Block}
    {start : BlockStart} (h : start.IsRest client address rest) :
    rest <:+ client.chain.blocks := by
  cases start with
  | all => exact h ▸ List.suffix_rfl
  | latest =>
    obtain ⟨_, _, _, before, _, _, _, _, _, _, _, hblocks⟩ := h
    exact ⟨before, hblocks.symm⟩
  | block offset inclusive =>
    obtain ⟨before, b, after, hblocks, _, rfl⟩ := h
    rw [hblocks]
    split
    · exact List.suffix_append before _
    · exact ⟨before ++ [b], by simp⟩

/-! ## Entries -/

theorem entries_eq_nil {address : JsString} {blocks : List Block} :
    Chain.entries address blocks = [] ↔ ∀ b ∈ blocks, ¬ b.ActsOn address := by
  simp [Chain.entries, List.flatMap_eq_nil_iff, Chain.entriesOfBlock_eq_nil, Block.ActsOn]

/-- The latest entry is in the last block that acts on the contract. -/
theorem latestEntry_eq_some {address : JsString} {blocks : List Block} {e : Chain.Entry}
    (h : latestEntry address blocks = some e) :
    ∃ before between, blocks = before ++ e.block :: between ∧ e.block.ActsOn address ∧
      ∀ b ∈ between, ¬ b.ActsOn address := by
  induction blocks using List.reverseRecOn with
  | nil => cases h
  | append_singleton blocks b ih =>
    rw [latestEntry, Chain.entries_append] at h
    by_cases hb : b.ActsOn address
    · have hne : Chain.entries address [b] ≠ [] := by
        simpa [Chain.entries, Chain.entriesOfBlock_eq_nil, Block.ActsOn] using hb
      rw [List.getLast?_append_of_ne_nil _ hne] at h
      obtain rfl : e.block = b := Chain.block_of_mem_entriesOfBlock (by
        simpa [Chain.entries] using List.mem_of_getLast? h)
      exact ⟨blocks, [], rfl, hb, by simp⟩
    · have hnil : Chain.entries address [b] = [] := entries_eq_nil.mpr (by simpa using hb)
      rw [hnil, List.append_nil] at h
      obtain ⟨before, between, rfl, he, hbetween⟩ := ih h
      refine ⟨before, between ++ [b], by simp, he, fun b' hb' => ?_⟩
      rcases List.mem_append.mp hb' with hb' | hb'
      · exact hbetween b' hb'
      · obtain rfl := List.mem_singleton.mp hb'
        exact hb

theorem latestEntry_eq_none {address : JsString} {blocks : List Block} :
    latestEntry address blocks = none ↔ ∀ b ∈ blocks, ¬ b.ActsOn address := by
  rw [latestEntry, List.getLast?_eq_none_iff, entries_eq_nil]

/-- Where no poll finds an action of the contract, none of its blocks has been there. -/
theorem not_found_of_none {β : Type} {client : ApolloClient} {address : JsString}
    {f : Chain.Entry → β}
    (hnone : ∀ n ∈ client.polls, (latestEntry address (client.chain.blocks.take n)).map f = none) :
    ¬ ∃ n ∈ client.polls, ∃ b ∈ client.chain.blocks.take n, b.ActsOn address := by
  rintro ⟨n, hn, b, hb, hacts⟩
  have hentry : latestEntry address (client.chain.blocks.take n) = none :=
    Option.map_eq_none_iff.mp (hnone n hn)
  exact latestEntry_eq_none.mp hentry b hb hacts

/-! ## Emissions -/

section Emissions

variable [Runtime] [Codec]

/-- The states of a contract in some blocks. -/
def statesIn (address : JsString) (blocks : List Block) : List ContractState :=
  (blocks.flatMap (Block.actionsOn address)).map fun action =>
    deserializeContractState action.state

theorem statesIn_suffix {address : JsString} {blocks blocks' : List Block}
    (h : blocks <:+ blocks') : statesIn address blocks <:+ statesIn address blocks' := by
  obtain ⟨before, rfl⟩ := h
  exact ⟨statesIn address before, by simp [statesIn]⟩

theorem blockToContractState_eq (address : JsString) (b : Block) :
    blockToContractState address b = ofList (statesIn address [b]) := by
  rw [blockToContractState, Observable.concatMap_of_completed (by simp)]
  simp [statesIn, Block.actionsOn, Observable.filter, Observable.map, ofList]

theorem concatMap_blockToContractState (address : JsString) (o : Observable Block) :
    (o.concatMap (blockToContractState address)).next = statesIn address o.next := by
  rw [Observable.concatMap_of_completed (by simp [blockToContractState_eq])]
  simp [blockToContractState_eq, statesIn, List.map_flatMap]

omit [Runtime] [Codec] in
theorem head?_watchQuery {α β : Type} (client : ApolloClient) (answer : List Block → α)
    (found : α → Option β) :
    ((client.watchQuery answer).filterMap found).next.head? =
      client.polls.findSome? fun n => found (answer (client.chain.blocks.take n)) := by
  simp [ApolloClient.watchQuery, List.filterMap_map, List.head?_filterMap]

omit [Runtime] [Codec] in
/-- What a poll that finds nothing, and the first that finds something, lead to. -/
theorem concatMap_firstPoll {α β γ : Type} (client : ApolloClient) (answer : List Block → α)
    (found : α → Option β) (f : β → Observable γ) (hlive : ∀ x, (f x).completed = false) :
    (∀ n ∈ client.polls, found (answer (client.chain.blocks.take n)) = none) ∧
        ((((client.watchQuery answer).filterMap found).take 1).concatMap f).next = [] ∨
      ∃ polled n later x, client.polls = polled ++ n :: later ∧
        found (answer (client.chain.blocks.take n)) = some x ∧
        (∀ m ∈ polled, found (answer (client.chain.blocks.take m)) = none) ∧
        (((client.watchQuery answer).filterMap found).take 1).concatMap f = f x := by
  have hnext := head?_watchQuery client answer found
  cases hfirst : client.polls.findSome? fun n => found (answer (client.chain.blocks.take n)) with
  | none =>
    rw [hfirst] at hnext
    refine .inl ⟨by simpa using hfirst, Observable.concatMap_of_empty ?_⟩
    rw [Observable.take_next, List.head?_eq_none_iff.mp hnext, List.take_nil]
  | some x =>
    rw [hfirst] at hnext
    obtain ⟨polled, n, later, hpolls, hn, hpolled⟩ := List.findSome?_eq_some_iff.mp hfirst
    exact .inr ⟨polled, n, later, x, hpolls, hn, hpolled,
      Observable.concatMap_of_live (by simpa [List.head?_take] using hnext) (hlive x)⟩

/-- What the observable has emitted: nothing while no poll has found the start, and the states in the
rest of the chain from then on. -/
structure EmitsFromBlocks (client : ApolloClient) (address : JsString) (start : BlockStart)
    (o : Observable ContractState) : Prop where
  waits : ¬ start.Found client address → o.next = []
  emits : start.Found client address →
    ∃ rest, start.IsRest client address rest ∧ o.next = statesIn address rest

theorem EmitsFromBlocks.suffix {client : ApolloClient} {address : JsString} {start : BlockStart}
    {o : Observable ContractState} (h : EmitsFromBlocks client address start o) :
    ∃ rest, rest <:+ client.chain.blocks ∧ o.next = statesIn address rest := by
  by_cases hfound : start.Found client address
  · obtain ⟨rest, hrest, ho⟩ := h.emits hfound
    exact ⟨rest, hrest.suffix, ho⟩
  · exact ⟨[], List.nil_suffix, h.waits hfound⟩

theorem emits_all (client : ApolloClient) (address : JsString) :
    EmitsFromBlocks client address .all (contractStateObservable client address .all) := by
  have hnext : (blockOffsetToContractState client address none).next =
      statesIn address client.chain.blocks := by
    simp [blockOffsetToContractState, ApolloClient.subscribe, contractActionsFrom, statesIn,
      ← Chain.entries_action]
  obtain ⟨hnone, ho⟩ | ⟨polled, n, later, x, hpolls, hn, _, ho⟩ := concatMap_firstPoll client
    (latestEntry address) (fun contract => contract.map fun contract => contract.action.state)
    (fun _ => blockOffsetToContractState client address none) (fun _ => rfl)
  · exact ⟨fun _ => ho, fun hfound => absurd hfound (not_found_of_none hnone)⟩
  · have hfound : BlockStart.all.Found client address := by
      obtain ⟨e, he, _⟩ := Option.map_eq_some_iff.mp hn
      obtain ⟨before, between, hblocks, hacts, _⟩ := latestEntry_eq_some he
      exact ⟨n, by simp [hpolls], e.block, by simp [hblocks], hacts⟩
    exact ⟨fun h => absurd hfound h, fun _ => ⟨_, rfl, (congrArg _ ho).trans hnext⟩⟩

theorem emits_latest (client : ApolloClient) (address : JsString) :
    EmitsFromBlocks client address .latest (contractStateObservable client address .latest) := by
  rw [contractStateObservable, contractAddressToLatestBlockOffset, Observable.concatMap_map]
  obtain ⟨hnone, ho⟩ | ⟨polled, n, later, x, hpolls, hn, hpolled, ho⟩ := concatMap_firstPoll client
    (latestEntry address) (fun contract => contract.map fun contract => contract.block.height)
    (fun height => blockOffsetToBlock client (.height height)) (fun _ => rfl)
  · have hempty := Observable.concatMap_of_empty (f := blockToContractState address) ho
    exact ⟨fun _ => hempty, fun hfound => absurd hfound (not_found_of_none hnone)⟩
  · obtain ⟨e, he, rfl⟩ := Option.map_eq_some_iff.mp hn
    obtain ⟨before, between, hblocks, hacts, hbetween⟩ := latestEntry_eq_some he
    have hfound : BlockStart.latest.Found client address :=
      ⟨n, by simp [hpolls], e.block, by simp [hblocks], hacts⟩
    have hchain : client.chain.blocks =
        before ++ e.block :: (between ++ client.chain.blocks.drop n) := by
      rw [← List.cons_append, ← List.append_assoc, ← hblocks, List.take_append_drop]
    refine ⟨fun h => absurd hfound h, fun _ =>
      ⟨e.block :: (between ++ client.chain.blocks.drop n), ?_, ?_⟩⟩
    · refine ⟨polled, n, later, before, e.block, between, hpolls, fun m hm => ?_, hblocks, hacts,
        hbetween, hchain⟩
      exact latestEntry_eq_none.mp (Option.map_eq_none_iff.mp (hpolled m hm))
    · have hmatches : (BlockOffset.height e.block.height).matches e.block = true := by
        simp [BlockOffset.matches]
      have hfrom : blocksFrom (.height e.block.height) client.chain.blocks =
          e.block :: (between ++ client.chain.blocks.drop n) :=
        client.chain.blocksFrom_eq hchain hmatches
      rw [ho, concatMap_blockToContractState]
      exact congrArg _ hfrom

theorem emits_block (client : ApolloClient) (address : JsString) (offset : BlockOffset)
    (inclusive : Option Bool) :
    EmitsFromBlocks client address (.block offset inclusive)
      (contractStatesFromBlock client address offset inclusive) := by
  rw [contractStatesFromBlock, waitForBlockToAppear]
  obtain ⟨hnone, ho⟩ | ⟨polled, n, later, x, hpolls, hn, _, ho⟩ := concatMap_firstPoll client
    (blockAt offset) id (fun _ => blockOffsetToBlock client offset) (fun _ => rfl)
  · refine ⟨fun _ => Observable.concatMap_of_empty ?_, fun hfound => ?_⟩
    · split
      · exact ho
      · simp [ho]
    · obtain ⟨n, hn, b, hb, hmatches⟩ := hfound
      have := List.find?_eq_none.mp (hnone n hn) b hb
      exact absurd hmatches this
  · obtain ⟨hmatches, before, after, hblocks, _⟩ := List.find?_eq_some_iff_append.mp hn
    have hfound : (BlockStart.block offset inclusive).Found client address :=
      ⟨n, by simp [hpolls], x, by simp [hblocks], hmatches⟩
    have hchain : client.chain.blocks = before ++ x :: (after ++ client.chain.blocks.drop n) := by
      rw [← List.cons_append, ← List.append_assoc, ← hblocks, List.take_append_drop]
    have hfrom : (blockOffsetToBlock client offset).next =
        x :: (after ++ client.chain.blocks.drop n) :=
      client.chain.blocksFrom_eq hchain hmatches
    refine ⟨fun h => absurd hfound h, fun _ =>
      ⟨_, ⟨before, x, after ++ client.chain.blocks.drop n, hchain, hmatches, rfl⟩, ?_⟩⟩
    rw [ho, concatMap_blockToContractState]
    split
    · rw [hfrom]
    · rw [Observable.skip_next, hfrom]
      rfl

/-- Each configuration that starts at a block emits exactly the states in the rest of the chain, and
for any two of them one emitted sequence is a suffix of the other. -/
theorem states_from_blocks (chain : Chain) (address : JsString) :
    (∀ (start : BlockStart) (polls : List ℕ), EmitsFromBlocks ⟨chain, polls⟩ address start
      (contractStateObservable ⟨chain, polls⟩ address start.config)) ∧
    ∀ (start start' : BlockStart) (polls polls' : List ℕ),
      (contractStateObservable ⟨chain, polls⟩ address start.config).next <:+
          (contractStateObservable ⟨chain, polls'⟩ address start'.config).next ∨
        (contractStateObservable ⟨chain, polls'⟩ address start'.config).next <:+
          (contractStateObservable ⟨chain, polls⟩ address start.config).next := by
  have hemits : ∀ (start : BlockStart) (polls : List ℕ), EmitsFromBlocks ⟨chain, polls⟩ address
      start (contractStateObservable ⟨chain, polls⟩ address start.config) := by
    intro start polls
    cases start with
    | all => exact emits_all _ address
    | latest => exact emits_latest _ address
    | block offset inclusive => cases offset <;> exact emits_block _ address _ inclusive
  refine ⟨hemits, fun start start' polls polls' => ?_⟩
  obtain ⟨rest, hrest, ho⟩ := (hemits start polls).suffix
  obtain ⟨rest', hrest', ho'⟩ := (hemits start' polls').suffix
  rw [ho, ho']
  exact (List.suffix_or_suffix_of_suffix hrest hrest').imp statesIn_suffix statesIn_suffix

end Emissions

end MidnightJs.Indexer
