import MidnightJs.Indexer.StatesFromBlocks
import Mathlib.Data.List.TakeWhile

/-! # Contract states from a transaction identifier on

The observable that starts at an identifier skips, in every transaction, the actions before the one
with the identifier. In the transaction of the identifier that leaves the action and those after
it, of whatever contract; in every other transaction, which does not carry the identifier, it leaves
nothing. So the stream is complete, and free of states of other contracts, only if the rest of the
transaction acts on the contract alone and no later transaction acts on it at all. -/

namespace MidnightJs.Indexer
open Foundations Foundations.Js Foundations.Rx
set_option autoImplicit false

/-- A chain on which an identifier belongs to one action, and every action has one. -/
structure IdentifiedChain extends Chain where
  identifiers : ((blocks.flatMap Block.transactions).flatMap Transaction.identifiers).Nodup
  aligned : ∀ t ∈ blocks.flatMap Block.transactions,
    t.identifiers.length = t.contractActions.length

/-- Where the action of a contract with an identifier is. -/
structure Place (c : IdentifiedChain) (address : JsString) (txId : TransactionId) where
  before : List Block
  block : Block
  after : List Block
  blocks_eq : c.blocks = before ++ block :: after
  txsBefore : List Transaction
  tx : Transaction
  txsAfter : List Transaction
  transactions_eq : block.transactions = txsBefore ++ tx :: txsAfter
  actionsBefore : List (TransactionId × ContractAction)
  action : ContractAction
  actionsAfter : List (TransactionId × ContractAction)
  actions_eq : tx.actions = actionsBefore ++ (txId, action) :: actionsAfter
  acts : action.address = address

namespace Place

variable {c : IdentifiedChain} {address : JsString} {txId : TransactionId}
  (place : Place c address txId)

/-- The later actions of the same transaction. -/
def inTransaction : List ContractAction := place.actionsAfter.map Prod.snd

def laterTransactions : List Transaction :=
  place.txsAfter ++ place.after.flatMap Block.transactions

/-- The action and all later ones, of whatever contract. -/
def laterActions : List ContractAction :=
  place.action :: (place.inTransaction ++
    place.laterTransactions.flatMap Transaction.contractActions)

/-- The action and all later ones on the contract. -/
def updates : List ContractAction := place.laterActions.filter (·.address = address)

/-- The rest of the transaction acts on the contract alone, and no later transaction acts on it. -/
def IsLast : Prop :=
  (∀ action ∈ place.inTransaction, action.address = address) ∧
    ∀ t ∈ place.laterTransactions, ∀ action ∈ t.contractActions, action.address ≠ address

theorem updates_eq : place.updates = place.action :: (place.inTransaction ++
    place.laterTransactions.flatMap Transaction.contractActions).filter (·.address = address) := by
  simp [updates, laterActions, place.acts]

theorem inTransaction_eq_iff :
    place.inTransaction = (place.inTransaction ++
      place.laterTransactions.flatMap Transaction.contractActions).filter (·.address = address) ↔
        place.IsLast := by
  rw [List.filter_append]
  constructor
  · intro h
    have hrest : ∀ action ∈ place.inTransaction, action.address = address := by
      intro action haction
      rw [h] at haction
      rcases List.mem_append.mp haction with haction | haction <;>
        exact of_decide_eq_true (List.mem_filter.mp haction).2
    refine ⟨hrest, fun t ht action haction haddress => ?_⟩
    rw [List.filter_eq_self.mpr fun action haction => by simpa using hrest action haction] at h
    have hmem : action ∈ (place.laterTransactions.flatMap Transaction.contractActions).filter
        (·.address = address) :=
      List.mem_filter.mpr ⟨List.mem_flatMap.mpr ⟨t, ht, haction⟩, decide_eq_true haddress⟩
    rw [List.self_eq_append_right.mp h] at hmem
    cases hmem
  · rintro ⟨hrest, hlater⟩
    rw [List.filter_eq_self.mpr fun action haction => by simpa using hrest action haction]
    have hnone : (place.laterTransactions.flatMap Transaction.contractActions).filter
        (·.address = address) = [] := by
      refine List.filter_eq_nil_iff.mpr fun action haction => ?_
      obtain ⟨t, ht, haction⟩ := List.mem_flatMap.mp haction
      simpa using hlater t ht action haction
    rw [hnone, List.append_nil]

/-! ## The identifier occurs once -/

theorem transactions_of_blocks : c.blocks.flatMap Block.transactions =
    (place.before.flatMap Block.transactions ++ place.txsBefore) ++
      place.tx :: place.laterTransactions := by
  simp [place.blocks_eq, place.transactions_eq, laterTransactions]

theorem identifiers_eq : place.tx.identifiers =
    place.actionsBefore.map Prod.fst ++ txId :: place.actionsAfter.map Prod.fst := by
  have htx : place.tx ∈ c.blocks.flatMap Block.transactions := by
    simp [place.transactions_of_blocks]
  have hfst : place.tx.actions.map Prod.fst = place.tx.identifiers :=
    List.map_fst_zip (c.aligned _ htx).le
  rw [← hfst, place.actions_eq]
  simp

theorem not_mem_identifiers {t : Transaction}
    (ht : t ∈ place.before.flatMap Block.transactions ++ place.txsBefore ∨
      t ∈ place.laterTransactions) : txId ∉ t.identifiers := by
  intro hmem
  have hnodup := c.identifiers
  have htx : txId ∈ place.tx.identifiers := by simp [place.identifiers_eq]
  rw [place.transactions_of_blocks, List.flatMap_append, List.flatMap_cons] at hnodup
  obtain ⟨_, hright, hdisjoint⟩ := List.nodup_append.mp hnodup
  obtain ht | ht := ht
  · exact hdisjoint _ (List.mem_flatMap.mpr ⟨t, ht, hmem⟩) _ (List.mem_append_left _ htx) rfl
  · obtain ⟨_, _, hdisjoint⟩ := List.nodup_append.mp hright
    exact hdisjoint _ htx _ (List.mem_flatMap.mpr ⟨t, ht, hmem⟩) rfl

theorem not_mem_actionsBefore {pair : TransactionId × ContractAction}
    (h : pair ∈ place.actionsBefore) : pair.1 ≠ txId := by
  have hnodup : place.tx.identifiers.Nodup := by
    have hids := c.identifiers
    rw [place.transactions_of_blocks, List.flatMap_append, List.flatMap_cons] at hids
    exact (List.nodup_append.mp (List.nodup_append.mp hids).2.1).1
  rw [place.identifiers_eq] at hnodup
  exact (List.nodup_append.mp hnodup).2.2 _ (List.mem_map_of_mem h) _ (List.mem_cons_self ..)

end Place

/-! ## Emissions -/

section Emissions

variable {c : IdentifiedChain} {address : JsString} {txId : TransactionId}
  (place : Place c address txId)

/-- A poll finds the transaction once its block is there. -/
theorem transactionsWith_take (n : ℕ) :
    (transactionsWith txId (c.blocks.take n)).head?.map (fun (_, block) =>
      BlockOffset.height block.height) =
        if place.before.length < n then some (.height place.block.height) else none := by
  have hnone : ∀ blocks : List Block, blocks.Sublist place.before →
      transactionsWith txId blocks = [] := by
    intro blocks hblocks
    refine List.flatMap_eq_nil_iff.mpr fun b hb => ?_
    rw [List.map_eq_nil_iff]
    refine List.filter_eq_nil_iff.mpr fun t ht => ?_
    have hnot := place.not_mem_identifiers (t := t) (.inl (List.mem_append_left _
      (List.mem_flatMap.mpr ⟨b, hblocks.subset hb, ht⟩)))
    simpa using hnot
  split
  · next hn =>
    obtain ⟨m, rfl⟩ := Nat.exists_eq_add_of_lt hn
    have htake : c.blocks.take (place.before.length + m + 1) =
        place.before ++ place.block :: place.after.take m := by
      rw [place.blocks_eq, Nat.add_assoc, List.take_append, List.take_of_length_le (by omega),
        Nat.add_sub_cancel_left, List.take_succ_cons]
    have hbefore : place.txsBefore.filter (fun t => txId ∈ t.identifiers) = [] := by
      refine List.filter_eq_nil_iff.mpr fun t ht => ?_
      simpa using place.not_mem_identifiers (.inl (List.mem_append_right _ ht))
    have htx : txId ∈ place.tx.identifiers := by simp [place.identifiers_eq]
    rw [htake, transactionsWith, List.flatMap_append]
    rw [show List.flatMap _ place.before = [] from hnone place.before (.refl _)]
    simp [place.transactions_eq, hbefore, htx]
  · next hn =>
    have htake : c.blocks.take n = place.before.take n := by
      rw [place.blocks_eq, List.take_append, Nat.sub_eq_zero_of_le (by omega), List.take_zero,
        List.append_nil]
    rw [htake, hnone _ (List.take_sublist n _)]
    rfl

variable {polls : List ℕ}

/-- From the block of the identifier on, the transactions of the chain. -/
theorem transactionIdToTransaction_next (hfound : ∃ n ∈ polls, place.before.length < n) :
    (transactionIdToTransaction ⟨c.toChain, polls⟩ txId).next =
      place.txsBefore ++ place.tx :: place.laterTransactions := by
  have hfirst : polls.findSome? (fun n => (transactionsWith txId (c.blocks.take n)).head?.map
      fun (_, block) => BlockOffset.height block.height) = some (.height place.block.height) := by
    obtain ⟨n, hn, hlt⟩ := hfound
    cases hsome : polls.findSome? (fun n => (transactionsWith txId (c.blocks.take n)).head?.map
        fun (_, block) => BlockOffset.height block.height) with
    | none =>
      have := List.findSome?_eq_none_iff.mp hsome n hn
      rw [transactionsWith_take place, if_pos hlt] at this
      cases this
    | some x =>
      obtain ⟨m, _, hm⟩ := List.exists_of_findSome?_eq_some hsome
      rw [transactionsWith_take place] at hm
      split at hm
      · exact hm.symm
      · cases hm
  have hblocks : (blockOffsetToBlock ⟨c.toChain, polls⟩ (.height place.block.height)).next =
      place.block :: place.after :=
    c.toChain.blocksFrom_eq place.blocks_eq (by simp [BlockOffset.matches])
  rw [transactionIdToTransaction]
  dsimp only
  rw [Observable.concatMap_of_live ((head?_watchQuery _ _ _).trans hfirst) rfl,
    Observable.concatMap_of_completed (by simp)]
  simp [hblocks, place.transactions_eq, Place.laterTransactions]

variable [Runtime] [Codec]

theorem transactionToContractState_next (txId : TransactionId) (t : Transaction) :
    (transactionToContractState txId t).next =
      (t.actions.dropWhile fun pair => pair.1 ≠ txId).map fun pair =>
        deserializeContractState pair.2.state := rfl

theorem transactionToContractState_of_not_mem {t : Transaction} (h : txId ∉ t.identifiers) :
    (transactionToContractState txId t).next = [] := by
  rw [transactionToContractState_next, List.map_eq_nil_iff]
  refine List.dropWhile_eq_nil_iff.mpr fun pair hpair => ?_
  have hmem : pair.1 ∈ t.identifiers := (List.of_mem_zip hpair).1
  simpa using fun heq : pair.1 = txId => h (heq ▸ hmem)

theorem transactionToContractState_place :
    (transactionToContractState txId place.tx).next =
      (place.action :: place.inTransaction).map fun action =>
        deserializeContractState action.state := by
  rw [transactionToContractState_next, place.actions_eq,
    List.dropWhile_append_of_pos fun pair hpair => by simpa using place.not_mem_actionsBefore hpair]
  simp [Place.inTransaction]

/-- The first action is left out if the start is exclusive. -/
def fromStart (inclusive : Option Bool) (actions : List ContractAction) : List ContractAction :=
  if inclusive.getD true then actions else actions.drop 1

/-- The emitted states are those of the rest of the transaction, and these are the updates of the
contract if and only if it is the last transaction that acts on the contract and acts on it alone
from there on. -/
theorem states_from_transaction (inclusive : Option Bool)
    (hfound : ∃ n ∈ polls, place.before.length < n) :
    (contractStateObservable ⟨c.toChain, polls⟩ address (.txId txId inclusive)).next =
        (fromStart inclusive (place.action :: place.inTransaction)).map
          (fun action => deserializeContractState action.state) ∧
      (fromStart inclusive (place.action :: place.inTransaction) =
        fromStart inclusive place.updates ↔ place.IsLast) := by
  constructor
  · have hstates : ((transactionIdToTransaction ⟨c.toChain, polls⟩ txId).concatMap
        (transactionToContractState txId)).next =
          (place.action :: place.inTransaction).map fun action =>
            deserializeContractState action.state := by
      have hskip : ∀ ts : List Transaction, (∀ t ∈ ts, txId ∉ t.identifiers) →
          (ts.flatMap fun t => (transactionToContractState txId t).next) = [] := fun ts hts =>
        List.flatMap_eq_nil_iff.mpr fun t ht => transactionToContractState_of_not_mem (hts t ht)
      rw [Observable.concatMap_of_completed (by simp [transactionToContractState]),
        transactionIdToTransaction_next place hfound, List.flatMap_append, List.flatMap_cons,
        hskip _ fun t ht => place.not_mem_identifiers (.inl (List.mem_append_right _ ht)),
        hskip _ fun t ht => place.not_mem_identifiers (.inr ht),
        transactionToContractState_place place]
      simp
    rw [contractStateObservable, fromStart]
    split
    · exact hstates
    · rw [Observable.skip_next, hstates, List.map_drop]
  · rw [place.updates_eq, ← place.inTransaction_eq_iff]
    simp only [fromStart]
    split
    · exact List.cons_inj_right _
    · rfl

end Emissions

namespace Sample
open MidnightJs.Sample

/-- A contract with three actions: its deployment and a call in one transaction, and a call in the
next block. -/
def chain : IdentifiedChain where
  blocks := [
    ⟨js "b0", 0, [⟨js "t0", [], js "SucceedEntirely", [js "i0", js "i1"],
      [⟨.contractDeploy, js "c", js "00"⟩, ⟨.contractCall, js "c", js "01"⟩]⟩]⟩,
    ⟨js "b1", 1, [⟨js "t1", [], js "SucceedEntirely", [js "i2"],
      [⟨.contractCall, js "c", js "02"⟩]⟩]⟩]
  heights := by decide
  hashes := by decide
  identifiers := by decide
  aligned := by decide

def firstPlace : Place chain (js "c") (js "i0") where
  before := []
  block := chain.blocks[0]
  after := [chain.blocks[1]]
  blocks_eq := rfl
  txsBefore := []
  tx := chain.blocks[0].transactions[0]
  txsAfter := []
  transactions_eq := rfl
  actionsBefore := []
  action := ⟨.contractDeploy, js "c", js "00"⟩
  actionsAfter := [(js "i1", ⟨.contractCall, js "c", js "01"⟩)]
  actions_eq := rfl
  acts := rfl

theorem states_from_transaction_first :
    (contractStateObservable ⟨chain.toChain, [0, 2]⟩ (js "c") (.txId (js "i0") none)).next =
        (fromStart none (firstPlace.action :: firstPlace.inTransaction)).map
          (fun action => deserializeContractState action.state) ∧
      (fromStart none (firstPlace.action :: firstPlace.inTransaction) =
        fromStart none firstPlace.updates ↔ firstPlace.IsLast) :=
  states_from_transaction firstPlace none ⟨2, by decide, by decide⟩

/-- The call in the next block is not emitted. -/
theorem later_update_is_lost :
    (contractStateObservable ⟨chain.toChain, [0, 2]⟩ (js "c") (.txId (js "i0") none)).next ≠
      (fromStart none firstPlace.updates).map
        (fun action => deserializeContractState action.state) := by
  intro h
  have hlength := congrArg List.length h
  revert hlength
  decide

end Sample

end MidnightJs.Indexer
