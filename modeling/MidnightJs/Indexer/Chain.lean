import MidnightJs.Ledger.Transactions

/-! # The chain as the indexer serves it

Blocks of transactions of contract actions, in the order in which they were applied, and the answers
of the indexer to the queries of `query-definitions.ts`, each with the fields the query selects. -/

namespace MidnightJs.Indexer
open Foundations Foundations.Js
set_option autoImplicit false

inductive ContractActionType
  | contractDeploy
  | contractCall
  | contractUpdate
  deriving DecidableEq

structure ContractAction where
  typename : ContractActionType
  address : JsString
  state : JsString
  deriving DecidableEq

structure Transaction where
  hash : JsString
  raw : JsString
  applyStage : JsString
  identifiers : List TransactionId
  contractActions : List ContractAction
  deriving DecidableEq

structure Block where
  hash : JsString
  height : ℕ
  transactions : List Transaction
  deriving DecidableEq

inductive BlockOffset
  | hash (hash : JsString)
  | height (height : ℕ)

def BlockOffset.matches : BlockOffset → Block → Bool
  | .hash h, b => b.hash = h
  | .height n, b => b.height = n

/-- The actions of a transaction with their identifiers. -/
def Transaction.actions (t : Transaction) : List (TransactionId × ContractAction) :=
  t.identifiers.zip t.contractActions

/-- The actions of a block on a contract. -/
def Block.actionsOn (address : JsString) (b : Block) : List ContractAction :=
  (b.transactions.flatMap Transaction.contractActions).filter (·.address = address)

/-- The blocks known so far, which have heights and hashes of their own. -/
structure Chain where
  blocks : List Block
  heights : (blocks.map Block.height).Nodup
  hashes : (blocks.map Block.hash).Nodup

namespace Chain

/-- The actions on a contract, with the transaction and the block that they are in. -/
structure Entry where
  action : ContractAction
  transaction : Transaction
  block : Block

def entriesOfBlock (address : JsString) (b : Block) : List Entry :=
  b.transactions.flatMap fun t =>
    (t.contractActions.filter (·.address = address)).map fun action => ⟨action, t, b⟩

def entries (address : JsString) (blocks : List Block) : List Entry :=
  blocks.flatMap (entriesOfBlock address)

theorem entriesOfBlock_action (address : JsString) (b : Block) :
    (entriesOfBlock address b).map Entry.action = b.actionsOn address := by
  simp [entriesOfBlock, Block.actionsOn, List.map_flatMap, List.filter_flatMap, Function.comp_def]

theorem entries_action (address : JsString) (blocks : List Block) :
    (entries address blocks).map Entry.action = blocks.flatMap (Block.actionsOn address) := by
  simp [entries, List.map_flatMap, entriesOfBlock_action]

theorem block_of_mem_entriesOfBlock {address : JsString} {b : Block} {e : Entry}
    (h : e ∈ entriesOfBlock address b) : e.block = b := by
  obtain ⟨t, _, h⟩ := List.mem_flatMap.mp h
  obtain ⟨action, _, rfl⟩ := List.mem_map.mp h
  rfl

theorem entriesOfBlock_eq_nil {address : JsString} {b : Block} :
    entriesOfBlock address b = [] ↔ b.actionsOn address = [] := by
  rw [← entriesOfBlock_action, List.map_eq_nil_iff]

theorem entries_append (address : JsString) (bs bs' : List Block) :
    entries address (bs ++ bs') = entries address bs ++ entries address bs' :=
  List.flatMap_append

end Chain

/-! ## Answers to queries -/

/-- `contractAction(address)` is the latest action of the contract. -/
def latestEntry (address : JsString) (blocks : List Block) : Option Chain.Entry :=
  (Chain.entries address blocks).getLast?

/-- `contractAction(address)` with the link `deploy` to the original deployment, which only a call
has. -/
def latestWithDeploy (address : JsString) (blocks : List Block) :
    Option (Chain.Entry × Option Chain.Entry) :=
  (latestEntry address blocks).map fun e => (e,
    if e.action.typename = .contractCall then
      (Chain.entries address blocks).find? (·.action.typename = .contractDeploy)
    else none)

/-- `block(offset)`. -/
def blockAt (offset : BlockOffset) (blocks : List Block) : Option Block :=
  blocks.find? offset.matches

/-- `transactions(offset: { identifier })`, each with its block. -/
def transactionsWith (identifier : TransactionId) (blocks : List Block) :
    List (Transaction × Block) :=
  blocks.flatMap fun b =>
    (b.transactions.filter fun t => t.identifiers.contains identifier).map fun t => (t, b)

/-- The subscription `blocks(offset)`: every block from the offset on, once and in order. -/
def blocksFrom (offset : BlockOffset) (blocks : List Block) : List Block :=
  blocks.dropWhile fun b => !offset.matches b

/-- The subscription `contractActions(address, offset)`. -/
def contractActionsFrom (address : JsString) (offset : Option BlockOffset) (blocks : List Block) :
    List ContractAction :=
  (Chain.entries address (match offset with
    | some offset => blocksFrom offset blocks
    | none => blocks)).map Chain.Entry.action

theorem Chain.not_matches_before {c : Chain} {before : List Block} {b : Block}
    {after : List Block} (hc : c.blocks = before ++ b :: after) {offset : BlockOffset}
    (hb : offset.matches b = true) : ∀ b' ∈ before, offset.matches b' = false := by
  intro b' hb'
  have hne : b'.height ≠ b.height ∧ b'.hash ≠ b.hash := by
    have hheights := c.heights
    have hhashes := c.hashes
    rw [hc, List.map_append, List.map_cons, List.nodup_append] at hheights hhashes
    exact ⟨hheights.2.2 _ (List.mem_map_of_mem hb') _ (List.mem_cons_self ..),
      hhashes.2.2 _ (List.mem_map_of_mem hb') _ (List.mem_cons_self ..)⟩
  cases offset with
  | hash h =>
    simp only [BlockOffset.matches, decide_eq_true_eq, decide_eq_false_iff_not] at hb ⊢
    rw [← hb]
    exact hne.2
  | height n =>
    simp only [BlockOffset.matches, decide_eq_true_eq, decide_eq_false_iff_not] at hb ⊢
    rw [← hb]
    exact hne.1

/-- The block at the offset is the first of the subscription. -/
theorem Chain.blocksFrom_eq {c : Chain} {before : List Block} {b : Block} {after : List Block}
    (hc : c.blocks = before ++ b :: after) {offset : BlockOffset}
    (hb : offset.matches b = true) : blocksFrom offset c.blocks = b :: after := by
  have hbefore := c.not_matches_before hc hb
  rw [hc, blocksFrom, List.dropWhile_append_of_pos fun b' hb' => by simp [hbefore b' hb']]
  simp [hb]

end MidnightJs.Indexer
