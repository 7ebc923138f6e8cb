import MidnightJs.Indexer.StatesFromBlocks

/-! # The first state that is emitted

An observable that starts at a block emits the states of the actions in the block and after it. The
first of them is the state after the block only if the block does not hold several actions on the
contract, and holds one. -/

namespace MidnightJs.Indexer
open Foundations Foundations.Js Foundations.Rx
set_option autoImplicit false

instance (address : JsString) (b : Block) : Decidable (b.ActsOn address) :=
  inferInstanceAs (Decidable (b.actionsOn address ≠ []))

section
variable [Runtime] [Codec] {address : JsString}

theorem statesIn_append (address : JsString) (bs bs' : List Block) :
    statesIn address (bs ++ bs') = statesIn address bs ++ statesIn address bs' := by
  unfold statesIn
  rw [List.flatMap_append, List.map_append]

theorem statesIn_singleton (address : JsString) (b : Block) : statesIn address [b] =
    (b.actionsOn address).map fun action => deserializeContractState action.state := by
  unfold statesIn
  rw [List.flatMap_singleton]

theorem statesIn_eq_nil {b : Block} : statesIn address [b] = [] ↔ ¬ b.ActsOn address := by
  rw [statesIn_singleton, List.map_eq_nil_iff, Block.ActsOn, not_not]

theorem statesIn_eq_nil_of_forall {bs : List Block} (h : ∀ b ∈ bs, ¬ b.ActsOn address) :
    statesIn address bs = [] := by
  unfold statesIn
  rw [List.map_eq_nil_iff, List.flatMap_eq_nil_iff]
  intro b hb
  exact not_not.mp (h b hb)

/-- The state of the contract after some blocks. -/
def stateAfter (address : JsString) (blocks : List Block) : Option ContractState :=
  (statesIn address blocks).getLast?

/-- The first action on the contract in the block leaves the state that the last one leaves. -/
def Block.StartsAsItEnds (address : JsString) (b : Block) : Prop :=
  (statesIn address [b]).head? = (statesIn address [b]).getLast?

theorem Block.startsAsItEnds_of_one {b : Block} {action : ContractAction}
    (h : b.actionsOn address = [action]) : b.StartsAsItEnds address := by
  unfold Block.StartsAsItEnds
  rw [statesIn_singleton, h]
  rfl

/-- From the block on, the first action on the contract leaves the state after the block. -/
def StartsWithStateAfter (address : JsString) (before : List Block) (b : Block)
    (after : List Block) : Prop :=
  (b.ActsOn address ∧ b.StartsAsItEnds address) ∨
    (¬ b.ActsOn address ∧ (statesIn address after).head? = stateAfter address before)

/-! ## First and last states -/

theorem head?_statesIn {b : Block} (after : List Block) (hb : b.ActsOn address) :
    (statesIn address (b :: after)).head? = (statesIn address [b]).head? := by
  rw [← List.singleton_append, statesIn_append]
  exact List.head?_append_of_ne_nil _ fun h => statesIn_eq_nil.mp h hb

theorem stateAfter_concat {b : Block} (before : List Block) (hb : b.ActsOn address) :
    stateAfter address (before ++ [b]) = (statesIn address [b]).getLast? := by
  unfold stateAfter
  rw [statesIn_append]
  exact List.getLast?_append_of_ne_nil _ fun h => statesIn_eq_nil.mp h hb

theorem head?_eq_stateAfter_iff (before : List Block) (b : Block) (after : List Block) :
    (statesIn address (b :: after)).head? = stateAfter address (before ++ [b]) ↔
      StartsWithStateAfter address before b after := by
  unfold StartsWithStateAfter
  by_cases hb : b.ActsOn address
  · rw [head?_statesIn after hb, stateAfter_concat before hb]
    simp [hb, Block.StartsAsItEnds]
  · have hnil : statesIn address [b] = [] := statesIn_eq_nil.mpr hb
    have hafter : statesIn address (b :: after) = statesIn address after := by
      rw [← List.singleton_append, statesIn_append, hnil, List.nil_append]
    have hbefore : stateAfter address (before ++ [b]) = stateAfter address before := by
      rw [stateAfter, statesIn_append, hnil, List.append_nil]
      rfl
    rw [hafter, hbefore]
    simp [hb]

/-! ## The start of an observable -/

/-- The block of a configuration once a poll has found it, and the first emitted value. -/
def StartsAtBlock (client : ApolloClient) (address : JsString) (offset : BlockOffset)
    (inclusive : Option Bool) (o : Observable ContractState) : Prop :=
  ∃ before b after, client.chain.blocks = before ++ b :: after ∧ offset.matches b = true ∧
    if inclusive.getD true then
      o.next.head? = stateAfter address (before ++ [b]) ↔ StartsWithStateAfter address before b after
    else o.next.head? = (statesIn address after).head?

/-- The blocks at the first poll that finds the contract, of which `b` is the last that acts on it, and
the first emitted value. -/
def StartsAtLatest (client : ApolloClient) (address : JsString)
    (o : Observable ContractState) : Prop :=
  ∃ polled n later before b between, client.polls = polled ++ n :: later ∧
    (∀ m ∈ polled, ∀ b ∈ client.chain.blocks.take m, ¬ b.ActsOn address) ∧
    client.chain.blocks.take n = before ++ b :: between ∧ b.ActsOn address ∧
    (∀ b' ∈ between, ¬ b'.ActsOn address) ∧
    (o.next.head? = stateAfter address (client.chain.blocks.take n) ↔ b.StartsAsItEnds address)

/-- An inclusive start emits the state after its block first exactly if `StartsWithStateAfter`, and the
latest start the most recent state exactly if the block of the last action starts as it ends. An
exclusive start always emits the state after the first later update first. -/
theorem first_state_of_block (client : ApolloClient) (address : JsString) :
    (∀ (offset : BlockOffset) (inclusive : Option Bool),
      (BlockStart.block offset inclusive).Found client address →
        StartsAtBlock client address offset inclusive (contractStateObservable client address
          (BlockStart.block offset inclusive).config)) ∧
      (BlockStart.latest.Found client address → StartsAtLatest client address
        (contractStateObservable client address .latest)) := by
  constructor
  · intro offset inclusive hfound
    have hemits : EmitsFromBlocks client address (.block offset inclusive)
        (contractStateObservable client address (BlockStart.block offset inclusive).config) := by
      cases offset <;> exact emits_block client address _ inclusive
    obtain ⟨rest, ⟨before, b, after, hblocks, hmatches, hrest⟩, hnext⟩ := hemits.emits hfound
    refine ⟨before, b, after, hblocks, hmatches, ?_⟩
    rw [hnext, hrest]
    split
    · exact head?_eq_stateAfter_iff before b after
    · rfl
  · intro hfound
    obtain ⟨rest, hlatest, hnext⟩ := (emits_latest client address).emits hfound
    obtain ⟨polled, n, later, before, b, between, hpolls, hpolled, htake, hacts, hbetween,
      hblocks⟩ := hlatest
    refine ⟨polled, n, later, before, b, between, hpolls, hpolled, htake, hacts, hbetween, ?_⟩
    obtain ⟨after, hrest⟩ : ∃ after, rest = b :: after := by
      refine ⟨between ++ client.chain.blocks.drop n, ?_⟩
      have hchain : client.chain.blocks =
          before ++ (b :: (between ++ client.chain.blocks.drop n)) := by
        rw [← List.cons_append, ← List.append_assoc, ← htake, List.take_append_drop]
      exact List.append_cancel_left (hblocks.symm.trans hchain)
    have hlast : stateAfter address (client.chain.blocks.take n) =
        (statesIn address [b]).getLast? := by
      rw [htake, ← stateAfter_concat before hacts, ← List.singleton_append, ← List.append_assoc,
        stateAfter, statesIn_append, statesIn_eq_nil_of_forall hbetween, List.append_nil]
      rfl
    rw [hnext, hrest, hlast, head?_statesIn after hacts, Block.StartsAsItEnds]

end

namespace Sample
open MidnightJs.Sample

/-- A deployment and a call in the first block, and a call in the second. -/
def blocks : List Block := [
  ⟨js "b0", 0, [⟨js "t0", [], js "SucceedEntirely", [js "i0", js "i1"],
    [⟨.contractDeploy, js "c", js "00"⟩, ⟨.contractCall, js "c", js "01"⟩]⟩]⟩,
  ⟨js "b1", 1, [⟨js "t1", [], js "SucceedEntirely", [js "i2"],
    [⟨.contractCall, js "c", js "02"⟩]⟩]⟩]

def client : ApolloClient := ⟨⟨blocks, by decide, by decide⟩, [0, 2]⟩

theorem first_state_of_block_one :
    StartsAtBlock client (js "c") (.height 1) none
        (contractStateObservable client (js "c") (.blockHeight 1 none)) ∧
      StartsAtLatest client (js "c") (contractStateObservable client (js "c") .latest) :=
  ⟨(first_state_of_block client (js "c")).1 (.height 1) none
      ⟨2, by decide, blocks[1], by decide, by decide⟩,
    (first_state_of_block client (js "c")).2 ⟨2, by decide, blocks[1], by decide, by decide⟩⟩

/-- The first value is the state in the middle of the block. -/
theorem starts_in_the_middle :
    (contractStateObservable client (js "c") (.blockHeight 0 none)).next.head? =
        some (deserializeContractState (js "00")) ∧
      stateAfter (js "c") [blocks[0]] = some (deserializeContractState (js "01")) ∧
      deserializeContractState (js "00") ≠ deserializeContractState (js "01") := by
  refine ⟨rfl, rfl, ?_⟩
  intro h
  have hoperations := congrArg ContractState.operations h
  revert hoperations
  decide

end Sample

end MidnightJs.Indexer
