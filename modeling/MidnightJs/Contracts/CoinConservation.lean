import MidnightJs.Contracts.ZswapOffer

/-! # Coin conservation

No coin of a local state gets lost on the way to the offer as long as the texts of the outputs are
distinct, no two inputs that find no output have one text, and an input that has an output with its
type, nonce and value has one with its text. In any other state a coin is dropped, or an input that
should have become a transient does not. -/

namespace MidnightJs
open Foundations Foundations.Js
set_option autoImplicit false

/-- The inputs that find an output with their type, nonce and value that none before them took, and
the others. -/
def spendCoins (st : ZswapLocalState) : List QualifiedCoinInfo × List QualifiedCoinInfo :=
  Matching.spend (fun q => q.coin) (st.outputs.map fun o => o.coinInfo.coin) st.inputs

/-- Nothing of the coins of a state is dropped by an offer. -/
structure Conserves [Runtime] (st : ZswapLocalState) (epk : JsString) (offer : UnprovenOffer) :
    Prop where
  outputs : (offer.outputs ++ offer.transients.map UnprovenTransient.output).Perm
    (createdOutputs st epk)
  inputs : (offer.inputs.map UnprovenInput.coin ++ offer.transients.map UnprovenTransient.coin).Perm
    st.inputs
  transients : offer.transients.map UnprovenTransient.coin = (spendCoins st).1
  consumed : ∀ t ∈ offer.transients, t.output.coinInfo.coin = t.coin.coin
  deltas : ∀ type, offer.deltas type =
    total type (st.inputs.map fun q => q.coin) - total type (st.outputs.map fun o => o.coinInfo.coin)

/-- The coins are conserved where a chain state is given, and without one the call throws if and
only if an input is left over. -/
def ConservesCoins [Runtime] (st : ZswapLocalState) (epk : JsString) (tuple : AddressAndChainState) :
    Prop :=
  (∃ offer, zswapStateToOffer st epk (some tuple) = .ok offer ∧ Conserves st epk offer) ∧
  ((∃ e, zswapStateToOffer st epk none = .error e) ↔ (spendCoins st).2 ≠ [])

/-- The texts of the coins of a state serve as their identity. Equal coin infos are those with equal
texts. -/
structure TextsIdentify (st : ZswapLocalState) : Prop where
  outputs : (st.outputs.map ZswapOutput.coinInfo).Nodup
  inputs : ∀ c, (st.inputs.map QualifiedCoinInfo.rest).count c ≤
    (st.outputs.map ZswapOutput.coinInfo).count c + 1
  kinds : Matching.KeysFollowKinds QualifiedCoinInfo.rest ZswapOutput.coinInfo (fun q => q.coin)
    (fun o => o.coinInfo.coin) st.outputs st.inputs

/-! ## The matching of a state -/

section
variable (st : ZswapLocalState) (epk : JsString)

theorem coin_of_coinInfo (q : QualifiedCoinInfo) (o : UnprovenOutput) (h : o.coinInfo = q.rest) :
    o.coinInfo.coin = q.coin := by
  rw [h]
  rfl

theorem createdOutputs_coin : (createdOutputs st epk).map (fun o => o.coinInfo.coin) =
    st.outputs.map fun o => o.coinInfo.coin := by
  simp [createdOutputs, createUnprovenOutput_coinInfo, Function.comp_def]

variable {st}

theorem matchState_of_nodup (h : (st.outputs.map ZswapOutput.coinInfo).Nodup) :
    matchState st epk = matchCoins (createdOutputs st epk) st.inputs := by
  rw [matchState, kept_of_nodup]
  rwa [createdOutputs_coinInfo]

theorem matchState_inputs (st : ZswapLocalState) (epk : JsString) :
    ((matchState st epk).inputs ++ (matchState st epk).pairs.map Prod.fst).Perm st.inputs :=
  List.perm_append_comm.trans (Matching.inputs_perm _ st.inputs)

theorem matchState_outputs (st : ZswapLocalState) (epk : JsString) :
    ((matchState st epk).outputs ++ (matchState st epk).pairs.map Prod.snd).Perm
      (kept UnprovenOutput.coinInfo (createdOutputs st epk)) :=
  List.perm_append_comm.trans (Matching.outputs_perm (nodup_kept ..) st.inputs)

/-- The inputs that are left over have distinct texts. -/
theorem nodup_matchState_inputs_iff (h : (st.outputs.map ZswapOutput.coinInfo).Nodup) :
    ((matchState st epk).inputs.map QualifiedCoinInfo.rest).Nodup ↔
      ∀ c, (st.inputs.map QualifiedCoinInfo.rest).count c ≤
        (st.outputs.map ZswapOutput.coinInfo).count c + 1 := by
  rw [matchState_of_nodup epk h, ← createdOutputs_coinInfo st epk]
  exact Matching.nodup_inputs_iff (by rwa [createdOutputs_coinInfo]) st.inputs

theorem fst_eq_spendCoins_iff (h : (st.outputs.map ZswapOutput.coinInfo).Nodup) :
    (matchState st epk).pairs.map Prod.fst = (spendCoins st).1 ↔
      Matching.KeysFollowKinds QualifiedCoinInfo.rest ZswapOutput.coinInfo (fun q => q.coin)
        (fun o => o.coinInfo.coin) st.outputs st.inputs := by
  rw [matchState_of_nodup epk h, spendCoins, ← createdOutputs_coin st epk,
    Matching.spend_fst_eq_iff (by rwa [createdOutputs_coinInfo]) coin_of_coinInfo, createdOutputs,
    Matching.keysFollowKinds_map]
  simp only [Function.comp_def, createUnprovenOutput_coinInfo]

theorem inputs_eq_spendCoins (h : TextsIdentify st) :
    (matchState st epk).inputs = (spendCoins st).2 := by
  have hkinds : Matching.KeysFollowKinds QualifiedCoinInfo.rest UnprovenOutput.coinInfo
      (fun q => q.coin) (fun o => o.coinInfo.coin) (createdOutputs st epk) st.inputs := by
    rw [createdOutputs, Matching.keysFollowKinds_map]
    simpa only [Function.comp_def, createUnprovenOutput_coinInfo] using h.kinds
  rw [matchState_of_nodup epk h.outputs, spendCoins, ← createdOutputs_coin st epk]
  have hnodup : ((createdOutputs st epk).map UnprovenOutput.coinInfo).Nodup := by
    rw [createdOutputs_coinInfo]
    exact h.outputs
  exact Matching.spend_snd_eq hnodup coin_of_coinInfo hkinds

end

/-! ## Conservation -/

theorem coin_transientOf (pairs : List (QualifiedCoinInfo × UnprovenOutput)) :
    (pairs.map transientOf).map UnprovenTransient.coin = pairs.map Prod.fst := by
  simp [transientOf, UnprovenTransient.coin, Function.comp_def]

theorem output_transientOf (pairs : List (QualifiedCoinInfo × UnprovenOutput)) :
    (pairs.map transientOf).map UnprovenTransient.output = pairs.map Prod.snd := by
  simp [transientOf, UnprovenTransient.output, Function.comp_def]

section
variable [Runtime] {st : ZswapLocalState} {epk : JsString} {tuple : AddressAndChainState}

theorem coin_inputOf (tuple : AddressAndChainState) (qs : List QualifiedCoinInfo) :
    (inputsOf (some tuple) qs).map UnprovenInput.coin = qs := by
  simp [inputsOf, inputOf, UnprovenInput.coin, Function.comp_def]

/-- The offer of a state, where a chain state is given. -/
theorem zswapStateToOffer_some (st : ZswapLocalState) (epk : JsString)
    (hvalid : assertIsContractAddress tuple.contractAddress = .ok ()) :
    ∃ offer, zswapStateToOffer st epk (some tuple) = .ok offer ∧
      offer.inputs = kept UnprovenInput.coinInfo (inputsOf (some tuple) (matchState st epk).inputs) ∧
      offer.outputs = (matchState st epk).outputs ∧
      offer.transients = (matchState st epk).pairs.map transientOf ∧
      ∀ type, offer.deltas type = total type (offer.inputs.map fun i => i.coin.coin) -
        total type (offer.outputs.map fun o => o.coinInfo.coin) :=
  ⟨_, zswapStateToOffer_eq (fun _ ht => Option.mem_some.mp ht ▸ hvalid)
    (fun h => absurd h (Option.some_ne_none tuple)), rfl, rfl, rfl, fun _ => rfl⟩

theorem textsIdentify_of_conserves {offer : UnprovenOffer} (h : Conserves st epk offer)
    (hinputs : offer.inputs =
      kept UnprovenInput.coinInfo (inputsOf (some tuple) (matchState st epk).inputs))
    (houtputs : offer.outputs = (matchState st epk).outputs)
    (htransients : offer.transients = (matchState st epk).pairs.map transientOf) :
    TextsIdentify st := by
  have hnodup : (st.outputs.map ZswapOutput.coinInfo).Nodup := by
    have hperm := h.outputs
    rw [houtputs, htransients, output_transientOf] at hperm
    have hall := (hperm.symm.trans (matchState_outputs st epk)).map UnprovenOutput.coinInfo
    rw [createdOutputs_coinInfo] at hall
    exact hall.nodup_iff.mpr (nodup_kept ..)
  refine ⟨hnodup, ?_, ?_⟩
  · rw [← nodup_matchState_inputs_iff epk hnodup]
    -- The inputs of the offer are the ones left over, and they come out of a map.
    have hperm := h.inputs
    rw [htransients, coin_transientOf] at hperm
    have hleft := (List.perm_append_right_iff _).mp (hperm.trans (matchState_inputs st epk).symm)
    refine (hleft.map QualifiedCoinInfo.rest).nodup_iff.mp ?_
    rw [hinputs, List.map_map]
    exact nodup_kept UnprovenInput.coinInfo _
  · rw [← fst_eq_spendCoins_iff epk hnodup, ← coin_transientOf, ← htransients]
    exact h.transients

theorem conserves_of_textsIdentify {offer : UnprovenOffer} (h : TextsIdentify st)
    (hinputs : offer.inputs =
      kept UnprovenInput.coinInfo (inputsOf (some tuple) (matchState st epk).inputs))
    (houtputs : offer.outputs = (matchState st epk).outputs)
    (htransients : offer.transients = (matchState st epk).pairs.map transientOf)
    (hdeltas : ∀ type, offer.deltas type = total type (offer.inputs.map fun i => i.coin.coin) -
      total type (offer.outputs.map fun o => o.coinInfo.coin)) : Conserves st epk offer := by
  have hcreated : ((createdOutputs st epk).map UnprovenOutput.coinInfo).Nodup := by
    rw [createdOutputs_coinInfo]
    exact h.outputs
  have hcoins : offer.inputs.map UnprovenInput.coin = (matchState st epk).inputs := by
    have hleft := (nodup_matchState_inputs_iff epk h.outputs).mpr h.inputs
    rw [hinputs, kept_of_nodup, coin_inputOf]
    rwa [← coin_inputOf tuple (matchState st epk).inputs, List.map_map] at hleft
  have houts : (offer.outputs ++ offer.transients.map UnprovenTransient.output).Perm
      (createdOutputs st epk) := by
    have hall := matchState_outputs st epk
    rwa [kept_of_nodup hcreated, ← houtputs, ← output_transientOf, ← htransients] at hall
  have hins : (offer.inputs.map UnprovenInput.coin ++
      offer.transients.map UnprovenTransient.coin).Perm st.inputs := by
    rw [hcoins, htransients, coin_transientOf]
    exact matchState_inputs st epk
  have hconsumed : ∀ t ∈ offer.transients, t.output.coinInfo.coin = t.coin.coin := by
    intro t ht
    rw [htransients] at ht
    obtain ⟨p, hp, rfl⟩ := List.mem_map.mp ht
    exact coin_of_coinInfo p.1 p.2 (Matching.key_of_mem_pairs hp)
  refine ⟨houts, hins, ?_, hconsumed, fun type => ?_⟩
  · rw [htransients, coin_transientOf]
    exact (fst_eq_spendCoins_iff epk h.outputs).mpr h.kinds
  · -- A transient takes away from both sums the value of one coin.
    have hsame : offer.transients.map (fun t => t.output.coinInfo.coin) =
        offer.transients.map fun t => t.coin.coin := List.map_congr_left hconsumed
    have hi := total_perm type (hins.map fun q => q.coin)
    have ho := total_perm type (houts.map fun o => o.coinInfo.coin)
    rw [createdOutputs_coin] at ho
    simp only [List.map_append, total_append, List.map_map, Function.comp_def] at hi ho
    rw [hdeltas, ← hi, ← ho, hsame]
    omega

theorem textsIdentify_of_conservesCoins
    (hvalid : assertIsContractAddress tuple.contractAddress = .ok ())
    (h : ConservesCoins st epk tuple) : TextsIdentify st := by
  obtain ⟨⟨offer', hoffer', h⟩, _⟩ := h
  obtain ⟨offer, hoffer, hinputs, houtputs, htransients, _⟩ := zswapStateToOffer_some st epk hvalid
  obtain rfl : offer = offer' := Except.ok.inj (hoffer.symm.trans hoffer')
  exact textsIdentify_of_conserves h hinputs houtputs htransients

/-- The coins of a state are conserved if and only if their texts serve as their identity. -/
theorem conservesCoins_iff (st : ZswapLocalState) (epk : JsString) (tuple : AddressAndChainState)
    (hvalid : assertIsContractAddress tuple.contractAddress = .ok ()) :
    ConservesCoins st epk tuple ↔ TextsIdentify st := by
  refine ⟨textsIdentify_of_conservesCoins hvalid, fun h => ?_⟩
  obtain ⟨offer, hoffer, hinputs, houtputs, htransients, hdeltas⟩ :=
    zswapStateToOffer_some st epk hvalid
  refine ⟨⟨offer, hoffer, conserves_of_textsIdentify h hinputs houtputs htransients hdeltas⟩, ?_⟩
  rw [zswapStateToOffer_throws, inputs_eq_spendCoins epk h]

end

namespace Sample

def coinInfo (n : ℕ) : CoinInfo := ⟨⟨js "token", naturalText n, 5, coinKeys⟩, List.Perm.refl _⟩

def qualified (n : ℕ) : QualifiedCoinInfo :=
  ⟨⟨js "token", naturalText n, 5, coinKeys ++ [js "mt_index"]⟩, n, List.perm_append_singleton ..⟩

def user (n : ℕ) : Recipient := ⟨true, naturalText n, []⟩

def chainState : AddressAndChainState := ⟨List.replicate 68 0x30, ()⟩

/-- One coin comes and goes, another one goes, a third one comes. -/
def threeCoins : ZswapLocalState :=
  ⟨[], 0, [qualified 1, qualified 2], [⟨coinInfo 3, user 0⟩, ⟨coinInfo 1, user 0⟩]⟩

/-- Two recipients get a coin with one coin info. -/
def twoRecipients : ZswapLocalState :=
  ⟨[], 0, [], [⟨coinInfo 1, user 1⟩, ⟨coinInfo 1, user 2⟩]⟩

theorem conservesCoins_threeCoins : ConservesCoins threeCoins [] chainState :=
  (conservesCoins_iff threeCoins [] chainState (by decide)).mpr
    ⟨by decide, fun c => (List.nodup_iff_count_le_one.mp (by decide) c).trans (by omega),
      ⟨by decide, by decide, trivial⟩⟩

theorem equal_outputs_become_one : ¬ ConservesCoins twoRecipients [] chainState := by
  intro h
  have hnodup := (textsIdentify_of_conservesCoins (by decide) h).outputs
  exact absurd hnodup (by decide)

end Sample

end MidnightJs
