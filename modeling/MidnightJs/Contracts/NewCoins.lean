import MidnightJs.Contracts.ZswapOffer
import MidnightJs.Foundations.LastWins

/-! # The new coins of a wallet

`zswapStateToNewCoins` and `zswapStateToOffer` look at the same outputs, one by the `left` side of
the recipient alone, the other by the recipient, the coin texts and the inputs. They agree on a
wallet's coins exactly if the outputs that carry its key are its own, are not spent again, and are
not replaced by an output with the same coin info. -/

namespace MidnightJs
open Foundations Foundations.Js
set_option autoImplicit false

def UnprovenOutput.ownedBy (coinPublicKey : JsString) (o : UnprovenOutput) : Bool :=
  match o with
  | .new _ _ targetCpk _ => targetCpk = coinPublicKey
  | .newContractOwned _ _ _ => false

/-- What an offer leaves to the owner of a key. -/
def coinsOf [Runtime] (coinPublicKey : JsString) (offer : UnprovenOffer) : List CoinInfo :=
  (offer.outputs.filter (UnprovenOutput.ownedBy coinPublicKey)).map UnprovenOutput.coinInfo

/-- The outputs that carry a key are outputs to its owner that the offer keeps. -/
structure KeyMeansOwner (coinPublicKey : JsString) (st : ZswapLocalState) : Prop where
  user : ∀ o ∈ st.outputs, o.recipient.left = coinPublicKey → o.recipient.isLeft = true
  unspent : ∀ o ∈ st.outputs, o.recipient.left = coinPublicKey →
    o.coinInfo ∉ st.inputs.map QualifiedCoinInfo.rest
  last : st.outputs.Pairwise fun o o' => o.recipient.left = coinPublicKey → o.coinInfo ≠ o'.coinInfo

/-! ## The outputs of an offer -/

theorem ownedBy_createUnprovenOutput (coinPublicKey epk : JsString) (segmentNumber : ℕ)
    (o : ZswapOutput) : (createUnprovenOutput o epk segmentNumber).ownedBy coinPublicKey =
      (decide (o.recipient.left = coinPublicKey) && o.recipient.isLeft) := by
  unfold createUnprovenOutput
  split
  · rename_i h
    simp [UnprovenOutput.ownedBy, h]
  · rename_i h
    simp [UnprovenOutput.ownedBy, h]

theorem kept_perm {U : Type} (coin : U → CoinInfo) (us : List U) :
    (kept coin us).Perm (lasts coin us) := by
  have hfiled : lasts Prod.fst (filed coin us) = filed coin (lasts coin us) := by
    rw [filed, lasts_map, lasts_comp coinText_injective, filed]
  have hperm := (ofEntries_perm (filed coin us)).map Prod.snd
  rw [hfiled] at hperm
  simpa [kept, filed, Function.comp_def] using hperm

section
variable [Runtime] {tuple : Option AddressAndChainState}

theorem offerInput_outputs {outs : List UnprovenOutput} {maps maps' : OfferMaps}
    {q : QualifiedCoinInfo} (houts : maps.unprovenOutputs = filed UnprovenOutput.coinInfo outs)
    (h : offerInput tuple maps q = .ok maps') : maps'.unprovenOutputs =
      filed UnprovenOutput.coinInfo (outs.filter fun o => o.coinInfo ≠ q.rest) := by
  rw [offerInput, serializeQualifiedCoinInfo_ok] at h
  simp only [bind, Except.bind] at h
  have hget := get_filed UnprovenOutput.coinInfo outs q.rest
  rw [houts, hget] at h
  cases hfind : outs.find? fun o => o.coinInfo = q.rest with
  | some o =>
    rw [hfind] at h
    cases h
    exact delete_filed UnprovenOutput.coinInfo outs q.rest
  | none =>
    have hsame : (outs.filter fun o => o.coinInfo ≠ q.rest) = outs :=
      Matching.filter_eq_self (Matching.find_eq_none.mp hfind)
    rw [hsame, ← houts]
    rw [hfind] at h
    cases tuple with
    | none => cases h
    | some t =>
      simp only at h
      cases hvalid : assertIsContractAddress t.contractAddress with
      | error e =>
        rw [hvalid] at h
        cases h
      | ok u =>
        rw [hvalid] at h
        cases h
        exact houts.symm

theorem foldlM_offerInput_outputs {outs : List UnprovenOutput} {maps maps' : OfferMaps}
    {ins : List QualifiedCoinInfo}
    (houts : maps.unprovenOutputs = filed UnprovenOutput.coinInfo outs)
    (h : ins.foldlM (offerInput tuple) maps = .ok maps') : maps'.unprovenOutputs =
      filed UnprovenOutput.coinInfo
        (outs.filter fun o => o.coinInfo ∉ ins.map QualifiedCoinInfo.rest) := by
  induction ins generalizing outs maps with
  | nil =>
    cases h
    simpa using houts
  | cons q ins ih =>
    rw [List.foldlM_cons, except_bind_ok] at h
    obtain ⟨maps₁, hstep, h⟩ := h
    rw [ih (offerInput_outputs houts hstep) h, List.filter_filter]
    congr 1
    refine List.filter_congr fun o _ => ?_
    simp [Bool.and_comm]

/-- An offer made of a map of parts that are no outputs has no outputs. -/
theorem unprovenOfferFromMap_no_outputs {U : Type} {map : List (JsString × U)}
    {f : U → JsString → ℤ → UnprovenOffer} {offer : UnprovenOffer}
    (hf : ∀ u type value, (f u type value).outputs = [])
    (h : unprovenOfferFromMap map f = .ok offer) : offer.outputs = [] := by
  rw [unprovenOfferFromMap, except_bind_ok] at h
  obtain ⟨offers, hoffers, h⟩ := h
  cases h
  have hnone : ∀ o ∈ offers, o.outputs = [] := by
    induction map generalizing offers with
    | nil =>
      cases hoffers
      simp
    | cons e map ih =>
      rw [List.mapM_cons, except_bind_ok] at hoffers
      obtain ⟨o, ho, hrest⟩ := hoffers
      rw [except_bind_ok] at hrest
      obtain ⟨os, hos, heq⟩ := hrest
      cases heq
      rw [List.forall_mem_cons]
      refine ⟨?_, ih os hos⟩
      rw [unprovenOfferFromCoinInfo, except_bind_ok] at ho
      obtain ⟨revived, -, ho⟩ := ho
      split at ho
      · split at ho
        · cases ho
          exact hf _ _ _
        · cases ho
      · cases ho
  rw [foldl_merge]
  simp only [UnprovenOffer.empty, List.nil_append]
  exact List.flatMap_eq_nil_iff.mpr hnone

theorem zswapStateToOffer_outputs {st : ZswapLocalState} {epk : JsString} {offer : UnprovenOffer}
    (h : zswapStateToOffer st epk tuple = .ok offer) :
    offer.outputs = (kept UnprovenOutput.coinInfo (createdOutputs st epk)).filter
      fun o => o.coinInfo ∉ st.inputs.map QualifiedCoinInfo.rest := by
  rw [zswapStateToOffer, mapM_serializeCoinInfo] at h
  simp only [bind, Except.bind] at h
  split at h
  · cases h
  · rename_i maps hmaps
    have houts := foldlM_offerInput_outputs (ofEntries_filed ..) hmaps
    split at h
    · cases h
    · rename_i inputs hinputs
      rw [houts, unprovenOfferFromMap_outputs] at h
      simp only at h
      split at h
      · cases h
      · rename_i transients htransients
        cases h
        have hnoInputs := unprovenOfferFromMap_no_outputs (fun _ _ _ => rfl) hinputs
        have hnoTransients := unprovenOfferFromMap_no_outputs (fun _ _ _ => rfl) htransients
        simp only [UnprovenOffer.merge, hnoInputs, hnoTransients, List.nil_append, List.append_nil]

/-! ## Agreement -/

theorem coinsOf_perm {st : ZswapLocalState} {epk : JsString} {offer : UnprovenOffer}
    (coinPublicKey : JsString) (h : zswapStateToOffer st epk tuple = .ok offer) :
    (coinsOf coinPublicKey offer).Perm
      (((lasts ZswapOutput.coinInfo st.outputs).filter fun o =>
        decide (o.recipient.left = coinPublicKey) && (o.recipient.isLeft &&
          decide (o.coinInfo ∉ st.inputs.map QualifiedCoinInfo.rest))).map ZswapOutput.coinInfo) := by
  have hlasts : lasts UnprovenOutput.coinInfo (createdOutputs st epk) =
      (lasts ZswapOutput.coinInfo st.outputs).map
        fun o => createUnprovenOutput o epk DEFAULT_SEGMENT_NUMBER := by
    rw [createdOutputs, lasts_map]
    simp only [createUnprovenOutput_coinInfo]
  have hperm := ((kept_perm UnprovenOutput.coinInfo (createdOutputs st epk)).filter
    fun o => decide (o.coinInfo ∉ st.inputs.map QualifiedCoinInfo.rest)).filter
      (UnprovenOutput.ownedBy coinPublicKey) |>.map UnprovenOutput.coinInfo
  rw [coinsOf, zswapStateToOffer_outputs h]
  refine hperm.trans ?_
  rw [hlasts, List.filter_filter, List.filter_map, List.map_map]
  refine List.Perm.of_eq ?_
  have hcoin : UnprovenOutput.coinInfo ∘
      (fun o => createUnprovenOutput o epk DEFAULT_SEGMENT_NUMBER) = ZswapOutput.coinInfo := by
    funext o
    exact createUnprovenOutput_coinInfo ..
  rw [hcoin]
  congr 1
  refine List.filter_congr fun o _ => ?_
  simp only [Function.comp_apply, ownedBy_createUnprovenOutput, createUnprovenOutput_coinInfo,
    Bool.and_assoc]

/-- The new coins that are reported for a key are the coins that the offer leaves to its owner,
with multiplicity, exactly if the key means its owner. -/
theorem newCoins_agree_iff {st : ZswapLocalState} {epk : JsString} {offer : UnprovenOffer}
    (coinPublicKey : JsString) (h : zswapStateToOffer st epk tuple = .ok offer) :
    (zswapStateToNewCoins coinPublicKey st).Perm (coinsOf coinPublicKey offer) ↔
      KeyMeansOwner coinPublicKey st := by
  obtain ⟨p, hp⟩ : ∃ p : ZswapOutput → Bool, p = fun o => decide (o.recipient.left = coinPublicKey) :=
    ⟨_, rfl⟩
  obtain ⟨r, hr⟩ : ∃ r : ZswapOutput → Bool, r = fun o => o.recipient.isLeft &&
      decide (o.coinInfo ∉ st.inputs.map QualifiedCoinInfo.rest) := ⟨_, rfl⟩
  have hcoins := coinsOf_perm coinPublicKey h
  have hleft : ((lasts ZswapOutput.coinInfo st.outputs).filter fun o => p o && r o).Sublist
      (st.outputs.filter p) := by
    have hfilter : ((lasts ZswapOutput.coinInfo st.outputs).filter fun o => p o && r o) =
        ((lasts ZswapOutput.coinInfo st.outputs).filter p).filter r := by
      rw [List.filter_filter]
      simp only [Bool.and_comm]
    rw [hfilter]
    exact List.filter_sublist.trans ((lasts_sublist st.outputs).filter p)
  have hcondition : KeyMeansOwner coinPublicKey st ↔ (∀ o ∈ st.outputs, p o = true → r o = true) ∧
      st.outputs.Pairwise fun o o' => p o = true → o.coinInfo ≠ o'.coinInfo := by
    simp only [hp, hr, decide_eq_true_eq, Bool.and_eq_true]
    constructor
    · exact fun h => ⟨fun o ho hkey => ⟨h.user o ho hkey, h.unspent o ho hkey⟩, h.last⟩
    · exact fun h => ⟨fun o ho hkey => (h.1 o ho hkey).1, fun o ho hkey => (h.1 o ho hkey).2, h.2⟩
  rw [hcondition, ← filter_lasts_eq_iff, zswapStateToNewCoins, ← hp]
  have hkept : (coinsOf coinPublicKey offer).Perm
      (((lasts ZswapOutput.coinInfo st.outputs).filter fun o => p o && r o).map
        ZswapOutput.coinInfo) := by
    rw [hp, hr]
    exact hcoins
  constructor
  · intro hperm
    have hlength := (hperm.trans hkept).length_eq
    rw [List.length_map, List.length_map] at hlength
    exact hleft.eq_of_length hlength.symm
  · intro heq
    rw [← heq]
    exact hkept.symm

/-- Outputs alone can always be made an offer of. -/
theorem offer_of_no_inputs {st : ZswapLocalState} (epk : JsString) (h : st.inputs = []) :
    ∃ offer, zswapStateToOffer st epk none = .ok offer := by
  have hleft : (matchState st epk).inputs = [] := by
    rw [matchState, h]
    rfl
  exact ⟨_, zswapStateToOffer_eq (fun t ht => absurd ht (Option.not_mem_none t)) fun _ => hleft⟩

end

namespace Sample

def reward : CoinInfo := ⟨⟨js "token", js "1", 5, coinKeys⟩, List.Perm.refl coinKeys⟩

/-- One output to a user, and one to a contract with the user's key on the unused side. -/
def rewarded : ZswapLocalState := ⟨js "aa", 0, [], [⟨reward, ⟨true, js "aa", []⟩⟩]⟩

def stored : ZswapLocalState := ⟨js "aa", 0, [], [⟨reward, ⟨false, js "aa", js "bb"⟩⟩]⟩

theorem newCoins_agree_rewarded : ∃ offer, zswapStateToOffer rewarded (js "ee") none = .ok offer ∧
    ((zswapStateToNewCoins (js "aa") rewarded).Perm (coinsOf (js "aa") offer) ↔
      KeyMeansOwner (js "aa") rewarded) := by
  obtain ⟨offer, hoffer⟩ : ∃ offer, zswapStateToOffer rewarded (js "ee") none = .ok offer :=
    offer_of_no_inputs (js "ee") rfl
  exact ⟨offer, hoffer, newCoins_agree_iff (js "aa") hoffer⟩

/-- The output to the contract is reported as a new coin of the user. -/
theorem contract_coin_reported : ∃ offer, zswapStateToOffer stored (js "ee") none = .ok offer ∧
    coinsOf (js "aa") offer = [] ∧ zswapStateToNewCoins (js "aa") stored = [reward] := by
  obtain ⟨offer, hoffer⟩ : ∃ offer, zswapStateToOffer stored (js "ee") none = .ok offer :=
    offer_of_no_inputs (js "ee") rfl
  have hkept : kept UnprovenOutput.coinInfo (createdOutputs stored (js "ee")) =
      createdOutputs stored (js "ee") := kept_of_nodup (List.nodup_singleton _)
  refine ⟨offer, hoffer, ?_, by decide⟩
  rw [coinsOf, zswapStateToOffer_outputs hoffer, hkept]
  decide

end Sample

end MidnightJs
