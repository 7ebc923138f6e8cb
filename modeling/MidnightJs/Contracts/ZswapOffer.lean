import MidnightJs.Contracts.CoinText
import MidnightJs.Foundations.Matching
import Mathlib.Algebra.BigOperators.Group.List.Basic
import Mathlib.Data.Int.Basic

/-! # What becomes of the coins of a local state

The loop of `zswapStateToOffer` is a matching of inputs with outputs by the text of their coins.
The maps it works on hold one entry for a text, so of several outputs with one text the last is
left, and of several inputs with one text that find no output, the last. The texts tell apart coins
that differ only in the order of their properties. -/

namespace MidnightJs
open Foundations Foundations.Js
set_option autoImplicit false

variable {U : Type}

/-! ## Parts filed under the text of their coin -/

def filed (coin : U → CoinInfo) (us : List U) : List (JsString × U) :=
  us.map fun u => (coinText (coin u), u)

theorem filed_cons (coin : U → CoinInfo) (u : U) (us : List U) :
    filed coin (u :: us) = (coinText (coin u), u) :: filed coin us := rfl

theorem keys_filed (coin : U → CoinInfo) (us : List U) :
    OrderedMap.keys (filed coin us) = (us.map coin).map coinText := by
  simp [OrderedMap.keys, filed, Function.comp_def]

theorem nodup_keys_filed {coin : U → CoinInfo} {us : List U} :
    (OrderedMap.keys (filed coin us)).Nodup ↔ (us.map coin).Nodup := by
  rw [keys_filed, List.nodup_map_iff coinText_injective]

theorem get_filed (coin : U → CoinInfo) (us : List U) (c : CoinInfo) :
    OrderedMap.get (filed coin us) (coinText c) = us.find? fun u => coin u = c := by
  induction us with
  | nil => rfl
  | cons u us ih =>
    change (if coinText (coin u) = coinText c then some u else
      OrderedMap.get (filed coin us) (coinText c)) = _
    by_cases h : coin u = c
    · simp [h]
    · have htext : coinText (coin u) ≠ coinText c := fun htext => h (coinText_injective htext)
      rw [if_neg htext, ih, List.find?_cons_of_neg (by simpa using h)]

theorem delete_filed (coin : U → CoinInfo) (us : List U) (c : CoinInfo) :
    OrderedMap.delete (filed coin us) (coinText c) = filed coin (us.filter fun u => coin u ≠ c) := by
  simp only [OrderedMap.delete, filed, List.filter_map]
  refine congrArg _ (List.filter_congr fun u _ => ?_)
  simp [coinText_injective.eq_iff]

theorem set_filed {coin : U → CoinInfo} {us : List U} {u : U} (h : coin u ∉ us.map coin) :
    OrderedMap.set (filed coin us) (coinText (coin u)) u = filed coin (us ++ [u]) := by
  have hkey : coinText (coin u) ∉ OrderedMap.keys (filed coin us) := by
    rwa [keys_filed, List.mem_map_of_injective coinText_injective]
  rw [OrderedMap.set_of_notMem u hkey]
  simp [filed]

/-- The parts that are left when a map is made of them. -/
def kept (coin : U → CoinInfo) (us : List U) : List U :=
  (OrderedMap.ofEntries (filed coin us)).map Prod.snd

theorem ofEntries_filed (coin : U → CoinInfo) (us : List U) :
    OrderedMap.ofEntries (filed coin us) = filed coin (kept coin us) := by
  have hentries : ∀ e ∈ OrderedMap.ofEntries (filed coin us), e = (coinText (coin e.2), e.2) := by
    intro e he
    obtain ⟨u, _, rfl⟩ := List.mem_map.mp (OrderedMap.mem_ofEntries he)
    rfl
  calc OrderedMap.ofEntries (filed coin us)
      = (OrderedMap.ofEntries (filed coin us)).map id := (List.map_id _).symm
    _ = (OrderedMap.ofEntries (filed coin us)).map fun e => (coinText (coin e.2), e.2) :=
        List.map_congr_left hentries
    _ = filed coin (kept coin us) := by simp only [filed, kept, List.map_map, Function.comp_def]

theorem nodup_kept (coin : U → CoinInfo) (us : List U) : ((kept coin us).map coin).Nodup := by
  rw [← nodup_keys_filed, ← ofEntries_filed]
  exact OrderedMap.nodup_keys_ofEntries _

theorem kept_of_nodup {coin : U → CoinInfo} {us : List U} (h : (us.map coin).Nodup) :
    kept coin us = us := by
  rw [kept, OrderedMap.ofEntries_of_nodup (nodup_keys_filed.mpr h)]
  simp [filed, Function.comp_def]

/-! ## The value of coins -/

/-- The value of the coins of a type. -/
def total (type : JsString) (coins : List Coin) : ℤ :=
  ((coins.filter fun c => c.type = type).map Coin.value).sum

theorem total_cons (type : JsString) (c : Coin) (coins : List Coin) :
    total type (c :: coins) = UnprovenOffer.single c.type c.value type + total type coins := by
  by_cases h : c.type = type
  · simp [total, UnprovenOffer.single, h]
  · simp [total, UnprovenOffer.single, h, Ne.symm h]

theorem total_append (type : JsString) (coins coins' : List Coin) :
    total type (coins ++ coins') = total type coins + total type coins' := by
  simp [total]

theorem total_perm (type : JsString) {coins coins' : List Coin} (h : coins.Perm coins') :
    total type coins = total type coins' :=
  ((h.filter _).map _).sum_eq

theorem sum_single (type : JsString) (coin : U → CoinInfo) (us : List U) :
    (us.map fun u => UnprovenOffer.single (coin u).type (coin u).value type).sum =
      total type (us.map fun u => (coin u).coin) := by
  induction us with
  | nil => rfl
  | cons u us ih =>
    rw [List.map_cons, List.map_cons, List.sum_cons, ih, total_cons]
    rfl

theorem single_neg (type t : JsString) (value : ℤ) :
    UnprovenOffer.single type (-value) t = -UnprovenOffer.single type value t := by
  by_cases h : t = type <;> simp [UnprovenOffer.single, h]

theorem sum_single_neg (type : JsString) (coin : U → CoinInfo) (us : List U) :
    (us.map fun u => UnprovenOffer.single (coin u).type (-(coin u).value) type).sum =
      -total type (us.map fun u => (coin u).coin) := by
  simp only [single_neg, ← sum_single, List.sum_neg, List.map_map, Function.comp_def]

theorem flatMap_nil_const {V : Type} (us : List U) : us.flatMap (fun _ => ([] : List V)) = [] :=
  List.flatMap_eq_nil_iff.mpr fun _ _ => rfl

/-! ## The outputs of a state -/

theorem createUnprovenOutput_coinInfo (o : ZswapOutput) (epk : JsString) (segmentNumber : ℕ) :
    (createUnprovenOutput o epk segmentNumber).coinInfo = o.coinInfo := by
  rw [createUnprovenOutput]
  split <;> rfl

def createdOutputs (st : ZswapLocalState) (epk : JsString) : List UnprovenOutput :=
  st.outputs.map fun o => createUnprovenOutput o epk DEFAULT_SEGMENT_NUMBER

theorem createdOutputs_coinInfo (st : ZswapLocalState) (epk : JsString) :
    (createdOutputs st epk).map UnprovenOutput.coinInfo = st.outputs.map ZswapOutput.coinInfo := by
  simp [createdOutputs, createUnprovenOutput_coinInfo, Function.comp_def]

theorem mapM_serializeCoinInfo (st : ZswapLocalState) (epk : JsString) :
    (st.outputs.mapM fun output => do
      let key ← serializeCoinInfo output.coinInfo.toCoinRecord
      return (key, createUnprovenOutput output epk DEFAULT_SEGMENT_NUMBER)) =
      .ok (filed UnprovenOutput.coinInfo (createdOutputs st epk)) := by
  rw [createdOutputs]
  induction st.outputs with
  | nil => rfl
  | cons o outs ih =>
    rw [List.mapM_cons, ih, serializeCoinInfo_ok, List.map_cons, filed_cons,
      createUnprovenOutput_coinInfo]
    rfl

/-! ## The loop -/

abbrev matchCoins (outs : List UnprovenOutput) (ins : List QualifiedCoinInfo) :
    Matching QualifiedCoinInfo UnprovenOutput :=
  Matching.ofLists QualifiedCoinInfo.rest UnprovenOutput.coinInfo outs ins

/-- What the loop of `zswapStateToOffer` matches. -/
def matchState (st : ZswapLocalState) (epk : JsString) :
    Matching QualifiedCoinInfo UnprovenOutput :=
  matchCoins (kept UnprovenOutput.coinInfo (createdOutputs st epk)) st.inputs

def transientOf (p : QualifiedCoinInfo × UnprovenOutput) : UnprovenTransient :=
  .newFromContractOwnedOutput p.1 DEFAULT_SEGMENT_NUMBER p.2

def UnprovenTransient.coinInfo (t : UnprovenTransient) : CoinInfo := t.coin.rest

variable {outs : List UnprovenOutput} {transients : List UnprovenTransient} {q : QualifiedCoinInfo}
  {ins : List QualifiedCoinInfo}

/-- The coin info of the new transient is no longer among those of the outputs. -/
theorem new_of_filter (hnew : ∀ o ∈ outs, o.coinInfo ∉ transients.map UnprovenTransient.coinInfo)
    (o : UnprovenOutput) : ∀ o' ∈ outs.filter fun o => o.coinInfo ≠ q.rest,
      o'.coinInfo ∉ (transients ++ [transientOf (q, o)]).map UnprovenTransient.coinInfo := by
  intro o' ho'
  obtain ⟨ho', hne⟩ := List.mem_filter.mp ho'
  rw [List.map_append, List.mem_append, not_or, List.map_singleton, List.mem_singleton]
  exact ⟨hnew o' ho', of_decide_eq_true hne⟩

variable [Runtime]

def inputOf (tuple : AddressAndChainState) (q : QualifiedCoinInfo) : UnprovenInput :=
  .newContractOwned q DEFAULT_SEGMENT_NUMBER tuple.contractAddress tuple.zswapChainState

def inputsOf (tuple : Option AddressAndChainState) (qs : List QualifiedCoinInfo) :
    List UnprovenInput :=
  match tuple with
  | none => []
  | some t => qs.map (inputOf t)

def UnprovenInput.coinInfo (i : UnprovenInput) : CoinInfo := i.coin.rest

variable {tuple : Option AddressAndChainState} {inputs : List (JsString × UnprovenInput)}

/-- The maps of the loop, with outputs and transients filed under their coins. -/
def offerMaps (outs : List UnprovenOutput) (inputs : List (JsString × UnprovenInput))
    (transients : List UnprovenTransient) : OfferMaps :=
  ⟨filed UnprovenOutput.coinInfo outs, inputs, filed UnprovenTransient.coinInfo transients⟩

theorem get_unprovenOutputs (c : CoinInfo) :
    OrderedMap.get (offerMaps outs inputs transients).unprovenOutputs (coinText c) =
      outs.find? fun o => o.coinInfo = c :=
  get_filed ..

theorem offerInput_of_some {o : UnprovenOutput}
    (h : (outs.find? fun o => o.coinInfo = q.rest) = some o)
    (hnew : q.rest ∉ transients.map UnprovenTransient.coinInfo) :
    offerInput tuple (offerMaps outs inputs transients) q =
      .ok (offerMaps (outs.filter fun o => o.coinInfo ≠ q.rest) inputs
        (transients ++ [transientOf (q, o)])) := by
  have hset := set_filed (u := transientOf (q, o)) hnew
  rw [offerInput, serializeQualifiedCoinInfo_ok]
  simp only [bind, Except.bind, get_unprovenOutputs, h]
  rw [offerMaps, offerMaps, delete_filed, ← hset]
  rfl

theorem offerInput_of_none {t : AddressAndChainState}
    (h : (outs.find? fun o => o.coinInfo = q.rest) = none)
    (hvalid : assertIsContractAddress t.contractAddress = .ok ()) :
    offerInput (some t) (offerMaps outs inputs transients) q =
      .ok (offerMaps outs (OrderedMap.set inputs (coinText q.rest) (inputOf t q)) transients) := by
  rw [offerInput, serializeQualifiedCoinInfo_ok]
  simp only [bind, Except.bind, get_unprovenOutputs, h, hvalid]
  rfl

theorem offerInput_none_of_none (h : (outs.find? fun o => o.coinInfo = q.rest) = none) :
    ∃ e, offerInput none (offerMaps outs inputs transients) q = .error e := by
  rw [offerInput, serializeQualifiedCoinInfo_ok]
  simp only [bind, Except.bind, get_unprovenOutputs, h]
  exact ⟨_, rfl⟩

theorem foldlM_offerInput (transients : List UnprovenTransient)
    (hvalid : ∀ t ∈ tuple, assertIsContractAddress t.contractAddress = .ok ())
    (hnodup : (outs.map UnprovenOutput.coinInfo).Nodup)
    (hnew : ∀ o ∈ outs, o.coinInfo ∉ transients.map UnprovenTransient.coinInfo)
    (hleft : tuple = none → (matchCoins outs ins).inputs = []) :
    ins.foldlM (offerInput tuple) (offerMaps outs inputs transients) =
      .ok (offerMaps (matchCoins outs ins).outputs
        ((filed UnprovenInput.coinInfo (inputsOf tuple (matchCoins outs ins).inputs)).foldl
          (fun m e => OrderedMap.set m e.1 e.2) inputs)
        (transients ++ (matchCoins outs ins).pairs.map transientOf)) := by
  induction ins generalizing outs inputs transients with
  | nil =>
    have hinputs : inputsOf tuple [] = [] := by cases tuple <;> rfl
    simp only [matchCoins, Matching.ofLists, hinputs, List.map_nil, List.append_nil]
    rfl
  | cons q ins ih =>
    rw [List.foldlM_cons]
    cases hfind : outs.find? fun o => o.coinInfo = q.rest with
    | some o =>
      obtain ⟨ho, hkey⟩ := Matching.find_eq_some hfind
      rw [matchCoins, Matching.ofLists_of_some hfind] at hleft
      rw [offerInput_of_some hfind (hkey ▸ hnew o ho), matchCoins, Matching.ofLists_of_some hfind]
      refine (ih _ (Matching.nodup_filter hnodup _) (new_of_filter hnew o) hleft).trans ?_
      rw [List.append_assoc]
      rfl
    | none =>
      rw [matchCoins, Matching.ofLists_of_none hfind] at hleft ⊢
      cases tuple with
      | none => cases hleft rfl
      | some t =>
        rw [offerInput_of_none hfind (hvalid t rfl)]
        exact ih _ hnodup hnew fun h => absurd h (Option.some_ne_none t)

theorem foldlM_offerInput_none (transients : List UnprovenTransient)
    (hnodup : (outs.map UnprovenOutput.coinInfo).Nodup)
    (hnew : ∀ o ∈ outs, o.coinInfo ∉ transients.map UnprovenTransient.coinInfo)
    (hleft : (matchCoins outs ins).inputs ≠ []) :
    ∃ e, ins.foldlM (offerInput none) (offerMaps outs inputs transients) = .error e := by
  induction ins generalizing outs inputs transients with
  | nil => cases hleft rfl
  | cons q ins ih =>
    rw [List.foldlM_cons]
    cases hfind : outs.find? fun o => o.coinInfo = q.rest with
    | some o =>
      obtain ⟨ho, hkey⟩ := Matching.find_eq_some hfind
      rw [matchCoins, Matching.ofLists_of_some hfind] at hleft
      rw [offerInput_of_some hfind (hkey ▸ hnew o ho)]
      exact ih _ (Matching.nodup_filter hnodup _) (new_of_filter hnew o) hleft
    | none =>
      have herror : ∃ e, offerInput none (offerMaps outs inputs transients) q = .error e :=
        offerInput_none_of_none hfind
      obtain ⟨e, herror⟩ := herror
      exact ⟨e, by rw [herror]; rfl⟩

/-! ## Merging -/

theorem foldl_merge (a : UnprovenOffer) (offers : List UnprovenOffer) :
    offers.foldl UnprovenOffer.merge a =
      ⟨a.inputs ++ offers.flatMap UnprovenOffer.inputs,
        a.outputs ++ offers.flatMap UnprovenOffer.outputs,
        a.transients ++ offers.flatMap UnprovenOffer.transients,
        fun type => a.deltas type + (offers.map fun o => o.deltas type).sum⟩ := by
  induction offers generalizing a with
  | nil => simp
  | cons o offers ih =>
    rw [List.foldl_cons, ih]
    simp [UnprovenOffer.merge, add_assoc]

theorem unprovenOfferFromMap_filed (coin : U → CoinInfo) (us : List U)
    (f : U → JsString → ℤ → UnprovenOffer) :
    unprovenOfferFromMap (filed coin us) f = .ok
      ⟨us.flatMap fun u => (f u (coin u).type (coin u).value).inputs,
        us.flatMap fun u => (f u (coin u).type (coin u).value).outputs,
        us.flatMap fun u => (f u (coin u).type (coin u).value).transients,
        fun type => (us.map fun u => (f u (coin u).type (coin u).value).deltas type).sum⟩ := by
  have hmap : (filed coin us).mapM (fun e => unprovenOfferFromCoinInfo e.1 e.2 f) =
      .ok (us.map fun u => f u (coin u).type (coin u).value) := by
    induction us with
    | nil => rfl
    | cons u us ih =>
      rw [filed_cons, List.mapM_cons, unprovenOfferFromCoinInfo_coinText, ih]
      rfl
  rw [unprovenOfferFromMap, hmap]
  change Except.ok _ = _
  rw [foldl_merge]
  simp [UnprovenOffer.empty, List.flatMap_map, Function.comp_def]

theorem unprovenOfferFromMap_inputs (ins : List UnprovenInput) :
    unprovenOfferFromMap (filed UnprovenInput.coinInfo ins) UnprovenOffer.fromInput =
      .ok ⟨ins, [], [], fun type => total type (ins.map fun i => i.coinInfo.coin)⟩ := by
  rw [unprovenOfferFromMap_filed]
  simp only [UnprovenOffer.fromInput, sum_single, flatMap_nil_const, List.flatMap_singleton']

theorem unprovenOfferFromMap_outputs (outs : List UnprovenOutput) :
    unprovenOfferFromMap (filed UnprovenOutput.coinInfo outs) UnprovenOffer.fromOutput =
      .ok ⟨[], outs, [], fun type => -total type (outs.map fun o => o.coinInfo.coin)⟩ := by
  rw [unprovenOfferFromMap_filed]
  simp only [UnprovenOffer.fromOutput, sum_single_neg, flatMap_nil_const,
    List.flatMap_singleton']

theorem unprovenOfferFromMap_transients (transients : List UnprovenTransient) :
    unprovenOfferFromMap (filed UnprovenTransient.coinInfo transients) UnprovenOffer.fromTransient =
      .ok ⟨[], [], transients, fun _ => 0⟩ := by
  rw [unprovenOfferFromMap_filed]
  simp [UnprovenOffer.fromTransient, UnprovenOffer.single, flatMap_nil_const]

/-! ## The offer -/

theorem zswapStateToOffer_eq {st : ZswapLocalState} {epk : JsString}
    (hvalid : ∀ t ∈ tuple, assertIsContractAddress t.contractAddress = .ok ())
    (hleft : tuple = none → (matchState st epk).inputs = []) :
    let ins := kept UnprovenInput.coinInfo (inputsOf tuple (matchState st epk).inputs)
    let outs := (matchState st epk).outputs
    zswapStateToOffer st epk tuple = .ok
      ⟨ins, outs, (matchState st epk).pairs.map transientOf, fun type =>
        total type (ins.map fun i => i.coinInfo.coin) -
          total type (outs.map fun o => o.coinInfo.coin)⟩ := by
  intro ins outs
  have hins : (filed UnprovenInput.coinInfo (inputsOf tuple (matchState st epk).inputs)).foldl
      (fun m e => OrderedMap.set m e.1 e.2) [] = filed UnprovenInput.coinInfo ins :=
    ofEntries_filed ..
  have hloop : st.inputs.foldlM (offerInput tuple)
      ⟨OrderedMap.ofEntries (filed UnprovenOutput.coinInfo (createdOutputs st epk)), [], []⟩ =
      .ok (offerMaps outs (filed UnprovenInput.coinInfo ins)
        ((matchState st epk).pairs.map transientOf)) := by
    rw [ofEntries_filed, ← hins]
    exact foldlM_offerInput [] hvalid (nodup_kept ..) (fun _ _ => List.not_mem_nil) hleft
  rw [zswapStateToOffer, mapM_serializeCoinInfo]
  simp only [bind, Except.bind]
  rw [hloop]
  dsimp only [offerMaps]
  rw [unprovenOfferFromMap_inputs, unprovenOfferFromMap_outputs, unprovenOfferFromMap_transients]
  simp only [UnprovenOffer.merge, List.append_nil, List.nil_append, sub_eq_add_neg, add_zero]
  rfl

theorem zswapStateToOffer_throws {st : ZswapLocalState} {epk : JsString} :
    (∃ e, zswapStateToOffer st epk none = .error e) ↔ (matchState st epk).inputs ≠ [] := by
  constructor
  · rintro ⟨e, h⟩ hleft
    rw [zswapStateToOffer_eq (fun t ht => absurd ht (Option.not_mem_none t)) fun _ => hleft] at h
    cases h
  · intro hleft
    have hloop : ∃ e, st.inputs.foldlM (offerInput none)
        ⟨OrderedMap.ofEntries (filed UnprovenOutput.coinInfo (createdOutputs st epk)), [], []⟩ =
        .error e := by
      rw [ofEntries_filed]
      exact foldlM_offerInput_none [] (nodup_kept ..) (fun _ _ => List.not_mem_nil) hleft
    obtain ⟨e, hloop⟩ := hloop
    refine ⟨e, ?_⟩
    rw [zswapStateToOffer, mapM_serializeCoinInfo]
    simp only [bind, Except.bind]
    rw [hloop]

end MidnightJs
