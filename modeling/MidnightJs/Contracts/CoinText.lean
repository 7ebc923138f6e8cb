import MidnightJs.Contracts.ZswapUtils

/-! # The text of a coin

`serializeCoinInfo` gives every coin info a text of its own, in which the order of the properties
counts, and `deserializeCoinInfo` reads the type and the value back. -/

namespace MidnightJs
open Foundations Foundations.Js
set_option autoImplicit false

def coinText (c : CoinInfo) : JsString := (Json.object (coinMembers c.toCoinRecord)).stringify

theorem checkKeys_ok {text : Except JsError JsString} {keys : List JsString}
    (h : ∀ k ∈ keys, k ∈ coinKeys) : checkKeys text keys = .ok () := by
  have hnone : keys.find? (fun k => k ∉ coinKeys) = none :=
    List.find?_eq_none.mpr fun k hk => by simpa using h k hk
  rw [checkKeys, hnone]

theorem serializeCoinInfo_ok (c : CoinInfo) : serializeCoinInfo c.toCoinRecord = .ok (coinText c) := by
  rw [serializeCoinInfo, checkKeys_ok fun k hk => c.mem_keys.mp hk]
  rfl

theorem serializeQualifiedCoinInfo_ok (q : QualifiedCoinInfo) :
    serializeQualifiedCoinInfo q = .ok (coinText q.rest) :=
  serializeCoinInfo_ok q.rest

/-! ## Members -/

/-- The value written for a property. -/
def memberValue (c : CoinRecord) (k : JsString) : Json :=
  if k = js "type" then .string c.type
  else if k = js "nonce" then .string c.nonce
  else .object [(js "__big_int_val__", .string (bigintText c.value))]

theorem mem_coinKeys {k : JsString} :
    k ∈ coinKeys ↔ k = js "type" ∨ k = js "nonce" ∨ k = js "value" := by
  simp [coinKeys]

theorem coinMembers_eq (c : CoinInfo) :
    coinMembers c.toCoinRecord = c.keys.map fun k => (k, memberValue c.toCoinRecord k) := by
  rw [coinMembers, ← List.filterMap_eq_map]
  refine List.filterMap_congr fun k hk => ?_
  rcases mem_coinKeys.mp (c.mem_keys.mp hk) with rfl | rfl | rfl <;> rfl

theorem membersWellFormed_map {f : JsString → Json} {keys : List JsString}
    (h : ∀ k ∈ keys, (f k).WellFormed) : membersWellFormed (keys.map fun k => (k, f k)) := by
  induction keys with
  | nil => trivial
  | cons k keys ih =>
    exact ⟨h k (List.mem_cons_self ..), ih fun k' hk' => h k' (List.mem_cons_of_mem _ hk')⟩

theorem wellFormed_coinMembers (c : CoinInfo) :
    (Json.object (coinMembers c.toCoinRecord)).WellFormed := by
  rw [coinMembers_eq]
  refine ⟨?_, membersWellFormed_map fun k hk => ?_⟩
  · simpa [OrderedMap.keys, Function.comp_def] using c.nodup
  · rcases mem_coinKeys.mp (c.mem_keys.mp hk) with rfl | rfl | rfl
    · trivial
    · trivial
    · exact ⟨by simp [OrderedMap.keys], trivial, trivial⟩

theorem bigintText_injective : Function.Injective bigintText := by
  intro m n h
  have hm := stringToBigInt_bigintText m
  rw [h, stringToBigInt_bigintText] at hm
  exact (Option.some.inj hm).symm

theorem memberValue_injective {c d : CoinRecord}
    (h : ∀ k ∈ coinKeys, memberValue c k = memberValue d k) :
    c.type = d.type ∧ c.nonce = d.nonce ∧ c.value = d.value := by
  have htype : Json.string c.type = .string d.type := h (js "type") (by decide)
  have hnonce : Json.string c.nonce = .string d.nonce := h (js "nonce") (by decide)
  have hvalue : Json.object [(js "__big_int_val__", .string (bigintText c.value))] =
      .object [(js "__big_int_val__", .string (bigintText d.value))] := h (js "value") (by decide)
  refine ⟨?_, ?_, bigintText_injective ?_⟩
  · injection htype
  · injection hnonce
  · simpa using hvalue

theorem coinText_injective : Function.Injective coinText := by
  intro c d h
  have hmembers := stringify_injective (wellFormed_coinMembers c) (wellFormed_coinMembers d) h
  rw [coinMembers_eq, coinMembers_eq] at hmembers
  injection hmembers with hmembers
  have hkeys : c.keys = d.keys := by
    simpa [Function.comp_def] using congrArg (List.map Prod.fst) hmembers
  rw [← hkeys] at hmembers
  obtain ⟨htype, hnonce, hvalue⟩ := memberValue_injective fun k hk =>
    congrArg Prod.snd (List.map_inj_left.mp hmembers k (c.mem_keys.mpr hk))
  refine CoinInfo.ext_record ?_
  obtain ⟨⟨_, _, _, _⟩, _⟩ := c
  obtain ⟨⟨_, _, _, _⟩, _⟩ := d
  simp_all

/-! ## Reading a text -/

/-- What the reviver leaves of the value written for a property. -/
def revivedValue (c : CoinRecord) (k : JsString) : Revived :=
  if k = js "type" then .string c.type
  else if k = js "nonce" then .string c.nonce
  else .bigint c.value

theorem revive_memberValue (c : CoinRecord) {k : JsString} (h : k ∈ coinKeys) :
    revive k (memberValue c k) = .ok (revivedValue c k) := by
  rcases mem_coinKeys.mp h with rfl | rfl | rfl
  · rfl
  · rfl
  · change reviver (js "value")
      (.object [(js "__big_int_val__", .string (bigintText c.value))]) = .ok (.bigint c.value)
    have hdigits : OrderedMap.get [(js "__big_int_val__", Revived.string (bigintText c.value))]
        (js "__big_int_val__") = some (.string (bigintText c.value)) := rfl
    simp only [reviver, hdigits, if_true, stringToBigInt_bigintText]

theorem reviveMembers_map {c : CoinRecord} {keys : List JsString} (h : ∀ k ∈ keys, k ∈ coinKeys) :
    reviveMembers (keys.map fun k => (k, memberValue c k)) =
      .ok (keys.map fun k => (k, revivedValue c k)) := by
  induction keys with
  | nil => rfl
  | cons k keys ih =>
    rw [List.map_cons, reviveMembers, revive_memberValue c (h k (List.mem_cons_self ..)),
      ih fun k' hk' => h k' (List.mem_cons_of_mem _ hk')]
    rfl

theorem deserializeCoinInfo_coinText (c : CoinInfo) :
    deserializeCoinInfo (coinText c) =
      .ok (.object (c.keys.map fun k => (k, revivedValue c.toCoinRecord k))) := by
  have hkeys : ∀ k ∈ c.keys, k ∈ coinKeys := fun k hk => c.mem_keys.mp hk
  have hget : ∀ k ∉ coinKeys,
      OrderedMap.get (c.keys.map fun k => (k, revivedValue c.toCoinRecord k)) k = none := by
    intro k hk
    refine OrderedMap.get_eq_none.mpr ?_
    simpa [OrderedMap.keys, Function.comp_def] using fun h => hk (hkeys k h)
  have hrevive : revive [] (.object (coinMembers c.toCoinRecord)) =
      .ok (.object (c.keys.map fun k => (k, revivedValue c.toCoinRecord k))) := by
    rw [revive, coinMembers_eq, reviveMembers_map hkeys]
    simp only [bind, Except.bind, reviver, hget (js "__big_int_val__") (by decide),
      hget (js "__uint8Array_val__") (by decide)]
  have hobject : OrderedMap.keys (c.keys.map fun k => (k, revivedValue c.toCoinRecord k)) =
      c.keys := by
    simp [OrderedMap.keys, Function.comp_def]
  rw [deserializeCoinInfo, coinText, parse_stringify (wellFormed_coinMembers c)]
  dsimp only
  rw [hrevive]
  change (checkKeys (Revived.text _) (OrderedMap.keys _) >>= _) = _
  rw [hobject, checkKeys_ok hkeys]
  rfl

theorem get_map_keys {V : Type} {keys : List JsString} {f : JsString → V} {k : JsString}
    (h : k ∈ keys) : OrderedMap.get (keys.map fun k => (k, f k)) k = some (f k) := by
  induction keys with
  | nil => cases h
  | cons k' keys ih =>
    by_cases hk : k' = k
    · simp [OrderedMap.get, hk]
    · simpa [OrderedMap.get, hk] using ih ((List.mem_cons.mp h).resolve_left (Ne.symm hk))

variable [Runtime]

theorem unprovenOfferFromCoinInfo_coinText {U : Type} (c : CoinInfo) (unproven : U)
    (f : U → JsString → ℤ → UnprovenOffer) :
    unprovenOfferFromCoinInfo (coinText c) unproven f = .ok (f unproven c.type c.value) := by
  have hmem : ∀ k ∈ coinKeys, k ∈ c.keys := fun k hk => c.mem_keys.mpr hk
  have htype := get_map_keys (f := revivedValue c.toCoinRecord) (hmem (js "type") (by decide))
  have hvalue := get_map_keys (f := revivedValue c.toCoinRecord) (hmem (js "value") (by decide))
  rw [unprovenOfferFromCoinInfo, deserializeCoinInfo_coinText]
  simp only [bind, Except.bind, htype, hvalue]
  rfl

end MidnightJs
