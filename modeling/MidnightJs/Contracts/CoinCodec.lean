import MidnightJs.Contracts.CoinText

/-! # Writing and reading a coin

A coin comes back from its text with its properties in the order in which it had them, and neither
direction lets a property pass that is not one of a coin. Two coins with the same contents have the
same text if their properties stand in the same order, and only then. -/

namespace MidnightJs
open Foundations Foundations.Js
set_option autoImplicit false

/-- The coin info as the object that is read. -/
def revivedCoin (c : CoinInfo) : Revived :=
  .object (c.keys.map fun k => (k, revivedValue c.toCoinRecord k))

theorem checkKeys_error {text : Except JsError JsString} {keys : List JsString}
    (h : ∃ k ∈ keys, k ∉ coinKeys) : ∃ e, checkKeys text keys = .error e := by
  obtain ⟨k, hk, hother⟩ := h
  have hsome : (keys.find? fun k => k ∉ coinKeys).isSome = true :=
    List.find?_isSome.mpr ⟨k, hk, by simpa using hother⟩
  obtain ⟨key, hkey⟩ := Option.isSome_iff_exists.mp hsome
  rw [checkKeys, hkey]
  cases text with
  | error e => exact ⟨e, rfl⟩
  | ok text => exact ⟨_, rfl⟩

theorem serializeCoinInfo_throws {c : CoinRecord} (h : ∃ k ∈ c.keys, k ∉ coinKeys) :
    ∃ e, serializeCoinInfo c = .error e := by
  obtain ⟨e, he⟩ := checkKeys_error h
  exact ⟨e, by rw [serializeCoinInfo, he]; rfl⟩

/-! ## Properties that a coin does not have -/

/-- The reviver is handed the members that were read, and keeps their names. -/
theorem keys_reviveMembers {members : List (JsString × Json)} {revived : List (JsString × Revived)}
    (h : reviveMembers members = .ok revived) :
    OrderedMap.keys revived = OrderedMap.keys members := by
  induction members generalizing revived with
  | nil =>
    cases h
    rfl
  | cons e members ih =>
    obtain ⟨k, v⟩ := e
    rw [reviveMembers, except_bind_ok] at h
    obtain ⟨r, -, h⟩ := h
    rw [except_bind_ok] at h
    obtain ⟨rest, hrest, h⟩ := h
    cases h
    exact congrArg (k :: ·) (ih hrest)

/-- The reviver leaves the object itself as it is, for it has no name. -/
theorem reviver_root (members : List (JsString × Revived)) :
    reviver [] (.object members) = .ok (.object members) := by
  have hvalue : ([] : JsString) ≠ js "value" := by decide
  have hother : ¬ (([] : JsString) = js "color" ∨ ([] : JsString) = js "nonce") := by decide
  rw [reviver]
  split
  · rw [if_neg hvalue]
    split
    · rw [if_neg hother]
    · rfl
  · rw [if_neg hother]
  · rfl

theorem deserializeCoinInfo_throws {text : JsString} {members : List (JsString × Json)}
    (hparse : Json.parse text = some (.object members))
    (h : ∃ k ∈ OrderedMap.keys members, k ∉ coinKeys) : ∃ e, deserializeCoinInfo text = .error e := by
  rw [deserializeCoinInfo, hparse]
  simp only [revive]
  cases hrevived : reviveMembers members with
  | error e => exact ⟨e, rfl⟩
  | ok revived =>
    have hkeys : ∃ k ∈ OrderedMap.keys revived, k ∉ coinKeys := keys_reviveMembers hrevived ▸ h
    obtain ⟨e, he⟩ : ∃ e, checkKeys (Revived.object revived).text (OrderedMap.keys revived) = .error e :=
      checkKeys_error hkeys
    refine ⟨e, ?_⟩
    simp only [bind, Except.bind, reviver_root, objectKeys, he]

/-! ## The codec -/

/-- A coin is read back from its text, and properties that no coin has are refused both ways. -/
theorem coin_codec :
    (∀ (c : CoinInfo), (serializeCoinInfo c.toCoinRecord >>= deserializeCoinInfo) =
      .ok (revivedCoin c)) ∧
    (∀ (q : QualifiedCoinInfo), (serializeQualifiedCoinInfo q >>= deserializeCoinInfo) =
      .ok (revivedCoin q.rest)) ∧
    (∀ (c : CoinRecord), (∃ k ∈ c.keys, k ∉ coinKeys) → ∃ e, serializeCoinInfo c = .error e) ∧
    (∀ (text : JsString) (members : List (JsString × Json)),
      Json.parse text = some (.object members) → (∃ k ∈ OrderedMap.keys members, k ∉ coinKeys) →
      ∃ e, deserializeCoinInfo text = .error e) := by
  refine ⟨fun c => ?_, fun q => ?_, fun c h => serializeCoinInfo_throws h,
    fun text members hparse h => deserializeCoinInfo_throws hparse h⟩
  · rw [serializeCoinInfo_ok]
    exact deserializeCoinInfo_coinText c
  · rw [serializeQualifiedCoinInfo_ok]
    exact deserializeCoinInfo_coinText q.rest

namespace Sample

/-- A coin record with one property more, and the text of an object that has none of a coin's. -/
def oldCoin : CoinRecord := ⟨js "token", js "1", 5, coinKeys ++ [js "old"]⟩

def oldObject : Json := .object [(js "old", .null)]

theorem coin_codec_old :
    (∃ e, serializeCoinInfo oldCoin = .error e) ∧
      ∃ e, deserializeCoinInfo oldObject.stringify = .error e :=
  ⟨coin_codec.2.2.1 oldCoin ⟨js "old", by decide, by decide⟩,
    coin_codec.2.2.2 oldObject.stringify [(js "old", .null)]
      (parse_stringify ⟨by simp [OrderedMap.keys], trivial, trivial⟩) ⟨js "old", by decide, by decide⟩⟩

end Sample

/-! ## The text as a key -/

theorem CoinInfo.ext_coin {c d : CoinInfo} (hcoin : c.coin = d.coin) (hkeys : c.keys = d.keys) :
    c = d := by
  apply CoinInfo.ext_record
  obtain ⟨⟨type, nonce, value, keys⟩, _⟩ := c
  obtain ⟨⟨type', nonce', value', keys'⟩, _⟩ := d
  simp only [CoinRecord.coin, Coin.mk.injEq] at hcoin
  obtain ⟨rfl, rfl, rfl⟩ := hcoin
  cases hkeys
  rfl

theorem coinText_eq {c d : CoinInfo} : coinText c = coinText d ↔ c.coin = d.coin ∧ c.keys = d.keys := by
  constructor
  · intro h
    rw [coinText_injective h]
    exact ⟨rfl, rfl⟩
  · rintro ⟨hcoin, hkeys⟩
    rw [CoinInfo.ext_coin hcoin hkeys]

/-- The texts of two coins are the same exactly for the same contents. -/
def SameText (text text' : Except JsError JsString) (coin coin' : Coin) : Prop :=
  (∃ t, text = .ok t) ∧ (∃ t, text' = .ok t) ∧ (text = text' ↔ coin = coin')

theorem sameText_iff {c d : CoinInfo} :
    SameText (.ok (coinText c)) (.ok (coinText d)) c.coin d.coin ↔
      (c.coin = d.coin → c.keys = d.keys) := by
  simp only [SameText, Except.ok.injEq, exists_eq', true_and, coinText_eq]
  tauto

/-- The text of a coin depends on its contents alone exactly if the properties of equal coins stand
in the same order. -/
theorem coin_text_canonical (c d : CoinInfo) (q : QualifiedCoinInfo) :
    (SameText (serializeCoinInfo c.toCoinRecord) (serializeQualifiedCoinInfo q) c.coin q.coin ∧
        SameText (serializeCoinInfo c.toCoinRecord) (serializeCoinInfo d.toCoinRecord) c.coin
          d.coin) ↔
      (c.coin = q.coin → c.keys = q.keys.erase (js "mt_index")) ∧
        (c.coin = d.coin → c.keys = d.keys) := by
  have hrest : q.coin = q.rest.coin := rfl
  rw [serializeCoinInfo_ok, serializeCoinInfo_ok, serializeQualifiedCoinInfo_ok, hrest,
    sameText_iff, sameText_iff]
  exact Iff.rfl

namespace Sample

/-- A coin with its properties in the order of the declaration, and one in another order. -/
def declaredOrder : CoinInfo := ⟨⟨js "token", js "1", 5, coinKeys⟩, List.Perm.refl _⟩

def valueFirst : QualifiedCoinInfo :=
  ⟨⟨js "token", js "1", 5, [js "value", js "type", js "nonce", js "mt_index"]⟩, 0, by decide⟩

theorem same_coin_two_texts :
    declaredOrder.coin = valueFirst.coin ∧
      serializeCoinInfo declaredOrder.toCoinRecord = .ok
        (js "\x7b\"type\":\"token\",\"nonce\":\"1\",\"value\":\x7b\"__big_int_val__\":\"5\"\x7d\x7d") ∧
      serializeQualifiedCoinInfo valueFirst = .ok
        (js "\x7b\"value\":\x7b\"__big_int_val__\":\"5\"\x7d,\"type\":\"token\",\"nonce\":\"1\"\x7d") := by
  refine ⟨rfl, ?_, ?_⟩ <;> decide +kernel

end Sample

end MidnightJs
