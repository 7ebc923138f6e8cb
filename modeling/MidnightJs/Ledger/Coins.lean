import MidnightJs.Foundations.JsString
import Mathlib.Data.Int.Notation
import Mathlib.Data.List.Perm.Basic
import Mathlib.Data.List.Nodup

/-! # Coins and the local Zswap state

The records the ledger and the compact runtime hand to the client. A coin is a plain object, and
what the client does with it depends on the order in which its properties were created, so a
record carries the list of its property names (`Object.keys`). -/

namespace MidnightJs
open Foundations.Js
set_option autoImplicit false

/-- An object with the properties of a coin and possibly others; only the names of the others are
ever looked at. -/
structure CoinRecord where
  type : JsString
  nonce : JsString
  value : ℤ
  keys : List JsString
  deriving DecidableEq

def coinKeys : List JsString := [js "type", js "nonce", js "value"]

/-- A coin info has no property but its three own ones. -/
structure CoinInfo extends CoinRecord where
  exact : keys.Perm coinKeys
  deriving DecidableEq

/-- A coin that is already on chain: it has its index in the Merkle tree as a fourth property. -/
structure QualifiedCoinInfo extends CoinRecord where
  mtIndex : ℤ
  exact : keys.Perm (js "mt_index" :: coinKeys)
  deriving DecidableEq

/-- What makes two coins the same coin. -/
structure Coin where
  type : JsString
  nonce : JsString
  value : ℤ
  deriving DecidableEq

def CoinRecord.coin (c : CoinRecord) : Coin := ⟨c.type, c.nonce, c.value⟩

/-- A user (`left`) or a contract (`right`). -/
structure Recipient where
  isLeft : Bool
  left : JsString
  right : JsString
  deriving DecidableEq

structure ZswapOutput where
  coinInfo : CoinInfo
  recipient : Recipient
  deriving DecidableEq

structure ZswapLocalState where
  coinPublicKey : JsString
  currentIndex : ℕ
  inputs : List QualifiedCoinInfo
  outputs : List ZswapOutput
  deriving DecidableEq

theorem coinKeys_nodup : coinKeys.Nodup := by decide

theorem CoinInfo.nodup (c : CoinInfo) : c.keys.Nodup :=
  c.exact.nodup_iff.mpr coinKeys_nodup

theorem CoinInfo.mem_keys (c : CoinInfo) {k : JsString} : k ∈ c.keys ↔ k ∈ coinKeys :=
  c.exact.mem_iff

theorem CoinInfo.ext_record {c d : CoinInfo} (h : c.toCoinRecord = d.toCoinRecord) : c = d := by
  cases c
  cases d
  cases h
  rfl

/-- The coin info left by `const { mt_index: _, ...rest } = q`. -/
def QualifiedCoinInfo.rest (q : QualifiedCoinInfo) : CoinInfo where
  type := q.type
  nonce := q.nonce
  value := q.value
  keys := q.keys.erase (js "mt_index")
  exact := by
    have h := q.exact.erase (js "mt_index")
    rwa [List.erase_cons_head] at h

end MidnightJs
