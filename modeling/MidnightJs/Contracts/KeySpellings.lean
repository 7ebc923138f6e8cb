import MidnightJs.Contracts.ZswapUtils
import MidnightJs.PlatformJs.HexValidation

/-! # Spellings of a public key

A wallet may give a key in hex, in any case and with `0x` or without, or in Bech32m. A Bech32m key is
turned into lower-case hex; a hex key is returned as it is, so that its spelling stays. -/

namespace MidnightJs
open Foundations.Js PlatformJs
set_option autoImplicit false

/-- The texts that denote a key. The Bech32m form is no hex text. -/
inductive Spelling (decode : JsString → Except JsError (List UInt8)) (key : List UInt8) :
    JsString → Prop
  | hex {s : JsString} (h : HexText s key) : Spelling decode key s
  | bech32m {s : JsString} (hnot : isHex s none = .ok false) (h : decode s = .ok key) :
    Spelling decode key s

/-- Lower-case hex without `0x`, or no hex at all. -/
def Canonical (key : List UInt8) (s : JsString) : Prop := s = toHex key ∨ isHex s none = .ok false

/-! ## Hex texts -/

theorem isHex_of_hexText {s : JsString} {key : List UInt8} (h : HexText s key) :
    isHex s none = .ok true :=
  isHex_eq_true.mpr ⟨key, h, fun n hn => by cases hn⟩

section
variable {decode : JsString → Except JsError (List UInt8)} {key : List UInt8} {s : JsString}

theorem parsePublicKeyToHex_hex (h : HexText s key) : parsePublicKeyToHex decode s = .ok s := by
  rw [parsePublicKeyToHex, isHex_of_hexText h]
  rfl

theorem parsePublicKeyToHex_bech32m (hnot : isHex s none = .ok false) (h : decode s = .ok key) :
    parsePublicKeyToHex decode s = .ok (toHex key) := by
  rw [parsePublicKeyToHex, hnot, h]
  rfl

/-- A key is turned into its lower-case hex text exactly from a canonical spelling. -/
theorem parsePublicKeyToHex_canonical (h : Spelling decode key s) :
    parsePublicKeyToHex decode s = .ok (toHex key) ↔ Canonical key s := by
  cases h with
  | hex h =>
    rw [parsePublicKeyToHex_hex h, Except.ok.injEq, Canonical, isHex_of_hexText h]
    simp
  | bech32m hnot h =>
    rw [parsePublicKeyToHex_bech32m hnot h]
    exact iff_of_true rfl (.inr hnot)

end

/-! ## Two wallets with the same keys -/

section
variable [Runtime]

/-- The spellings of one coin key and of one encryption key, as two wallets give them. -/
structure WalletSpellings (coinKey encKey : List UInt8) where
  coin : JsString
  coin' : JsString
  enc : JsString
  enc' : JsString
  denotesCoin : Spelling Runtime.decodeCoinPublicKey coinKey coin
  denotesCoin' : Spelling Runtime.decodeCoinPublicKey coinKey coin'
  denotesEnc : Spelling Runtime.decodeEncPublicKey encKey enc
  denotesEnc' : Spelling Runtime.decodeEncPublicKey encKey enc'

/-- The spelling of the keys makes no difference. -/
structure SpellingsAgree {coinKey encKey : List UInt8} (w : WalletSpellings coinKey encKey) :
    Prop where
  coin : parseCoinPublicKeyToHex w.coin = .ok (toHex coinKey) ∧
    parseCoinPublicKeyToHex w.coin' = .ok (toHex coinKey)
  enc : parseEncPublicKeyToHex w.enc = .ok (toHex encKey) ∧
    parseEncPublicKeyToHex w.enc' = .ok (toHex encKey)
  accepted : ∀ st : ZswapLocalState, encryptionPublicKeyForzswapState st w.coin w.enc =
    encryptionPublicKeyForzswapState st w.coin' w.enc'
  newCoins : ∀ (st : ZswapLocalState) (key key' : JsString),
    parseCoinPublicKeyToHex w.coin = .ok key → parseCoinPublicKeyToHex w.coin' = .ok key' →
    zswapStateToNewCoins key st = zswapStateToNewCoins key' st

/-- Only the canonical spellings agree, and a hex key is returned as it is given. -/
theorem key_spellings {coinKey encKey : List UInt8} (w : WalletSpellings coinKey encKey) :
    (SpellingsAgree w ↔ Canonical coinKey w.coin ∧ Canonical coinKey w.coin' ∧
        Canonical encKey w.enc ∧ Canonical encKey w.enc') ∧
      (HexText w.coin coinKey → parseCoinPublicKeyToHex w.coin = .ok w.coin) ∧
      (HexText w.enc encKey → parseEncPublicKeyToHex w.enc = .ok w.enc) := by
  have hcoin := parsePublicKeyToHex_canonical w.denotesCoin
  have hcoin' := parsePublicKeyToHex_canonical w.denotesCoin'
  have henc := parsePublicKeyToHex_canonical w.denotesEnc
  have henc' := parsePublicKeyToHex_canonical w.denotesEnc'
  refine ⟨?_, parsePublicKeyToHex_hex, parsePublicKeyToHex_hex⟩
  constructor
  · intro h
    exact ⟨hcoin.mp h.coin.1, hcoin'.mp h.coin.2, henc.mp h.enc.1, henc'.mp h.enc.2⟩
  · rintro ⟨h₁, h₂, h₃, h₄⟩
    have hparse : parseCoinPublicKeyToHex w.coin = .ok (toHex coinKey) := hcoin.mpr h₁
    have hparse' : parseCoinPublicKeyToHex w.coin' = .ok (toHex coinKey) := hcoin'.mpr h₂
    have hparseEnc : parseEncPublicKeyToHex w.enc = .ok (toHex encKey) := henc.mpr h₃
    have hparseEnc' : parseEncPublicKeyToHex w.enc' = .ok (toHex encKey) := henc'.mpr h₄
    refine ⟨⟨hparse, hparse'⟩, ⟨hparseEnc, hparseEnc'⟩, fun st => ?_, fun st key key' hk hk' => ?_⟩
    · rw [encryptionPublicKeyForzswapState, encryptionPublicKeyForzswapState, hparse, hparse',
        hparseEnc, hparseEnc']
    · rw [hparse, Except.ok.injEq] at hk
      rw [hparse', Except.ok.injEq] at hk'
      rw [← hk, ← hk']

end

namespace Sample

/-- The key of one byte, in both cases. -/
theorem hexText_ab : HexText (js "ab") [0xAB] :=
  ⟨by simp, .inl (.cons (by decide) (by decide) .nil)⟩

theorem hexText_AB : HexText (js "AB") [0xAB] :=
  ⟨by simp, .inl (.cons (by decide) (by decide) .nil)⟩

def wallets : WalletSpellings [0xAB] [0xAB] :=
  ⟨js "ab", js "AB", js "ab", js "ab", .hex hexText_ab, .hex hexText_AB, .hex hexText_ab,
    .hex hexText_ab⟩

theorem key_spellings_ab : parseCoinPublicKeyToHex (js "ab") = .ok (js "ab") :=
  (key_spellings wallets).2.1 hexText_ab

/-- Both spellings denote one key; the wallet that spells it in upper case is refused. -/
theorem upper_case_refused :
    HexText (js "ab") [0xAB] ∧ HexText (js "AB") [0xAB] ∧
      parseCoinPublicKeyToHex (js "ab") = .ok (js "ab") ∧
      parseCoinPublicKeyToHex (js "AB") = .ok (js "AB") ∧
      encryptionPublicKeyForzswapState ⟨js "ab", 0, [], []⟩ (js "ab") (js "ab") = .ok (js "ab") ∧
      encryptionPublicKeyForzswapState ⟨js "ab", 0, [], []⟩ (js "AB") (js "ab") = .error (.error
        (js "Unable to lookup encryption public key (Unsupported coin)")) := by
  refine ⟨hexText_ab, hexText_AB, ?_, ?_, ?_, ?_⟩ <;> rfl

end Sample

end MidnightJs
