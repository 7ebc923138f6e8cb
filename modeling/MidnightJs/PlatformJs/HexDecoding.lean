import MidnightJs.PlatformJs.HexValidation

/-! # Decoding of validated hex

The validators allow `0x` in front of the digits, the decoder does not: it stops at the `x` without an
error and returns no bytes. -/

namespace MidnightJs
open Foundations.Js PlatformJs
set_option autoImplicit false

theorem fromHex_hexDigits {s : JsString} {bytes : List UInt8} (h : HexDigits s bytes) :
    fromHex s = bytes := by
  induction h with
  | nil => rfl
  | @cons u v rest b bytes high low hdigits ih =>
    have hb := b.toNat_lt
    have hu : isHexDigit u = true := isHexDigit_iff.mpr ⟨_, by omega, high⟩
    have hv : isHexDigit v = true := isHexDigit_iff.mpr ⟨_, by omega, low⟩
    have hbyte : (b.toNat / 16 * 16 + b.toNat % 16).toUInt8 = b := by
      rw [Nat.div_add_mod', Nat.toUInt8, UInt8.ofNat_toNat]
    rw [fromHex, hu, hv, high, low, Option.getD_some, Option.getD_some, hbyte, ih]
    rfl

theorem fromHex_toHex (bytes : List UInt8) : fromHex (toHex bytes) = bytes :=
  fromHex_hexDigits (hexDigits_toHex bytes)

theorem fromHex_prefixed (digits : JsString) : fromHex (js "0x" ++ digits) = [] := rfl

/-! ## Lower case -/

/-- Lower case of the Latin letters; hex digits are among them. -/
def lowerUnit (u : UInt16) : UInt16 := if 0x41 ≤ u && u ≤ 0x5A then u + 0x20 else u

def toLowerCase (s : JsString) : JsString := s.map lowerUnit

theorem lowerUnit_of_digitValue {u : UInt16} {d : ℕ} (hd : d < 16) (h : digitValue u = some d) :
    lowerUnit u = hexDigit d := by
  have hu := u.toNat_lt
  unfold digitValue at h
  unfold lowerUnit hexDigit
  simp only [Bool.and_eq_true, decide_eq_true_eq, UInt16.le_iff_toNat_le, UInt16.reduceToNat] at h ⊢
  apply UInt16.toNat_inj.mp
  split_ifs at h ⊢ <;> simp at h ⊢ <;> omega

theorem toLowerCase_hexDigits {s : JsString} {bytes : List UInt8} (h : HexDigits s bytes) :
    toLowerCase s = toHex bytes := by
  induction h with
  | nil => rfl
  | @cons u v rest b bytes high low _ ih =>
    have hb := b.toNat_lt
    rw [toLowerCase, List.map_cons, List.map_cons, lowerUnit_of_digitValue (by omega) high,
      lowerUnit_of_digitValue (by omega) low]
    exact congrArg (fun text => hexDigit (b.toNat / 16) :: hexDigit (b.toNat % 16) :: text) ih

/-! ## Decoding what was validated -/

/-- Every byte of a valid text is decoded. -/
structure DecodingAgrees (source : JsString) (byteLen : Option ℤ) : Prop where
  length : isHex source byteLen = .ok true → ∀ n ∈ byteLen, ((fromHex source).length : ℤ) = n
  text : isHex source byteLen = .ok true → toHex (fromHex source) = toLowerCase (hexBody source)
  asserted : assertIsHex source byteLen = .ok () → ∀ bytes, HexText source bytes →
    bytes.length ≤ (fromHex source).length

/-- The decoder and the validator differ on the prefix only. -/
theorem decoding_agrees_iff (bytes : List UInt8) (source : JsString) (byteLen : Option ℤ) :
    fromHex (toHex bytes) = bytes ∧ (DecodingAgrees source byteLen ↔
      (isHex source byteLen = .ok true → (js "0x").isPrefixOf source = false)) := by
  refine ⟨fromHex_toHex bytes, ⟨fun h hvalid => ?_, fun hcondition => ?_⟩⟩
  · by_contra hprefixed
    obtain ⟨digits, rfl⟩ := List.isPrefixOf_iff_prefix.mp (Bool.not_eq_false _ ▸ hprefixed)
    obtain ⟨bytes, htext, -⟩ := isHex_eq_true.mp hvalid
    have hle := h.asserted (assertIsHex_eq_ok.mpr (isHex_eq_true.mp hvalid)) bytes htext
    rw [fromHex_prefixed, List.length_nil, Nat.le_zero, List.length_eq_zero_iff] at hle
    exact htext.1 hle
  · have hdecoded : ∀ bytes, isHex source byteLen = .ok true → HexText source bytes →
        hexBody source = source ∧ HexDigits source bytes := by
      intro bytes hvalid htext
      have hbody : hexBody source = source := by
        rw [hexBody, hcondition hvalid, if_neg Bool.false_ne_true]
      exact ⟨hbody, hbody ▸ (hexText_iff.mp htext).2⟩
    refine ⟨fun hvalid n hn => ?_, fun hvalid => ?_, fun hassert bytes htext => ?_⟩
    · obtain ⟨bytes, htext, hlen⟩ := isHex_eq_true.mp hvalid
      rw [fromHex_hexDigits (hdecoded bytes hvalid htext).2, hlen n hn]
    · obtain ⟨bytes, htext, -⟩ := isHex_eq_true.mp hvalid
      obtain ⟨hbody, hdigits⟩ := hdecoded bytes hvalid htext
      rw [fromHex_hexDigits hdigits, hbody, toLowerCase_hexDigits hdigits]
    · have hvalid := isHex_eq_true.mpr (assertIsHex_eq_ok.mp hassert)
      rw [fromHex_hexDigits (hdecoded bytes hvalid htext).2]

/-- A valid text of one byte, of which no byte is decoded. -/
theorem prefixed_byte_lost : isHex (js "0xab") (some 1) = .ok true ∧ fromHex (js "0xab") = [] ∧
    ¬ DecodingAgrees (js "0xab") (some 1) := by
  have hvalid : isHex (js "0xab") (some 1) = .ok true := by decide
  refine ⟨hvalid, rfl, fun h => ?_⟩
  have hlength := h.length hvalid 1 rfl
  cases hlength

end MidnightJs
