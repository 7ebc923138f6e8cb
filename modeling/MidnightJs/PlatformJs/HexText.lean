import MidnightJs.PlatformJs.Hex

/-! # The hex texts of bytes

`HexText` says which texts stand for which bytes: pairs of hex digits in either case, at least one
pair, `0x` in front of them or not. `parseHex` accepts these texts and no others. -/

namespace MidnightJs.PlatformJs
open Foundations.Js
set_option autoImplicit false

inductive HexDigits : JsString → List UInt8 → Prop
  | nil : HexDigits [] []
  | cons {u v : UInt16} {rest : JsString} {b : UInt8} {bytes : List UInt8}
      (high : digitValue u = some (b.toNat / 16)) (low : digitValue v = some (b.toNat % 16))
      (digits : HexDigits rest bytes) : HexDigits (u :: v :: rest) (b :: bytes)

def HexText (text : JsString) (bytes : List UInt8) : Prop :=
  bytes ≠ [] ∧ (HexDigits text bytes ∨ ∃ digits, text = js "0x" ++ digits ∧ HexDigits digits bytes)

/-! ## Hex digits -/

theorem isHexDigit_iff {u : UInt16} : isHexDigit u = true ↔ ∃ d < 16, digitValue u = some d := by
  unfold isHexDigit digitValue
  simp only [Bool.or_eq_true, Bool.and_eq_true, decide_eq_true_eq, UInt16.le_iff_toNat_le,
    UInt16.reduceToNat]
  split_ifs <;> simp <;> omega

theorem hexPairs_append (s : JsString) : (hexPairs s).1 ++ (hexPairs s).2 = s := by
  fun_induction hexPairs s with
  | case1 u v rest _ ih => simp [ih]
  | case2 u v rest _ => rfl
  | case3 s _ => rfl

/-- Two digits are the text of one byte. -/
theorem HexDigits.ofDigits {u v : UInt16} {rest : JsString} {bytes : List UInt8}
    (hu : isHexDigit u = true) (hv : isHexDigit v = true) (h : HexDigits rest bytes) :
    ∃ b, HexDigits (u :: v :: rest) (b :: bytes) := by
  obtain ⟨d, hd, hu⟩ := isHexDigit_iff.mp hu
  obtain ⟨d', hd', hv⟩ := isHexDigit_iff.mp hv
  have hbyte : (d * 16 + d').toUInt8.toNat = d * 16 + d' := by
    rw [Nat.toUInt8, UInt8.toNat_ofNat']
    omega
  refine ⟨(d * 16 + d').toUInt8, .cons ?_ ?_ h⟩
  · rw [hu, hbyte]
    congr 1
    omega
  · rw [hv, hbyte]
    congr 1
    omega

/-- The pairs that are taken are whole bytes. -/
theorem hexPairs_bytes (s : JsString) : ∃ bytes, HexDigits (hexPairs s).1 bytes := by
  fun_induction hexPairs s with
  | case1 u v rest hdigits ih =>
    obtain ⟨bytes, h⟩ := ih
    rw [Bool.and_eq_true] at hdigits
    obtain ⟨b, hb⟩ := h.ofDigits hdigits.1 hdigits.2
    exact ⟨_, hb⟩
  | case2 u v rest _ => exact ⟨[], .nil⟩
  | case3 s _ => exact ⟨[], .nil⟩

/-- The text of a byte has two digits. -/
theorem HexDigits.digits {s : JsString} {bytes : List UInt8} (h : HexDigits s bytes) :
    s.all isHexDigit = true ∧ s.length = 2 * bytes.length := by
  induction h with
  | nil => exact ⟨rfl, rfl⟩
  | @cons u v rest b bytes high low _ ih =>
    have hb := b.toNat_lt
    have hu : isHexDigit u = true := isHexDigit_iff.mpr ⟨_, by omega, high⟩
    have hv : isHexDigit v = true := isHexDigit_iff.mpr ⟨_, by omega, low⟩
    refine ⟨by rw [List.all_cons, List.all_cons, hu, hv, ih.1]; rfl, ?_⟩
    rw [List.length_cons, List.length_cons, List.length_cons, ih.2]
    omega

/-- Nothing is left over exactly if the text is made of pairs of hex digits. -/
theorem hexPairs_rest {s : JsString} : (hexPairs s).2 = [] ↔ ∃ bytes, HexDigits s bytes := by
  constructor
  · intro h
    obtain ⟨bytes, hbytes⟩ := hexPairs_bytes s
    have happend := hexPairs_append s
    rw [h, List.append_nil] at happend
    exact ⟨bytes, happend ▸ hbytes⟩
  · rintro ⟨bytes, h⟩
    induction h with
    | nil => rfl
    | @cons u v rest b bytes high low h ih =>
      have hdigits := (HexDigits.cons high low h).digits.1
      rw [List.all_cons, List.all_cons, Bool.and_eq_true, Bool.and_eq_true] at hdigits
      rw [hexPairs, hdigits.1, hdigits.2.1]
      exact ih

theorem hexDigits_toHex (bytes : List UInt8) : HexDigits (toHex bytes) bytes := by
  induction bytes with
  | nil => exact .nil
  | cons b bytes ih =>
    have hb := b.toNat_lt
    rw [toHex, List.flatMap_cons]
    exact .cons (digitValue_hexDigit (by omega)) (digitValue_hexDigit (by omega)) ih

theorem HexDigits.nil_iff {s : JsString} {bytes : List UInt8} (h : HexDigits s bytes) :
    s = [] ↔ bytes = [] := by
  cases h <;> simp

theorem not_hexDigits_prefix {digits : JsString} {bytes : List UInt8} :
    ¬ HexDigits (js "0x" ++ digits) bytes := by
  change ¬ HexDigits (0x30 :: 0x78 :: digits) bytes
  intro h
  cases h with
  | @cons _ _ _ b _ _ low _ =>
    have hx : digitValue 0x78 = some 33 := by decide
    rw [hx, Option.some.injEq] at low
    omega

/-! ## The parser -/

/-- The digits of a text, without `0x`. -/
def hexBody (source : JsString) : JsString :=
  if (js "0x").isPrefixOf source then source.drop 2 else source

theorem hexText_iff {text : JsString} {bytes : List UInt8} :
    HexText text bytes ↔ bytes ≠ [] ∧ HexDigits (hexBody text) bytes := by
  rw [HexText, hexBody]
  refine and_congr_right fun _ => ?_
  by_cases hprefix : (js "0x").isPrefixOf text = true
  · obtain ⟨digits, rfl⟩ := List.isPrefixOf_iff_prefix.mp hprefix
    rw [if_pos hprefix]
    constructor
    · rintro (h | ⟨digits', heq, h⟩)
      · exact absurd h not_hexDigits_prefix
      · rw [List.append_cancel_left heq]
        exact h
    · exact fun h => .inr ⟨digits, rfl, h⟩
  · rw [if_neg hprefix]
    constructor
    · rintro (h | ⟨digits, rfl, -⟩)
      · exact h
      · exact absurd (List.isPrefixOf_iff_prefix.mpr ⟨digits, rfl⟩) hprefix
    · exact .inl

theorem parseHex_eq_ok {source : JsString} {parsedHex : ParsedHexString} :
    parseHex source = .ok parsedHex ↔ (hexPairs (hexBody source)).2 = [] ∧ hexBody source ≠ [] ∧
      parsedHex = ⟨(js "0x").isPrefixOf source, hexBody source, []⟩ := by
  have happend := hexPairs_append (hexBody source)
  have hempty : source.isEmpty = true → hexBody source = [] := by
    intro h
    rw [List.isEmpty_iff.mp h]
    rfl
  unfold parseHex
  extract_lets hasPrefix pairs byteChars incompleteChars invalidCharPos
  have hincomplete : (hexPairs (hexBody source)).2 = incompleteChars := rfl
  have hbytes : (hexPairs (hexBody source)).1 = byteChars := rfl
  rw [hincomplete, hbytes] at happend
  rw [hincomplete]
  split_ifs with hsource hterminator hleft _ hnone
  · simp [hempty hsource]
  · have hne : incompleteChars ≠ [] := by
      intro h
      rw [h] at hterminator
      cases hterminator
    simp [hne]
  · have hne : incompleteChars ≠ [] := by simpa using hleft
    simp [hne]
  · have hne : incompleteChars ≠ [] := by simpa using hleft
    simp [hne]
  · have hnil : incompleteChars = [] := by simpa using hleft
    rw [hnil, List.append_nil, List.isEmpty_iff.mp hnone] at happend
    simp [← happend]
  · have hnil : incompleteChars = [] := by simpa using hleft
    have hne : byteChars ≠ [] := by simpa using hnone
    rw [hnil, List.append_nil] at happend
    rw [← happend, hnil]
    simp [hne, eq_comm, hasPrefix]

theorem parseHex_hexText {text : JsString} {bytes : List UInt8} :
    HexText text bytes ↔ ∃ parsedHex, parseHex text = .ok parsedHex ∧
      HexDigits parsedHex.byteChars bytes := by
  rw [hexText_iff]
  constructor
  · rintro ⟨hne, h⟩
    refine ⟨_, parseHex_eq_ok.mpr ⟨hexPairs_rest.mpr ⟨bytes, h⟩, ?_, rfl⟩, h⟩
    exact fun hnil => hne (h.nil_iff.mp hnil)
  · rintro ⟨parsedHex, hparse, h⟩
    obtain ⟨-, hne, rfl⟩ := parseHex_eq_ok.mp hparse
    exact ⟨fun hnil => hne (h.nil_iff.mpr hnil), h⟩

end MidnightJs.PlatformJs
