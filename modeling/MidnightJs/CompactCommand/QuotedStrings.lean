import MidnightJs.CompactCommand.CompiledContractReflection
import MidnightJs.PlatformJs.HexText

/-! # Strings in quotes

In lists and objects a string reaches the parser in the quotes and with the escapes of JSON5, and the
parser removes every single quote. What it then has is the string exactly if JSON5 has nothing to
escape; a hex text is such a string. -/

namespace MidnightJs.CompactJs
open Foundations Foundations.Js
set_option autoImplicit false

/-- Neither escaped nor taken for a quote. -/
def PlainUnit (u : UInt16) : Prop :=
  u ≠ 0x27 ∧ u ≠ 0x5C ∧ 0x20 ≤ u ∧ u ≠ 0x2028 ∧ u ≠ 0x2029

/-- No apostrophes, no backslashes, no control characters and no line separators. -/
def PlainText (s : JsString) : Prop := ∀ u ∈ s, PlainUnit u

/-! ## Escapes -/

theorem unitText_plain {u : UInt16} (next : JsString) (h : PlainUnit u) :
    Json5.unitText u next = [u] := by
  obtain ⟨-, hbackslash, hcontrol, hls, hps⟩ := h
  have hletter : Json5.escapeLetter u = none := by
    have hlow : ∀ c < 0x20, u ≠ c := by
      rintro c hc rfl
      rw [UInt16.lt_iff_toNat_lt] at hc
      rw [UInt16.le_iff_toNat_le] at hcontrol
      omega
    unfold Json5.escapeLetter
    rw [if_neg hbackslash, if_neg (hlow _ (by decide)), if_neg (hlow _ (by decide)),
      if_neg (hlow _ (by decide)), if_neg (hlow _ (by decide)), if_neg (hlow _ (by decide)),
      if_neg (hlow _ (by decide))]
  have hzero : u ≠ 0 := by
    rintro rfl
    exact absurd hcontrol (by decide)
  have hcontrol' : ¬ u < 0x20 := UInt16.not_lt.mpr hcontrol
  rw [Json5.unitText, hletter]
  simp only [hzero, hcontrol', hls, hps, if_false]

theorem unitText_escaped {u : UInt16} (next : JsString) (h : ¬ PlainUnit u) (hquote : u ≠ 0x27) :
    ∃ rest, Json5.unitText u next = 0x5C :: rest := by
  unfold Json5.unitText
  cases hletter : Json5.escapeLetter u with
  | some letter => exact ⟨[letter], rfl⟩
  | none =>
    have hbackslash : u ≠ 0x5C := by
      rintro rfl
      cases hletter
    dsimp only
    split_ifs with hzero hdigit hcontrol hls hps
    · exact ⟨_, rfl⟩
    · exact ⟨_, rfl⟩
    · exact ⟨_, rfl⟩
    · exact ⟨_, rfl⟩
    · exact ⟨_, rfl⟩
    · exact absurd ⟨hquote, hbackslash, UInt16.not_lt.mp hcontrol, hls, hps⟩ h

theorem quoteBody_plain {s : JsString} (h : PlainText s) : Json5.quoteBody 0x27 s = s := by
  induction s with
  | nil => rfl
  | cons u s ih =>
    obtain ⟨hu, hs⟩ := List.forall_mem_cons.mp h
    rw [Json5.quoteBody, if_neg hu.1, unitText_plain s hu, ih hs]
    rfl

theorem quoteBody_escaped {quote u : UInt16} {s : JsString} (hu : u ∈ s) (hplain : ¬ PlainUnit u)
    (hne : u = quote ∨ u ≠ 0x27) :
    0x5C ∈ Json5.quoteBody quote s := by
  induction s with
  | nil => cases hu
  | cons u' s ih =>
    rw [Json5.quoteBody]
    rcases List.mem_cons.mp hu with rfl | hu
    · refine List.mem_append_left _ ?_
      split
      · exact List.mem_cons_self ..
      · rename_i hother
        obtain ⟨rest, hrest⟩ := unitText_escaped s hplain (hne.resolve_left hother)
        rw [hrest]
        exact List.mem_cons_self ..
    · exact List.mem_append_right _ (ih hu)

theorem quoteChar_plain {s : JsString} (h : PlainText s) : Json5.quoteChar s = 0x27 := by
  have hcount : s.count 0x27 = 0 := List.count_eq_zero.mpr fun hmem => (h _ hmem).1 rfl
  rw [Json5.quoteChar, hcount, if_pos (Nat.zero_le _)]

/-! ## Without quotes -/

theorem withoutQuotes_of_notMem {s : JsString} (h : 0x27 ∉ s) : withoutQuotes s = s := by
  refine List.filter_eq_self.mpr fun u hu => ?_
  simp only [decide_eq_true_eq]
  rintro rfl
  exact h hu

theorem mem_withoutQuotes {s : JsString} {u : UInt16} :
    u ∈ withoutQuotes s ↔ u ∈ s ∧ u ≠ 0x27 := by
  simp [withoutQuotes]

theorem withoutQuotes_quoteString_plain {s : JsString} (h : PlainText s) :
    withoutQuotes (Json5.quoteString s) = s := by
  have hmem : 0x27 ∉ s := fun hmem => (h _ hmem).1 rfl
  have hs := withoutQuotes_of_notMem hmem
  rw [withoutQuotes] at hs
  rw [Json5.quoteString, quoteChar_plain h, quoteBody_plain h, withoutQuotes, List.filter_cons,
    List.filter_append, hs]
  simp

/-- Of a string with something to escape a backslash or a double quote is left over. -/
theorem withoutQuotes_quoteString_escaped {s : JsString} (h : ¬ PlainText s) :
    0x5C ∈ withoutQuotes (Json5.quoteString s) ∨ 0x22 ∈ withoutQuotes (Json5.quoteString s) := by
  simp only [PlainText, not_forall] at h
  obtain ⟨u, hu, hplain⟩ := h
  rw [mem_withoutQuotes, mem_withoutQuotes, Json5.quoteString]
  rcases Json5.quoteChar_cases s with hquote | hquote
  · left
    have hbackslash : 0x5C ∈ Json5.quoteBody (Json5.quoteChar s) s := by
      refine quoteBody_escaped hu hplain ?_
      rw [hquote]
      exact em _
    exact ⟨List.mem_cons_of_mem _ (List.mem_append_left _ hbackslash), by decide⟩
  · right
    rw [hquote]
    exact ⟨List.mem_cons_self .., by decide⟩

theorem count_unitText {u : UInt16} (next : JsString) (hquote : u ≠ 0x27) :
    [u].count 0x5C ≤ (Json5.unitText u next).count 0x5C ∧
      (¬ PlainUnit u → [u].count 0x5C < (Json5.unitText u next).count 0x5C) := by
  by_cases hplain : PlainUnit u
  · rw [unitText_plain next hplain]
    exact ⟨le_rfl, fun h => absurd hplain h⟩
  · obtain ⟨rest, hrest⟩ := unitText_escaped next hplain hquote
    have hlt : [u].count 0x5C < (Json5.unitText u next).count 0x5C := by
      by_cases hbackslash : u = 0x5C
      · subst hbackslash
        have hescape : Json5.unitText 0x5C next = [0x5C, 0x5C] := rfl
        rw [hescape]
        decide
      · rw [hrest, List.count_cons_self, List.count_singleton, if_neg (by simpa using hbackslash)]
        exact Nat.succ_pos _
    exact ⟨hlt.le, fun _ => hlt⟩

/-- Every escape adds a backslash. -/
theorem count_quoteBody {s : JsString} (hquote : 0x27 ∉ s) :
    s.count 0x5C ≤ (Json5.quoteBody 0x27 s).count 0x5C ∧
      (¬ PlainText s → s.count 0x5C < (Json5.quoteBody 0x27 s).count 0x5C) := by
  induction s with
  | nil => exact ⟨le_rfl, fun h => absurd (fun u hu => absurd hu (List.not_mem_nil)) h⟩
  | cons u s ih =>
    rw [List.mem_cons, not_or] at hquote
    obtain ⟨hle, hlt⟩ := ih hquote.2
    obtain ⟨hule, hult⟩ := count_unitText s (Ne.symm hquote.1)
    have hcons : (u :: s).count 0x5C = [u].count 0x5C + s.count 0x5C := by
      rw [← List.count_append, List.singleton_append]
    rw [Json5.quoteBody, if_neg (Ne.symm hquote.1), List.count_append, hcons]
    refine ⟨Nat.add_le_add hule hle, fun hplain => ?_⟩
    by_cases hu : PlainUnit u
    · have hs : ¬ PlainText s := fun hs => hplain (List.forall_mem_cons.mpr ⟨hu, hs⟩)
      exact Nat.add_lt_add_of_le_of_lt hule (hlt hs)
    · exact Nat.add_lt_add_of_lt_of_le (hult hu) hle

/-- The parser has the string itself exactly if there is nothing to escape. -/
theorem withoutQuotes_quoteString {s : JsString} :
    withoutQuotes (Json5.quoteString s) = s ↔ PlainText s := by
  constructor
  · intro h
    have hquote : 0x27 ∉ s := fun hmem => (mem_withoutQuotes.mp (h ▸ hmem)).2 rfl
    have hchar : Json5.quoteChar s = 0x27 := by
      rw [Json5.quoteChar, List.count_eq_zero.mpr hquote, if_pos (Nat.zero_le _)]
    have hcount := congrArg (List.count 0x5C) h
    rw [Json5.quoteString, hchar, withoutQuotes, List.count_filter (by decide), List.count_cons,
      List.count_append, List.count_singleton] at hcount
    by_contra hplain
    have hlt := (count_quoteBody hquote).2 hplain
    simp at hcount
    omega
  · exact withoutQuotes_quoteString_plain

/-! ## Hex texts -/

theorem plainUnit_of_digit {u : UInt16} {d : ℕ} (h : digitValue u = some d) : PlainUnit u := by
  have hrange : 0x30 ≤ u.toNat ∧ u.toNat ≤ 0x7A ∧ u.toNat ≠ 0x5C := by
    unfold digitValue at h
    simp only [Bool.and_eq_true, decide_eq_true_eq, UInt16.le_iff_toNat_le,
      UInt16.reduceToNat] at h
    split_ifs at h <;> omega
  have hne : ∀ c : UInt16, c.toNat < 0x30 ∨ 0x7A < c.toNat ∨ c.toNat = 0x5C → u ≠ c := by
    rintro c hc rfl
    omega
  refine ⟨hne _ (by decide), hne _ (by decide), ?_, hne _ (by decide), hne _ (by decide)⟩
  rw [UInt16.le_iff_toNat_le]
  exact le_trans (by decide) hrange.1

open PlatformJs in
theorem HexDigits.unit_digit {s : JsString} {bytes : List UInt8} (h : HexDigits s bytes) :
    ∀ u ∈ s, ∃ d, digitValue u = some d := by
  induction h with
  | nil => exact fun u hu => absurd hu List.not_mem_nil
  | cons high low _ ih =>
    exact List.forall_mem_cons.mpr ⟨⟨_, high⟩, List.forall_mem_cons.mpr ⟨⟨_, low⟩, ih⟩⟩

open PlatformJs in
/-- The letter of the mark is a digit of some base as well. -/
theorem HexText.unit_digit {s : JsString} {bytes : List UInt8} (h : HexText s bytes) :
    ∀ u ∈ s, ∃ d, digitValue u = some d := by
  obtain ⟨-, h | ⟨digits, rfl, h⟩⟩ := h
  · exact HexDigits.unit_digit h
  · have hzero : digitValue 0x30 = some 0 := by decide
    have hx : digitValue 0x78 = some 33 := by decide
    exact List.forall_mem_cons.mpr ⟨⟨0, hzero⟩,
      List.forall_mem_cons.mpr ⟨⟨33, hx⟩, HexDigits.unit_digit h⟩⟩

open PlatformJs in
theorem plainText_of_hexText {s : JsString} {bytes : List UInt8} (h : HexText s bytes) :
    PlainText s := by
  intro u hu
  obtain ⟨d, hd⟩ := HexText.unit_digit h u hu
  exact plainUnit_of_digit hd

open PlatformJs in
theorem hexBytes_of_digits {s : JsString} {bytes : List UInt8} (h : HexDigits s bytes) :
    hexBytes s = bytes := by
  induction h with
  | nil => rfl
  | @cons u v rest b bytes high low _ ih =>
    have hbyte : (b.toNat / 16 * 16 + b.toNat % 16).toUInt8 = b := by
      rw [Nat.div_add_mod']
      exact UInt8.ofNat_toNat
    rw [hexBytes, high, low, ih, Option.getD_some, Option.getD_some, hbyte]

theorem parseBytes_eq_ok {quotedStrings : Bool} {arg : Option JsString} {v : JsValue} :
    parseBytes quotedStrings arg = .ok v ↔ ∃ source, unquoted quotedStrings arg = .ok source ∧
      ∃ bytes, v = .buffer bytes ∧ PlatformJs.HexText (source.getD []) bytes := by
  rw [parseBytes, except_bind_ok]
  refine exists_congr fun source => and_congr_right fun _ => ?_
  simp only [PlatformJs.parseHex_hexText]
  cases hparse : PlatformJs.parseHex (source.getD []) with
  | error e => simp [throw, throwThe, MonadExceptOf.throw]
  | ok parsedHex =>
    obtain ⟨hrest, -, hparsed⟩ := PlatformJs.parseHex_eq_ok.mp hparse
    obtain ⟨bytes, hdigits⟩ := PlatformJs.hexPairs_rest.mp hrest
    have hbytes : PlatformJs.HexDigits parsedHex.byteChars bytes := by
      rw [hparsed]
      exact hdigits
    simp only [pure, Except.pure, Except.ok.injEq, exists_eq_left']
    constructor
    · intro h
      exact ⟨bytes, by rw [← h, hexBytes_of_digits hbytes], hbytes⟩
    · rintro ⟨bytes', rfl, h⟩
      rw [hexBytes_of_digits h]

end MidnightJs.CompactJs
