import MidnightJs.PlatformJs.HexText
import Mathlib.Data.PNat.Basic

/-! # What the hex validators accept

The language of the validators is that of `HexText`. A text with a line terminator in it is not
matched by the regular expression at all: the validators of `packages/utils` then throw an error that
they do not document, and `parseHex` of `platform-js` rejects the text. -/

namespace MidnightJs
open Foundations.Js PlatformJs
set_option autoImplicit false

/-! ## The regular expression -/

theorem hexDigit_no_terminator {u : UInt16} (h : isHexDigit u = true) :
    isLineTerminator u = false := by
  unfold isHexDigit at h
  unfold isLineTerminator
  simp only [Bool.or_eq_true, Bool.and_eq_true, decide_eq_true_eq, UInt16.le_iff_toNat_le,
    UInt16.reduceToNat] at h
  simp only [Bool.or_eq_false_iff, beq_eq_false_iff_ne, ne_eq, ← UInt16.toNat_inj,
    UInt16.reduceToNat]
  omega

theorem hexPairs_terminator (s : JsString) :
    (hexPairs s).2.any isLineTerminator = s.any isLineTerminator := by
  fun_induction hexPairs s with
  | case1 u v rest hdigits ih =>
    rw [Bool.and_eq_true] at hdigits
    rw [ih, List.any_cons, List.any_cons, hexDigit_no_terminator hdigits.1,
      hexDigit_no_terminator hdigits.2]
    rfl
  | case2 u v rest _ => rfl
  | case3 s _ => rfl

theorem hexBody_append (source : JsString) :
    (if (js "0x").isPrefixOf source then js "0x" else []) ++ hexBody source = source := by
  rw [hexBody]
  by_cases hprefixed : (js "0x").isPrefixOf source = true
  · obtain ⟨digits, rfl⟩ := List.isPrefixOf_iff_prefix.mp hprefixed
    rw [if_pos hprefixed, if_pos hprefixed]
    rfl
  · rw [if_neg hprefixed, if_neg hprefixed]
    rfl

theorem hexBody_terminator (source : JsString) :
    (hexBody source).any isLineTerminator = source.any isLineTerminator := by
  have happend := hexBody_append source
  conv_rhs => rw [← happend]
  rw [List.any_append]
  split <;> rfl

/-- The expression matches every text without a line terminator. -/
theorem parseHex_eq (source : JsString) : MidnightJs.parseHex source =
    if source.any isLineTerminator then
      .error (.typeError (js "Cannot read properties of undefined (reading 'prefix')"))
    else .ok ⟨(js "0x").isPrefixOf source, (hexPairs (hexBody source)).1,
      (hexPairs (hexBody source)).2⟩ := by
  rw [← hexBody_terminator, ← hexPairs_terminator]
  rfl

/-- Where the first character that is left over stands in the source. -/
def invalidCharPos (source : JsString) : ℕ :=
  (hexPairs (hexBody source)).1.length + if (js "0x").isPrefixOf source then 2 else 0

theorem drop_invalidCharPos (source : JsString) :
    source.drop (invalidCharPos source) = (hexPairs (hexBody source)).2 := by
  have hsource : source = ((if (js "0x").isPrefixOf source then js "0x" else []) ++
      (hexPairs (hexBody source)).1) ++ (hexPairs (hexBody source)).2 := by
    rw [List.append_assoc, hexPairs_append, hexBody_append]
  have hpos : invalidCharPos source = ((if (js "0x").isPrefixOf source then js "0x" else []) ++
      (hexPairs (hexBody source)).1).length := by
    rw [invalidCharPos, List.length_append, Nat.add_comm]
    split <;> rfl
  rw [hpos]
  exact (congrArg (List.drop _) hsource).trans List.drop_left

theorem hexDigits_no_terminator {s : JsString} {bytes : List UInt8} (h : HexDigits s bytes) :
    s.any isLineTerminator = false := by
  rw [← hexPairs_terminator, hexPairs_rest.mpr ⟨bytes, h⟩]
  rfl

/-! ## The validators of `packages/utils` -/

/-- The texts of the right number of bytes; any number above zero if none is asked for. -/
def ValidHex (source : JsString) (byteLen : Option ℤ) : Prop :=
  ∃ bytes, HexText source bytes ∧ ∀ n ∈ byteLen, (bytes.length : ℤ) = n

/-- The errors that `assertIsHex` documents, each with its reason. -/
inductive DocumentedError (source : JsString) (byteLen : Option ℤ) : JsError → Prop
  | byteLength {n : ℤ} (hn : n ∈ byteLen) (h : n ≤ 0) : DocumentedError source byteLen
      (.error (js "Expected byte length must be greater than zero."))
  | empty (h : source = []) : DocumentedError source byteLen
      (.typeError (js "Input string must have non-zero length."))
  | incomplete (h : ∀ bytes, ¬ HexText source bytes) : DocumentedError source byteLen
      (.typeError (js "The last byte of input string '" ++ source ++ js "' is incomplete."))
  | invalidDigit (h : ∀ bytes, ¬ HexText source bytes) (u : UInt16) (i : ℕ)
      (hu : source[i]? = some u) : DocumentedError source byteLen
      (.typeError (js "Invalid hex-digit '" ++ [u] ++ js "' found in input string at index " ++
        naturalText i ++ js "."))
  | invalid (h : ∀ bytes, ¬ HexText source bytes) : DocumentedError source byteLen
      (.typeError (js "Input string '" ++ source ++ js "' is not a valid hex-string."))
  | length {n : ℤ} {bytes : List UInt8} (hn : n ∈ byteLen) (h : HexText source bytes)
      (hlen : (bytes.length : ℤ) ≠ n) : DocumentedError source byteLen
      (.typeError (js "Expected an input string with byte length of " ++ bigintText n ++
        js ", got " ++ naturalText bytes.length ++ js "."))

section
variable {source : JsString} {byteLen : Option ℤ}

theorem ValidHex.source_ne (h : ValidHex source byteLen) : source.isEmpty = false := by
  obtain ⟨bytes, h, -⟩ := h
  obtain ⟨hne, hdigits⟩ := hexText_iff.mp h
  cases source with
  | nil => exact absurd (hdigits.nil_iff.mp rfl) hne
  | cons u source => rfl

theorem ValidHex.byteLen_pos (h : ValidHex source byteLen) : byteLen.any (· ≤ 0) = false := by
  obtain ⟨bytes, h, hlen⟩ := h
  have hpos : 0 < bytes.length := List.length_pos_iff.mpr (hexText_iff.mp h).1
  cases byteLen with
  | none => rfl
  | some n =>
    have hn := hlen n rfl
    simp only [Option.any_some, decide_eq_false_iff_not]
    omega

theorem ValidHex.no_terminator (h : ValidHex source byteLen) :
    source.any isLineTerminator = false := by
  obtain ⟨bytes, h, -⟩ := h
  rw [← hexBody_terminator]
  exact hexDigits_no_terminator (hexText_iff.mp h).2

/-- A text is valid if the expression leaves nothing over and has taken enough pairs. -/
theorem validHex_iff : ValidHex source byteLen ↔
    (hexPairs (hexBody source)).2 = [] ∧ (hexPairs (hexBody source)).1 ≠ [] ∧
      ∀ n ∈ byteLen, ((hexPairs (hexBody source)).1.length : ℤ) = 2 * n := by
  have happend := hexPairs_append (hexBody source)
  constructor
  · rintro ⟨bytes, h, hlen⟩
    obtain ⟨hne, hdigits⟩ := hexText_iff.mp h
    have hrest : (hexPairs (hexBody source)).2 = [] := hexPairs_rest.mpr ⟨bytes, hdigits⟩
    rw [hrest, List.append_nil] at happend
    refine ⟨hrest, fun hnil => hne (hdigits.nil_iff.mp (happend ▸ hnil)), fun n hn => ?_⟩
    have hdouble := hdigits.digits.2
    have hbytes := hlen n hn
    rw [happend]
    omega
  · rintro ⟨hrest, hne, hlen⟩
    obtain ⟨bytes, hdigits⟩ := hexPairs_rest.mp hrest
    rw [hrest, List.append_nil] at happend
    rw [happend] at hne hlen
    refine ⟨bytes, hexText_iff.mpr ⟨fun hnil => hne (hdigits.nil_iff.mpr hnil), hdigits⟩, ?_⟩
    intro n hn
    have hdouble := hdigits.digits.2
    have hn := hlen n hn
    omega

theorem isHex_eq (hsource : source.isEmpty = false) (hpos : byteLen.any (· ≤ 0) = false) :
    ∃ valid : Bool, (valid = true ↔ ValidHex source byteLen) ∧ isHex source byteLen =
      if source.any isLineTerminator then
        .error (.typeError (js "Cannot read properties of undefined (reading 'prefix')"))
      else .ok valid := by
  simp only [validHex_iff]
  rw [isHex, hsource, hpos, parseHex_eq]
  cases byteLen with
  | none =>
    refine ⟨decide (0 < (hexPairs (hexBody source)).1.length) &&
      (hexPairs (hexBody source)).2.isEmpty, ?_, ?_⟩
    · simp [and_comm, List.length_pos_iff]
    · cases source.any isLineTerminator <;> rfl
  | some n =>
    refine ⟨((hexPairs (hexBody source)).1.length : ℤ) == 2 * n &&
      (hexPairs (hexBody source)).2.isEmpty, ?_, ?_⟩
    · simp only [Option.any_some, decide_eq_false_iff_not] at hpos
      simp only [Bool.and_eq_true, beq_iff_eq, List.isEmpty_iff, Option.mem_def,
        Option.some.injEq, forall_eq', ← List.length_pos_iff]
      constructor
      · rintro ⟨hlen, hrest⟩
        exact ⟨hrest, by omega, hlen⟩
      · rintro ⟨hrest, -, hlen⟩
        exact ⟨hlen, hrest⟩
    · cases source.any isLineTerminator <;> rfl

theorem isHex_eq_true : isHex source byteLen = .ok true ↔ ValidHex source byteLen := by
  constructor
  · intro h
    have hguard : (source.isEmpty || byteLen.any (· ≤ 0)) = false := by
      by_contra htrue
      rw [isHex, if_pos (Bool.not_eq_false _ ▸ htrue)] at h
      cases h
    rw [Bool.or_eq_false_iff] at hguard
    obtain ⟨valid, hvalid, heq⟩ := isHex_eq hguard.1 hguard.2
    rw [heq] at h
    split at h
    · cases h
    · cases h
      exact hvalid.mp rfl
  · intro h
    obtain ⟨valid, hvalid, heq⟩ := isHex_eq h.source_ne h.byteLen_pos
    rw [heq, h.no_terminator, hvalid.mpr h]
    rfl

/-- The test throws exactly at a line terminator, unless it is over before the text is read. -/
theorem isHex_throws (hpos : byteLen.any (· ≤ 0) = false) :
    (∃ e, isHex source byteLen = .error e) ↔ source.any isLineTerminator = true := by
  by_cases hsource : source.isEmpty = true
  · rw [List.isEmpty_iff.mp hsource]
    simp [isHex]
  · obtain ⟨valid, -, heq⟩ := isHex_eq (by simpa using hsource) hpos
    rw [heq]
    split <;> simp_all

/-- The ways `assertIsHex` can end. -/
inductive Diagnosis (source : JsString) (byteLen : Option ℤ) : Except JsError Unit → Prop
  | accepted (h : ValidHex source byteLen) : Diagnosis source byteLen (.ok ())
  | empty (h : source = []) : Diagnosis source byteLen
      (.error (.typeError (js "Input string must have non-zero length.")))
  | byteLength {n : ℤ} (hn : n ∈ byteLen) (h : n ≤ 0) : Diagnosis source byteLen
      (.error (.error (js "Expected byte length must be greater than zero.")))
  | unmatched (h : source.any isLineTerminator = true) : Diagnosis source byteLen
      (.error (.typeError (js "Cannot read properties of undefined (reading 'prefix')")))
  | incomplete (h : source.any isLineTerminator = false)
      (hodd : (hexPairs (hexBody source)).2.length % 2 = 1) : Diagnosis source byteLen
      (.error (.typeError (js "The last byte of input string '" ++ source ++ js "' is incomplete.")))
  | invalidDigit {u : UInt16} {rest : JsString} (h : source.any isLineTerminator = false)
      (hleft : (hexPairs (hexBody source)).2 = u :: rest)
      (heven : (hexPairs (hexBody source)).2.length % 2 = 0) : Diagnosis source byteLen
      (.error (.typeError (js "Invalid hex-digit '" ++ [u] ++ js "' found in input string at index " ++
        naturalText (invalidCharPos source) ++ js ".")))
  | invalid (h : hexBody source = []) : Diagnosis source byteLen
      (.error (.typeError (js "Input string '" ++ source ++ js "' is not a valid hex-string.")))
  | length {n : ℤ} {bytes : List UInt8} (hn : n ∈ byteLen) (h : HexText source bytes)
      (hlen : (bytes.length : ℤ) ≠ n) : Diagnosis source byteLen
      (.error (.typeError (js "Expected an input string with byte length of " ++ bigintText n ++
        js ", got " ++ naturalText bytes.length ++ js ".")))

theorem assertIsHex_diagnosis (source : JsString) (byteLen : Option ℤ) :
    Diagnosis source byteLen (assertIsHex source byteLen) := by
  rw [assertIsHex]
  by_cases hsource : source.isEmpty = true
  · rw [if_pos hsource]
    exact .empty (List.isEmpty_iff.mp hsource)
  by_cases hpos : byteLen.any (· ≤ 0) = true
  · rw [if_neg hsource, if_pos hpos]
    obtain ⟨n, hn, hle⟩ := (Option.any_eq_true _ _).mp hpos
    exact .byteLength hn (of_decide_eq_true hle)
  rw [if_neg hsource, if_neg hpos, parseHex_eq]
  by_cases hterminator : source.any isLineTerminator = true
  · rw [if_pos hterminator]
    exact .unmatched hterminator
  have happend := hexPairs_append (hexBody source)
  have hdrop := drop_invalidCharPos source
  have hindex : (hexPairs (hexBody source)).1.length +
    (if (js "0x").isPrefixOf source then 2 else 0) = invalidCharPos source := rfl
  rw [if_neg hterminator]
  simp only [bind, Except.bind, throw, throwThe, MonadExceptOf.throw, pure, Except.pure, hindex,
    hdrop]
  split_ifs with hrest hodd hnone
  · exact .incomplete (by simpa using hterminator) (by omega)
  · cases hleft : (hexPairs (hexBody source)).2 with
    | nil => simp [hleft] at hrest
    | cons u rest => exact .invalidDigit (by simpa using hterminator) hleft (by omega)
  · have hleft : (hexPairs (hexBody source)).2 = [] := by simpa using hrest
    rw [hleft, List.append_nil, List.isEmpty_iff.mp hnone] at happend
    exact .invalid happend.symm
  · have hleft : (hexPairs (hexBody source)).2 = [] := by simpa using hrest
    have htaken : (hexPairs (hexBody source)).1 ≠ [] := by simpa using hnone
    obtain ⟨bytes, hbytes⟩ := hexPairs_bytes (hexBody source)
    have hdouble := hbytes.digits.2
    have htext : HexText source bytes := by
      rw [hleft, List.append_nil] at happend
      exact hexText_iff.mpr ⟨fun h => htaken (hbytes.nil_iff.mpr h), happend ▸ hbytes⟩
    rw [hdouble]
    cases byteLen with
    | none => exact .accepted ⟨bytes, htext, fun n hn => by cases hn⟩
    | some n =>
      have hhalf : 2 * bytes.length / 2 = bytes.length := by omega
      rw [hhalf]
      dsimp only
      split_ifs with hlen
      · exact .length rfl htext (by simpa using hlen)
      · refine .accepted ⟨bytes, htext, fun m hm => ?_⟩
        cases hm
        simpa using hlen

theorem not_hexText_of_rest (h : (hexPairs (hexBody source)).2 ≠ []) (bytes : List UInt8) :
    ¬ HexText source bytes :=
  fun htext => h (hexPairs_rest.mpr ⟨bytes, (hexText_iff.mp htext).2⟩)

theorem assertIsHex_eq_ok : assertIsHex source byteLen = .ok () ↔ ValidHex source byteLen := by
  have hdiagnosis := assertIsHex_diagnosis source byteLen
  generalize assertIsHex source byteLen = result at hdiagnosis ⊢
  cases hdiagnosis with
  | accepted h => exact iff_of_true rfl h
  | empty hsource =>
    refine iff_of_false (by simp) fun h => ?_
    have hne := h.source_ne
    rw [hsource] at hne
    cases hne
  | byteLength hn hle =>
    refine iff_of_false (by simp) fun h => ?_
    have hpos := h.byteLen_pos
    rw [Option.mem_def.mp hn, Option.any_some, decide_eq_false_iff_not] at hpos
    exact hpos hle
  | unmatched hterminator =>
    refine iff_of_false (by simp) fun h => ?_
    rw [h.no_terminator] at hterminator
    cases hterminator
  | incomplete _ hodd =>
    refine iff_of_false (by simp) fun ⟨bytes, h, _⟩ => not_hexText_of_rest ?_ bytes h
    intro hnil
    rw [hnil] at hodd
    cases hodd
  | invalidDigit _ hleft heven =>
    refine iff_of_false (by simp) fun ⟨bytes, h, _⟩ => not_hexText_of_rest ?_ bytes h
    rw [hleft]
    exact List.cons_ne_nil _ _
  | invalid hbody =>
    refine iff_of_false (by simp) fun ⟨bytes, h, _⟩ => ?_
    exact (hexText_iff.mp h).1 ((hexText_iff.mp h).2.nil_iff.mp hbody)
  | @length n bytes hn htext hlen =>
    refine iff_of_false (by simp) fun ⟨bytes', h, hlen'⟩ => hlen ?_
    have hdouble := (hexText_iff.mp htext).2.digits.2
    have hdouble' := (hexText_iff.mp h).2.digits.2
    have hn := hlen' n hn
    omega

/-- Without a line terminator in the text, only documented errors are thrown. -/
theorem assertIsHex_documented {e : JsError} (hterminator : source.any isLineTerminator = false)
    (h : assertIsHex source byteLen = .error e) : DocumentedError source byteLen e := by
  have hdiagnosis := assertIsHex_diagnosis source byteLen
  rw [h] at hdiagnosis
  cases hdiagnosis with
  | empty hsource => exact .empty hsource
  | byteLength hn hle => exact .byteLength hn hle
  | unmatched hmatch =>
    rw [hterminator] at hmatch
    cases hmatch
  | incomplete _ hodd =>
    refine .incomplete (not_hexText_of_rest fun hnil => ?_)
    rw [hnil] at hodd
    cases hodd
  | @invalidDigit u rest _ hleft heven =>
    refine .invalidDigit (not_hexText_of_rest ?_) u _ ?_
    · rw [hleft]
      exact List.cons_ne_nil _ _
    · rw [← List.head?_drop, drop_invalidCharPos, hleft]
      rfl
  | invalid hbody =>
    refine .invalid fun bytes htext => ?_
    exact (hexText_iff.mp htext).1 ((hexText_iff.mp htext).2.nil_iff.mp hbody)
  | length hn htext hlen => exact .length hn htext hlen

theorem unprefixed_of_hexDigits {bytes : List UInt8} (h : HexDigits source bytes) :
    (js "0x").isPrefixOf source = false := by
  by_contra hprefixed
  obtain ⟨digits, rfl⟩ := List.isPrefixOf_iff_prefix.mp (Bool.not_eq_false _ ▸ hprefixed)
  exact not_hexDigits_prefix h

theorem assertIsContractAddress_eq_ok : assertIsContractAddress source = .ok () ↔
    ∃ bytes, HexDigits source bytes ∧ bytes.length = 34 := by
  rw [assertIsContractAddress, CONTRACT_ADDRESS_BYTE_LENGTH, except_bind_ok]
  constructor
  · rintro ⟨_, hassert, h⟩
    have hvalid := assertIsHex_eq_ok.mp hassert
    rw [parseHex_eq, hvalid.no_terminator, except_bind_ok] at h
    obtain ⟨bytes, htext, hlen⟩ := hvalid
    obtain ⟨parsedHex, hparsed, h⟩ := h
    cases hparsed
    by_cases hprefixed : (js "0x").isPrefixOf source = true
    · rw [if_pos hprefixed] at h
      cases h
    · refine ⟨bytes, ?_, by exact_mod_cast hlen 34 rfl⟩
      have hdigits := (hexText_iff.mp htext).2
      rwa [hexBody, if_neg hprefixed] at hdigits
  · rintro ⟨bytes, hdigits, hlen⟩
    have hprefixed := unprefixed_of_hexDigits hdigits
    have hne : bytes ≠ [] := by
      rintro rfl
      cases hlen
    have hvalid : ValidHex source (some 34) := by
      refine ⟨bytes, ⟨hne, .inl hdigits⟩, fun n hn => ?_⟩
      cases hn
      exact_mod_cast hlen
    refine ⟨(), assertIsHex_eq_ok.mpr hvalid, ?_⟩
    rw [parseHex_eq, hvalid.no_terminator, hprefixed]
    rfl

/-- `platform-js` accepts the same texts and finds the same digits. -/
theorem platform_parseHex_ok {parsedHex : ParsedHexString} :
    PlatformJs.parseHex source = .ok parsedHex ↔
      ValidHex source none ∧ MidnightJs.parseHex source = .ok parsedHex := by
  rw [PlatformJs.parseHex_eq_ok]
  have happend := hexPairs_append (hexBody source)
  constructor
  · rintro ⟨hrest, hne, rfl⟩
    obtain ⟨bytes, hdigits⟩ := hexPairs_rest.mp hrest
    have hvalid : ValidHex source none :=
      ⟨bytes, hexText_iff.mpr ⟨fun hnil => hne (hdigits.nil_iff.mpr hnil), hdigits⟩,
        fun n hn => by cases hn⟩
    rw [hrest, List.append_nil] at happend
    refine ⟨hvalid, ?_⟩
    rw [parseHex_eq, hvalid.no_terminator, hrest, happend]
    rfl
  · rintro ⟨hvalid, hparse⟩
    obtain ⟨hrest, hne, -⟩ := validHex_iff.mp hvalid
    rw [hrest, List.append_nil] at happend
    rw [parseHex_eq, hvalid.no_terminator, hrest, happend] at hparse
    cases hparse
    exact ⟨hrest, happend ▸ hne, rfl⟩

end

/-! ## The language of the validators -/

/-- A number of bytes, as the callers give it. -/
def wholeBytes (byteLen : Option ℕ+) : Option ℤ := byteLen.map fun n : ℕ+ => ((n : ℕ) : ℤ)

/-- The validators decide whether a text is hex, and agree on it. -/
structure ValidatorsExact (source : JsString) (byteLen : Option ℕ+) : Prop where
  isHex : ∃ valid, isHex source (wholeBytes byteLen) = .ok valid ∧
    (valid = true ↔ ValidHex source (wholeBytes byteLen))
  assertIsHex : assertIsHex source (wholeBytes byteLen) = .ok () ↔
    MidnightJs.isHex source (wholeBytes byteLen) = .ok true
  documented : ∀ e, MidnightJs.assertIsHex source (wholeBytes byteLen) = .error e →
    DocumentedError source (wholeBytes byteLen) e
  address : assertIsContractAddress source = .ok () ↔
    ∃ bytes, HexDigits source bytes ∧ bytes.length = 34
  platform : (∃ parsedHex, PlatformJs.parseHex source = .ok parsedHex) ↔
    MidnightJs.isHex source none = .ok true
  sameDigits : ∀ parsedHex, PlatformJs.parseHex source = .ok parsedHex →
    ∃ parsedHex', MidnightJs.parseHex source = .ok parsedHex' ∧
      parsedHex.hasPrefix = parsedHex'.hasPrefix ∧ parsedHex.byteChars = parsedHex'.byteChars

theorem wholeBytes_pos (byteLen : Option ℕ+) : (wholeBytes byteLen).any (· ≤ 0) = false := by
  cases byteLen with
  | none => rfl
  | some n =>
    have hn := n.pos
    change decide (((n : ℕ) : ℤ) ≤ 0) = false
    rw [decide_eq_false_iff_not]
    omega

/-- Only a text with a line terminator in it is not decided. -/
theorem validators_exact_iff (source : JsString) (byteLen : Option ℕ+) :
    ValidatorsExact source byteLen ↔ source.any isLineTerminator = false := by
  have hthrows := @isHex_throws source _ (wholeBytes_pos byteLen)
  constructor
  · intro h
    obtain ⟨valid, hvalid, -⟩ := h.isHex
    by_contra hterminator
    obtain ⟨e, he⟩ := hthrows.mpr (Bool.not_eq_false _ ▸ hterminator)
    rw [hvalid] at he
    cases he
  · intro hterminator
    refine ⟨?_, ?_, fun e he => assertIsHex_documented hterminator he,
      assertIsContractAddress_eq_ok, ?_, ?_⟩
    · cases hresult : isHex source (wholeBytes byteLen) with
      | error e =>
        rw [hthrows.mp ⟨e, hresult⟩] at hterminator
        cases hterminator
      | ok valid =>
        refine ⟨valid, rfl, ?_⟩
        rw [← isHex_eq_true, hresult, Except.ok.injEq]
    · rw [assertIsHex_eq_ok, isHex_eq_true]
    · rw [isHex_eq_true]
      constructor
      · rintro ⟨parsedHex, hparse⟩
        exact (platform_parseHex_ok.mp hparse).1
      · exact fun h => ⟨_, platform_parseHex_ok.mpr ⟨h, by rw [parseHex_eq, h.no_terminator]; rfl⟩⟩
    · exact fun parsedHex hparse => ⟨parsedHex, (platform_parseHex_ok.mp hparse).2, rfl, rfl⟩

/-- One pair of digits and a line feed. -/
theorem line_feed_throws : ¬ ValidatorsExact (js "ab\n") none ∧ isHex (js "ab\n") none =
    .error (.typeError (js "Cannot read properties of undefined (reading 'prefix')")) := by
  have hthrow : isHex (js "ab\n") none =
    .error (.typeError (js "Cannot read properties of undefined (reading 'prefix')")) := rfl
  refine ⟨fun h => ?_, hthrow⟩
  obtain ⟨valid, hvalid, -⟩ := h.isHex
  rw [wholeBytes, Option.map_none, hthrow] at hvalid
  cases hvalid

end MidnightJs
