import MidnightJs.PlatformJs.HexValidation
import MidnightJs.PlatformJs.IntegerRangeText

/-! # Hex of a constrained length

Each notation of a range denotes a set of lengths. The two kinds of range hold the same set with
upper bounds that differ by one, and all bounds are small enough to be exact. -/

namespace MidnightJs.PlatformJs
open Foundations.Js
set_option autoImplicit false

/-! ## What a notation denotes -/

/-- The lengths that a notation of a range stands for, with bounds below 2⁵³. -/
inductive Denotes : IntegerRangeInput → Set ℕ → Prop
  | tuple {x y : Number} {n m : ℕ} (hx : x.IsInteger n) (hy : y.IsInteger m) (hn : n < 2 ^ 53)
      (hm : m < 2 ^ 53) : Denotes (.tuple x y) (Set.Ico n m)
  | exclusiveText {s t : JsString} {n m : ℕ} (hs : naturalOfText 10 s = some n)
      (ht : naturalOfText 10 t = some m) (hn : n < 2 ^ 53) (hm : m < 2 ^ 53) :
      Denotes (.text (s ++ js ".." ++ t)) (Set.Ico n m)
  | inclusiveText {s t : JsString} {n m : ℕ} (hs : naturalOfText 10 s = some n)
      (ht : naturalOfText 10 t = some m) (hn : n < 2 ^ 53) (hm : m < 2 ^ 53) :
      Denotes (.text (s ++ js "..=" ++ t)) (Set.Icc n m)
  | range {input : IntegerRangeInput} {r : IntegerRange} {S : Set ℕ} (h : Denotes input S)
      (hr : IntegerRange.ofInput input = .ok r) : Denotes (.range r) S
  | inclusiveTuple {x y : Number} {n m : ℕ} {r : IntegerRange} (hx : x.IsInteger n)
      (hy : y.IsInteger m) (hn : n < 2 ^ 53) (hm : m < 2 ^ 53)
      (hr : IntegerRange.inclusive (.tuple x y) = .ok r) : Denotes (.range r) (Set.Icc n m)
  | exclusiveTuple {x y : Number} {n m : ℕ} {r : IntegerRange} (hx : x.IsInteger n)
      (hy : y.IsInteger m) (hn : n < 2 ^ 53) (hm : m < 2 ^ 53)
      (hr : IntegerRange.exclusive (.tuple x y) = .ok r) : Denotes (.range r) (Set.Ico n m)
  | inclusive {r r' : IntegerRange} {S : Set ℕ} (h : Denotes (.range r) S)
      (hr : IntegerRange.inclusive (.range r) = .ok r') : Denotes (.range r') S
  | exclusive {r r' : IntegerRange} {S : Set ℕ} (h : Denotes (.range r) S)
      (hr : IntegerRange.exclusive (.range r) = .ok r') : Denotes (.range r') S

/-- The bound behind the last value of a range with this upper bound. -/
def RangeTag.stop (tag : RangeTag) (max : ℤ) : ℤ :=
  match tag with
  | .inclusive => max + 1
  | .exclusive => max

/-- A range with exact bounds, which holds the numbers of `S`. -/
def Represents (r : IntegerRange) (S : Set ℕ) : Prop :=
  ∃ (n stop : ℕ) (max : ℤ), r.min.IsInteger n ∧ r.max.IsInteger max ∧ r.tag.stop max = stop ∧
    n < 2 ^ 53 ∧ stop ≤ 2 ^ 53 ∧ S = Set.Ico n stop

theorem IntegerRange.exclusive_of_not (r : IntegerRange) (h : ¬ r.isInclusive = true) :
    r.tag = .exclusive := by
  cases heq : r.tag with
  | exclusive => rfl
  | inclusive => simp [IntegerRange.isInclusive, heq] at h

theorem IntegerRange.inclusive_of_not (r : IntegerRange) (h : ¬ r.isExclusive = true) :
    r.tag = .inclusive := by
  cases heq : r.tag with
  | inclusive => rfl
  | exclusive => simp [IntegerRange.isExclusive, heq] at h

theorem one_isInteger : IntegerRange.one.IsInteger 1 := Number.ofInt_isInteger (by decide)

theorem represents_exclusive {x y : Number} {n m : ℕ} (hx : x.IsInteger n) (hy : y.IsInteger m)
    (hn : n < 2 ^ 53) (hm : m ≤ 2 ^ 53) : Represents ⟨.exclusive, x, y⟩ (Set.Ico n m) :=
  ⟨n, m, m, hx, hy, rfl, hn, hm, rfl⟩

theorem represents_inclusive {x y : Number} {n m : ℕ} (hx : x.IsInteger n) (hy : y.IsInteger m)
    (hn : n < 2 ^ 53) (hm : m < 2 ^ 53) : Represents ⟨.inclusive, x, y⟩ (Set.Icc n m) := by
  refine ⟨n, m + 1, m, hx, hy, ?_, hn, hm, ?_⟩
  · rw [RangeTag.stop, Nat.cast_add, Nat.cast_one]
  · ext k
    rw [Set.mem_Icc, Set.mem_Ico, Nat.lt_succ_iff]

/-- The conversions hold the same numbers. -/
theorem Represents.inclusive {r r' : IntegerRange} {S : Set ℕ} (h : Represents r S)
    (hr : IntegerRange.inclusive (.range r) = .ok r') : Represents r' S := by
  obtain ⟨n, stop, max, hmin, hmax, hstop, hn, hle, hS⟩ := h
  rw [IntegerRange.inclusive] at hr
  split_ifs at hr with htag
  · cases hr
    exact ⟨n, stop, max, hmin, hmax, hstop, hn, hle, hS⟩
  · cases hr
    have hexclusive : r.tag = .exclusive := r.exclusive_of_not htag
    rw [hexclusive, RangeTag.stop] at hstop
    refine ⟨n, stop, max - 1, hmin, hmax.sub one_isInteger (by omega), ?_, hn, hle, hS⟩
    change max - 1 + 1 = (stop : ℤ)
    omega

theorem Represents.exclusive {r r' : IntegerRange} {S : Set ℕ} (h : Represents r S)
    (hr : IntegerRange.exclusive (.range r) = .ok r') : Represents r' S := by
  obtain ⟨n, stop, max, hmin, hmax, hstop, hn, hle, hS⟩ := h
  rw [IntegerRange.exclusive] at hr
  split_ifs at hr with htag
  · cases hr
    exact ⟨n, stop, max, hmin, hmax, hstop, hn, hle, hS⟩
  · cases hr
    have hinclusive : r.tag = .inclusive := r.inclusive_of_not htag
    rw [hinclusive, RangeTag.stop] at hstop
    refine ⟨n, stop, max + 1, hmin, hmax.add one_isInteger (by omega), ?_, hn, hle, hS⟩
    change max + 1 = (stop : ℤ)
    omega

theorem digits_head {t : JsString} {m : ℕ} (ht : naturalOfText 10 t = some m) :
    t.head? ≠ some 0x3D := by
  intro hhead
  have hdigit := List.all_eq_true.mp (naturalOfText_all ht).2 _ (List.mem_of_head? hhead)
  cases hdigit

theorem takeWhile_digits {t : JsString} {m : ℕ} (ht : naturalOfText 10 t = some m) :
    t.takeWhile isDecimalDigit = t :=
  List.takeWhile_eq_self_iff.mpr (List.all_eq_true.mp (naturalOfText_all ht).2)

/-- Every notation is read as a range that holds the numbers it denotes. -/
theorem Denotes.represents {input : IntegerRangeInput} {S : Set ℕ} (h : Denotes input S) :
    ∃ r, IntegerRange.ofInput input = .ok r ∧ Represents r S := by
  induction h with
  | tuple hx hy hn hm => exact ⟨_, rfl, represents_exclusive hx hy hn hm.le⟩
  | @exclusiveText s t n m hs ht hn hm =>
    have hmatch : matchRange (s ++ js ".." ++ t) = some ⟨s, [], t⟩ := by
      rw [matchRange_exclusive (naturalOfText_all hs).2 (digits_head ht), takeWhile_digits ht]
    refine ⟨_, ?_, represents_exclusive (Number.ofMagnitude_natCast hn.le)
      (Number.ofMagnitude_natCast hm.le) hn hm.le⟩
    rw [IntegerRange.ofInput, IntegerRange.make, hmatch]
    dsimp only
    rw [stringToNumber_digits hs, stringToNumber_digits ht]
    rfl
  | @inclusiveText s t n m hs ht hn hm =>
    have hmatch : matchRange (s ++ js "..=" ++ t) = some ⟨s, js "=", t⟩ := by
      rw [matchRange_inclusive (naturalOfText_all hs).2, takeWhile_digits ht]
    refine ⟨_, ?_, represents_inclusive (Number.ofMagnitude_natCast hn.le)
      (Number.ofMagnitude_natCast hm.le) hn hm⟩
    rw [IntegerRange.ofInput, IntegerRange.make, hmatch]
    dsimp only
    rw [stringToNumber_digits hs, stringToNumber_digits ht]
    rfl
  | range h hr ih =>
    obtain ⟨r, hr', hrep⟩ := ih
    rw [hr] at hr'
    cases hr'
    exact ⟨_, rfl, hrep⟩
  | inclusiveTuple hx hy hn hm hr =>
    cases hr
    exact ⟨_, rfl, represents_inclusive hx hy hn hm⟩
  | exclusiveTuple hx hy hn hm hr =>
    cases hr
    exact ⟨_, rfl, represents_exclusive hx hy hn hm.le⟩
  | inclusive h hr ih =>
    obtain ⟨r, hr', hrep⟩ := ih
    cases hr'
    exact ⟨_, rfl, hrep.inclusive hr⟩
  | exclusive h hr ih =>
    obtain ⟨r, hr', hrep⟩ := ih
    cases hr'
    exact ⟨_, rfl, hrep.exclusive hr⟩

/-! ## Membership -/

/-- A number of bytes too large to be exact is above every bound. -/
theorem ofInt_lt_iff {k stop : ℕ} {y : Number} (hy : y.IsInteger stop) (hle : stop ≤ 2 ^ 53) :
    (Number.ofInt k).lt y = true ↔ k < stop := by
  by_cases hk : k ≤ 2 ^ 53
  · have hlt := (Number.ofInt_isInteger (n := k) (by omega)).lt_iff hy
    rw [hlt, Nat.cast_lt]
  · have hlarge := le_nearestDouble (n := k) (by omega)
    obtain ⟨negative, magnitude, isDouble, rfl, hvalue⟩ := Number.isInteger_iff.mp hy
    refine iff_of_false ?_ (by omega)
    rw [Number.ofInt, if_neg (by omega), Int.natAbs_natCast, Number.ofMagnitude]
    split_ifs with hdouble
    · rw [Number.lt, hvalue, decide_eq_true_eq, Number.signedValue, if_neg Bool.false_ne_true, not_lt]
      refine le_trans ?_ hlarge
      exact_mod_cast hle
    · rw [Number.lt]
      exact Bool.false_ne_true

theorem containsExclusive_iff {tag : RangeTag} {x y : Number} {n stop k : ℕ} (hx : x.IsInteger n)
    (hy : y.IsInteger stop) (hle : stop ≤ 2 ^ 53) :
    IntegerRange.containsExclusive ⟨tag, x, y⟩ (.ofInt k) = true ↔ k ∈ Set.Ico n stop := by
  rw [IntegerRange.containsExclusive, Bool.and_eq_true, ofInt_lt_iff hy hle, Set.mem_Ico]
  refine and_congr_left fun hlt => ?_
  have hge := (Number.ofInt_isInteger (n := k) (by omega)).ge_iff hx
  rw [hge, Nat.cast_le]

theorem Represents.contains_iff {r : IntegerRange} {S : Set ℕ} (h : Represents r S) (k : ℕ) :
    r.contains (.ofInt k) = true ↔ k ∈ S := by
  obtain ⟨n, stop, max, hmin, hmax, hstop, hn, hle, rfl⟩ := h
  rw [IntegerRange.contains]
  split_ifs with htag
  · have hinclusive : r.tag = .inclusive := by simpa [IntegerRange.isInclusive] using htag
    rw [hinclusive, RangeTag.stop] at hstop
    have hbehind := hmax.add one_isInteger (by omega)
    rw [hstop] at hbehind
    exact containsExclusive_iff hmin hbehind hle
  · rw [r.exclusive_of_not htag, RangeTag.stop] at hstop
    rw [hstop] at hmax
    exact containsExclusive_iff hmin hmax hle

/-! ## The constructors -/

/-- With the prefix exactly if it is required, and so many bytes. -/
structure ConstrainedHex (requirePrefix : Bool) (S : Set ℕ) (source : JsString) : Prop where
  hasPrefix : (js "0x").isPrefixOf source = requirePrefix
  bytes : ∃ bytes, bytes ≠ [] ∧ HexDigits (hexBody source) bytes ∧ bytes.length ∈ S

theorem makeHex_eq_ok {options : HexConstraints} {source : JsString} :
    makeHex options source = .ok source ↔ refineHex options source = .ok none := by
  rw [makeHex, except_bind_ok]
  constructor
  · rintro ⟨result, hresult, h⟩
    cases result with
    | none => exact hresult
    | some message => cases h
  · exact fun h => ⟨none, h, rfl⟩

/-- Of a text that is hex, the prefix is checked first and the byte length last. -/
theorem refineHex_of_parsed {input : IntegerRangeInput} {r : IntegerRange} (requirePrefix : Bool)
    {source : JsString} {parsedHex : ParsedHexString} (hr : IntegerRange.ofInput input = .ok r)
    (hinput : input ≠ .text []) (hparse : parseHex source = .ok parsedHex) :
    refineHex ⟨requirePrefix, some input⟩ source =
      if requirePrefix && !parsedHex.hasPrefix then
        .ok (some (js "Source string '" ++ source ++ js "' requires a '0x' prefix"))
      else if !requirePrefix && parsedHex.hasPrefix then
        .ok (some (js "Source string '" ++ source ++
          js "' has a '0x' prefix but prefixes are not allowed"))
      else if !r.contains (.ofInt ((parsedHex.byteChars.length / 2 : ℕ) : ℤ)) then
        .ok (some (js "Source string '" ++ source ++ js "' has a byte length of " ++
          (Number.ofInt ((parsedHex.byteChars.length / 2 : ℕ) : ℤ)).text ++
          js ", but expected " ++ r.toString))
      else .ok none := by
  rw [refineHex, hparse]
  dsimp only
  split
  · rfl
  · split
    · rfl
    · split
      · rename_i heq
        cases heq
      · rename_i heq
        exact absurd (Option.some.inj heq) hinput
      · rename_i heq
        cases heq
        rw [hr]
        rfl

/-- A text is accepted if it is hex, has the right prefix and a length in the range. -/
theorem refineHex_eq {input : IntegerRangeInput} {r : IntegerRange} (requirePrefix : Bool)
    (source : JsString) (hr : IntegerRange.ofInput input = .ok r)
    (hinput : input ≠ .text []) : refineHex ⟨requirePrefix, some input⟩ source = .ok none ↔
      ∃ parsedHex, parseHex source = .ok parsedHex ∧ parsedHex.hasPrefix = requirePrefix ∧
        r.contains (.ofInt ((parsedHex.byteChars.length / 2 : ℕ) : ℤ)) = true := by
  cases hparse : parseHex source with
  | error e => simp [refineHex, hparse]
  | ok parsedHex =>
    rw [refineHex_of_parsed requirePrefix hr hinput hparse]
    constructor
    · intro h
      split_ifs at h with hmissing hunexpected hlength
      · cases h
      · cases h
      · cases h
      · refine ⟨parsedHex, rfl, ?_, by simpa using hlength⟩
        revert hmissing hunexpected
        cases requirePrefix <;> cases parsedHex.hasPrefix <;> decide
    · rintro ⟨_, heq, hprefixed, hcontains⟩
      cases heq
      rw [← hprefixed, hcontains]
      cases parsedHex.hasPrefix <;> rfl

theorem Denotes.input_ne {input : IntegerRangeInput} {S : Set ℕ} (h : Denotes input S) :
    input ≠ .text [] := by
  rintro rfl
  obtain ⟨r, hr, -⟩ := h.represents
  cases hr

/-- Whatever the notation, the texts of the lengths that it denotes are accepted. -/
theorem makeHex_iff {input : IntegerRangeInput} {S : Set ℕ} (h : Denotes input S)
    (requirePrefix : Bool) (source : JsString) :
    makeHex ⟨requirePrefix, some input⟩ source = .ok source ↔
      ConstrainedHex requirePrefix S source := by
  obtain ⟨r, hr, hrep⟩ := h.represents
  rw [makeHex_eq_ok, refineHex_eq requirePrefix source hr h.input_ne]
  simp only [hrep.contains_iff]
  constructor
  · rintro ⟨parsedHex, hparse, hprefixed, hlength⟩
    obtain ⟨hrest, hne, rfl⟩ := parseHex_eq_ok.mp hparse
    obtain ⟨bytes, hdigits⟩ := hexPairs_rest.mp hrest
    refine ⟨hprefixed, bytes, fun hnil => hne (hdigits.nil_iff.mpr hnil), hdigits, ?_⟩
    rwa [hdigits.digits.2, Nat.mul_div_cancel_left _ (by norm_num)] at hlength
  · rintro ⟨hprefixed, bytes, hne, hdigits, hlength⟩
    refine ⟨_, parseHex_eq_ok.mpr ⟨hexPairs_rest.mpr ⟨bytes, hdigits⟩,
      fun hnil => hne (hdigits.nil_iff.mp hnil), rfl⟩, hprefixed, ?_⟩
    rwa [hdigits.digits.2, Nat.mul_div_cancel_left _ (by norm_num)]

/-- The constructors decide the language of their constraint, and notations of one set agree. -/
theorem constrained_hex {input : IntegerRangeInput} {S : Set ℕ} (h : Denotes input S) :
    (∀ requirePrefix source, makeHex ⟨requirePrefix, some input⟩ source = .ok source ↔
      ConstrainedHex requirePrefix S source) ∧
    ∀ input', Denotes input' S → ∀ requirePrefix source,
      makeHex ⟨requirePrefix, some input'⟩ source = .ok source ↔
        makeHex ⟨requirePrefix, some input⟩ source = .ok source := by
  refine ⟨makeHex_iff h, fun input' h' requirePrefix source => ?_⟩
  rw [makeHex_iff h, makeHex_iff h']

namespace Sample

/-- The lengths from one to two, in two notations. -/
theorem denotes_text : Denotes (.text (js "1..3")) (Set.Ico 1 3) :=
  .exclusiveText (s := js "1") (t := js "3") (by decide) (by decide) (by decide) (by decide)

theorem denotes_tuple : Denotes (.tuple (.ofInt 1) (.ofInt 3)) (Set.Ico 1 3) :=
  .tuple (n := 1) (m := 3) (Number.ofInt_isInteger (by decide)) (Number.ofInt_isInteger (by decide))
    (by decide) (by decide)

theorem hex_of_one_to_two : (makeHex ⟨true, some (.text (js "1..3"))⟩ (js "0xabcd") =
      .ok (js "0xabcd") ↔ ConstrainedHex true (Set.Ico 1 3) (js "0xabcd")) ∧
    (makeHex ⟨true, some (.tuple (.ofInt 1) (.ofInt 3))⟩ (js "0xabcd") = .ok (js "0xabcd") ↔
      makeHex ⟨true, some (.text (js "1..3"))⟩ (js "0xabcd") = .ok (js "0xabcd")) :=
  ⟨(constrained_hex denotes_text).1 true (js "0xabcd"),
    (constrained_hex denotes_text).2 _ denotes_tuple true (js "0xabcd")⟩

end Sample

end MidnightJs.PlatformJs
