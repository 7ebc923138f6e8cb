import MidnightJs.Foundations.Number
import MidnightJs.Foundations.JsonRoundTrip

/-! # The text of a number reads back

`stringToNumber_text`: the text of a finite number other than negative zero is read as that number.
The text is a number literal of JSON, too, and small integers have the text they have as a `bigint`. -/

namespace Foundations.Js
set_option autoImplicit false

/-! ## The shortest decimal -/

theorem other_neighbour (q : ℚ) (h : 0 ≤ q) :
    0 ≤ roundHalfEven q ∧ 0 ≤ 2 * ⌊q⌋ + 1 - roundHalfEven q := by
  have hfloor : 0 ≤ ⌊q⌋ := Int.floor_nonneg.mpr h
  have hcases := roundHalfEven_cases q
  omega

theorem nearestDouble_shortestFrom {x : ℚ} (hx : IsDouble x) (fuel : ℕ) (p : ℤ)
    (hfuel : (fuel : ℤ) = p + 1074) :
    nearestDouble ((shortestFrom x fuel p).1 * 10 ^ (shortestFrom x fuel p).2) = x := by
  induction fuel generalizing p with
  | zero =>
    obtain ⟨n, hn⟩ := hx.decimal
    have hp : p = -1074 := by omega
    have hten : (10 : ℚ) ^ (-1074 : ℤ) ≠ 0 := zpow_ne_zero _ (by norm_num)
    have hdiv : x / 10 ^ (-1074 : ℤ) = (n : ℤ) := by
      rw [div_eq_iff hten]
      exact_mod_cast hn
    rw [hp, shortestFrom, hdiv, Int.floor_intCast, Int.toNat_natCast, ← hn]
    exact hx.2.1
  | succ fuel ih =>
    have hnonneg : 0 ≤ x / 10 ^ p := div_nonneg hx.1 (by positivity)
    obtain ⟨hnearer, hother⟩ := other_neighbour _ hnonneg
    have cast : ∀ m : ℤ, 0 ≤ m → ((m.toNat : ℕ) : ℚ) = m := by
      intro m hm
      exact_mod_cast Int.toNat_of_nonneg hm
    rw [shortestFrom]
    split_ifs with h h'
    · rw [cast _ hnearer]
      exact h
    · rw [cast _ hother]
      exact h'
    · exact ih (p - 1) (by omega)

theorem nearestDouble_shortestDecimal {x : ℚ} (hx : IsDouble x) (hpos : 0 < x) :
    nearestDouble ((shortestDecimal x).1 * 10 ^ (shortestDecimal x).2) = x := by
  refine nearestDouble_shortestFrom hx _ _ ?_
  obtain ⟨n, hn⟩ := hx.decimal
  have hlog : (-1074 : ℤ) ≤ Int.log 10 x := by
    refine (Int.zpow_le_iff_le_log (by norm_num) hpos).mp ?_
    have hone : (1 : ℚ) ≤ n := by
      have hne : n ≠ 0 := by
        rintro rfl
        rw [hn] at hpos
        simp at hpos
      exact_mod_cast Nat.one_le_iff_ne_zero.mpr hne
    calc (((10 : ℕ) : ℚ)) ^ (-1074 : ℤ) = 1 * 10 ^ (-1074 : ℤ) := by rw [one_mul, Nat.cast_ofNat]
      _ ≤ n * 10 ^ (-1074 : ℤ) := mul_le_mul_of_nonneg_right hone (by positivity)
      _ = x := hn.symm
  omega

theorem shortestDecimal_pos {x : ℚ} (hx : IsDouble x) (hpos : 0 < x) : 0 < (shortestDecimal x).1 := by
  by_contra hzero
  have h := nearestDouble_shortestDecimal hx hpos
  rw [show (shortestDecimal x).1 = 0 by omega, Nat.cast_zero, zero_mul, nearestDouble_zero] at h
  exact absurd h hpos.ne

/-! ## Significant digits -/

/-- The number that decimal digits write. -/
def decimalNumber (digits : List ℕ) : ℕ := Nat.ofDigits 10 digits.reverse

theorem decimalNumber_append_zeros (digits : List ℕ) (k : ℕ) :
    decimalNumber (digits ++ List.replicate k 0) = decimalNumber digits * 10 ^ k := by
  simp [decimalNumber, Nat.ofDigits_append, Nat.ofDigits_replicate_zero, mul_comm]

theorem decimalNumber_zeros_append (digits : List ℕ) (k : ℕ) :
    decimalNumber (List.replicate k 0 ++ digits) = decimalNumber digits := by
  simp [decimalNumber, Nat.ofDigits_append, Nat.ofDigits_replicate_zero]

theorem dropWhile_zero (l : List ℕ) :
    l = List.replicate (l.length - (l.dropWhile (· = 0)).length) 0 ++ l.dropWhile (· = 0) := by
  induction l with
  | nil => rfl
  | cons d l ih =>
    by_cases hd : d = 0
    · subst hd
      have hle := (l.dropWhile_sublist (· = 0)).length_le
      rw [List.dropWhile_cons_of_pos (by simp), List.length_cons, Nat.succ_sub hle,
        List.replicate_succ, List.cons_append, ← ih]
    · simp [hd]

structure SignificantDigits (n : ℕ) (digits : List ℕ) : Prop where
  ne_nil : digits ≠ []
  head_ne_zero : digits.head? ≠ some 0
  digit : ∀ d ∈ digits, d < 10
  length_le : digits.length ≤ (Nat.digits 10 n).length
  value : decimalNumber digits * 10 ^ ((Nat.digits 10 n).length - digits.length) = n

theorem significantDigits_spec {n : ℕ} (h : 0 < n) : SignificantDigits n (significantDigits n) := by
  obtain ⟨rest, hrest⟩ : ∃ rest, (Nat.digits 10 n).dropWhile (· = 0) = rest := ⟨_, rfl⟩
  have hsplit := dropWhile_zero (Nat.digits 10 n)
  rw [hrest] at hsplit
  have hvalue : Nat.ofDigits 10 rest * 10 ^ ((Nat.digits 10 n).length - rest.length) = n := by
    have hdigits := Nat.ofDigits_digits 10 n
    rw [hsplit, Nat.ofDigits_append, Nat.ofDigits_replicate_zero, List.length_replicate,
      zero_add, mul_comm] at hdigits
    exact hdigits
  have hne : rest ≠ [] := by
    rintro rfl
    rw [Nat.ofDigits_nil, zero_mul] at hvalue
    omega
  have hsub : rest.Sublist (Nat.digits 10 n) := hrest ▸ List.dropWhile_sublist _
  unfold significantDigits
  rw [hrest]
  refine ⟨by simpa using hne, ?_, fun d hd => ?_, by simpa using hsub.length_le, ?_⟩
  · have hdigits : Nat.digits 10 n ≠ [] := Nat.digits_ne_nil_iff_ne_zero.mpr (by omega)
    have hlast : (Nat.digits 10 n).getLast? = rest.getLast? := by
      rw [hsplit, List.getLast?_append, List.getLast?_eq_getLast_of_ne_nil hne, Option.some_or]
    rw [List.head?_reverse, ← hlast, List.getLast?_eq_getLast_of_ne_nil hdigits]
    intro hzero
    exact Nat.getLast_digit_ne_zero 10 (by omega) (Option.some.inj hzero)
  · exact Nat.digits_lt_base (by norm_num) (hsub.subset (List.mem_reverse.mp hd))
  · rw [decimalNumber, List.reverse_reverse, List.length_reverse]
    exact hvalue

/-! ## Decimal literals -/

def exponentText (e : ℤ) : JsString :=
  0x65 :: (if 0 ≤ e then 0x2B else 0x2D) :: naturalText e.natAbs

def fractionText (fraction : List ℕ) : JsString :=
  if fraction = [] then [] else 0x2E :: fraction.map digitUnit

/-- The literal of the digits before and after the point and of the exponent. -/
def literalText (whole fraction : List ℕ) (exponent : Option ℤ) : JsString :=
  whole.map digitUnit ++ fractionText fraction ++ exponent.elim [] exponentText

def literalValue (whole fraction : List ℕ) (exponent : Option ℤ) : ℚ :=
  decimalNumber (whole ++ fraction) * 10 ^ (exponent.getD 0 - fraction.length)

/-- Digits, at least one before the point, and no leading zero but a single one. -/
structure LiteralParts (whole fraction : List ℕ) : Prop where
  ne_nil : whole ≠ []
  no_leading_zero : whole = [0] ∨ whole.head? ≠ some 0
  digit : ∀ d ∈ whole ++ fraction, d < 10

/-- A literal of the number with these digits, the first of which stands before the place `n`. -/
def LiteralOf (digits : List ℕ) (n : ℤ) (text : JsString) : Prop :=
  ∃ whole fraction exponent, LiteralParts whole fraction ∧
    text = literalText whole fraction exponent ∧
    literalValue whole fraction exponent = decimalNumber digits * 10 ^ (n - digits.length)

section
variable {digits : List ℕ} {n : ℤ} (hne : digits ≠ []) (hhead : digits.head? ≠ some 0)
  (hdigit : ∀ d ∈ digits, d < 10)
include hne hdigit

theorem literalOf_zeros_before (h : n ≤ 0) : LiteralOf digits n
    (0x30 :: 0x2E :: (List.replicate (-n).toNat 0x30 ++ digits.map digitUnit)) := by
  refine ⟨[0], List.replicate (-n).toNat 0 ++ digits, none, ⟨by simp, .inl rfl, ?_⟩, ?_, ?_⟩
  · intro d hd
    simp only [List.mem_append, List.mem_singleton] at hd
    rcases hd with rfl | hd | hd
    · norm_num
    · rw [List.eq_of_mem_replicate hd]
      norm_num
    · exact hdigit d hd
  · simp [literalText, fractionText, digitUnit, hne]
  · have hplace : (0 : ℤ) - (((-n).toNat + digits.length : ℕ) : ℤ) = n - digits.length := by omega
    have hzeros : [0] ++ (List.replicate (-n).toNat 0 ++ digits) =
        List.replicate ((-n).toNat + 1) 0 ++ digits := by
      rw [List.replicate_succ, List.cons_append, List.cons_append, List.nil_append]
    rw [literalValue, hzeros, decimalNumber_zeros_append, Option.getD_none, List.length_append,
      List.length_replicate, hplace]

include hhead

theorem literalOf_zeros_behind (h : digits.length ≤ n) : LiteralOf digits n
    (digits.map digitUnit ++ List.replicate (n.toNat - digits.length) 0x30) := by
  refine ⟨digits ++ List.replicate (n.toNat - digits.length) 0, [], none,
    ⟨by simp [hne], ?_, ?_⟩, ?_, ?_⟩
  · rw [List.head?_append_of_ne_nil _ hne]
    exact .inr hhead
  · intro d hd
    rw [List.append_nil, List.mem_append] at hd
    rcases hd with hd | hd
    · exact hdigit d hd
    · rw [List.eq_of_mem_replicate hd]
      norm_num
  · simp [literalText, fractionText, digitUnit]
  · have hplace : (((n.toNat - digits.length : ℕ) : ℤ)) = n - digits.length := by omega
    rw [literalValue, List.append_nil, decimalNumber_append_zeros, Option.getD_none,
      List.length_nil, Nat.cast_mul, Nat.cast_pow, Nat.cast_ofNat, ← zpow_natCast, hplace]
    simp

theorem literalOf_point (hpos : 0 < n) (h : n < digits.length) : LiteralOf digits n
    ((digits.map digitUnit).take n.toNat ++ 0x2E :: (digits.map digitUnit).drop n.toNat) := by
  have hsome : digits.drop n.toNat ≠ [] := by
    rw [Ne, List.drop_eq_nil_iff]
    omega
  have hfirst : digits.take n.toNat ≠ [] := by
    rw [Ne, List.take_eq_nil_iff, not_or]
    exact ⟨by omega, hne⟩
  refine ⟨digits.take n.toNat, digits.drop n.toNat, none, ⟨hfirst, ?_, ?_⟩, ?_, ?_⟩
  · rw [List.head?_take]
    exact .inr (by rwa [if_neg (by omega)])
  · rwa [List.take_append_drop]
  · simp [literalText, fractionText, hsome]
  · have hplace : (0 : ℤ) - ((digits.length - n.toNat : ℕ) : ℤ) = n - digits.length := by omega
    rw [literalValue, List.take_append_drop, Option.getD_none, List.length_drop, hplace]

theorem literalOf_exponent : LiteralOf digits n ((digits.map digitUnit).take 1 ++
    (if digits.length = 1 then [] else 0x2E :: (digits.map digitUnit).drop 1) ++
      0x65 :: (if 0 < n then 0x2B else 0x2D) :: naturalText (n - 1).natAbs) := by
  obtain ⟨d, rest, rfl⟩ := List.exists_cons_of_ne_nil hne
  refine ⟨[d], rest, some (n - 1), ⟨by simp, .inr (by simpa using hhead), hdigit⟩, ?_, ?_⟩
  · have hsign : (0 ≤ n - 1) = (0 < n) := by
      rw [eq_iff_iff]
      omega
    simp only [literalText, fractionText, exponentText, Option.elim_some, hsign]
    cases rest <;> simp
  · have hplace : n - 1 - (rest.length : ℤ) = n - ((d :: rest).length : ℕ) := by
      rw [List.length_cons]
      omega
    rw [literalValue, Option.getD_some, hplace, List.singleton_append]

end

theorem decimalText_literal {digits : List ℕ} (n : ℤ) (hne : digits ≠ [])
    (hhead : digits.head? ≠ some 0) (hdigit : ∀ d ∈ digits, d < 10) :
    ∃ whole fraction exponent, LiteralParts whole fraction ∧
      decimalText digits n = literalText whole fraction exponent ∧
      literalValue whole fraction exponent =
        decimalNumber digits * 10 ^ (n - digits.length) := by
  change LiteralOf digits n (decimalText digits n)
  have hlength : 0 < digits.length := List.length_pos_iff.mpr hne
  unfold decimalText
  dsimp only
  split
  · rename_i hbehind
    exact literalOf_zeros_behind hne hhead hdigit hbehind.1
  split
  · rename_i hbehind hpoint
    exact literalOf_point hne hhead hdigit hpoint.1 (by omega)
  split
  · rename_i hbefore
    exact literalOf_zeros_before hne hdigit hbefore.2
  · exact literalOf_exponent hne hhead hdigit

/-! ## Reading a decimal literal -/

theorem isDecimalDigit_digitUnit {d : ℕ} (h : d < 10) : isDecimalDigit (digitUnit d) = true := by
  interval_cases d <;> decide

/-- No decimal digit comes first. -/
def NoDigitFirst (rest : JsString) : Prop := ∀ u t, rest = u :: t → isDecimalDigit u = false

theorem noDigitFirst_exponent (exponent : Option ℤ) :
    NoDigitFirst (exponent.elim [] exponentText) := by
  intro u t h
  cases exponent with
  | none => cases h
  | some e =>
    cases h
    decide

theorem noDigitFirst_fraction (fraction : List ℕ) (exponent : Option ℤ) :
    NoDigitFirst (fractionText fraction ++ exponent.elim [] exponentText) := by
  unfold fractionText
  split
  · exact noDigitFirst_exponent exponent
  · intro u t h
    cases h
    decide

theorem span_digits {digits : List ℕ} {rest : JsString} (h : ∀ d ∈ digits, d < 10)
    (hrest : NoDigitFirst rest) :
    (digits.map digitUnit ++ rest).takeWhile isDecimalDigit = digits.map digitUnit ∧
      (digits.map digitUnit ++ rest).dropWhile isDecimalDigit = rest := by
  have hall : ∀ u ∈ digits.map digitUnit, isDecimalDigit u = true := by
    intro u hu
    obtain ⟨d, hd, rfl⟩ := List.mem_map.mp hu
    exact isDecimalDigit_digitUnit (h d hd)
  rw [List.takeWhile_append_of_pos hall, List.dropWhile_append_of_pos hall]
  cases rest with
  | nil => simp
  | cons u t => simp [hrest u t rfl]

theorem naturalOfText_digits {digits : List ℕ} (hne : digits ≠ []) (h : ∀ d ∈ digits, d < 10) :
    naturalOfText 10 (digits.map digitUnit) = some (decimalNumber digits) := by
  rw [naturalOfText, digitsValue_map digits h, zero_mul, zero_add]
  simp [hne, decimalNumber]

theorem exponentValue_exponent (exponent : Option ℤ) :
    exponentValue (exponent.elim [] exponentText) = some (exponent.getD 0) := by
  cases exponent with
  | none => rfl
  | some e =>
    have hvalue := naturalOfText_naturalText e.natAbs
    simp only [Option.elim_some, exponentText, Option.getD_some]
    by_cases he : 0 ≤ e
    · have habs : (e.natAbs : ℤ) = e := by omega
      simp [exponentValue, he, hvalue, habs]
    · have habs : -(e.natAbs : ℤ) = e := by omega
      simp only [exponentValue, he, if_false, true_or, if_true, hvalue, Option.map_some, habs]

theorem fractionDigits_literal {fraction : List ℕ} (exponent : Option ℤ)
    (h : ∀ d ∈ fraction, d < 10) :
    fractionDigits (fractionText fraction ++ exponent.elim [] exponentText) =
      (fraction.map digitUnit, exponent.elim [] exponentText) := by
  by_cases hnone : fraction = []
  · subst hnone
    cases exponent <;> rfl
  · obtain ⟨htake, hdrop⟩ := span_digits h (noDigitFirst_exponent exponent)
    rw [fractionText, if_neg hnone, List.cons_append, fractionDigits, htake, hdrop]

theorem decimalValue_literalText {whole fraction : List ℕ} (exponent : Option ℤ)
    (h : LiteralParts whole fraction) :
    decimalValue (literalText whole fraction exponent) =
      some (literalValue whole fraction exponent) := by
  have hwhole : ∀ d ∈ whole, d < 10 := fun d hd => h.digit d (List.mem_append_left _ hd)
  have hfraction : ∀ d ∈ fraction, d < 10 := fun d hd => h.digit d (List.mem_append_right _ hd)
  have hall := naturalOfText_digits (by simp [h.ne_nil]) h.digit
  rw [List.map_append] at hall
  obtain ⟨htake, hdrop⟩ := span_digits hwhole (noDigitFirst_fraction fraction exponent)
  unfold decimalValue literalText
  rw [List.append_assoc, htake, hdrop, fractionDigits_literal exponent hfraction]
  simp only [hall, exponentValue_exponent, literalValue, List.length_map]

/-! ## The text of a magnitude -/

theorem magnitudeText_literal {x : ℚ} (hx : IsDouble x) (hpos : 0 < x) :
    ∃ whole fraction exponent, LiteralParts whole fraction ∧
      magnitudeText x = literalText whole fraction exponent ∧
      nearestDouble (literalValue whole fraction exponent) = x := by
  have hdigits := significantDigits_spec (shortestDecimal_pos hx hpos)
  obtain ⟨whole, fraction, exponent, hparts, htext, hvalue⟩ :=
    decimalText_literal ((shortestDecimal x).2 + (Nat.digits 10 (shortestDecimal x).1).length)
      hdigits.ne_nil hdigits.head_ne_zero hdigits.digit
  refine ⟨whole, fraction, exponent, hparts, htext, ?_⟩
  have hround := nearestDouble_shortestDecimal hx hpos
  have hlength := hdigits.length_le
  have hplaces : ∀ k m : ℕ, k ≤ m → ∀ p : ℤ, p + m - k = ((m - k : ℕ) : ℤ) + p := by
    intro k m hkm p
    omega
  have hnumber : ((shortestDecimal x).1 : ℚ) =
      decimalNumber (significantDigits (shortestDecimal x).1) *
        10 ^ ((Nat.digits 10 (shortestDecimal x).1).length -
          (significantDigits (shortestDecimal x).1).length) := by
    exact_mod_cast hdigits.value.symm
  rw [hnumber, mul_assoc, ← zpow_natCast, ← zpow_add₀ (by norm_num), ← hplaces _ _ hlength] at hround
  rw [hvalue]
  exact hround

/-! ## Number literals of JSON -/

theorem isNumberUnit_digitUnit {d : ℕ} (h : d < 10) : isNumberUnit (digitUnit d) = true := by
  simp [isNumberUnit, isDecimalDigit_digitUnit h]

theorem all_map_digitUnit {digits : List ℕ} {test : UInt16 → Bool}
    (htest : ∀ d < 10, test (digitUnit d) = true) (h : ∀ d ∈ digits, d < 10) :
    (digits.map digitUnit).all test = true := by
  simp only [List.all_map, List.all_eq_true, Function.comp_apply]
  exact fun d hd => htest d (h d hd)

theorem all_exponentText {test : UInt16 → Bool} (e : ℤ) (htest : ∀ d < 10, test (digitUnit d) = true)
    (hmark : test 0x65 = true) (hplus : test 0x2B = true) (hminus : test 0x2D = true) :
    (exponentText e).all test = true := by
  obtain ⟨digits, -, hdigit, htext, -⟩ := naturalText_digits e.natAbs
  rw [exponentText, htext, List.all_cons, List.all_cons, all_map_digitUnit htest hdigit, hmark]
  split <;> simp [hplus, hminus]

theorem all_literalText {whole fraction : List ℕ} (exponent : Option ℤ)
    (h : LiteralParts whole fraction) :
    (literalText whole fraction exponent).all isNumberUnit = true := by
  have hwhole := all_map_digitUnit (fun _ => isNumberUnit_digitUnit)
    (fun d hd => h.digit d (List.mem_append_left _ hd))
  have hfraction := all_map_digitUnit (fun _ => isNumberUnit_digitUnit)
    (fun d hd => h.digit d (List.mem_append_right _ hd))
  unfold literalText
  rw [List.all_append, List.all_append, hwhole]
  have hexponent : (exponent.elim [] exponentText).all isNumberUnit = true := by
    cases exponent with
    | none => rfl
    | some e => exact all_exponentText e (fun _ => isNumberUnit_digitUnit) rfl rfl rfl
  rw [hexponent]
  unfold fractionText
  split
  · rfl
  · rw [List.all_cons, hfraction]
    rfl

theorem validExponent_exponent (exponent : Option ℤ) :
    validExponent (exponent.elim [] exponentText) = true := by
  cases exponent with
  | none => rfl
  | some e =>
    obtain ⟨digits, hne, hdigit, htext, -⟩ := naturalText_digits e.natAbs
    have hall := all_map_digitUnit (fun _ => isDecimalDigit_digitUnit) hdigit
    rw [Option.elim_some, exponentText, htext]
    split <;> simp [validExponent, hne, hall]

theorem validFraction_literal {fraction : List ℕ} (exponent : Option ℤ) (h : ∀ d ∈ fraction, d < 10) :
    validFraction (fractionText fraction ++ exponent.elim [] exponentText) = true := by
  have hexponent := validExponent_exponent exponent
  by_cases hnone : fraction = []
  · subst hnone
    rw [fractionText, if_pos rfl, List.nil_append]
    cases exponent <;> exact hexponent
  · obtain ⟨htake, hdrop⟩ := span_digits h (noDigitFirst_exponent exponent)
    rw [fractionText, if_neg hnone, List.cons_append, validFraction, htake, hdrop, hexponent]
    simp [hnone]

theorem digitUnit_inj {d d' : ℕ} (h : d < 10) (h' : d' < 10) (heq : digitUnit d = digitUnit d') :
    d = d' := by
  have hvalue := digitValue_digitUnit h
  rw [heq, digitValue_digitUnit h'] at hvalue
  exact (Option.some.inj hvalue).symm

theorem validNumber_signed {whole fraction : List ℕ} (exponent : Option ℤ) (negative : Bool)
    (h : LiteralParts whole fraction) :
    validNumber (signed negative (literalText whole fraction exponent)) = true := by
  have hfraction := validFraction_literal exponent
    (fun d hd => h.digit d (List.mem_append_right whole hd))
  obtain ⟨d, rest, rfl⟩ := List.exists_cons_of_ne_nil h.ne_nil
  have hd : d < 10 := h.digit d (by simp)
  have hrest : ∀ x ∈ rest, x < 10 := fun x hx => h.digit x (by simp [hx])
  obtain ⟨tail, htail⟩ : ∃ tail, literalText (d :: rest) fraction exponent = digitUnit d :: tail ∧
      tail = rest.map digitUnit ++ (fractionText fraction ++ exponent.elim [] exponentText) :=
    ⟨_, by simp [literalText], rfl⟩
  have hmagnitude : validMagnitude (digitUnit d :: tail) = true := by
    rw [validMagnitude]
    by_cases hzero : d = 0
    · have hnil : rest = [] := by
        rcases h.no_leading_zero with hw | hw
        · exact (List.cons.inj hw).2
        · exact absurd (by rw [hzero]; rfl) hw
      rw [if_pos (by rw [hzero]; rfl), htail.2, hnil]
      exact hfraction
    · have hunit : digitUnit d ≠ 0x30 := fun he => hzero (digitUnit_inj hd (by norm_num) he)
      have hdrop := (span_digits hrest (noDigitFirst_fraction fraction exponent)).2
      rw [if_neg hunit, htail.2, hdrop, isDecimalDigit_digitUnit hd, hfraction]
      rfl
  rw [htail.1]
  cases negative with
  | true => exact hmagnitude
  | false =>
    have hminus := (digitUnit_plain hd).2.1
    rw [signed, if_neg (by simp), validNumber, if_neg hminus]
    exact hmagnitude

/-! ## Reading a number's text -/

theorem numberUnit_not_space {u : UInt16} (h : isNumberUnit u = true) : isStrWhiteSpace u = false ∧
    u ∉ ([0x78, 0x58, 0x6F, 0x4F, 0x62, 0x42, 0x49] : JsString) := by
  simp only [isNumberUnit, isDecimalDigit, Bool.or_eq_true, Bool.and_eq_true, decide_eq_true_eq,
    beq_iff_eq] at h
  obtain ((((⟨hlow, hhigh⟩ | rfl) | rfl) | rfl) | rfl) | rfl := h
  · have hlow' : 0x30 ≤ u.toNat := UInt16.le_iff_toNat_le.mp hlow
    have hhigh' : u.toNat ≤ 0x39 := UInt16.le_iff_toNat_le.mp hhigh
    obtain ⟨n, hn⟩ : ∃ n, u.toNat = n := ⟨_, rfl⟩
    have hu : u = n.toUInt16 := by
      rw [← hn]
      exact UInt16.ofNat_toNat.symm
    subst hu
    rw [hn] at hlow' hhigh'
    interval_cases n <;> decide
  all_goals decide

theorem unsignedNumber_literal {whole fraction : List ℕ} (exponent : Option ℤ)
    (h : LiteralParts whole fraction) : unsignedNumber (literalText whole fraction exponent) =
      .ofMagnitude (literalValue whole fraction exponent) := by
  have hunits := all_literalText exponent h
  rw [unsignedNumber, decimalValue_literalText exponent h, if_neg]
  intro heq
  rw [heq] at hunits
  exact absurd hunits (by decide)

theorem trim_signed {text : JsString} (negative : Bool)
    (h : ∀ u ∈ text, isStrWhiteSpace u = false) :
    trim (signed negative text) = signed negative text := by
  refine trim_of_no_space fun u hu => ?_
  cases negative with
  | false => exact h u hu
  | true =>
    rcases List.mem_cons.mp hu with rfl | hu
    · rfl
    · exact h u hu

/-- A literal starts with a digit, and has no space and no base prefix in it. -/
theorem literalText_head {whole fraction : List ℕ} (exponent : Option ℤ)
    (h : LiteralParts whole fraction) :
    ∃ d tail, d < 10 ∧ literalText whole fraction exponent = digitUnit d :: tail ∧
      ∀ u ∈ digitUnit d :: tail, isStrWhiteSpace u = false ∧
        u ∉ ([0x78, 0x58, 0x6F, 0x4F, 0x62, 0x42, 0x49] : JsString) := by
  have hunits := all_literalText exponent h
  obtain ⟨d, rest, rfl⟩ := List.exists_cons_of_ne_nil h.ne_nil
  obtain ⟨tail, htail⟩ : ∃ tail, literalText (d :: rest) fraction exponent = digitUnit d :: tail :=
    ⟨_, by rw [literalText, List.map_cons, List.cons_append, List.cons_append]⟩
  rw [htail] at hunits
  exact ⟨d, tail, h.digit d (by simp), htail,
    fun u hu => numberUnit_not_space (List.all_eq_true.mp hunits u hu)⟩

theorem stringToNumber_signed {whole fraction : List ℕ} (exponent : Option ℤ) (negative : Bool)
    (h : LiteralParts whole fraction) :
    stringToNumber (signed negative (literalText whole fraction exponent)) =
      if negative then (Number.ofMagnitude (literalValue whole fraction exponent)).neg
      else .ofMagnitude (literalValue whole fraction exponent) := by
  have hvalue := unsignedNumber_literal exponent h
  obtain ⟨d, tail, hd, htail, hplain⟩ := literalText_head exponent h
  have htrim := trim_signed negative fun u hu => (hplain u hu).1
  rw [htail] at hvalue ⊢
  rw [stringToNumber, htrim]
  cases negative with
  | true => exact congrArg Number.neg hvalue
  | false =>
    obtain ⟨-, hminus, hplus, -⟩ := digitUnit_plain hd
    rw [signed, if_neg (by simp), if_neg (by simp)]
    split
    · rename_i heq
      cases heq
    · rename_i heq
      exact absurd (List.cons.inj heq).1 hminus
    · rename_i heq
      exact absurd (List.cons.inj heq).1 hplus
    · rename_i u rest' heq
      have hu : u ∈ digitUnit d :: tail := heq ▸ by simp
      have hbase := (hplain u hu).2
      simp only [List.mem_cons, List.not_mem_nil, or_false, not_or] at hbase
      obtain ⟨n1, n2, n3, n4, n5, n6, -⟩ := hbase
      rw [heq] at hvalue
      simp only [n1, n2, n3, n4, n5, n6, or_self, if_false]
      exact hvalue
    · exact hvalue

/-- Finite, and not negative zero. -/
def Number.HasLiteral : Number → Prop
  | .finite negative magnitude _ => magnitude = 0 → negative = false
  | _ => False

/-- The text of a number is a literal whose value is rounded to the number. -/
theorem Number.text_literal {x : Number} (h : x.HasLiteral) :
    ∃ negative magnitude isDouble whole fraction exponent,
      x = .finite negative magnitude isDouble ∧ LiteralParts whole fraction ∧
      x.text = signed negative (literalText whole fraction exponent) ∧
      nearestDouble (literalValue whole fraction exponent) = magnitude := by
  cases x with
  | nan => exact h.elim
  | infinity negative => exact h.elim
  | finite negative magnitude isDouble =>
    by_cases hzero : magnitude = 0
    · have hpositive : negative = false := h hzero
      subst hzero hpositive
      refine ⟨false, 0, isDouble, [0], [], none, rfl, ⟨by simp, .inl rfl, by simp⟩, ?_, ?_⟩
      · rw [Number.text, if_pos rfl]
        decide
      · simp [literalValue, decimalNumber]
    · have hpos : 0 < magnitude := lt_of_le_of_ne isDouble.1 (Ne.symm hzero)
      obtain ⟨whole, fraction, exponent, hparts, htext, hvalue⟩ := magnitudeText_literal isDouble hpos
      refine ⟨negative, magnitude, isDouble, whole, fraction, exponent, rfl, hparts, ?_, hvalue⟩
      rw [Number.text, if_neg hzero, htext]

theorem stringToNumber_text {x : Number} (h : x.HasLiteral) : stringToNumber x.text = x := by
  obtain ⟨negative, magnitude, isDouble, whole, fraction, exponent, rfl, hparts, htext, hvalue⟩ :=
    Number.text_literal h
  have hnumber : Number.ofMagnitude (literalValue whole fraction exponent) =
      .finite false magnitude isDouble := by
    have hdouble : IsDouble (nearestDouble (literalValue whole fraction exponent)) := hvalue ▸ isDouble
    unfold Number.ofMagnitude
    rw [dif_pos hdouble]
    congr 1
  rw [htext, stringToNumber_signed exponent negative hparts, hnumber]
  cases negative <;> rfl

theorem validNumber_text {x : Number} (h : x.HasLiteral) :
    validNumber x.text = true ∧ x.text.all isNumberUnit = true := by
  obtain ⟨negative, _, _, whole, fraction, exponent, _, hparts, htext, -⟩ := Number.text_literal h
  rw [htext]
  refine ⟨validNumber_signed exponent negative hparts, ?_⟩
  have hunits := all_literalText exponent hparts
  cases negative with
  | true => simpa [signed] using ⟨rfl, List.all_eq_true.mp hunits⟩
  | false => exact hunits

/-! ## Small integers -/

theorem shortestFrom_place_nonneg {n : ℕ} (h : IsDouble n) (fuel : ℕ) (p : ℤ) (hp : 0 ≤ p)
    (hfuel : p < fuel) : 0 ≤ (shortestFrom n fuel p).2 := by
  induction fuel generalizing p with
  | zero => omega
  | succ fuel ih =>
    rw [shortestFrom]
    split_ifs with hnearer hother
    · exact hp
    · exact hp
    · have hne : p ≠ 0 := by
        rintro rfl
        have hround := roundHalfEven_intCast n
        rw [Int.cast_natCast] at hround
        simp only [zpow_zero, div_one, mul_one, hround, Int.cast_natCast] at hnearer
        exact hnearer h.2.1
      exact ih (p - 1) (by omega) (by omega)

/-- The shortest decimal of a small natural number is the number itself. -/
theorem shortestDecimal_natCast {n : ℕ} (hpos : 0 < n) (h : n < 2 ^ 53) :
    ∃ s k : ℕ, shortestDecimal n = (s, (k : ℤ)) ∧ s * 10 ^ k = n := by
  have hdouble := isDouble_natCast h
  have hcast : (0 : ℚ) < n := by exact_mod_cast hpos
  have hlog : 0 ≤ Int.log 10 (n : ℚ) := by
    rw [Int.log_natCast]
    positivity
  have hplace : 0 ≤ (shortestDecimal n).2 :=
    shortestFrom_place_nonneg hdouble _ _ hlog (by omega)
  obtain ⟨k, hk⟩ := Int.eq_ofNat_of_zero_le hplace
  have hround := nearestDouble_shortestDecimal hdouble hcast
  rw [hk, zpow_natCast] at hround
  refine ⟨(shortestDecimal n).1, k, Prod.ext rfl hk, eq_of_nearestDouble_eq ?_ h⟩
  exact_mod_cast hround

theorem decimalText_of_length_le {digits : List ℕ} {n : ℕ} (h : digits.length ≤ n) (hn : n ≤ 21) :
    decimalText digits n = (digits ++ List.replicate (n - digits.length) 0).map digitUnit := by
  have hcond : (digits.length : ℤ) ≤ n ∧ (n : ℤ) ≤ 21 := by omega
  rw [decimalText]
  simp only [hcond, and_self, if_true, Int.toNat_natCast, List.map_append, List.map_replicate]
  rfl

theorem magnitudeText_natCast {n : ℕ} (hpos : 0 < n) (h : n < 2 ^ 53) :
    magnitudeText n = naturalText n := by
  obtain ⟨s, k, hshortest, hvalue⟩ := shortestDecimal_natCast hpos h
  have hs : 0 < s := Nat.pos_of_mul_pos_right (hvalue ▸ hpos)
  have hdigits : Nat.digits 10 n = List.replicate k 0 ++ Nat.digits 10 s := by
    rw [← hvalue, mul_comm]
    exact Nat.digits_base_pow_mul (by norm_num) hs
  have hsplit : Nat.digits 10 s = List.replicate ((Nat.digits 10 s).length -
      (significantDigits s).length) 0 ++ (significantDigits s).reverse := by
    simpa [significantDigits] using dropWhile_zero (Nat.digits 10 s)
  have hle := (significantDigits_spec hs).length_le
  have hlength : (Nat.digits 10 n).length ≤ 16 := by
    rw [Nat.digits_length_le_iff (by norm_num)]
    exact lt_trans h (by norm_num)
  have htotal : (Nat.digits 10 n).length = k + (Nat.digits 10 s).length := by simp [hdigits]
  have hplaces : (Nat.digits 10 s).length - (significantDigits s).length + k =
      (Nat.digits 10 n).length - (significantDigits s).length := by omega
  have hreverse : (Nat.digits 10 n).reverse = significantDigits s ++
      List.replicate ((Nat.digits 10 n).length - (significantDigits s).length) 0 := by
    rw [← hplaces, List.replicate_add, hdigits]
    nth_rewrite 1 [hsplit]
    simp
  have htext : decimalText (significantDigits s) (Nat.digits 10 n).length = _ :=
    decimalText_of_length_le (by omega) (by omega)
  rw [magnitudeText, hshortest, naturalText, if_neg (by omega), hreverse, ← htext, htotal]
  push_cast
  rfl

namespace Number

theorem ofInt_of_lt {n : ℤ} (h : n.natAbs < 2 ^ 53) :
    ofInt n = .finite (n < 0) n.natAbs (isDouble_natCast h) := by
  have hmagnitude : ofMagnitude (n.natAbs : ℚ) = .finite false n.natAbs (isDouble_natCast h) := by
    have hexact := (isDouble_natCast h).2.1
    rw [ofMagnitude]
    simp only [hexact, isDouble_natCast h, dite_true]
  rw [ofInt, hmagnitude]
  by_cases hneg : n < 0 <;> simp [hneg, neg]

theorem ofInt_hasLiteral {n : ℤ} (h : n.natAbs < 2 ^ 53) : (ofInt n).HasLiteral := by
  rw [ofInt_of_lt h]
  intro hzero
  have : n.natAbs = 0 := by exact_mod_cast hzero
  simp only [decide_eq_false_iff_not]
  omega

/-- An integer below 2⁵³ has the text it has as a `bigint`. -/
theorem text_ofInt {n : ℤ} (h : n.natAbs < 2 ^ 53) : (ofInt n).text = bigintText n := by
  rw [ofInt_of_lt h, text, bigintText]
  by_cases hzero : n.natAbs = 0
  · have hn : n = 0 := Int.natAbs_eq_zero.mp hzero
    subst hn
    rfl
  · have hmagnitude : (n.natAbs : ℚ) ≠ 0 := by exact_mod_cast hzero
    rw [if_neg hmagnitude, magnitudeText_natCast (by omega) h]
    by_cases hneg : n < 0 <;> simp [hneg, signed]

/-! ## The code units of a text -/

/-- The code units of the texts of numbers. -/
def isNumberTextUnit (u : UInt16) : Bool := isNumberUnit u || (js "NaInfity").contains u

theorem all_text (x : Number) : x.text.all isNumberTextUnit = true := by
  match x with
  | .nan => decide
  | .infinity true => decide
  | .infinity false => decide
  | .finite negative magnitude isDouble =>
    by_cases hzero : magnitude = 0
    · rw [text, if_pos hzero]
      decide
    · have hliteral : (Number.finite negative magnitude isDouble).HasLiteral := fun h => absurd h hzero
      have hall := (validNumber_text hliteral).2
      rw [List.all_eq_true] at hall ⊢
      intro u hu
      rw [isNumberTextUnit, hall u hu, Bool.true_or]

theorem text_ne (x : Number) {s : JsString} (h : s.all isNumberTextUnit = false) : x.text ≠ s := by
  intro heq
  rw [← heq, all_text] at h
  cases h

theorem text_ne_nil (x : Number) : x.text ≠ [] := by
  match x with
  | .nan => decide
  | .infinity true => decide
  | .infinity false => decide
  | .finite negative magnitude isDouble =>
    by_cases hzero : magnitude = 0
    · rw [text, if_pos hzero]
      decide
    · have hliteral : (Number.finite negative magnitude isDouble).HasLiteral := fun h => absurd h hzero
      intro hnil
      have hvalid := (validNumber_text hliteral).1
      rw [hnil] at hvalid
      exact absurd hvalid (by decide)

end Number

end Foundations.Js
