import MidnightJs.Foundations.NumberText
import Mathlib.Data.List.TakeWhile

/-! # Integers that a number prints as

A number whose text `BigInt` reads is printed as that integer is. Every integer below 2⁵³ is printed
so by the number nearest to it, and no integer from 10²¹ on. -/

namespace Foundations.Js
set_option autoImplicit false

/-! ## Digits only -/

theorem digitsValue_append (base : ℕ) (s t : JsString) (acc : ℕ) :
    digitsValue base (s ++ t) acc = (digitsValue base s acc).bind (digitsValue base t) := by
  induction s generalizing acc with
  | nil => rfl
  | cons u s ih =>
    rw [List.cons_append, digitsValue, digitsValue]
    cases digitValue u with
    | none => rfl
    | some d =>
      by_cases hd : d < base
      · simp only [hd, if_true, ih]
      · simp only [hd, if_false, Option.bind_none]

/-- Only a literal without a point and without an exponent is made of digits. -/
theorem naturalOfText_literal {whole fraction : List ℕ} {exponent : Option ℤ} {n : ℕ}
    (hparts : LiteralParts whole fraction)
    (h : naturalOfText 10 (literalText whole fraction exponent) = some n) :
    fraction = [] ∧ exponent = none ∧ n = decimalNumber whole := by
  have hdigits := digitsValue_map whole (fun d hd => hparts.digit d (List.mem_append_left _ hd)) 0
  have hne : (literalText whole fraction exponent).isEmpty = false := by
    simp [literalText, hparts.ne_nil]
  rw [naturalOfText, hne, literalText, List.append_assoc, digitsValue_append, hdigits] at h
  simp only [Bool.false_eq_true, if_false, Option.bind_some] at h
  by_cases hfraction : fraction = []
  · subst hfraction
    cases exponent with
    | none =>
      refine ⟨rfl, rfl, ?_⟩
      simpa [fractionText, digitsValue, decimalNumber] using h.symm
    | some e =>
      rw [fractionText, if_pos rfl, Option.elim_some, exponentText, List.nil_append, digitsValue] at h
      simp [digitValue] at h
  · rw [fractionText, if_neg hfraction, List.cons_append, digitsValue] at h
    simp [digitValue] at h

theorem naturalText_decimalNumber {whole : List ℕ} (hparts : LiteralParts whole []) :
    naturalText (decimalNumber whole) = whole.map digitUnit := by
  have hdigit : ∀ d ∈ whole, d < 10 := fun d hd => hparts.digit d (List.mem_append_left _ hd)
  by_cases hzero : whole = [0]
  · subst hzero
    decide
  have hhead := hparts.no_leading_zero.resolve_left hzero
  have hdigits : Nat.digits 10 (decimalNumber whole) = whole.reverse := by
    refine Nat.digits_ofDigits 10 (by norm_num) _ (fun d hd => hdigit d (List.mem_reverse.mp hd)) ?_
    intro hne hlast
    rw [List.getLast_reverse] at hlast
    exact hhead (by rw [List.head?_eq_some_head hparts.ne_nil, hlast])
  have hpos : decimalNumber whole ≠ 0 := by
    intro h
    rw [h, Nat.digits_zero] at hdigits
    exact hparts.ne_nil (List.reverse_eq_nil_iff.mp hdigits.symm)
  rw [naturalText, if_neg hpos, hdigits, List.reverse_reverse]

/-! ## Reading a literal as an integer -/

theorem stringToBigInt_signed {whole fraction : List ℕ} (exponent : Option ℤ) (negative : Bool)
    (h : LiteralParts whole fraction) :
    stringToBigInt (signed negative (literalText whole fraction exponent)) =
      (naturalOfText 10 (literalText whole fraction exponent)).map
        fun n : ℕ => if negative then -(n : ℤ) else n := by
  obtain ⟨d, tail, hd, htail, hplain⟩ := literalText_head exponent h
  have hspace : ∀ u ∈ digitUnit d :: tail, isStrWhiteSpace u = false := fun u hu => (hplain u hu).1
  rw [htail]
  cases negative with
  | true =>
    rw [stringToBigInt, trim_signed true hspace]
    rfl
  | false =>
    obtain ⟨-, hminus, hplus, -⟩ := digitUnit_plain hd
    refine stringToBigInt_unsigned hspace hminus hplus fun u hu hmem => (hplain u hu).2 ?_
    exact List.mem_append_left [0x49] hmem

namespace Number

/-- `BigInt` reads a number's text as an integer exactly if the number is printed as that integer. -/
theorem stringToBigInt_text {x : Number} {n : ℤ} :
    stringToBigInt x.text = some n ↔ x.text = bigintText n := by
  constructor
  · intro h
    match x with
    | .nan => cases h
    | .infinity true => cases h
    | .infinity false => cases h
    | .finite negative magnitude isDouble =>
      by_cases hzero : magnitude = 0
      · rw [text, if_pos hzero] at h ⊢
        have hn : n = 0 := (Option.some.inj h).symm
        subst hn
        decide
      · have hliteral : (Number.finite negative magnitude isDouble).HasLiteral :=
          fun h => absurd h hzero
        obtain ⟨negative', magnitude', _, whole, fraction, exponent, hx, hparts, htext, hvalue⟩ :=
          text_literal hliteral
        cases hx
        rw [htext, stringToBigInt_signed exponent negative hparts, Option.map_eq_some_iff] at h
        obtain ⟨k, hk, rfl⟩ := h
        obtain ⟨rfl, rfl, rfl⟩ := naturalOfText_literal hparts hk
        have hpos : decimalNumber whole ≠ 0 := by
          intro hwhole
          apply hzero
          rw [← hvalue, literalValue, List.append_nil, hwhole]
          simp [nearestDouble_zero]
        have hdigits : literalText whole [] none = naturalText (decimalNumber whole) := by
          rw [naturalText_decimalNumber hparts]
          simp [literalText, fractionText]
        rw [htext, hdigits, bigintText]
        cases negative with
        | true =>
          have hneg : -(decimalNumber whole : ℤ) < 0 := by omega
          rw [if_pos rfl, if_pos hneg, Int.natAbs_neg, Int.natAbs_natCast]
          rfl
        | false =>
          have hnotneg : ¬ (decimalNumber whole : ℤ) < 0 := by omega
          simp only [Bool.false_eq_true, if_false, hnotneg, Int.natAbs_natCast]
          rfl
  · intro h
    rw [h, stringToBigInt_bigintText]

end Number

/-! ## Large integers -/

/-- Without a point and without an exponent there are at most 21 digits. -/
theorem decimalText_length_le {digits : List ℕ} {n : ℤ}
    (h : (decimalText digits n).all (fun u => isDecimalDigit u || u == 0x2D) = true) :
    (decimalText digits n).length ≤ 21 := by
  have hmarks : 0x2E ∉ decimalText digits n ∧ 0x65 ∉ decimalText digits n := by
    rw [List.all_eq_true] at h
    exact ⟨fun hmem => absurd (h _ hmem) (by decide), fun hmem => absurd (h _ hmem) (by decide)⟩
  revert hmarks
  unfold decimalText
  dsimp only
  split
  · rename_i hplaces
    intro _
    simp only [List.length_append, List.length_map, List.length_replicate]
    omega
  · split
    · simp
    · split
      · simp
      · simp

theorem all_naturalText (n : ℕ) : (naturalText n).all isDecimalDigit = true := by
  obtain ⟨digits, -, hdigit, htext, -⟩ := naturalText_digits n
  rw [htext]
  exact all_map_digitUnit (fun _ => isDecimalDigit_digitUnit) hdigit

theorem naturalText_length {n : ℕ} (h : 10 ^ 21 ≤ n) : 22 ≤ (naturalText n).length := by
  have hdigits : 21 < (Nat.digits 10 n).length := (Nat.lt_digits_length_iff (by norm_num) n).mpr h
  rw [naturalText, if_neg (by omega), List.length_map, List.length_reverse]
  exact hdigits

namespace Number

theorem bigintText_length {n : ℤ} (h : 10 ^ 21 ≤ n.natAbs) : 22 ≤ (bigintText n).length := by
  have hlong := naturalText_length h
  rw [bigintText]
  split
  · exact Nat.le_succ_of_le hlong
  · exact hlong

theorem bigintText_units (n : ℤ) :
    (bigintText n).all (fun u => isDecimalDigit u || u == 0x2D) = true := by
  have hall : (naturalText n.natAbs).all (fun u => isDecimalDigit u || u == 0x2D) = true := by
    have hdigits := all_naturalText n.natAbs
    rw [List.all_eq_true] at hdigits ⊢
    intro u hu
    rw [hdigits u hu, Bool.true_or]
  rw [bigintText]
  split
  · rw [List.all_cons, hall]
    rfl
  · exact hall

/-- Digits follow a sign. -/
theorem of_minus_eq_bigintText {rest : JsString} {n : ℤ} (h : 0x2D :: rest = bigintText n) :
    rest = naturalText n.natAbs := by
  by_cases hneg : n < 0
  · rw [bigintText, if_pos hneg] at h
    exact (List.cons.inj h).2
  · have hdigits := all_naturalText n.natAbs
    rw [bigintText, if_neg hneg] at h
    rw [← h, List.all_cons] at hdigits
    exact absurd hdigits (by simp [isDecimalDigit])

/-- From 10²¹ on numbers are printed with an exponent. -/
theorem text_ne_bigintText {n : ℤ} (h : 10 ^ 21 ≤ n.natAbs) (x : Number) :
    x.text ≠ bigintText n := by
  intro htext
  have hlong := naturalText_length h
  have hlength := bigintText_length h
  have hunits := bigintText_units n
  rw [← htext] at hlength hunits
  cases x with
  | nan => exact absurd hlength (by decide)
  | infinity negative =>
    refine absurd hlength ?_
    cases negative <;> decide
  | finite negative magnitude isDouble =>
    by_cases hzero : magnitude = 0
    · rw [text, if_pos hzero] at hlength
      exact absurd hlength (by decide)
    rw [text, if_neg hzero] at htext hlength hunits
    cases negative with
    | false =>
      have hle : (magnitudeText magnitude).length ≤ 21 := decimalText_length_le hunits
      rw [signed, if_neg (by simp)] at hlength
      omega
    | true =>
      rw [signed, if_pos rfl] at htext hunits
      rw [List.all_cons, Bool.and_eq_true] at hunits
      have hle : (magnitudeText magnitude).length ≤ 21 := decimalText_length_le hunits.2
      have heq := congrArg List.length (of_minus_eq_bigintText htext)
      omega

end Number

/-! ## Digits read as a number -/

theorem isDecimalDigit_of_digitValue {u : UInt16} {d : ℕ} (hd : d < 10)
    (h : digitValue u = some d) : isDecimalDigit u = true := by
  unfold digitValue at h
  unfold isDecimalDigit
  split_ifs at h with hdecimal hupper hlower
  · exact hdecimal
  · simp at h
    omega
  · simp at h
    omega

theorem digitsValue_all {s : JsString} {acc n : ℕ} (h : digitsValue 10 s acc = some n) :
    s.all isDecimalDigit = true := by
  induction s generalizing acc with
  | nil => rfl
  | cons u s ih =>
    rw [digitsValue] at h
    cases hu : digitValue u with
    | none =>
      rw [hu] at h
      cases h
    | some d =>
      rw [hu] at h
      dsimp only at h
      split_ifs at h with hd
      rw [List.all_cons, isDecimalDigit_of_digitValue hd hu, ih h]
      rfl

theorem naturalOfText_all {s : JsString} {n : ℕ} (h : naturalOfText 10 s = some n) :
    s ≠ [] ∧ s.all isDecimalDigit = true := by
  rw [naturalOfText] at h
  split_ifs at h with hempty
  exact ⟨by simpa using hempty, digitsValue_all h⟩

theorem unsignedNumber_digits {s : JsString} {n : ℕ} (h : naturalOfText 10 s = some n) :
    unsignedNumber s = .ofMagnitude n := by
  obtain ⟨-, hall⟩ := naturalOfText_all h
  have htake : s.takeWhile isDecimalDigit = s :=
    List.takeWhile_eq_self_iff.mpr (List.all_eq_true.mp hall)
  have hdrop : s.dropWhile isDecimalDigit = [] :=
    List.dropWhile_eq_nil_iff.mpr (List.all_eq_true.mp hall)
  have hvalue : decimalValue s = some (n : ℚ) := by
    rw [decimalValue, htake, hdrop]
    simp [fractionDigits, h, exponentValue]
  rw [unsignedNumber, hvalue, if_neg]
  rintro rfl
  cases hall

/-- Decimal digits, zeros in front of them or not. -/
theorem stringToNumber_digits {s : JsString} {n : ℕ} (h : naturalOfText 10 s = some n) :
    stringToNumber s = .ofMagnitude n := by
  obtain ⟨hne, hall⟩ := naturalOfText_all h
  have hunsigned := unsignedNumber_digits h
  have hplain : ∀ u ∈ s, isStrWhiteSpace u = false ∧
      u ∉ ([0x78, 0x58, 0x6F, 0x4F, 0x62, 0x42, 0x49] : JsString) := fun u hu =>
    numberUnit_not_space (by rw [isNumberUnit, List.all_eq_true.mp hall u hu]; rfl)
  rw [stringToNumber, trim_of_no_space fun u hu => (hplain u hu).1]
  split
  · exact absurd rfl hne
  · cases hall
  · cases hall
  · rename_i u rest
    have hbase := (hplain u (by simp)).2
    simp only [List.mem_cons, List.not_mem_nil, or_false, not_or] at hbase
    obtain ⟨n1, n2, n3, n4, n5, n6, -⟩ := hbase
    simp only [n1, n2, n3, n4, n5, n6, or_self, if_false]
    exact hunsigned
  · exact hunsigned

end Foundations.Js
