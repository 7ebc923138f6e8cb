import MidnightJs.PlatformJs.IntegerRange
import MidnightJs.Foundations.ExactIntegers

/-! # The text of an integer range

A match is found wherever two dots stand. Of a well-formed text the digits next to the dots are read,
and a sign in front of them is not. -/

namespace MidnightJs.PlatformJs
open Foundations.Js
set_option autoImplicit false

/-! ## Matching -/

theorem matchRangeHere_eq_none {s : JsString} : matchRangeHere s = none ↔
    ¬ js ".." <+: s.dropWhile isDecimalDigit := by
  change _ ↔ ¬ [0x2E, 0x2E] <+: s.dropWhile isDecimalDigit
  unfold matchRangeHere
  split
  · rename_i rest heq
    simp [heq]
  · rename_i rest _ heq
    simp [heq]
  · rename_i _ hdots
    simp only [true_iff]
    rintro ⟨rest, heq⟩
    exact hdots rest heq.symm

/-- The dots are no digits. -/
theorem dropWhile_of_dots {s : JsString} (h : js ".." <+: s) : s.dropWhile isDecimalDigit = s := by
  obtain ⟨rest, rfl⟩ := h
  rfl

/-- A match is found exactly where two dots stand. -/
theorem matchRange_eq_none {s : JsString} : matchRange s = none ↔ ¬ js ".." <:+: s := by
  induction s with
  | nil =>
    rw [matchRange, matchRangeHere_eq_none]
    decide
  | cons u rest ih =>
    rw [matchRange, Option.or_eq_none_iff, matchRangeHere_eq_none, ih, List.infix_cons_iff, not_or]
    constructor
    · rintro ⟨hhere, hrest⟩
      exact ⟨fun h => hhere ((dropWhile_of_dots h).symm ▸ h), hrest⟩
    · rintro ⟨hhere, hrest⟩
      refine ⟨fun h => ?_, hrest⟩
      have hsuffix := h.isInfix.trans (List.dropWhile_suffix isDecimalDigit).isInfix
      rcases List.infix_cons_iff.mp hsuffix with hprefixed | hinfix
      · exact hhere hprefixed
      · exact hrest hinfix

theorem ofInput_text_isOk {s : JsString} :
    (∃ r, IntegerRange.ofInput (.text s) = .ok r) ↔ js ".." <:+: s := by
  have hnone := matchRange_eq_none (s := s)
  rw [IntegerRange.ofInput, IntegerRange.make]
  cases hmatch : matchRange s with
  | none =>
    have habsent := hnone.mp hmatch
    simp [habsent]
  | some groups =>
    rw [hmatch] at hnone
    simpa using hnone

/-! ## Well-formed texts -/

/-- Decimal digits, at least one, with a minus sign in front or without. -/
def IntegerLiteral (text : JsString) : Prop :=
  ∃ digits : JsString, digits ≠ [] ∧ digits.all isDecimalDigit = true ∧
    (text = digits ∨ text = 0x2D :: digits)

def RangeText (s : JsString) : Prop :=
  ∃ n m, IntegerLiteral n ∧ IntegerLiteral m ∧ (s = n ++ js ".." ++ m ∨ s = n ++ js "..=" ++ m)

theorem RangeText.dots {s : JsString} (h : RangeText s) : js ".." <:+: s := by
  obtain ⟨n, m, -, -, rfl | rfl⟩ := h
  · exact ⟨n, m, rfl⟩
  · exact ⟨n, js "=" ++ m, by rw [List.append_assoc, List.append_assoc]; rfl⟩

/-! ## Reading what was written -/

theorem matchRange_of_here {s : JsString} {groups : RangeMatch}
    (h : matchRangeHere s = some groups) : matchRange s = some groups := by
  cases s with
  | nil => exact h
  | cons u rest => rw [matchRange, h, Option.some_or]

/-- A sign in front is passed over. -/
theorem matchRange_minus (s : JsString) : matchRange (0x2D :: s) = matchRange s := by
  have hhere : matchRangeHere (0x2D :: s) = none := rfl
  rw [matchRange, hhere, Option.none_or]

section
variable {digits tail : JsString}

theorem matchRange_exclusive (h : digits.all isDecimalDigit = true) (htail : tail.head? ≠ some 0x3D) :
    matchRange (digits ++ js ".." ++ tail) =
      some ⟨digits, [], tail.takeWhile isDecimalDigit⟩ := by
  refine matchRange_of_here ?_
  have htake : (digits ++ (js ".." ++ tail)).takeWhile isDecimalDigit = digits := by
    rw [List.takeWhile_append_of_pos (List.all_eq_true.mp h)]
    exact List.append_nil digits
  have hdrop : (digits ++ (js ".." ++ tail)).dropWhile isDecimalDigit = js ".." ++ tail :=
    List.dropWhile_append_of_pos (List.all_eq_true.mp h)
  rw [List.append_assoc, matchRangeHere, htake, hdrop]
  split
  · rename_i rest heq
    have heq : tail = 0x3D :: rest := (List.cons.inj (List.cons.inj heq).2).2
    exact absurd (congrArg List.head? heq) htail
  · rename_i rest _ heq
    have heq : tail = rest := (List.cons.inj (List.cons.inj heq).2).2
    rw [heq]
  · rename_i _ hdots
    exact absurd rfl (hdots tail)

theorem matchRange_inclusive (h : digits.all isDecimalDigit = true) :
    matchRange (digits ++ js "..=" ++ tail) =
      some ⟨digits, js "=", tail.takeWhile isDecimalDigit⟩ := by
  refine matchRange_of_here ?_
  have htake : (digits ++ (js "..=" ++ tail)).takeWhile isDecimalDigit = digits := by
    rw [List.takeWhile_append_of_pos (List.all_eq_true.mp h)]
    exact List.append_nil digits
  have hdrop : (digits ++ (js "..=" ++ tail)).dropWhile isDecimalDigit = js "..=" ++ tail :=
    List.dropWhile_append_of_pos (List.all_eq_true.mp h)
  rw [List.append_assoc, matchRangeHere, htake, hdrop]
  rfl

end

theorem bigintText_head (m : ℤ) : (bigintText m).head? ≠ some 0x3D := by
  intro h
  rw [bigintText] at h
  split at h
  · cases h
  · have hdigit := List.all_eq_true.mp (all_naturalText m.natAbs) _ (List.mem_of_head? h)
    cases hdigit

/-- The digits in front of the dots are read without the sign. -/
theorem matchRange_toString {r : IntegerRange} {n m : ℤ} (hmin : r.min.text = bigintText n)
    (hmax : r.max.text = bigintText m) : matchRange r.toString = some ⟨naturalText n.natAbs,
      if r.tag = .inclusive then js "=" else [], (bigintText m).takeWhile isDecimalDigit⟩ := by
  have hdigits := all_naturalText n.natAbs
  have hhead := bigintText_head m
  have hsign : ∀ rest, matchRange (bigintText n ++ rest) =
      matchRange (naturalText n.natAbs ++ rest) := by
    intro rest
    rw [bigintText]
    split
    · exact matchRange_minus _
    · rfl
  rw [IntegerRange.toString, hmin, hmax, List.append_assoc, hsign, ← List.append_assoc]
  cases r.tag with
  | inclusive => exact matchRange_inclusive hdigits
  | exclusive => exact matchRange_exclusive hdigits hhead

theorem takeWhile_bigintText (m : ℤ) : (bigintText m).takeWhile isDecimalDigit =
    if m < 0 then [] else naturalText m.natAbs := by
  rw [bigintText]
  split
  · rfl
  · exact List.takeWhile_eq_self_iff.mpr (List.all_eq_true.mp (all_naturalText m.natAbs))

theorem stringToNumber_naturalText {n : ℕ} (h : n < 2 ^ 53) :
    (stringToNumber (naturalText n)).IsInteger n := by
  have hn : (n : ℤ).natAbs < 2 ^ 53 := h
  have htext := Number.text_ofInt hn
  have hbigint : bigintText n = naturalText n := by
    rw [bigintText, if_neg (by omega), Int.natAbs_natCast]
  rw [← hbigint, ← htext, stringToNumber_text (Number.ofInt_hasLiteral hn)]
  exact Number.ofInt_isInteger hn.le

/-- A bound whose sign is lost is read as a natural number. -/
theorem ofInput_toString {r : IntegerRange} {n m : ℤ} (hmin : r.min.IsInteger n)
    (hmax : r.max.IsInteger m) (hn : n.natAbs < 2 ^ 53) (hm : m.natAbs < 2 ^ 53) :
    ∃ min max, IntegerRange.ofInput (.text r.toString) = .ok ⟨r.tag, min, max⟩ ∧
      min.IsInteger n.natAbs ∧ max.IsInteger (if m < 0 then 0 else m) := by
  have hmatch := matchRange_toString (r := r) (hmin.text hn) (hmax.text hm)
  have htag : (if (if r.tag = RangeTag.inclusive then js "=" else []) = js "=" then
      RangeTag.inclusive else .exclusive) = r.tag := by
    cases r.tag <;> decide
  refine ⟨stringToNumber (naturalText n.natAbs),
    stringToNumber ((bigintText m).takeWhile isDecimalDigit), ?_, stringToNumber_naturalText hn, ?_⟩
  · rw [IntegerRange.ofInput, IntegerRange.make, hmatch]
    dsimp only
    rw [htag]
  · rw [takeWhile_bigintText]
    split
    · rfl
    · have hint := stringToNumber_naturalText hm
      rwa [show ((m.natAbs : ℕ) : ℤ) = m by omega] at hint

/-! ## Round trip -/

/-- Both bounds are integers that a double can tell from their neighbours. -/
structure SafeRange (r : IntegerRange) (n m : ℤ) : Prop where
  min : r.min.IsInteger n
  max : r.max.IsInteger m
  safeMin : n.natAbs < 2 ^ 53
  safeMax : m.natAbs < 2 ^ 53

theorem equals_iff {r r' : IntegerRange} {n m n' m' : ℤ} (hmin : r.min.IsInteger n)
    (hmax : r.max.IsInteger m) (hmin' : r'.min.IsInteger n') (hmax' : r'.max.IsInteger m') :
    r.equals r' = true ↔ r.tag = r'.tag ∧ n = n' ∧ m = m' := by
  rw [IntegerRange.equals, Bool.and_eq_true, Bool.and_eq_true, beq_iff_eq,
    hmin.strictEquals_iff hmin', hmax.strictEquals_iff hmax', and_assoc]

/-- A text is accepted when two dots stand in it, and a range comes back when its bounds are
natural numbers. -/
theorem range_text (s : JsString) {r : IntegerRange} {n m : ℤ} (h : SafeRange r n m) :
    (((∃ r, IntegerRange.ofInput (.text s) = .ok r) ↔ RangeText s) ↔
      (js ".." <:+: s → RangeText s)) ∧
    ((∃ r', IntegerRange.ofInput (.text r.toString) = .ok r' ∧ r'.equals r = true) ↔
      0 ≤ n ∧ 0 ≤ m) := by
  constructor
  · rw [ofInput_text_isOk]
    exact ⟨fun h => h.mp, fun h => ⟨h, RangeText.dots⟩⟩
  · obtain ⟨min, max, hparsed, hmin, hmax⟩ := ofInput_toString h.min h.max h.safeMin h.safeMax
    rw [hparsed]
    have hequals := equals_iff (r := ⟨r.tag, min, max⟩) hmin hmax h.min h.max
    constructor
    · rintro ⟨r', heq, hr'⟩
      cases heq
      obtain ⟨-, hn, hm⟩ := hequals.mp hr'
      split at hm <;> omega
    · rintro ⟨hn, hm⟩
      refine ⟨_, rfl, hequals.mpr ⟨rfl, by omega, if_neg (by omega)⟩⟩

namespace Sample

def zeroToThree : IntegerRange := ⟨.exclusive, .ofInt 0, .ofInt 3⟩

/-- A range with natural bounds comes back. -/
theorem zeroToThree_text : ∃ r', IntegerRange.ofInput (.text zeroToThree.toString) = .ok r' ∧
    r'.equals zeroToThree = true :=
  (range_text (js "0..3") (r := zeroToThree) ⟨Number.ofInt_isInteger (n := 0) (by decide),
    Number.ofInt_isInteger (n := 3) (by decide), by decide, by decide⟩).2.mpr
      ⟨by decide, by decide⟩

def minusFiveToThree : IntegerRange := ⟨.exclusive, .ofInt (-5), .ofInt 3⟩

/-- Two dots alone are accepted, and the sign of a bound is lost. -/
theorem dots_and_sign : (IntegerRange.ofInput (.text (js ".."))).isOk = true ∧
    ¬ RangeText (js "..") ∧ ∀ r', IntegerRange.ofInput (.text minusFiveToThree.toString) = .ok r' →
      r'.equals minusFiveToThree = false := by
  refine ⟨rfl, ?_, ?_⟩
  · rintro ⟨n, m, ⟨digits, hne, -, hn⟩, -, hs⟩
    have hlong : 1 ≤ n.length := by
      have hpos := List.length_pos_iff.mpr hne
      rcases hn with rfl | rfl
      · exact hpos
      · exact Nat.succ_le_succ (Nat.zero_le _)
    rcases hs with hs | hs
    · have hlength := congrArg List.length hs
      rw [List.length_append, List.length_append] at hlength
      change 2 = n.length + 2 + m.length at hlength
      omega
    · have hlength := congrArg List.length hs
      rw [List.length_append, List.length_append] at hlength
      change 2 = n.length + 3 + m.length at hlength
      omega
  · have hmin : minusFiveToThree.min.IsInteger (-5) := by
      rw [minusFiveToThree]
      exact Number.ofInt_isInteger (n := -5) (by decide)
    have hmax : minusFiveToThree.max.IsInteger 3 := Number.ofInt_isInteger (n := 3) (by decide)
    obtain ⟨min, max, hparsed, hmin', hmax'⟩ := ofInput_toString hmin hmax (by decide) (by decide)
    intro r' hr'
    rw [hparsed] at hr'
    cases hr'
    rw [← Bool.not_eq_true, equals_iff (r := ⟨_, min, max⟩) hmin' hmax' hmin hmax]
    rintro ⟨-, hfive, -⟩
    exact absurd hfive (by decide)

end Sample

end MidnightJs.PlatformJs
