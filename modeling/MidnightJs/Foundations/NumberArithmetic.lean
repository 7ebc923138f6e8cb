import MidnightJs.Foundations.NumberText

/-! # Comparing and adding numbers

The relational operators, `===`, `+` and `-` on doubles. On integers up to 2⁵³ they are those of the
integers. -/

namespace Foundations.Js
set_option autoImplicit false

namespace Number

def signedValue (negative : Bool) (magnitude : ℚ) : ℚ := if negative then -magnitude else magnitude

/-- The value of a finite number. -/
def value : Number → Option ℚ
  | .finite negative magnitude _ => some (signedValue negative magnitude)
  | _ => none

/-- The number nearest to a rational. -/
def ofRat (q : ℚ) : Number := if q < 0 then (ofMagnitude (-q)).neg else ofMagnitude q

def lt (x y : Number) : Bool :=
  match x, y with
  | .nan, _ => false
  | _, .nan => false
  | .infinity negative, .infinity negative' => negative && !negative'
  | .infinity negative, .finite _ _ _ => negative
  | .finite _ _ _, .infinity negative => !negative
  | .finite negative magnitude _, .finite negative' magnitude' _ =>
    signedValue negative magnitude < signedValue negative' magnitude'

/-- No comparison with `NaN` holds. -/
def ge (x y : Number) : Bool :=
  match x, y with
  | .nan, _ => false
  | _, .nan => false
  | x, y => !lt x y

/-- The zeros are equal, and `NaN` is equal to nothing. -/
def strictEquals (x y : Number) : Bool :=
  match x, y with
  | .infinity negative, .infinity negative' => negative == negative'
  | .finite negative magnitude _, .finite negative' magnitude' _ =>
    signedValue negative magnitude == signedValue negative' magnitude'
  | _, _ => false

/-- A sum of zero is negative only if both parts are. -/
def add (x y : Number) : Number :=
  match x, y with
  | .nan, _ => .nan
  | _, .nan => .nan
  | .infinity negative, .infinity negative' =>
    if negative = negative' then .infinity negative else .nan
  | .infinity negative, .finite _ _ _ => .infinity negative
  | .finite _ _ _, .infinity negative => .infinity negative
  | .finite negative magnitude _, .finite negative' magnitude' _ =>
    let sum := signedValue negative magnitude + signedValue negative' magnitude'
    if sum = 0 then if negative && negative' then zero.neg else zero else ofRat sum

def sub (x y : Number) : Number := add x y.neg

/-! ## Integers -/

/-- The value is an integer; zero may have a sign. -/
def IsInteger (x : Number) (n : ℤ) : Prop := x.value = some (n : ℚ)

theorem isInteger_iff {x : Number} {n : ℤ} : x.IsInteger n ↔
    ∃ negative magnitude isDouble, x = .finite negative magnitude isDouble ∧
      signedValue negative magnitude = n := by
  cases x with
  | nan => simp [IsInteger, value]
  | infinity negative => simp [IsInteger, value]
  | finite negative magnitude isDouble =>
    simp only [IsInteger, value, Option.some.injEq, finite.injEq]
    constructor
    · exact fun h => ⟨negative, magnitude, isDouble, ⟨rfl, rfl⟩, h⟩
    · rintro ⟨negative', magnitude', -, ⟨rfl, rfl⟩, h⟩
      exact h

theorem nearestDouble_natCast {n : ℕ} (h : n ≤ 2 ^ 53) : nearestDouble n = n := by
  rcases h.lt_or_eq with hlt | rfl
  · exact (isDouble_natCast hlt).2.1
  · have hexact := nearestDouble_of_lt (m := 1) (e := 53) (by norm_num) (by norm_num)
    norm_num at hexact ⊢
    exact hexact

theorem ofMagnitude_natCast {n : ℕ} (h : n ≤ 2 ^ 53) : (ofMagnitude n).IsInteger n := by
  have hexact := nearestDouble_natCast h
  have hdouble : IsDouble (nearestDouble (n : ℚ)) := by
    rw [hexact]
    refine ⟨by positivity, hexact, ?_⟩
    calc (n : ℚ) ≤ 2 ^ 53 := by exact_mod_cast h
      _ < 2 ^ 1024 := pow_lt_pow_right₀ (by norm_num) (by norm_num)
  unfold ofMagnitude
  rw [dif_pos hdouble]
  simp [IsInteger, value, signedValue, hexact]

theorem IsInteger.neg {x : Number} {n : ℤ} (h : x.IsInteger n) : x.neg.IsInteger (-n) := by
  obtain ⟨negative, magnitude, isDouble, rfl, hvalue⟩ := isInteger_iff.mp h
  refine isInteger_iff.mpr ⟨!negative, magnitude, isDouble, rfl, ?_⟩
  rw [Int.cast_neg, ← hvalue]
  cases negative <;> simp [signedValue]

theorem ofInt_isInteger {n : ℤ} (h : n.natAbs ≤ 2 ^ 53) : (ofInt n).IsInteger n := by
  have hmagnitude := ofMagnitude_natCast h
  unfold ofInt
  split_ifs with hneg
  · have hint := hmagnitude.neg
    rwa [show -(n.natAbs : ℤ) = n by omega] at hint
  · rwa [show (n.natAbs : ℤ) = n by omega] at hmagnitude

theorem ofRat_intCast (n : ℤ) : ofRat n = ofInt n := by
  unfold ofRat ofInt
  by_cases hneg : n < 0
  · have hcast : -(n : ℚ) = n.natAbs := by rw [Nat.cast_natAbs, abs_of_neg hneg, Int.cast_neg]
    rw [if_pos hneg, if_pos (by exact_mod_cast hneg), hcast]
  · have hcast : (n : ℚ) = n.natAbs := by rw [Nat.cast_natAbs, abs_of_nonneg (not_lt.mp hneg)]
    rw [if_neg hneg, if_neg (by exact_mod_cast hneg)]
    exact congrArg ofMagnitude hcast

section
variable {x y : Number} {n m : ℤ}

theorem IsInteger.lt_iff (hx : x.IsInteger n) (hy : y.IsInteger m) : x.lt y = true ↔ n < m := by
  obtain ⟨negative, magnitude, isDouble, rfl, hvalue⟩ := isInteger_iff.mp hx
  obtain ⟨negative', magnitude', isDouble', rfl, hvalue'⟩ := isInteger_iff.mp hy
  rw [lt, hvalue, hvalue', decide_eq_true_eq, Int.cast_lt]

theorem IsInteger.ge_iff (hx : x.IsInteger n) (hy : y.IsInteger m) : x.ge y = true ↔ m ≤ n := by
  have hlt := hx.lt_iff hy
  obtain ⟨negative, magnitude, isDouble, rfl, -⟩ := isInteger_iff.mp hx
  obtain ⟨negative', magnitude', isDouble', rfl, -⟩ := isInteger_iff.mp hy
  change (!lt _ _) = true ↔ m ≤ n
  rw [Bool.not_eq_true', ← Bool.not_eq_true, hlt, not_lt]

theorem IsInteger.strictEquals_iff (hx : x.IsInteger n) (hy : y.IsInteger m) :
    x.strictEquals y = true ↔ n = m := by
  obtain ⟨negative, magnitude, isDouble, rfl, hvalue⟩ := isInteger_iff.mp hx
  obtain ⟨negative', magnitude', isDouble', rfl, hvalue'⟩ := isInteger_iff.mp hy
  rw [strictEquals, hvalue, hvalue', beq_iff_eq, Int.cast_inj]

/-- A sum that is small enough is not rounded. -/
theorem IsInteger.add (hx : x.IsInteger n) (hy : y.IsInteger m) (h : (n + m).natAbs ≤ 2 ^ 53) :
    (x.add y).IsInteger (n + m) := by
  obtain ⟨negative, magnitude, isDouble, rfl, hvalue⟩ := isInteger_iff.mp hx
  obtain ⟨negative', magnitude', isDouble', rfl, hvalue'⟩ := isInteger_iff.mp hy
  have hsum : signedValue negative magnitude + signedValue negative' magnitude' =
      ((n + m : ℤ) : ℚ) := by rw [hvalue, hvalue', Int.cast_add]
  rw [Number.add, hsum]
  split_ifs with hzero hboth
  · have hnm : n + m = 0 := by exact_mod_cast hzero
    rw [hnm]
    simp [IsInteger, value, zero, Number.neg, signedValue]
  · have hnm : n + m = 0 := by exact_mod_cast hzero
    rw [hnm]
    simp [IsInteger, value, zero, signedValue]
  · rw [ofRat_intCast]
    exact ofInt_isInteger h

theorem IsInteger.sub (hx : x.IsInteger n) (hy : y.IsInteger m) (h : (n - m).natAbs ≤ 2 ^ 53) :
    (x.sub y).IsInteger (n - m) := by
  rw [sub_eq_add_neg] at h ⊢
  exact hx.add hy.neg h

/-- An integer is printed without a fraction and without an exponent; negative zero as zero. -/
theorem IsInteger.text (hx : x.IsInteger n) (h : n.natAbs < 2 ^ 53) : x.text = bigintText n := by
  obtain ⟨negative, magnitude, isDouble, rfl, hvalue⟩ := isInteger_iff.mp hx
  by_cases hzero : magnitude = 0
  · have hn : n = 0 := by
      rw [hzero] at hvalue
      cases negative <;> simpa [signedValue, eq_comm] using hvalue
    rw [Number.text, if_pos hzero, hn]
    rfl
  · rw [← text_ofInt h, ofInt_of_lt h]
    have hpos : 0 < magnitude := lt_of_le_of_ne isDouble.1 (Ne.symm hzero)
    have hsign : negative = decide (n < 0) ∧ magnitude = n.natAbs := by
      have habs : (n.natAbs : ℚ) = |(n : ℚ)| := by rw [Nat.cast_natAbs, Int.cast_abs]
      rw [habs, ← hvalue]
      cases negative with
      | true =>
        have hneg : n < 0 := by
          have hcast : (n : ℚ) < 0 := by
            rw [← hvalue]
            simpa [signedValue] using hpos
          exact_mod_cast hcast
        simp [signedValue, hneg, abs_of_pos hpos]
      | false =>
        have hnonneg : ¬ n < 0 := by
          have hcast : (0 : ℚ) ≤ n := by
            rw [← hvalue]
            exact hpos.le
          exact not_lt.mpr (by exact_mod_cast hcast)
        simp [signedValue, hnonneg, abs_of_pos hpos]
    obtain ⟨rfl, rfl⟩ := hsign
    rfl

end

end Number

end Foundations.Js
