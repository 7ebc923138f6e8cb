import Mathlib.Data.Nat.Digits.Lemmas
import MidnightJs.Foundations.JsString

/-! # Integers of any size and their decimal text

`bigintText` is `bigint.toString()`, `stringToBigInt` is `BigInt(string)`: white space around the
literal is ignored, the empty text is zero, and a sign may stand only before decimal digits. -/

namespace Foundations.Js
set_option autoImplicit false

def digitUnit (d : ℕ) : UInt16 := (0x30 + d).toUInt16

/-- The lower-case digit of a value below sixteen. -/
def hexDigit (n : ℕ) : UInt16 := if n < 10 then (0x30 + n).toUInt16 else (0x57 + n).toUInt16

def naturalText (n : ℕ) : JsString :=
  if n = 0 then [digitUnit 0] else (Nat.digits 10 n).reverse.map digitUnit

def bigintText (n : ℤ) : JsString :=
  if n < 0 then 0x2D :: naturalText n.natAbs else naturalText n.natAbs

/-- White space and line terminators. -/
def isStrWhiteSpace (u : UInt16) : Bool :=
  (0x09 ≤ u && u ≤ 0x0D) || u == 0x20 || u == 0xA0 || u == 0x1680 || (0x2000 ≤ u && u ≤ 0x200A) ||
    u == 0x2028 || u == 0x2029 || u == 0x202F || u == 0x205F || u == 0x3000 || u == 0xFEFF

def trim (s : JsString) : JsString :=
  ((s.dropWhile isStrWhiteSpace).reverse.dropWhile isStrWhiteSpace).reverse

def digitValue (u : UInt16) : Option ℕ :=
  if 0x30 ≤ u && u ≤ 0x39 then some (u.toNat - 0x30)
  else if 0x41 ≤ u && u ≤ 0x5A then some (u.toNat - 0x41 + 10)
  else if 0x61 ≤ u && u ≤ 0x7A then some (u.toNat - 0x61 + 10)
  else none

def digitsValue (base : ℕ) (s : JsString) (acc : ℕ) : Option ℕ :=
  match s with
  | [] => some acc
  | u :: rest =>
    match digitValue u with
    | some d => if d < base then digitsValue base rest (acc * base + d) else none
    | none => none

/-- One digit at least. -/
def naturalOfText (base : ℕ) (s : JsString) : Option ℕ :=
  if s.isEmpty then none else digitsValue base s 0

def stringToBigInt (s : JsString) : Option ℤ :=
  match trim s with
  | [] => some 0
  | 0x2D :: rest => (naturalOfText 10 rest).map fun n : ℕ => -(n : ℤ)
  | 0x2B :: rest => (naturalOfText 10 rest).map fun n : ℕ => (n : ℤ)
  | 0x30 :: u :: rest =>
    if u = 0x78 ∨ u = 0x58 then (naturalOfText 16 rest).map fun n : ℕ => (n : ℤ)
    else if u = 0x6F ∨ u = 0x4F then (naturalOfText 8 rest).map fun n : ℕ => (n : ℤ)
    else if u = 0x62 ∨ u = 0x42 then (naturalOfText 2 rest).map fun n : ℕ => (n : ℤ)
    else (naturalOfText 10 (0x30 :: u :: rest)).map fun n : ℕ => (n : ℤ)
  | text => (naturalOfText 10 text).map fun n : ℕ => (n : ℤ)

/-! ## The text of a number reads back as that number -/

theorem digitValue_digitUnit {d : ℕ} (h : d < 10) : digitValue (digitUnit d) = some d := by
  interval_cases d <;> decide

theorem digitValue_hexDigit {n : ℕ} (h : n < 16) : digitValue (hexDigit n) = some n := by
  interval_cases n <;> decide

theorem digitsValue_map (ds : List ℕ) (h : ∀ d ∈ ds, d < 10) (acc : ℕ) :
    digitsValue 10 (ds.map digitUnit) acc =
      some (acc * 10 ^ ds.length + Nat.ofDigits 10 ds.reverse) := by
  induction ds generalizing acc with
  | nil => simp [digitsValue]
  | cons d ds ih =>
    have hd : d < 10 := h d (List.mem_cons_self ..)
    rw [List.map_cons, digitsValue, digitValue_digitUnit hd]
    simp only [hd, if_true]
    rw [ih (fun x hx => h x (List.mem_cons_of_mem _ hx))]
    simp only [List.length_cons, List.reverse_cons, Nat.ofDigits_append, List.length_reverse,
      Nat.ofDigits_singleton]
    congr 1
    ring

theorem naturalText_digits (n : ℕ) :
    ∃ ds : List ℕ, ds ≠ [] ∧ (∀ d ∈ ds, d < 10) ∧ naturalText n = ds.map digitUnit ∧
      Nat.ofDigits 10 ds.reverse = n := by
  unfold naturalText
  split
  · rename_i h
    exact ⟨[0], by simp, by simp, by simp, by simp [h]⟩
  · rename_i h
    refine ⟨(Nat.digits 10 n).reverse, ?_, ?_, rfl, ?_⟩
    · simpa using Nat.digits_ne_nil_iff_ne_zero.mpr h
    · intro d hd
      exact Nat.digits_lt_base (by norm_num) (List.mem_reverse.mp hd)
    · rw [List.reverse_reverse, Nat.ofDigits_digits]

theorem naturalOfText_naturalText (n : ℕ) : naturalOfText 10 (naturalText n) = some n := by
  obtain ⟨ds, hne, hlt, htext, hval⟩ := naturalText_digits n
  rw [naturalOfText, htext, digitsValue_map ds hlt, hval]
  have hempty : (ds.map digitUnit).isEmpty = false := by cases ds <;> simp at hne ⊢
  simp [hempty]

theorem digitUnit_plain {d : ℕ} (h : d < 10) : isStrWhiteSpace (digitUnit d) = false ∧
    digitUnit d ≠ 0x2D ∧ digitUnit d ≠ 0x2B ∧ digitUnit d ∉ ([0x78, 0x58, 0x6F, 0x4F, 0x62, 0x42] :
      JsString) := by
  interval_cases d <;> decide

theorem trim_of_no_space {s : JsString} (h : ∀ u ∈ s, isStrWhiteSpace u = false) : trim s = s := by
  have drop : ∀ t : JsString, (∀ u ∈ t, isStrWhiteSpace u = false) →
      t.dropWhile isStrWhiteSpace = t := by
    intro t ht
    cases t with
    | nil => rfl
    | cons u t => simp [ht u (List.mem_cons_self ..)]
  rw [trim, drop s h, drop _ (fun u hu => h u (List.mem_reverse.mp hu)), List.reverse_reverse]

/-- A text with neither a sign in front nor the letter of a base in it is read in base ten. -/
theorem stringToBigInt_unsigned {u : UInt16} {tail : JsString}
    (hspace : ∀ v ∈ u :: tail, isStrWhiteSpace v = false) (hminus : u ≠ 0x2D) (hplus : u ≠ 0x2B)
    (hbase : ∀ v ∈ u :: tail, v ∉ ([0x78, 0x58, 0x6F, 0x4F, 0x62, 0x42] : JsString)) :
    stringToBigInt (u :: tail) = (naturalOfText 10 (u :: tail)).map fun n : ℕ => (n : ℤ) := by
  rw [stringToBigInt, trim_of_no_space hspace]
  split
  · rename_i heq
    cases heq
  · rename_i heq
    exact absurd (List.cons.inj heq).1 hminus
  · rename_i heq
    exact absurd (List.cons.inj heq).1 hplus
  · rename_i v rest heq
    have hv := hbase v (heq ▸ by simp)
    simp only [List.mem_cons, List.not_mem_nil, or_false, not_or] at hv
    obtain ⟨n1, n2, n3, n4, n5, n6⟩ := hv
    rw [heq]
    simp only [n1, n2, n3, n4, n5, n6, or_self, if_false]
  · rfl

/-- Decimal digits alone are read in base ten, whatever the first ones are. -/
theorem stringToBigInt_digits (ds : List ℕ) (hne : ds ≠ []) (h : ∀ d ∈ ds, d < 10) :
    stringToBigInt (ds.map digitUnit) =
      (naturalOfText 10 (ds.map digitUnit)).map fun n : ℕ => (n : ℤ) := by
  have hplain : ∀ u ∈ ds.map digitUnit, isStrWhiteSpace u = false ∧ u ≠ 0x2D ∧ u ≠ 0x2B ∧
      u ∉ ([0x78, 0x58, 0x6F, 0x4F, 0x62, 0x42] : JsString) := by
    intro u hu
    obtain ⟨d, hd, rfl⟩ := List.mem_map.mp hu
    exact digitUnit_plain (h d hd)
  cases ds with
  | nil => exact absurd rfl hne
  | cons d ds =>
    obtain ⟨-, hminus, hplus, -⟩ := hplain (digitUnit d) (List.mem_cons_self ..)
    exact stringToBigInt_unsigned (fun u hu => (hplain u hu).1) hminus hplus
      fun u hu => (hplain u hu).2.2.2

theorem stringToBigInt_bigintText (n : ℤ) : stringToBigInt (bigintText n) = some n := by
  obtain ⟨ds, hne, hlt, htext, -⟩ := naturalText_digits n.natAbs
  have hvalue := naturalOfText_naturalText n.natAbs
  unfold bigintText
  split
  · rename_i hneg
    have hspace : ∀ u ∈ (0x2D :: naturalText n.natAbs : JsString), isStrWhiteSpace u = false := by
      intro u hu
      rw [htext] at hu
      rcases List.mem_cons.mp hu with rfl | hu
      · rfl
      · obtain ⟨d, hd, rfl⟩ := List.mem_map.mp hu
        exact (digitUnit_plain (hlt d hd)).1
    rw [stringToBigInt, trim_of_no_space hspace]
    change (naturalOfText 10 (naturalText n.natAbs)).map (fun k : ℕ => -(k : ℤ)) = some n
    rw [hvalue, Option.map_some, Option.some.injEq]
    omega
  · rename_i hpos
    rw [htext, stringToBigInt_digits ds hne hlt, ← htext, hvalue, Option.map_some,
      Option.some.injEq]
    omega

end Foundations.Js
