import MidnightJs.Foundations.BigInt
import MidnightJs.Foundations.Double
import MidnightJs.Foundations.Json

/-! # Numbers and their text

`Number` is the type `number`: the doubles with their sign, zero included, the infinities and
not-a-number. `Number.text` is `Number.prototype.toString`, the shortest decimal that reads back as
the number, and `stringToNumber` is `Number(string)`. -/

namespace Foundations.Js
set_option autoImplicit false

inductive Number
  | nan
  | infinity (negative : Bool)
  | finite (negative : Bool) (magnitude : ℚ) (isDouble : IsDouble magnitude)
  deriving DecidableEq

namespace Number

def zero : Number := .finite false 0 ⟨le_rfl, nearestDouble_zero, by positivity⟩

/-- The number nearest to a magnitude. -/
def ofMagnitude (q : ℚ) : Number :=
  if h : IsDouble (nearestDouble q) then .finite false (nearestDouble q) h else .infinity false

/-- The number nearest to a magnitude is infinite only on overflow. -/
theorem ofMagnitude_eq_infinity_iff {q : ℚ} (hq : 0 ≤ q) :
    ofMagnitude q = .infinity false ↔ 2 ^ 1024 ≤ nearestDouble q := by
  unfold ofMagnitude
  split_ifs with h
  · simpa using h.2.2
  · simpa using mt (isDouble_nearestDouble hq) h

def neg : Number → Number
  | nan => nan
  | infinity negative => infinity !negative
  | finite negative magnitude isDouble => finite (!negative) magnitude isDouble

/-- The number nearest to an integer. -/
def ofInt (n : ℤ) : Number :=
  if n < 0 then (ofMagnitude n.natAbs).neg else ofMagnitude n.natAbs

end Number

/-! ## Writing -/

/-- From the place `p` downwards, the first integer of a place that reads as `x`; of two neighbours
the nearer one first. -/
def shortestFrom (x : ℚ) : ℕ → ℤ → ℕ × ℤ
  | 0, p => (⌊x / 10 ^ p⌋.toNat, p)
  | fuel + 1, p =>
    let nearer := roundHalfEven (x / 10 ^ p)
    let other := 2 * ⌊x / 10 ^ p⌋ + 1 - nearer
    if nearestDouble (nearer * 10 ^ p) = x then (nearer.toNat, p)
    else if nearestDouble (other * 10 ^ p) = x then (other.toNat, p)
    else shortestFrom x fuel (p - 1)

/-- The shortest decimal that reads as `x`: an integer and its place. -/
def shortestDecimal (x : ℚ) : ℕ × ℤ :=
  shortestFrom x (Int.log 10 x + 1074).toNat (Int.log 10 x)

/-- The decimal digits of a number up to the last one that is not zero. -/
def significantDigits (n : ℕ) : List ℕ := ((Nat.digits 10 n).dropWhile (· = 0)).reverse

/-- The text of the digits, the first of which stands before the place `n`. -/
def decimalText (digits : List ℕ) (n : ℤ) : JsString :=
  let text := digits.map digitUnit
  if digits.length ≤ n ∧ n ≤ 21 then text ++ List.replicate (n.toNat - digits.length) 0x30
  else if 0 < n ∧ n ≤ 21 then text.take n.toNat ++ 0x2E :: text.drop n.toNat
  else if -6 < n ∧ n ≤ 0 then 0x30 :: 0x2E :: (List.replicate (-n).toNat 0x30 ++ text)
  else
    let fraction := if digits.length = 1 then [] else 0x2E :: text.drop 1
    let sign := if 0 < n then 0x2B else 0x2D
    text.take 1 ++ fraction ++ 0x65 :: sign :: naturalText (n - 1).natAbs

def magnitudeText (x : ℚ) : JsString :=
  let decimal := shortestDecimal x
  decimalText (significantDigits decimal.1) (decimal.2 + (Nat.digits 10 decimal.1).length)

def signed (negative : Bool) (text : JsString) : JsString :=
  if negative then 0x2D :: text else text

def Number.text : Number → JsString
  | .nan => js "NaN"
  | .infinity negative => signed negative (js "Infinity")
  | .finite negative magnitude _ =>
    if magnitude = 0 then js "0" else signed negative (magnitudeText magnitude)

/-! ## Reading -/

def exponentValue (s : JsString) : Option ℤ :=
  match s with
  | [] => some 0
  | u :: rest =>
    if u = 0x65 ∨ u = 0x45 then
      match rest with
      | 0x2D :: digits => (naturalOfText 10 digits).map fun n : ℕ => -(n : ℤ)
      | 0x2B :: digits => (naturalOfText 10 digits).map fun n : ℕ => (n : ℤ)
      | digits => (naturalOfText 10 digits).map fun n : ℕ => (n : ℤ)
    else none

/-- The digits after a point, and the rest. -/
def fractionDigits (s : JsString) : JsString × JsString :=
  match s with
  | 0x2E :: r => (r.takeWhile isDecimalDigit, r.dropWhile isDecimalDigit)
  | r => ([], r)

/-- The value of an unsigned decimal literal. -/
def decimalValue (s : JsString) : Option ℚ :=
  let whole := s.takeWhile isDecimalDigit
  let (fraction, exponent) := fractionDigits (s.dropWhile isDecimalDigit)
  match naturalOfText 10 (whole ++ fraction), exponentValue exponent with
  | some n, some e => some (n * 10 ^ (e - fraction.length))
  | _, _ => none

def unsignedNumber (s : JsString) : Number :=
  if s = js "Infinity" then .infinity false
  else
    match decimalValue s with
    | some q => .ofMagnitude q
    | none => .nan

def radixNumber (base : ℕ) (s : JsString) : Number :=
  match naturalOfText base s with
  | some n => .ofMagnitude n
  | none => .nan

def stringToNumber (s : JsString) : Number :=
  match trim s with
  | [] => .zero
  | 0x2D :: rest => (unsignedNumber rest).neg
  | 0x2B :: rest => unsignedNumber rest
  | 0x30 :: u :: rest =>
    if u = 0x78 ∨ u = 0x58 then radixNumber 16 rest
    else if u = 0x6F ∨ u = 0x4F then radixNumber 8 rest
    else if u = 0x62 ∨ u = 0x42 then radixNumber 2 rest
    else unsignedNumber (0x30 :: u :: rest)
  | text => unsignedNumber text

end Foundations.Js
