import MidnightJs.Foundations.NumberArithmetic
import MidnightJs.PlatformJs.Hex

/-! # Integer ranges and hex constructors

`platform-js/src/effect/IntegerRange.ts` and the constructors of `internal/hex.ts`. The expression
for the text of a range has no anchors: it is searched for, from the left, and the digits on either
side of the dots may be missing. -/

namespace MidnightJs.PlatformJs
open Foundations.Js
set_option autoImplicit false

/-! ## Ranges -/

inductive RangeTag
  | inclusive
  | exclusive
  deriving DecidableEq

structure IntegerRange where
  tag : RangeTag
  min : Number
  max : Number
  deriving DecidableEq

inductive IntegerRangeInput
  | range (range : IntegerRange)
  | tuple (min max : Number)
  | text (text : JsString)

/-- The groups of the expression. -/
structure RangeMatch where
  n : JsString
  inc : JsString
  x : JsString
  deriving DecidableEq

/-- `(?<n>\\d*)\\.\\.(?<inc>\\=?)(?<x>\\d*)` from here on. -/
def matchRangeHere (s : JsString) : Option RangeMatch :=
  match s.dropWhile isDecimalDigit with
  | 0x2E :: 0x2E :: 0x3D :: rest =>
    some ⟨s.takeWhile isDecimalDigit, js "=", rest.takeWhile isDecimalDigit⟩
  | 0x2E :: 0x2E :: rest =>
    some ⟨s.takeWhile isDecimalDigit, [], rest.takeWhile isDecimalDigit⟩
  | _ => none

/-- The leftmost match. -/
def matchRange (s : JsString) : Option RangeMatch :=
  match s with
  | [] => matchRangeHere []
  | u :: rest => (matchRangeHere (u :: rest)).or (matchRange rest)

namespace IntegerRange

def DEFAULT_ARRAY_INPUT_MODE : RangeTag := .exclusive

/-- The numbers of a text are read by `Number`, which takes no digits for zero. -/
def make (input : IntegerRangeInput) (arrayInputMode : Option RangeTag) :
    Except JsError IntegerRange :=
  match input with
  | .range range => .ok range
  | .tuple min max => .ok ⟨arrayInputMode.getD DEFAULT_ARRAY_INPUT_MODE, min, max⟩
  | .text text =>
    match matchRange text with
    | none => .error (.error (js "Invalid IntegerRange: " ++ text))
    | some groups => .ok ⟨if groups.inc = js "=" then .inclusive else .exclusive,
        stringToNumber groups.n, stringToNumber groups.x⟩

/-- `from`. -/
def ofInput (input : IntegerRangeInput) : Except JsError IntegerRange := make input none

def isInclusive (self : IntegerRange) : Bool := self.tag == .inclusive

def isExclusive (self : IntegerRange) : Bool := self.tag == .exclusive

def one : Number := .ofInt 1

def inclusive (range : IntegerRangeInput) : Except JsError IntegerRange :=
  match range with
  | .range range =>
    if range.isInclusive then .ok range
    else make (.tuple range.min (range.max.sub one)) (some .inclusive)
  | input => make input (some .inclusive)

def exclusive (range : IntegerRangeInput) : Except JsError IntegerRange :=
  match range with
  | .range range =>
    if range.isExclusive then .ok range
    else make (.tuple range.min (range.max.add one)) (some .exclusive)
  | input => make input (some .exclusive)

def containsExclusive (self : IntegerRange) (value : Number) : Bool :=
  value.ge self.min && value.lt self.max

/-- Of an inclusive range the exclusive one up to the next number is asked. -/
def contains (self : IntegerRange) (value : Number) : Bool :=
  if self.isInclusive then
    containsExclusive ⟨DEFAULT_ARRAY_INPUT_MODE, self.min, self.max.add one⟩ value
  else containsExclusive self value

def equals (self that : IntegerRange) : Bool :=
  self.tag == that.tag && self.min.strictEquals that.min && self.max.strictEquals that.max

def toString (self : IntegerRange) : JsString :=
  let sep := match self.tag with
    | .inclusive => js "..="
    | .exclusive => js ".."
  self.min.text ++ sep ++ self.max.text

end IntegerRange

/-! ## Constructors -/

structure HexConstraints where
  requirePrefix : Bool
  byteLength : Option IntegerRangeInput

/-- The refinement that the constructor checks: the message of the brand error, if there is one. An
empty text as byte length is no constraint. -/
def refineHex (options : HexConstraints) (source : JsString) : Except JsError (Option JsString) :=
  match parseHex source with
  | .error e => .ok (some e.message)
  | .ok parsedHex =>
    if options.requirePrefix && !parsedHex.hasPrefix then
      .ok (some (js "Source string '" ++ source ++ js "' requires a '0x' prefix"))
    else if !options.requirePrefix && parsedHex.hasPrefix then
      .ok (some (js "Source string '" ++ source ++
        js "' has a '0x' prefix but prefixes are not allowed"))
    else
      match options.byteLength with
      | none => .ok none
      | some (.text []) => .ok none
      | some input => do
        let byteLength ← IntegerRange.ofInput input
        let actualByteLen := Number.ofInt ((parsedHex.byteChars.length / 2 : ℕ) : ℤ)
        if !byteLength.contains actualByteLen then
          return some (js "Source string '" ++ source ++ js "' has a byte length of " ++
            actualByteLen.text ++ js ", but expected " ++ byteLength.toString)
        else return none

/-- The constructor throws a brand error, or returns the source. -/
def makeHex (options : HexConstraints) (source : JsString) : Except JsError JsString := do
  match ← refineHex options source with
  | some message => .error (.error message)
  | none => return source

end MidnightJs.PlatformJs
