import MidnightJs.Foundations.BigInt

/-! # Hex strings

`packages/utils/src/hex-utils.ts` and `type-utils.ts`. `parseHex` is a regular expression there:
an optional `0x`, as many whole pairs of hex digits as possible, and a remainder matched by `.*`,
which stops at line terminators; a string it does not match makes the code read a property of
`undefined`. -/

namespace MidnightJs
open Foundations.Js
set_option autoImplicit false

abbrev ContractAddress := JsString

structure ParsedHexString where
  hasPrefix : Bool
  byteChars : JsString
  incompleteChars : JsString
  deriving DecidableEq

def isHexDigit (u : UInt16) : Bool :=
  (0x30 ≤ u && u ≤ 0x39) || (0x41 ≤ u && u ≤ 0x46) || (0x61 ≤ u && u ≤ 0x66)

def isLineTerminator (u : UInt16) : Bool :=
  u == 0x0A || u == 0x0D || u == 0x2028 || u == 0x2029

/-- The leading pairs of hex digits and what is left. -/
def hexPairs (s : JsString) : JsString × JsString :=
  match s with
  | u :: v :: rest =>
    if isHexDigit u && isHexDigit v then (u :: v :: (hexPairs rest).1, (hexPairs rest).2)
    else ([], u :: v :: rest)
  | s => ([], s)

def parseHex (source : JsString) : Except JsError ParsedHexString :=
  let hasPrefix := (js "0x").isPrefixOf source
  let pairs := hexPairs (if hasPrefix then source.drop 2 else source)
  if pairs.2.any isLineTerminator then
    .error (.typeError (js "Cannot read properties of undefined (reading 'prefix')"))
  else .ok ⟨hasPrefix, pairs.1, pairs.2⟩

/-- `byteLen` is absent or a number of bytes. -/
def isHex (source : JsString) (byteLen : Option ℤ) : Except JsError Bool :=
  if source.isEmpty || byteLen.any (· ≤ 0) then .ok false
  else do
    let parsedHex ← parseHex source
    let validByteLen := match byteLen with
      | some n => parsedHex.byteChars.length == 2 * n
      | none => 0 < parsedHex.byteChars.length
    return validByteLen && parsedHex.incompleteChars.isEmpty

def assertIsHex (source : JsString) (byteLen : Option ℤ) : Except JsError Unit :=
  if source.isEmpty then .error (.typeError (js "Input string must have non-zero length."))
  else if byteLen.any (· ≤ 0) then
    .error (.error (js "Expected byte length must be greater than zero."))
  else do
    let parsedHex ← parseHex source
    if !parsedHex.incompleteChars.isEmpty then
      if parsedHex.incompleteChars.length % 2 > 0 then
        throw (.typeError (js "The last byte of input string '" ++ source ++ js "' is incomplete."))
      let invalidCharPos := parsedHex.byteChars.length + (if parsedHex.hasPrefix then 2 else 0)
      throw (.typeError (js "Invalid hex-digit '" ++ (source.drop invalidCharPos).take 1 ++
        js "' found in input string at index " ++ naturalText invalidCharPos ++ js "."))
    if parsedHex.byteChars.isEmpty then
      throw (.typeError (js "Input string '" ++ source ++ js "' is not a valid hex-string."))
    match byteLen with
    | none => return ()
    | some n =>
      if parsedHex.byteChars.length != 2 * n then
        throw (.typeError (js "Expected an input string with byte length of " ++ bigintText n ++
          js ", got " ++ naturalText (parsedHex.byteChars.length / 2) ++ js "."))
      else return ()

def CONTRACT_ADDRESS_BYTE_LENGTH : ℤ := 34

def assertIsContractAddress (contractAddress : ContractAddress) : Except JsError Unit := do
  assertIsHex contractAddress (some CONTRACT_ADDRESS_BYTE_LENGTH)
  let parsedHex ← parseHex contractAddress
  if parsedHex.hasPrefix then
    throw (.typeError (js "Unexpected '0x' prefix in contract address '" ++ contractAddress ++
      js "'"))

def toHex (bytes : List UInt8) : JsString :=
  bytes.flatMap fun b => [hexDigit (b.toNat / 16), hexDigit (b.toNat % 16)]

/-- Decoding takes pairs from the start and stops at the first that is not hex. -/
def fromHex (str : JsString) : List UInt8 :=
  match str with
  | u :: v :: rest =>
    if isHexDigit u && isHexDigit v then
      ((digitValue u).getD 0 * 16 + (digitValue v).getD 0).toUInt8 :: fromHex rest
    else []
  | _ => []

/-- `parseCoinPublicKeyToHex` and `parseEncPublicKeyToHex`: a hex string is returned as it is, any
other is decoded by the Bech32m codec of the key's kind. -/
def parsePublicKeyToHex (decode : JsString → Except JsError (List UInt8))
    (possibleBech32 : JsString) : Except JsError JsString := do
  if ← isHex possibleBech32 none then return possibleBech32
  return toHex (← decode possibleBech32)

end MidnightJs
