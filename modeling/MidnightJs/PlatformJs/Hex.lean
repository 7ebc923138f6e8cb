import MidnightJs.Utils.Hex

/-! # Hex strings of `platform-js`

`platform-js/src/effect/internal/hex.ts` and the hex form of a coin public key in
`CoinPublicKey.ts`. The regular expression is that of `packages/utils`; here every malformed string
is a parse error, of which only the message is kept. -/

namespace MidnightJs.PlatformJs
open Foundations.Js
set_option autoImplicit false

structure ParseError where
  message : JsString
  deriving DecidableEq

def parseHex (source : JsString) : Except ParseError ParsedHexString :=
  if source.isEmpty then .error ⟨js "Source string must have non-zero length"⟩
  else
    let hasPrefix := (js "0x").isPrefixOf source
    let pairs := hexPairs (if hasPrefix then source.drop 2 else source)
    let byteChars := pairs.1
    let incompleteChars := pairs.2
    -- `.` does not match a line terminator, so that the whole expression does not match.
    if incompleteChars.any isLineTerminator then
      .error ⟨js "Source string '" ++ source ++ js "' is not a valid hex-string"⟩
    else if !incompleteChars.isEmpty then
      if incompleteChars.length % 2 > 0 then
        .error ⟨js "Last byte of source string '" ++ source ++ js "' is incomplete"⟩
      else
        let invalidCharPos := byteChars.length + (if hasPrefix then 2 else 0)
        .error ⟨js "Invalid hex-digit '" ++ (source.drop invalidCharPos).take 1 ++
          js "' found in source string at index " ++ naturalText invalidCharPos⟩
    else if byteChars.isEmpty then
      .error ⟨js "Source string '" ++ source ++ js "' is not a valid hex-string"⟩
    else .ok ⟨hasPrefix, byteChars, incompleteChars⟩

/-- The brand constructor throws on what is not a plain hex string. -/
def plainHex (source : JsString) : Except JsError JsString :=
  match parseHex source with
  | .error e => .error (.error e.message)
  | .ok parsedHex =>
    if parsedHex.hasPrefix then
      .error (.error (js "Source string '" ++ source ++
        js "' has a '0x' prefix but prefixes are not allowed"))
    else .ok source

/-- A Bech32m key is not converted yet, and is rejected like any other string. -/
def asHex (coinPublicKey : JsString) : Except JsError JsString := plainHex coinPublicKey

end MidnightJs.PlatformJs
