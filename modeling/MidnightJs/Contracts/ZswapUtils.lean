import MidnightJs.Foundations.JsonRoundTrip
import MidnightJs.Foundations.Number
import MidnightJs.Foundations.Utf8
import MidnightJs.Ledger.Offers
import MidnightJs.Utils.Assertions

/-! # From the local Zswap state to an offer

`packages/contracts/src/utils/zswap-utils.ts`. `zswapStateToOffer` files the outputs of the local
state under the JSON text of their coin, takes the inputs in order, turns an input that finds its
text among the outputs into a transient and files the others under their own text, and makes an
offer of the three maps. -/

namespace MidnightJs
open Foundations Foundations.Js
set_option autoImplicit false

def DEFAULT_SEGMENT_NUMBER : ℕ := 0

/-! ## Coins as text -/

/-- An object with these properties as a text. A property `toString` hides the inherited function, and
the one of `valueOf` gives the object again. -/
def objectText (keys : List JsString) : Except JsError JsString :=
  if js "toString" ∈ keys then .error (.typeError (js "Cannot convert object to primitive value"))
  else .ok (js "[object Object]")

/-- `text` is what `coinInfo` becomes in a template. -/
def checkKeys (text : Except JsError JsString) (keys : List JsString) : Except JsError Unit :=
  match keys.find? fun k => k ∉ coinKeys with
  | some key => do
    throw (.typeError (js "Key '" ++ key ++ js "' should not be present in output data " ++ (← text)))
  | none => .ok ()

/-- The members of `{...coinInfo, value: {...}}`, in the order of the properties of `coinInfo`. -/
def coinMembers (c : CoinRecord) : List (JsString × Json) :=
  c.keys.filterMap fun k =>
    if k = js "type" then some (k, .string c.type)
    else if k = js "nonce" then some (k, .string c.nonce)
    else if k = js "value" then
      some (k, .object [(js "__big_int_val__", .string (bigintText c.value))])
    else none

def serializeCoinInfo (coinInfo : CoinRecord) : Except JsError JsString := do
  checkKeys (objectText coinInfo.keys) coinInfo.keys
  return (Json.object (coinMembers coinInfo)).stringify

def serializeQualifiedCoinInfo (coinInfo : QualifiedCoinInfo) : Except JsError JsString :=
  serializeCoinInfo coinInfo.rest.toCoinRecord

/-- What `JSON.parse` with a reviver may return. -/
inductive Revived
  | null
  | bool (b : Bool)
  | number (literal : JsString)
  | string (s : JsString)
  | bigint (n : ℤ)
  | bytes (hex : JsString)
  | array (elements : List Revived)
  | object (members : List (JsString × Revived))

/-- The reviver of `deserializeCoinInfo`. -/
def reviver (key : JsString) (value : Revived) : Except JsError Revived :=
  match value with
  | .object members =>
    match OrderedMap.get members (js "__big_int_val__"),
      OrderedMap.get members (js "__uint8Array_val__") with
    | some (.string digits), bytes =>
      if key = js "value" then
        match stringToBigInt digits with
        | some n => .ok (.bigint n)
        | none => .error (.syntaxError (js "Cannot convert " ++ digits ++ js " to a BigInt"))
      else
        match bytes with
        | some (.string hex) =>
          if key = js "color" ∨ key = js "nonce" then .ok (.bytes hex) else .ok value
        | _ => .ok value
    | _, some (.string hex) =>
      if key = js "color" ∨ key = js "nonce" then .ok (.bytes hex) else .ok value
    | _, _ => .ok value
  | _ => .ok value

mutual
/-- The reviver is applied to the parts of a value before the value itself. -/
def revive (key : JsString) (value : Json) : Except JsError Revived :=
  match value with
  | .null => reviver key .null
  | .bool b => reviver key (.bool b)
  | .number literal => reviver key (.number literal)
  | .string s => reviver key (.string s)
  | .array elements => do reviver key (.array (← reviveElements 0 elements))
  | .object members => do reviver key (.object (← reviveMembers members))

def reviveElements (index : ℕ) (elements : List Json) : Except JsError (List Revived) :=
  match elements with
  | [] => .ok []
  | v :: vs => do
    let r ← revive (naturalText index) v
    return r :: (← reviveElements (index + 1) vs)

def reviveMembers (members : List (JsString × Json)) :
    Except JsError (List (JsString × Revived)) :=
  match members with
  | [] => .ok []
  | (k, v) :: ms => do
    let r ← revive k v
    return (k, r) :: (← reviveMembers ms)
end

/-- `Object.keys`, which refuses `null`. -/
def objectKeys (v : Revived) : Except JsError (List JsString) :=
  match v with
  | .null => .error (.typeError (js "Cannot convert undefined or null to object"))
  | .string s => .ok ((List.range s.length).map naturalText)
  | .bytes hex => .ok ((List.range (fromHex hex).length).map naturalText)
  | .array elements => .ok ((List.range elements.length).map naturalText)
  | .object members => .ok (OrderedMap.keys members)
  | .bool _ | .number _ | .bigint _ => .ok []

mutual
def Revived.text : Revived → Except JsError JsString
  | .null => .ok (js "null")
  | .bool true => .ok (js "true")
  | .bool false => .ok (js "false")
  | .number literal => .ok (stringToNumber literal).text
  | .string s => .ok s
  | .bigint n => .ok (bigintText n)
  | .bytes hex => .ok ((Utf8.decode (fromHex hex)).flatMap utf16)
  | .array elements => elementsText elements
  | .object members => objectText (OrderedMap.keys members)

/-- The elements joined with commas. `null` is left out, its comma is not. -/
def elementsText : List Revived → Except JsError JsString
  | [] => .ok []
  | [v] => elementText v
  | v :: vs => do return (← elementText v) ++ js "," ++ (← elementsText vs)

def elementText (v : Revived) : Except JsError JsString :=
  match v with
  | .null => .ok []
  | v => v.text
end

def deserializeCoinInfo (coinInfo : JsString) : Except JsError Revived :=
  match Json.parse coinInfo with
  | none => .error (.syntaxError (js "Unexpected token in JSON"))
  | some value => do
    let res ← revive [] value
    checkKeys res.text (← objectKeys res)
    return res

/-! ## The parts of the offer -/

def createUnprovenOutput (output : ZswapOutput) (encryptionPublicKey : JsString)
    (segmentNumber : ℕ) : UnprovenOutput :=
  if output.recipient.isLeft then
    .new output.coinInfo segmentNumber output.recipient.left encryptionPublicKey
  else .newContractOwned output.coinInfo segmentNumber output.recipient.right

variable [Runtime]

/-- `const { type, value } = deserializeCoinInfo(coinInfo)`; the ledger takes a string and a
bigint. -/
def unprovenOfferFromCoinInfo {U : Type} (coinInfo : JsString) (unproven : U)
    (f : U → JsString → ℤ → UnprovenOffer) : Except JsError UnprovenOffer := do
  match ← deserializeCoinInfo coinInfo with
  | .object members =>
    match OrderedMap.get members (js "type"), OrderedMap.get members (js "value") with
    | some (.string type), some (.bigint value) => return f unproven type value
    | _, _ => throw (.typeError (js "expected a token type and a value"))
  | _ => throw (.typeError (js "expected a token type and a value"))

def unprovenOfferFromMap {U : Type} (map : List (JsString × U))
    (f : U → JsString → ℤ → UnprovenOffer) : Except JsError UnprovenOffer := do
  let offers ← map.mapM fun entry => unprovenOfferFromCoinInfo entry.1 entry.2 f
  return offers.foldl UnprovenOffer.merge UnprovenOffer.empty

structure AddressAndChainState where
  contractAddress : ContractAddress
  zswapChainState : ZswapChainState

/-- The three maps of `zswapStateToOffer`. -/
structure OfferMaps where
  unprovenOutputs : List (JsString × UnprovenOutput)
  unprovenInputs : List (JsString × UnprovenInput)
  unprovenTransients : List (JsString × UnprovenTransient)

/-- What `zswapStateToOffer` does with one input. -/
def offerInput (addressAndChainStateTuple : Option AddressAndChainState) (maps : OfferMaps)
    (qualifiedCoinInfo : QualifiedCoinInfo) : Except JsError OfferMaps := do
  let serializedCoinInfo ← serializeQualifiedCoinInfo qualifiedCoinInfo
  match OrderedMap.get maps.unprovenOutputs serializedCoinInfo with
  | some unprovenOutput =>
    return { maps with
      unprovenTransients := OrderedMap.set maps.unprovenTransients serializedCoinInfo
        (.newFromContractOwnedOutput qualifiedCoinInfo DEFAULT_SEGMENT_NUMBER unprovenOutput)
      unprovenOutputs := OrderedMap.delete maps.unprovenOutputs serializedCoinInfo }
  | none =>
    match addressAndChainStateTuple with
    | none => throw (.error
        (js "Only outputs or transients are expected when no chain state is provided"))
    | some tuple =>
      assertIsContractAddress tuple.contractAddress
      return { maps with
        unprovenInputs := OrderedMap.set maps.unprovenInputs serializedCoinInfo
          (.newContractOwned qualifiedCoinInfo DEFAULT_SEGMENT_NUMBER tuple.contractAddress
            tuple.zswapChainState) }

def zswapStateToOffer (zswapLocalState : ZswapLocalState) (encryptionPublicKey : JsString)
    (addressAndChainStateTuple : Option AddressAndChainState) : Except JsError UnprovenOffer := do
  let entries ← zswapLocalState.outputs.mapM fun output => do
    let key ← serializeCoinInfo output.coinInfo.toCoinRecord
    return (key, createUnprovenOutput output encryptionPublicKey DEFAULT_SEGMENT_NUMBER)
  let maps ← zswapLocalState.inputs.foldlM (offerInput addressAndChainStateTuple)
    ⟨OrderedMap.ofEntries entries, [], []⟩
  let inputs ← unprovenOfferFromMap maps.unprovenInputs UnprovenOffer.fromInput
  let outputs ← unprovenOfferFromMap maps.unprovenOutputs UnprovenOffer.fromOutput
  let transients ← unprovenOfferFromMap maps.unprovenTransients UnprovenOffer.fromTransient
  return (inputs.merge outputs).merge transients

omit [Runtime] in
def zswapStateToNewCoins (receiverCoinPublicKey : JsString) (zswapState : ZswapLocalState) :
    List CoinInfo :=
  (zswapState.outputs.filter fun output => output.recipient.left = receiverCoinPublicKey).map
    ZswapOutput.coinInfo

def parseCoinPublicKeyToHex (possibleBech32 : JsString) : Except JsError JsString :=
  parsePublicKeyToHex Runtime.decodeCoinPublicKey possibleBech32

def parseEncPublicKeyToHex (possibleBech32 : JsString) : Except JsError JsString :=
  parsePublicKeyToHex Runtime.decodeEncPublicKey possibleBech32

def encryptionPublicKeyForzswapState (zswapState : ZswapLocalState)
    (walletCoinPublicKey walletEncryptionPublicKey : JsString) : Except JsError JsString := do
  let walletCoinPublickKey ← parseCoinPublicKeyToHex walletCoinPublicKey
  let localCoinPublicKey ← parseCoinPublicKeyToHex zswapState.coinPublicKey
  if localCoinPublicKey ≠ walletCoinPublickKey then
    throw (.error (js "Unable to lookup encryption public key (Unsupported coin)"))
  parseEncPublicKeyToHex walletEncryptionPublicKey

end MidnightJs
