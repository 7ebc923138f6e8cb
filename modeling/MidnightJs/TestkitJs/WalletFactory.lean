import MidnightJs.Foundations.Captured
import MidnightJs.Foundations.Json
import MidnightJs.Foundations.NumberArithmetic
import MidnightJs.TestkitJs.WalletUtils

/-! # Building and restoring wallets

`testkit-js/src/wallet/wallet-factory.ts`. The wallet under construction is a variable that the nested
closures of `buildFromSeedAndTryToRestoreState` assign. Of a wallet its seed is kept, and the
serialized state it was restored from. -/

namespace MidnightJs.TestkitJs
open Foundations Foundations.Js Foundations.Rx
set_option autoImplicit false

/-! ## The offset in a file -/

mutual
/-- The text of a value in a string. No member of an object is a method. -/
def primitiveText (v : Json) : Except JsError JsString :=
  match v with
  | .null => .ok (js "null")
  | .bool true => .ok (js "true")
  | .bool false => .ok (js "false")
  | .number literal => .ok (stringToNumber literal).text
  | .string s => .ok s
  | .array elements => joinedText elements
  | .object members =>
    if members.any (·.1 = js "toString") then
      .error (.typeError (js "Cannot convert object to primitive value"))
    else .ok (js "[object Object]")

/-- The elements between commas; `null` has no text among them. -/
def joinedText (elements : List Json) : Except JsError JsString :=
  match elements with
  | [] => .ok []
  | [.null] => .ok []
  | [v] => primitiveText v
  | .null :: vs => do return js "," ++ (← joinedText vs)
  | v :: vs => do return (← primitiveText v) ++ js "," ++ (← joinedText vs)
end

/-- A value as an operand of a subtraction; `none` is `undefined`. -/
def toNumber (v : Option Json) : Except JsError Number :=
  match v with
  | none => .ok .nan
  | some .null => .ok .zero
  | some (.bool b) => .ok (if b then .ofInt 1 else .zero)
  | some (.number literal) => .ok (stringToNumber literal)
  | some v => do return stringToNumber (← primitiveText v)

def minusOne (v : Option Json) : Except JsError Number := do
  return (← toNumber v).sub (.ofInt 1)

/-- A `bigint` on the left of `<`. -/
def bigintLt (n : ℤ) (x : Number) : Bool :=
  match x with
  | .nan => false
  | .infinity negative => !negative
  | .finite negative magnitude _ => (n : ℚ) < Number.signedValue negative magnitude

def parseSerialized (serialized : JsString) : Except JsError Json :=
  match Json.parse serialized with
  | some v => .ok v
  | none => .error (.syntaxError [])

def offsetOf (stateObjectFromFile : Json) : Except JsError (Option Json) :=
  match stateObjectFromFile with
  | .null => .error (.typeError (js "Cannot read properties of null (reading 'offset')"))
  | .object members => .ok (OrderedMap.get members (js "offset"))
  | _ => .ok none

/-! ## Building and restoring -/

structure MidnightWallet where
  seed : JsString
  restoredFrom : Option JsString
  deriving DecidableEq

/-- How the steps of one call end: the file, the library calls, and the states of the restored wallet
that its two subscriptions are notified of. -/
structure Surroundings where
  fileExists : Bool
  load : Promise (Option JsString)
  restore : Promise Unit
  progress : List (Notification WalletState)
  states : List (Notification WalletState)
  randomSeed : JsString
  build : Promise Unit
  buildFromSeed : Promise Unit

namespace WalletFactory

/-- The variable of the closures. -/
abbrev Building (α : Type) : Type := Captured (Option MidnightWallet) α

variable (env : Surroundings)

/-- A wallet of a new random seed. -/
def build : Building MidnightWallet := do
  Captured.await env.build
  return ⟨env.randomSeed, none⟩

def buildFromSeed (seed : JsString) : Building MidnightWallet := do
  Captured.await env.buildFromSeed
  return ⟨seed, none⟩

def restore (serialized seed : JsString) : Building MidnightWallet := do
  Captured.await env.restore
  return ⟨seed, some serialized⟩

def isAnotherChain (offset : Option Json) : Building Bool := do
  let state ← Captured.await (waitForSyncProgressDefined env.progress)
  match state.syncProgress with
  | some progress => return bigintLt progress.applyGap (← Captured.ofExcept (minusOne offset))
  | none => return false

def handleWalletRestoration (seed serialized : JsString) :
    Building (Option MidnightWallet) := do
  Captured.assign (some (← restore env serialized seed))
  let stateObjectFromFile ← Captured.ofExcept (parseSerialized serialized)
  let offset ← Captured.ofExcept (offsetOf stateObjectFromFile)
  if ← isAnotherChain env offset then
    Captured.assign (some (← build env))
  else
    let newState ← Captured.await (waitForFullSync env.states)
    let applyGap := (newState.syncProgress.map fun progress => progress.applyGap).getD 0
    if bigintLt applyGap (← Captured.ofExcept (minusOne offset)) then
      Captured.assign (some (← build env))
  Captured.read

def restoreWalletFromFile (seed : JsString) : Building Unit :=
  Captured.tryCatch (do
    match ← Captured.await env.load with
    | some serialized => Captured.assign (← handleWalletRestoration env seed serialized)
    | none => return ())
    fun _ => return ()

def buildFromSeedAndTryToRestoreState (seed : JsString) : Promise MidnightWallet :=
  let body : Building MidnightWallet := do
    if env.fileExists then restoreWalletFromFile env seed
    match ← Captured.read with
    | some wallet => return wallet
    | none => buildFromSeed env seed
  (body none).1

end WalletFactory

end MidnightJs.TestkitJs
