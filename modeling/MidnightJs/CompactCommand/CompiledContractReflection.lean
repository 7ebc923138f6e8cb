import MidnightJs.CompactJs.Runtime
import MidnightJs.Foundations.Json5
import MidnightJs.Foundations.Utf8
import MidnightJs.PlatformJs.Hex

/-! # Parsing the arguments of a contract

`compact-js-command/src/effect/internal/compiledContractReflection.ts`. The types are those of the
TypeScript declaration that the compiler generates next to a contract; the arguments are the words of
the command line. -/

namespace MidnightJs.CompactJs
open Foundations Foundations.Js
set_option autoImplicit false

/-! ## Types of the declaration -/

/-- A type literal has property signatures with identifiers for names; the name of a type reference is
missing if it is not an identifier. -/
inductive TypeNode
  | number
  | bigint
  | string
  | boolean
  | array (elementType : TypeNode)
  | tuple (elements : List TypeNode)
  | typeLiteral (members : List (JsString × TypeNode))
  | typeReference (typeName : Option JsString)
  | unknown

/-- TypeScript puts a third underscore in front of an identifier that begins with two. -/
def escapedText (name : JsString) : JsString :=
  if (js "__").isPrefixOf name then 0x5F :: name else name

/-- `texts.join(', ')`. -/
def joined (texts : List JsString) : JsString := (texts.intersperse (js ", ")).flatten

mutual
def typeNodeName (type : TypeNode) : JsString :=
  match type with
  | .number => js "number"
  | .bigint => js "bigint"
  | .string => js "string"
  | .boolean => js "boolean"
  | .array elementType => typeNodeName elementType ++ js "[]"
  | .tuple elements => js "[" ++ joined (typeNodeNames elements) ++ js "]"
  | .typeLiteral members => js "\x7b " ++ joined (memberNames members) ++ js " \x7d"
  | .typeReference (some typeName) => escapedText typeName
  | .typeReference none => js "<unknown>"
  | .unknown => js "<unknown>"

def typeNodeNames (types : List TypeNode) : List JsString :=
  match types with
  | [] => []
  | type :: types => typeNodeName type :: typeNodeNames types

def memberNames (members : List (JsString × TypeNode)) : List JsString :=
  match members with
  | [] => []
  | (name, type) :: members => (escapedText name ++ js ": " ++ typeNodeName type) :: memberNames members
end

/-! ## Single values

An argument is missing (`none`) where an object lacks a member. -/

/-- The argument as a template string or `String` shows it. -/
def argText (arg : Option JsString) : JsString := arg.getD (js "undefined")

def parseNumber (arg : Option JsString) : JsValue :=
  match arg with
  | some text => .number (stringToNumber text)
  | none => .number .nan

def parseBigInt (arg : Option JsString) : Except ContractError JsValue :=
  match arg with
  | none => .error (.thrown (.typeError (js "Cannot convert undefined to a BigInt")))
  | some text =>
    match stringToBigInt text with
    | some n => .ok (.bigint n)
    | none => .error (.thrown (.syntaxError (js "Cannot convert " ++ text ++ js " to a BigInt")))

/-- `replaceAll('\'', '')`. -/
def withoutQuotes (text : JsString) : JsString := text.filter (· ≠ 0x27)

/-- The argument itself, or the argument without quotes. -/
def unquoted (quotedStrings : Bool) (arg : Option JsString) :
    Except ContractError (Option JsString) :=
  match quotedStrings, arg with
  | false, arg => .ok arg
  | true, some text => .ok (some (withoutQuotes text))
  | true, none => .error (.thrown (.typeError
      (js "Cannot read properties of undefined (reading 'replaceAll')")))

def parseString (quotedStrings : Bool) (arg : Option JsString) : Except ContractError JsValue := do
  match ← unquoted quotedStrings arg with
  | some text => return .string text
  | none => return .undefined

/-- `TRUE_OR_FALSE_REGEXP`: each anchor belongs to one of the two words only. -/
def trueOrFalse (text : JsString) : Bool :=
  (js "true").isPrefixOf text || (js "false").isSuffixOf text

def parseBoolean (arg : Option JsString) : Except ContractError JsValue :=
  if trueOrFalse (argText arg) then .ok (.boolean (arg = some (js "true")))
  else .error (.thrown (.syntaxError (js "Cannot convert " ++ argText arg ++ js " to a Boolean")))

/-- `Buffer.from(byteChars, 'hex')`. -/
def hexBytes (byteChars : JsString) : List UInt8 :=
  match byteChars with
  | u :: v :: rest =>
    (((digitValue u).getD 0) * 16 + (digitValue v).getD 0).toUInt8 :: hexBytes rest
  | _ => []

def parseBytes (quotedStrings : Bool) (arg : Option JsString) : Except ContractError JsValue := do
  let source ← unquoted quotedStrings arg
  match PlatformJs.parseHex (source.getD []) with
  | .ok parsedHex => return .buffer (hexBytes parsedHex.byteChars)
  | .error parseErr => throw (.thrown (.syntaxError
      (js "Cannot convert " ++ argText arg ++ js " to a Uint8Array: " ++ parseErr.message)))

/-! ## Lists and objects -/

variable (json5 : Json5)

/-- `JSON5.parse`, and the test for an array. -/
def parseElements (arg : Option JsString) : Except ContractError (List JsValue) :=
  match json5.parse (argText arg) with
  | .error e => .error (.thrown e)
  | .ok (.array elements) => .ok elements
  | .ok _ => .error (.thrown (.syntaxError
      (js "Cannot convert " ++ argText arg ++ js " to an array")))

/-- What `typeof value === 'object'` holds of among the values that JSON5 reads. A list may get named
members besides its elements. -/
inductive SrcObject
  | null
  | object (members : List (JsString × JsValue))
  | list (elements : List JsValue) (members : List (JsString × JsValue))

def parseObject (arg : Option JsString) : Except ContractError SrcObject :=
  match json5.parse (argText arg) with
  | .error e => .error (.thrown e)
  | .ok .null => .ok .null
  | .ok (.object members) => .ok (.object members)
  | .ok (.array elements) => .ok (.list elements [])
  | .ok _ => .error (.thrown (.syntaxError
      (js "Cannot convert " ++ argText arg ++ js " to an object literal")))

namespace SrcObject

/-- `srcObj[propKey]`. What every object inherits are functions, which JSON5 does not write either. -/
def get (srcObj : SrcObject) (propKey : JsString) : Except ContractError JsValue :=
  match srcObj with
  | null => .error (.thrown (.typeError
      (js "Cannot read properties of null (reading '" ++ propKey ++ js "')")))
  | object members => .ok ((OrderedMap.get members propKey).getD .undefined)
  | list elements members =>
    if propKey = js "length" then .ok (.number (.ofInt elements.length))
    else .ok ((OrderedMap.get members propKey).getD .undefined)

/-- The length that the number is: its value as a 32-bit integer is the number itself. -/
def arrayLength (x : Number) : Option ℕ :=
  match x with
  | .finite negative magnitude _ =>
    if magnitude.den = 1 ∧ magnitude < 2 ^ 32 ∧ (negative = true → magnitude = 0) then
      some magnitude.num.toNat
    else none
  | _ => none

/-- `buffer.toString()`. -/
def bufferText (bytes : List UInt8) : JsString := (Utf8.decode bytes).flatMap utf16

/-- The number that is made of a new length; of a buffer, by way of its text. Lists and objects do not
get here: they are not parsed from the text of a length. -/
def lengthNumber (value : JsValue) : Except ContractError Number :=
  match value with
  | .null => .ok .zero
  | .boolean b => .ok (.ofInt (if b then 1 else 0))
  | .number x => .ok x
  | .string s => .ok (stringToNumber s)
  | .buffer bytes => .ok (stringToNumber (bufferText bytes))
  | .bigint _ => .error (.thrown (.typeError (js "Cannot convert a BigInt value to a number")))
  | _ => .ok .nan

/-- A list whose length is set is cut off, or goes on with elements that read as undefined. -/
def withLength (elements : List JsValue) (length : ℕ) : List JsValue :=
  elements.take length ++ List.replicate (length - elements.length) .undefined

/-- `srcObj[propKey] = value`. -/
def set (srcObj : SrcObject) (propKey : JsString) (value : JsValue) :
    Except ContractError SrcObject :=
  match srcObj with
  | null => .ok null
  | object members => .ok (object (OrderedMap.set members propKey value))
  | list elements members =>
    if propKey = js "length" then do
      match arrayLength (← lengthNumber value) with
      | some length => return list (withLength elements length) members
      | none => throw (.thrown (.error (js "Invalid array length")))
    else .ok (list elements (OrderedMap.set members propKey value))

/-- A list with named members is shown as the object of all its members. -/
def toValue (srcObj : SrcObject) : JsValue :=
  match srcObj with
  | null => .null
  | object members => .object members
  | list elements [] => .array elements
  | list elements members =>
    .object ((elements.zipIdx.map fun p => (naturalText p.2, p.1)) ++ members)

end SrcObject

/-! ## Arguments -/

def checkCount (expected got : ℕ) : Except ContractError Unit :=
  if expected = got then .ok ()
  else .error (.contractRuntimeError (js "Invalid number of arguments. Expected " ++
    naturalText expected ++ js " arguments, but got " ++ naturalText got) none)

/-- The `catch` around one argument. -/
def atIndex (idx : ℕ) (type : TypeNode) (arg : Option JsString) (x : Except ContractError JsValue) :
    Except ContractError JsValue :=
  x.mapError fun err => .contractRuntimeError
    (js "Failed to parse argument with index " ++ naturalText idx)
    (some (.contractRuntimeError (js "Failed to parse string '" ++ argText arg ++ js "' as type of " ++
      typeNodeName type) (some err)))

/-- The loop over arguments of one type. -/
def transformRepeated (type : TypeNode) (transform : Option JsString → Except ContractError JsValue)
    (idx : ℕ) (args : List (Option JsString)) : Except ContractError (List JsValue) :=
  match args with
  | [] => .ok []
  | arg :: args => do
    let transformedArg ← atIndex idx type arg (transform arg)
    let transformedArgs ← transformRepeated type transform (idx + 1) args
    return transformedArg :: transformedArgs

mutual
/-- What is done with one argument. -/
def transformParam (quotedStrings : Bool) (type : TypeNode) (arg : Option JsString) :
    Except ContractError JsValue :=
  match type with
  | .number => .ok (parseNumber arg)
  | .bigint => parseBigInt arg
  | .string => parseString quotedStrings arg
  | .boolean => parseBoolean arg
  | .array elementType => do
    let arrayElems ← parseElements json5 arg
    let args ← transformRepeated elementType (fun arg => transformParam true elementType arg) 0
      (arrayElems.map json5.stringify)
    return .array args
  | .tuple elements => do
    let tupleElems ← parseElements json5 arg
    checkCount elements.length tupleElems.length
    let args ← transformTypes true elements 0 (tupleElems.map json5.stringify)
    return .array args
  | .typeLiteral members => do
    let srcObj ← parseObject json5 arg
    let srcObj ← transformMembers members srcObj
    return srcObj.toValue
  | .typeReference typeName =>
    if typeName = some (js "Uint8Array") then parseBytes quotedStrings arg else .ok .undefined
  | .unknown => .ok .undefined

/-- The loop over the types. -/
def transformTypes (quotedStrings : Bool) (types : List TypeNode) (idx : ℕ)
    (args : List (Option JsString)) : Except ContractError (List JsValue) :=
  match types, args with
  | type :: types, arg :: args => do
    let transformedArg ← atIndex idx type arg (transformParam quotedStrings type arg)
    let transformedArgs ← transformTypes quotedStrings types (idx + 1) args
    return transformedArg :: transformedArgs
  | _, _ => .ok []

/-- The loop over the members of a type literal: each is read, parsed and put back under its name. -/
def transformMembers (members : List (JsString × TypeNode)) (srcObj : SrcObject) :
    Except ContractError SrcObject :=
  match members with
  | [] => .ok srcObj
  | (name, propType) :: members => do
    let propKey := escapedText name
    let arg := json5.stringify (← srcObj.get propKey)
    let memberValue ← atIndex 0 propType arg (transformParam true propType arg)
    transformMembers members (← srcObj.set propKey memberValue)
end

def transformParams (args : List (Option JsString)) (types : List TypeNode) (quotedStrings : Bool) :
    Except ContractError (List JsValue) := do
  checkCount types.length args.length
  transformTypes json5 quotedStrings types 0 args

/-! ## The parser of a contract -/

/-- The parameter types of the impure circuits and of `initialState`, the context first. -/
structure ContractDeclaration where
  impureCircuits : List (JsString × List TypeNode)
  initialState : List TypeNode

structure ArgumentParser where
  parseInitializationArgs : List JsString → Except ContractError (List JsValue)
  parseCircuitArgs : CircuitId → List JsString → Except ContractError (List JsValue)

def makeArgumentParser (declaration : ContractDeclaration) : ArgumentParser where
  parseInitializationArgs args :=
    transformParams json5 (args.map some) (declaration.initialState.drop 1) false
  parseCircuitArgs circuitId args :=
    match declaration.impureCircuits.find? fun circuit => escapedText circuit.1 = circuitId with
    | none => .error (.contractRuntimeError (js "Circuit '" ++ circuitId ++
        js "' not found on the Compact generated TypeScript declaration.") none)
    | some circuitNode => transformParams json5 (args.map some) (circuitNode.2.drop 1) false

end MidnightJs.CompactJs
