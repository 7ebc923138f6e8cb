import MidnightJs.Foundations.JsValue
import MidnightJs.Foundations.NumberText

/-! # `JSON.stringify` and `JSON.parse` of values

`jsonStringify` is `JSON.stringify` without a replacer: what JSON cannot express is left out, written
as `null`, or makes it throw. `jsonParse` is `JSON.parse`. Values that are JSON data read back
unchanged (`jsonParse_jsonStringify`). -/

namespace Foundations.Js
set_option autoImplicit false

/-! ## Writing -/

def byteJson (b : UInt8) : Json := .number (naturalText b.toNat)

/-- The elements of a byte array under their indices. -/
def indexedBytes (bytes : List UInt8) : List (JsString × Json) :=
  bytes.zipIdx.map fun p => (naturalText p.2, byteJson p.1)

def numberJson : Number → Json
  | .finite negative magnitude isDouble => .number (Number.finite negative magnitude isDouble).text
  | _ => .null

mutual
/-- The value as JSON; `none` stands for `undefined`. -/
def JsValue.toJson (v : JsValue) : Except JsError (Option Json) :=
  match v with
  | .undefined => .ok none
  | .null => .ok (some .null)
  | .boolean b => .ok (some (.bool b))
  | .number x => .ok (some (numberJson x))
  | .bigint _ => .error (.typeError (js "Do not know how to serialize a BigInt"))
  | .string s => .ok (some (.string s))
  | .uint8Array bytes => .ok (some (.object (indexedBytes bytes)))
  | .buffer bytes =>
    .ok (some (.object [(js "type", .string (js "Buffer")), (js "data", .array (bytes.map byteJson))]))
  | .array vs =>
    match elementsToJson vs with
    | .ok elements => .ok (some (.array elements))
    | .error e => .error e
  | .object ms =>
    match membersToJson ms with
    | .ok members => .ok (some (.object members))
    | .error e => .error e
  | .map _ => .ok (some (.object []))

/-- An element that is `undefined` is written as `null`. -/
def elementsToJson (vs : List JsValue) : Except JsError (List Json) :=
  match vs with
  | [] => .ok []
  | v :: vs =>
    match v.toJson, elementsToJson vs with
    | .ok element, .ok elements => .ok (element.getD .null :: elements)
    | .error e, _ => .error e
    | _, .error e => .error e

/-- A member that is `undefined` is left out. -/
def membersToJson (ms : List (JsString × JsValue)) : Except JsError (List (JsString × Json)) :=
  match ms with
  | [] => .ok []
  | (k, v) :: ms =>
    match v.toJson, membersToJson ms with
    | .ok (some member), .ok members => .ok ((k, member) :: members)
    | .ok none, .ok members => .ok members
    | .error e, _ => .error e
    | _, .error e => .error e
end

/-- `none` stands for `undefined`. -/
def jsonStringify (v : JsValue) : Except JsError (Option JsString) :=
  v.toJson.map fun json => json.map Json.stringify

/-! ## Reading -/

mutual
def JsValue.ofJson (j : Json) : JsValue :=
  match j with
  | .null => .null
  | .bool b => .boolean b
  | .number literal => .number (stringToNumber literal)
  | .string s => .string s
  | .array elements => .array (elementsOfJson elements)
  | .object members => .object (membersOfJson members)

def elementsOfJson (elements : List Json) : List JsValue :=
  match elements with
  | [] => []
  | j :: js => .ofJson j :: elementsOfJson js

def membersOfJson (members : List (JsString × Json)) : List (JsString × JsValue) :=
  match members with
  | [] => []
  | (k, j) :: ms => (k, .ofJson j) :: membersOfJson ms
end

/-- The engine's own message is left out. -/
def jsonParse (text : JsString) : Except JsError JsValue :=
  match Json.parse text with
  | some j => .ok (.ofJson j)
  | none => .error (.syntaxError [])

/-! ## JSON data -/

mutual
/-- Null, booleans, finite numbers other than negative zero, strings, and arrays and objects of such. -/
def JsValue.IsJson (v : JsValue) : Prop :=
  match v with
  | .null => True
  | .boolean _ => True
  | .number x => x.HasLiteral
  | .string _ => True
  | .array vs => elementsAreJson vs
  | .object ms => (OrderedMap.keys ms).Nodup ∧ membersAreJson ms
  | _ => False

def elementsAreJson (vs : List JsValue) : Prop :=
  match vs with
  | [] => True
  | v :: vs => v.IsJson ∧ elementsAreJson vs

def membersAreJson (ms : List (JsString × JsValue)) : Prop :=
  match ms with
  | [] => True
  | (_, v) :: ms => v.IsJson ∧ membersAreJson ms
end

theorem numberJson_hasLiteral {x : Number} (h : x.HasLiteral) :
    (numberJson x).WellFormed ∧ JsValue.ofJson (numberJson x) = .number x := by
  cases x with
  | nan => exact h.elim
  | infinity negative => exact h.elim
  | finite negative magnitude isDouble =>
    rw [numberJson, JsValue.ofJson, stringToNumber_text h]
    exact ⟨validNumber_text h, rfl⟩

mutual
/-- JSON data is written as a value of the grammar, which reads back as that data. -/
theorem JsValue.IsJson.toJson : ∀ {v : JsValue}, v.IsJson →
    ∃ j, v.toJson = .ok (some j) ∧ j.WellFormed ∧ JsValue.ofJson j = v
  | .null, _ => ⟨.null, rfl, trivial, rfl⟩
  | .boolean b, _ => ⟨.bool b, rfl, trivial, rfl⟩
  | .number x, h => ⟨numberJson x, rfl, numberJson_hasLiteral h⟩
  | .string s, _ => ⟨.string s, rfl, trivial, rfl⟩
  | .array vs, h => by
    have hvs : elementsAreJson vs := h
    obtain ⟨elements, htext, hformed, hback⟩ := elementsAreJson_toJson hvs
    refine ⟨.array elements, ?_, hformed, ?_⟩
    · rw [JsValue.toJson, htext]
    · rw [JsValue.ofJson, hback]
  | .object ms, h => by
    have hms : membersAreJson ms := h.2
    obtain ⟨members, htext, hkeys, hformed, hback⟩ := membersAreJson_toJson hms
    refine ⟨.object members, ?_, ⟨hkeys ▸ h.1, hformed⟩, ?_⟩
    · rw [JsValue.toJson, htext]
    · rw [JsValue.ofJson, hback]

theorem elementsAreJson_toJson : ∀ {vs : List JsValue}, elementsAreJson vs →
    ∃ elements, elementsToJson vs = .ok elements ∧ elementsWellFormed elements ∧
      elementsOfJson elements = vs
  | [], _ => ⟨[], rfl, trivial, rfl⟩
  | v :: vs, h => by
    obtain ⟨j, htext, hformed, hback⟩ := JsValue.IsJson.toJson h.1
    obtain ⟨elements, htexts, hformeds, hbacks⟩ := elementsAreJson_toJson h.2
    refine ⟨j :: elements, ?_, ⟨hformed, hformeds⟩, ?_⟩
    · rw [elementsToJson, htext, htexts]
      rfl
    · rw [elementsOfJson, hback, hbacks]

theorem membersAreJson_toJson : ∀ {ms : List (JsString × JsValue)}, membersAreJson ms →
    ∃ members, membersToJson ms = .ok members ∧ OrderedMap.keys members = OrderedMap.keys ms ∧
      membersWellFormed members ∧ membersOfJson members = ms
  | [], _ => ⟨[], rfl, rfl, trivial, rfl⟩
  | (k, v) :: ms, h => by
    obtain ⟨j, htext, hformed, hback⟩ := JsValue.IsJson.toJson h.1
    obtain ⟨members, htexts, hkeys, hformeds, hbacks⟩ := membersAreJson_toJson h.2
    refine ⟨(k, j) :: members, ?_, ?_, ⟨hformed, hformeds⟩, ?_⟩
    · rw [membersToJson, htext, htexts]
    · exact congrArg (List.cons k) hkeys
    · rw [membersOfJson, hback, hbacks]
end

theorem jsonParse_jsonStringify {v : JsValue} (h : v.IsJson) :
    ∃ text, jsonStringify v = .ok (some text) ∧ jsonParse text = .ok v := by
  obtain ⟨j, htext, hformed, hback⟩ := h.toJson
  refine ⟨j.stringify, ?_, ?_⟩
  · rw [jsonStringify, htext]
    rfl
  · rw [jsonParse, parse_stringify hformed]
    exact congrArg Except.ok hback

end Foundations.Js
