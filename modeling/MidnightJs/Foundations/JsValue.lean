import MidnightJs.Foundations.Number

/-! # Values of the language

The values that programs hand to each other here: primitive values, byte arrays, arrays, plain
objects and maps. An object is the list of its own members in the order of enumeration. -/

namespace Foundations.Js
set_option autoImplicit false

inductive JsValue
  | undefined
  | null
  | boolean (b : Bool)
  | number (x : Number)
  | bigint (n : ℤ)
  | string (s : JsString)
  | uint8Array (bytes : List UInt8)
  | buffer (bytes : List UInt8)
  | array (elements : List JsValue)
  | object (members : List (JsString × JsValue))
  | map (entries : List (JsValue × JsValue))

namespace JsValue

def isUndefined : JsValue → Bool
  | undefined => true
  | _ => false

/-- `value === null || value === undefined`. -/
def isNullish : JsValue → Bool
  | undefined => true
  | null => true
  | _ => false

/-- Neither a list nor an object. -/
def isSingle : JsValue → Bool
  | array _ => false
  | object _ => false
  | _ => true

section
variable (single : JsValue → Prop) (name : JsString → Prop)

mutual
/-- The single values in `v` satisfy `single`, the names of the members in it satisfy `name`. -/
def Throughout (v : JsValue) : Prop :=
  match v with
  | .array vs => ThroughoutElements vs
  | .object ms => ThroughoutMembers ms
  | v => single v

def ThroughoutElements (vs : List JsValue) : Prop :=
  match vs with
  | [] => True
  | v :: vs => Throughout v ∧ ThroughoutElements vs

def ThroughoutMembers (ms : List (JsString × JsValue)) : Prop :=
  match ms with
  | [] => True
  | (k, v) :: ms => (name k ∧ Throughout v) ∧ ThroughoutMembers ms
end

variable {single name}

theorem throughout_single {v : JsValue} (h : v.isSingle = true) :
    Throughout single name v ↔ single v := by
  cases v <;> first | exact Iff.rfl | cases h

theorem throughoutElements_iff {vs : List JsValue} :
    ThroughoutElements single name vs ↔ ∀ v ∈ vs, Throughout single name v := by
  induction vs with
  | nil => simp [ThroughoutElements]
  | cons v vs ih => simp [ThroughoutElements, ih]

theorem throughoutMembers_iff {ms : List (JsString × JsValue)} :
    ThroughoutMembers single name ms ↔ ∀ e ∈ ms, name e.1 ∧ Throughout single name e.2 := by
  induction ms with
  | nil => simp [ThroughoutMembers]
  | cons e ms ih => simp [ThroughoutMembers, ih]

end

section
variable {single single' : JsValue → Prop} {name name' : JsString → Prop}

mutual
theorem Throughout.imp (hsingle : ∀ v, single v → single' v) (hname : ∀ k, name k → name' k) :
    ∀ {v : JsValue}, Throughout single name v → Throughout single' name' v
  | .array _, h => ThroughoutElements.imp hsingle hname h
  | .object _, h => ThroughoutMembers.imp hsingle hname h
  | .undefined, h => hsingle _ h
  | .null, h => hsingle _ h
  | .boolean _, h => hsingle _ h
  | .number _, h => hsingle _ h
  | .bigint _, h => hsingle _ h
  | .string _, h => hsingle _ h
  | .uint8Array _, h => hsingle _ h
  | .buffer _, h => hsingle _ h
  | .map _, h => hsingle _ h

theorem ThroughoutElements.imp (hsingle : ∀ v, single v → single' v)
    (hname : ∀ k, name k → name' k) : ∀ {vs : List JsValue},
    ThroughoutElements single name vs → ThroughoutElements single' name' vs
  | [], _ => trivial
  | _ :: _, ⟨h, hs⟩ => ⟨Throughout.imp hsingle hname h, ThroughoutElements.imp hsingle hname hs⟩

theorem ThroughoutMembers.imp (hsingle : ∀ v, single v → single' v)
    (hname : ∀ k, name k → name' k) : ∀ {ms : List (JsString × JsValue)},
    ThroughoutMembers single name ms → ThroughoutMembers single' name' ms
  | [], _ => trivial
  | (_, _) :: _, ⟨⟨hk, h⟩, hs⟩ =>
    ⟨⟨hname _ hk, Throughout.imp hsingle hname h⟩, ThroughoutMembers.imp hsingle hname hs⟩
end

end

end JsValue

end Foundations.Js
