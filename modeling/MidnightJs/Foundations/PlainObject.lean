import MidnightJs.Foundations.JsString
import MidnightJs.Foundations.OrderedMap

/-! # Plain objects as dictionaries

An object `{}` whose properties are read, assigned and deleted by name. A name that is not an own
property is looked up in `Object.prototype`, and `__proto__` is an accessor there, so that assigning
to it makes no property. -/

namespace Foundations.Js
set_option autoImplicit false

def PROTO : JsString := js "__proto__"

/-- The properties of `Object.prototype`. -/
def objectPrototype : List JsString :=
  [js "constructor", js "__defineGetter__", js "__defineSetter__", js "hasOwnProperty",
    js "__lookupGetter__", js "__lookupSetter__", js "isPrototypeOf", js "propertyIsEnumerable",
    js "toString", js "valueOf", PROTO, js "toLocaleString"]

theorem proto_mem : PROTO ∈ objectPrototype := by decide

/-- What reading a property gives. Everything inherited is a function or an object. -/
inductive Property (V : Type)
  | own (v : V)
  | inherited (name : JsString)
  | undefined
  deriving DecidableEq

/-- The values are no objects, so that assigning one to `__proto__` does nothing. -/
structure PlainObject (V : Type) where
  properties : List (JsString × V)
  no_proto : PROTO ∉ OrderedMap.keys properties

namespace PlainObject

variable {V : Type}

def empty : PlainObject V := ⟨[], List.not_mem_nil⟩

def read (o : PlainObject V) (name : JsString) : Property V :=
  match OrderedMap.get o.properties name with
  | some v => .own v
  | none => if name ∈ objectPrototype then .inherited name else .undefined

theorem keys_set {m : List (JsString × V)} {k k' : JsString} {v : V}
    (h : k' ∈ OrderedMap.keys (OrderedMap.set m k v)) : k' = k ∨ k' ∈ OrderedMap.keys m := by
  obtain ⟨e, he, rfl⟩ := List.mem_map.mp h
  obtain rfl | he := OrderedMap.mem_set he
  · exact .inl rfl
  · exact .inr (List.mem_map_of_mem he)

def assign (o : PlainObject V) (name : JsString) (v : V) : PlainObject V :=
  if h : name = PROTO then o
  else ⟨OrderedMap.set o.properties name v, fun hmem => by
    obtain heq | hmem := keys_set hmem
    · exact h heq.symm
    · exact o.no_proto hmem⟩

theorem keys_delete {m : List (JsString × V)} {k k' : JsString}
    (h : k' ∈ OrderedMap.keys (OrderedMap.delete m k)) : k' ∈ OrderedMap.keys m := by
  obtain ⟨e, he, rfl⟩ := List.mem_map.mp h
  exact List.mem_map_of_mem (List.mem_of_mem_filter he)

def delete (o : PlainObject V) (name : JsString) : PlainObject V :=
  ⟨OrderedMap.delete o.properties name, fun hmem => o.no_proto (keys_delete hmem)⟩

/-- `Object.keys(o)`, but for the order of names that are array indices. -/
def keys (o : PlainObject V) : List JsString := OrderedMap.keys o.properties

/-! ## The dictionary -/

/-- The own properties. -/
def lookup (o : PlainObject V) (name : JsString) : Option V := OrderedMap.get o.properties name

theorem read_eq (o : PlainObject V) (name : JsString) : o.read name =
    match o.lookup name with
    | some v => .own v
    | none => if name ∈ objectPrototype then .inherited name else .undefined := rfl

theorem lookup_proto (o : PlainObject V) : o.lookup PROTO = none :=
  OrderedMap.get_eq_none.mpr o.no_proto

theorem lookup_assign (o : PlainObject V) {name : JsString} (h : name ≠ PROTO) (v : V) :
    (o.assign name v).lookup = Function.update o.lookup name (some v) := by
  funext k
  unfold assign lookup
  rw [dif_neg h, OrderedMap.get_set, Function.update_apply]
  simp only [eq_comm]

theorem assign_proto (o : PlainObject V) (v : V) : o.assign PROTO v = o := dif_pos rfl

theorem lookup_delete (o : PlainObject V) (name : JsString) :
    (o.delete name).lookup = Function.update o.lookup name none := by
  funext k
  unfold delete lookup
  rw [OrderedMap.get_delete, Function.update_apply]

theorem lookup_deleteAll (o : PlainObject V) (names : List JsString) (k : JsString) :
    (names.foldl delete o).lookup k = if k ∈ names then none else o.lookup k := by
  induction names generalizing o with
  | nil => rw [List.foldl_nil, if_neg List.not_mem_nil]
  | cons name names ih =>
    rw [List.foldl_cons, ih, lookup_delete]
    by_cases hk : k = name
    · simp [hk]
    · simp [hk]

/-- Deleting every key leaves nothing, in whatever order the keys come. -/
theorem lookup_deleteKeys (o : PlainObject V) {names : List JsString}
    (h : ∀ k, k ∈ names ↔ k ∈ o.keys) : (names.foldl delete o).lookup = fun _ => none := by
  funext k
  rw [lookup_deleteAll]
  split
  · rfl
  · rename_i hk
    exact OrderedMap.get_eq_none.mpr (mt (h k).mpr hk)

end PlainObject

end Foundations.Js
