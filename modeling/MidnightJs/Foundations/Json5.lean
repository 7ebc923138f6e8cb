import MidnightJs.Foundations.JsValue
import MidnightJs.Foundations.NumberText

/-! # JSON5

`Json5` is the package of that name, of which no code is here: its `parse`, its `stringify`, and what
it documents about single values. Strings are written in single quotes unless they contain more of
these than of double quotes. -/

namespace Foundations.Js
set_option autoImplicit false

namespace Json5

/-! ## The text of a string -/

/-- The letter after the backslash. -/
def escapeLetter (u : UInt16) : Option UInt16 :=
  if u = 0x5C then some 0x5C
  else if u = 0x08 then some 0x62
  else if u = 0x0C then some 0x66
  else if u = 0x0A then some 0x6E
  else if u = 0x0D then some 0x72
  else if u = 0x09 then some 0x74
  else if u = 0x0B then some 0x76
  else none

def hexEscape (u : UInt16) : JsString :=
  [0x5C, 0x78, hexDigit (u.toNat / 16), hexDigit (u.toNat % 16)]

/-- The text of one code unit before `next`, quotes aside. -/
def unitText (u : UInt16) (next : JsString) : JsString :=
  match escapeLetter u with
  | some letter => [0x5C, letter]
  | none =>
    if u = 0 then if next.head?.any isDecimalDigit then hexEscape u else [0x5C, 0x30]
    else if u < 0x20 then hexEscape u
    else if u = 0x2028 then js "\\u2028"
    else if u = 0x2029 then js "\\u2029"
    else [u]

/-- Inside a string in the quotes `quote`. -/
def quoteBody (quote : UInt16) (s : JsString) : JsString :=
  match s with
  | [] => []
  | u :: rest => (if u = quote then [0x5C, u] else unitText u rest) ++ quoteBody quote rest

def quoteChar (s : JsString) : UInt16 :=
  if s.count 0x27 ≤ s.count 0x22 then 0x27 else 0x22

def quoteString (s : JsString) : JsString :=
  quoteChar s :: (quoteBody (quoteChar s) s ++ [quoteChar s])

theorem quoteChar_cases (s : JsString) : quoteChar s = 0x27 ∨ quoteChar s = 0x22 := by
  unfold quoteChar
  split
  · exact .inl rfl
  · exact .inr rfl

end Json5

/-! ## The package -/

structure Json5 where
  parse : JsString → Except JsError JsValue
  /-- `none` stands for `undefined`. -/
  stringify : JsValue → Option JsString
  stringify_undefined : stringify .undefined = none
  stringify_null : stringify .null = some (js "null")
  stringify_true : stringify (.boolean true) = some (js "true")
  stringify_false : stringify (.boolean false) = some (js "false")
  stringify_number : ∀ x, stringify (.number x) = some x.text
  stringify_string : ∀ s, stringify (.string s) = some (Json5.quoteString s)
  stringify_array : ∀ vs, ∃ body, stringify (.array vs) = some (0x5B :: (body ++ [0x5D]))
  stringify_object : ∀ ms, ∃ body, stringify (.object ms) = some (0x7B :: (body ++ [0x7D]))
  /-- The text is no literal, and neither a list nor an object. -/
  parse_undefined : ∃ e, parse (js "undefined") = .error e
  parse_null : parse (js "null") = .ok .null
  parse_true : parse (js "true") = .ok (.boolean true)
  parse_false : parse (js "false") = .ok (.boolean false)
  parse_number : ∀ x : Number, ∃ y, parse x.text = .ok (.number y)
  parse_string : ∀ s, ∃ s', parse (Json5.quoteString s) = .ok (.string s')

namespace Json5

variable (json5 : Json5)

/-- The same kind of value; of lists and objects the parts are written alike. -/
def WrittenAlike (w w' : JsValue) : Prop :=
  match w, w' with
  | .null, .null => True
  | .boolean _, .boolean _ => True
  | .number _, .number _ => True
  | .string _, .string _ => True
  | .array ws, .array ws' => ws'.map json5.stringify = ws.map json5.stringify
  | .object ms, .object ms' =>
    OrderedMap.mapValues json5.stringify ms' = OrderedMap.mapValues json5.stringify ms
  | _, _ => False

def ReadsAlike (text : JsString) (w : JsValue) : Prop :=
  ∃ w', json5.parse text = .ok w' ∧ json5.WrittenAlike w w'

/-- What is written for a value is read as that value, up to a negative zero in it, which is written
as zero. -/
def ReadsBack (w : JsValue) : Prop :=
  ∃ text, json5.stringify w = some text ∧ json5.ReadsAlike text w

mutual
/-- The value is one that JSON5 can read, and every list and every object in it reads back, the value
itself included. -/
def ReadsBackThroughout (w : JsValue) : Prop :=
  match w with
  | .null => True
  | .boolean _ => True
  | .number _ => True
  | .string _ => True
  | .array ws => json5.ReadsBack (.array ws) ∧ ElementsReadBack ws
  | .object ms => json5.ReadsBack (.object ms) ∧ MembersReadBack ms
  | _ => False

def ElementsReadBack (ws : List JsValue) : Prop :=
  match ws with
  | [] => True
  | w :: ws => ReadsBackThroughout w ∧ ElementsReadBack ws

def MembersReadBack (ms : List (JsString × JsValue)) : Prop :=
  match ms with
  | [] => True
  | (_, w) :: ms => ReadsBackThroughout w ∧ MembersReadBack ms
end

variable {json5}

theorem readsAlike_array {text : JsString} {ws : List JsValue} (h : json5.ReadsAlike text (.array ws)) :
    ∃ ws', json5.parse text = .ok (.array ws') ∧ ws'.map json5.stringify = ws.map json5.stringify := by
  obtain ⟨w', hparse, halike⟩ := h
  cases w' <;> first | exact halike.elim | exact ⟨_, hparse, halike⟩

theorem readsAlike_object {text : JsString} {ms : List (JsString × JsValue)}
    (h : json5.ReadsAlike text (.object ms)) :
    ∃ ms', json5.parse text = .ok (.object ms') ∧
      OrderedMap.mapValues json5.stringify ms' = OrderedMap.mapValues json5.stringify ms := by
  obtain ⟨w', hparse, halike⟩ := h
  cases w' <;> first | exact halike.elim | exact ⟨_, hparse, halike⟩

theorem readsAlike_of_parse {text : JsString} {w : JsValue} (h : json5.parse text = .ok w)
    (hback : json5.ReadsBackThroughout w) : json5.ReadsAlike text w := by
  refine ⟨w, h, ?_⟩
  cases w <;> first | exact hback.elim | trivial

theorem MembersReadBack.of_mem {ms : List (JsString × JsValue)} (h : json5.MembersReadBack ms)
    {e : JsString × JsValue} (he : e ∈ ms) : json5.ReadsBackThroughout e.2 := by
  induction ms with
  | nil => simp at he
  | cons e' ms ih =>
    rcases List.mem_cons.mp he with rfl | he
    · exact h.1
    · exact ih h.2 he

end Json5

end Foundations.Js
