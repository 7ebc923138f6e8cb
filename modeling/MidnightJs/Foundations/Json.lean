import MidnightJs.Foundations.BigInt
import MidnightJs.Foundations.OrderedMap

/-! # JSON text

`Json.stringify` writes a value the way `JSON.stringify` does without indentation: short escapes
where they exist, `\u` escapes for the other control characters and for surrogates that stand
alone. `Json.parse` is `JSON.parse` without its reviver: the full grammar, white space included,
and a member name that comes again replaces the earlier value in its place. A number is kept as
the literal that spells it. -/

namespace Foundations.Js
set_option autoImplicit false

inductive Json
  | null
  | bool (b : Bool)
  | number (literal : JsString)
  | string (s : JsString)
  | array (elements : List Json)
  | object (members : List (JsString × Json))

/-! ## Writing -/

def unicodeEscape (u : UInt16) : JsString :=
  [0x5C, 0x75, hexDigit (u.toNat / 4096), hexDigit (u.toNat / 256 % 16),
    hexDigit (u.toNat / 16 % 16), hexDigit (u.toNat % 16)]

def shortEscape (u : UInt16) : Option UInt16 :=
  if u = 0x08 then some 0x62
  else if u = 0x09 then some 0x74
  else if u = 0x0A then some 0x6E
  else if u = 0x0C then some 0x66
  else if u = 0x0D then some 0x72
  else if u = 0x22 then some 0x22
  else if u = 0x5C then some 0x5C
  else none

def isLeadSurrogate (u : UInt16) : Bool := 0xD800 ≤ u && u ≤ 0xDBFF
def isTrailSurrogate (u : UInt16) : Bool := 0xDC00 ≤ u && u ≤ 0xDFFF

/-- The text of one code unit; `paired` says that it is the trail of a pair, `next` is what
follows it. -/
def unitText (paired : Bool) (u : UInt16) (next : JsString) : JsString :=
  match shortEscape u with
  | some e => [0x5C, e]
  | none =>
    if u < 0x20 then unicodeEscape u
    else if isLeadSurrogate u then
      if next.head?.any isTrailSurrogate then [u] else unicodeEscape u
    else if isTrailSurrogate u then
      if paired then [u] else unicodeEscape u
    else [u]

def quoteBody (paired : Bool) (s : JsString) : JsString :=
  match s with
  | [] => []
  | u :: rest => unitText paired u rest ++ quoteBody (isLeadSurrogate u) rest

def quote (s : JsString) : JsString := 0x22 :: (quoteBody false s ++ [0x22])

mutual
def Json.stringify (v : Json) : JsString :=
  match v with
  | .null => js "null"
  | .bool true => js "true"
  | .bool false => js "false"
  | .number literal => literal
  | .string s => quote s
  | .array [] => [0x5B, 0x5D]
  | .array (v :: vs) => 0x5B :: (v.stringify ++ elementsText vs)
  | .object [] => [0x7B, 0x7D]
  | .object ((k, v) :: ms) => 0x7B :: (quote k ++ 0x3A :: (v.stringify ++ membersText ms))

/-- The further elements and the closing bracket. -/
def elementsText (vs : List Json) : JsString :=
  match vs with
  | [] => [0x5D]
  | v :: vs => 0x2C :: (v.stringify ++ elementsText vs)

/-- The further members and the closing brace. -/
def membersText (ms : List (JsString × Json)) : JsString :=
  match ms with
  | [] => [0x7D]
  | (k, v) :: ms => 0x2C :: (quote k ++ 0x3A :: (v.stringify ++ membersText ms))
end

/-! ## Reading -/

def isJsonSpace (u : UInt16) : Bool := u == 0x20 || u == 0x09 || u == 0x0A || u == 0x0D

def skipSpace (s : JsString) : JsString := s.dropWhile isJsonSpace

def unescape (e : UInt16) : Option UInt16 :=
  if e = 0x22 then some 0x22
  else if e = 0x5C then some 0x5C
  else if e = 0x2F then some 0x2F
  else if e = 0x62 then some 0x08
  else if e = 0x66 then some 0x0C
  else if e = 0x6E then some 0x0A
  else if e = 0x72 then some 0x0D
  else if e = 0x74 then some 0x09
  else none

/-- Where the reader of a string stands: in plain text, after a backslash, or before the last
`left + 1` digits of a `\u` escape whose digits so far make `acc`. -/
inductive StringScan
  | plain
  | escaped
  | hex (left acc : ℕ)

/-- The rest of a string and what follows its closing quote. -/
def stringBody (scan : StringScan) (s : JsString) : Option (JsString × JsString) :=
  match s with
  | [] => none
  | u :: rest =>
    match scan with
    | .plain =>
      if u = 0x22 then some ([], rest)
      else if u = 0x5C then stringBody .escaped rest
      else if u < 0x20 then none
      else (stringBody .plain rest).map fun p => (u :: p.1, p.2)
    | .escaped =>
      if u = 0x75 then stringBody (.hex 3 0) rest
      else
        match unescape u with
        | some v => (stringBody .plain rest).map fun p => (v :: p.1, p.2)
        | none => none
    | .hex left acc =>
      match digitValue u with
      | some d =>
        if d < 16 then
          match left with
          | 0 => (stringBody .plain rest).map fun p => ((acc * 16 + d).toUInt16 :: p.1, p.2)
          | left + 1 => stringBody (.hex left (acc * 16 + d)) rest
        else none
      | none => none

def isDecimalDigit (u : UInt16) : Bool := 0x30 ≤ u && u ≤ 0x39

/-- The units a number may hold: digits, signs, the point and the exponent letters. -/
def isNumberUnit (u : UInt16) : Bool :=
  isDecimalDigit u || u == 0x2B || u == 0x2D || u == 0x2E || u == 0x45 || u == 0x65

def validExponent (s : JsString) : Bool :=
  match s with
  | [] => true
  | u :: rest =>
    (u == 0x45 || u == 0x65) &&
      let digits := match rest with
        | [] => []
        | v :: rest' => if v == 0x2B || v == 0x2D then rest' else v :: rest'
      !digits.isEmpty && digits.all isDecimalDigit

def validFraction (s : JsString) : Bool :=
  match s with
  | 0x2E :: rest =>
    !(rest.takeWhile isDecimalDigit).isEmpty && validExponent (rest.dropWhile isDecimalDigit)
  | _ => validExponent s

def validMagnitude (s : JsString) : Bool :=
  match s with
  | [] => false
  | u :: rest =>
    if u = 0x30 then validFraction rest
    else isDecimalDigit u && validFraction (rest.dropWhile isDecimalDigit)

/-- The number literals of the grammar: no leading zero, no bare point, no plus sign. -/
def validNumber (s : JsString) : Bool :=
  match s with
  | [] => false
  | u :: rest => if u = 0x2D then validMagnitude rest else validMagnitude (u :: rest)

def numberToken (s : JsString) : Option (Json × JsString) :=
  if validNumber (s.takeWhile isNumberUnit) then
    some (.number (s.takeWhile isNumberUnit), s.dropWhile isNumberUnit)
  else none

def wordToken (word : JsString) (v : Json) (s : JsString) : Option (Json × JsString) :=
  if word.isPrefixOf s then some (v, s.drop word.length) else none

/-- The comma that goes on, or the bracket `close` that ends, a list of items. -/
def separator (close : UInt16) (s : JsString) : Option (Bool × JsString) :=
  match skipSpace s with
  | [] => none
  | u :: rest =>
    if u = 0x2C then some (true, rest) else if u = close then some (false, rest) else none

/-- A member name and its colon. -/
def memberName (s : JsString) : Option (JsString × JsString) :=
  match skipSpace s with
  | [] => none
  | u :: rest =>
    if u = 0x22 then
      match stringBody .plain rest with
      | none => none
      | some (k, r) =>
        match skipSpace r with
        | [] => none
        | c :: r' => if c = 0x3A then some (k, r') else none
    else none

mutual
/-- One value and the text after it; the fuel bounds the nesting and the number of items. -/
def parseValue (fuel : ℕ) (s : JsString) : Option (Json × JsString) :=
  match fuel with
  | 0 => none
  | n + 1 =>
    match skipSpace s with
    | [] => none
    | u :: rest =>
      if u = 0x22 then (stringBody .plain rest).map fun p => (.string p.1, p.2)
      else if u = 0x5B then
        match skipSpace rest with
        | [] => none
        | v :: r =>
          if v = 0x5D then some (.array [], r)
          else (parseElements n rest).map fun p => (.array p.1, p.2)
      else if u = 0x7B then
        match skipSpace rest with
        | [] => none
        | v :: r =>
          if v = 0x7D then some (.object [], r)
          else (parseMembers n rest).map fun p => (.object (OrderedMap.ofEntries p.1), p.2)
      else if u = 0x74 then wordToken (js "true") (.bool true) (u :: rest)
      else if u = 0x66 then wordToken (js "false") (.bool false) (u :: rest)
      else if u = 0x6E then wordToken (js "null") .null (u :: rest)
      else numberToken (u :: rest)

def parseElements (fuel : ℕ) (s : JsString) : Option (List Json × JsString) :=
  match fuel with
  | 0 => none
  | n + 1 =>
    match parseValue n s with
    | none => none
    | some (v, r) =>
      match separator 0x5D r with
      | none => none
      | some (true, r') => (parseElements n r').map fun p => (v :: p.1, p.2)
      | some (false, r') => some ([v], r')

def parseMembers (fuel : ℕ) (s : JsString) : Option (List (JsString × Json) × JsString) :=
  match fuel with
  | 0 => none
  | n + 1 =>
    match memberName s with
    | none => none
    | some (k, r) =>
      match parseValue n r with
      | none => none
      | some (v, r') =>
        match separator 0x7D r' with
        | none => none
        | some (true, r'') => (parseMembers n r'').map fun p => ((k, v) :: p.1, p.2)
        | some (false, r'') => some ([(k, v)], r'')
end

/-- `none` stands for a thrown `SyntaxError`. -/
def Json.parse (text : JsString) : Option Json :=
  match parseValue (text.length + 1) text with
  | some (v, rest) => if (skipSpace rest).isEmpty then some v else none
  | none => none

end Foundations.Js
