import MidnightJs.PlatformJs.HexValidation

/-! # What the hex errors say

The parity of what is left over decides between the two diagnoses: an odd number of characters is
reported as an incomplete last byte, an even number as an invalid digit at the first of them. -/

namespace MidnightJs
open Foundations.Js PlatformJs
set_option autoImplicit false

/-! ## The first character that is no hex digit -/

/-- Where it stands behind the prefix; the number of digits, if all are. -/
def firstInvalid (source : JsString) : ℕ := (hexBody source).findIdx fun u => !isHexDigit u

theorem hexPairs_taken (s : JsString) :
    (hexPairs s).1.length = 2 * (s.findIdx (fun u => !isHexDigit u) / 2) := by
  fun_induction hexPairs s with
  | case1 u v rest hdigits ih =>
    rw [Bool.and_eq_true] at hdigits
    rw [List.findIdx_cons, List.findIdx_cons, hdigits.1, hdigits.2]
    simp only [List.length_cons, ih, Bool.not_true, cond_false]
    omega
  | case2 u v rest hdigits =>
    rw [List.findIdx_cons, List.findIdx_cons]
    cases hu : isHexDigit u with
    | false => simp
    | true =>
      rw [hu, Bool.true_and, Bool.not_eq_true] at hdigits
      simp [hdigits]
  | case3 s hshort =>
    cases s with
    | nil => rfl
    | cons u rest =>
      cases rest with
      | nil =>
        rw [List.findIdx_cons]
        cases isHexDigit u <;> rfl
      | cons v rest => exact absurd rfl (hshort _ _ _)

theorem hexPairs_left (s : JsString) :
    (hexPairs s).2 = s.drop (2 * (s.findIdx (fun u => !isHexDigit u) / 2)) := by
  have happend := hexPairs_append s
  conv_rhs => rw [← hexPairs_taken, ← happend]
  rw [List.drop_left' (by rw [happend])]

/-- Whole pairs of digits are taken, and the rest is left. -/
theorem left_length (source : JsString) :
    2 * (firstInvalid source / 2) + (hexPairs (hexBody source)).2.length =
      (hexBody source).length := by
  rw [← hexPairs_append (hexBody source), List.length_append, hexPairs_append, hexPairs_taken]
  rfl

/-! ## True diagnoses -/

/-- The character is no hex digit, and only hex digits stand between the prefix and it. -/
structure InvalidAt (source : JsString) (u : UInt16) (i : ℕ) : Prop where
  char : source[i]? = some u
  invalid : isHexDigit u = false
  before : ∃ digits : JsString, digits.all isHexDigit = true ∧
    (source.take i = digits ∨ source.take i = js "0x" ++ digits)

/-- Only hex digits follow the prefix, and their number is odd. -/
structure IncompleteByte (source : JsString) : Prop where
  digits : (hexBody source).all isHexDigit = true
  odd : (hexBody source).length % 2 = 1

section
variable {source : JsString}

theorem take_invalidCharPos (source : JsString) : source.take (invalidCharPos source) =
    (if (js "0x").isPrefixOf source then js "0x" else []) ++ (hexPairs (hexBody source)).1 := by
  have happend := List.take_append_drop (invalidCharPos source) source
  rw [drop_invalidCharPos] at happend
  conv_rhs at happend => rw [← hexBody_append source, ← hexPairs_append (hexBody source)]
  rw [← List.append_assoc] at happend
  exact List.append_cancel_right happend

/-- An invalid digit is reported where it stands exactly if it opens a pair. -/
theorem invalidAt_iff {u : UInt16} {rest : JsString}
    (hleft : (hexPairs (hexBody source)).2 = u :: rest) :
    InvalidAt source u (invalidCharPos source) ↔ firstInvalid source % 2 = 0 := by
  have hdrop := hexPairs_left (hexBody source)
  change _ = (hexBody source).drop (2 * (firstInvalid source / 2)) at hdrop
  have hchar : (hexBody source)[2 * (firstInvalid source / 2)]? = some u := by
    rw [← List.head?_drop, ← hdrop, hleft]
    rfl
  constructor
  · intro h
    by_contra hodd
    have hlt : 2 * (firstInvalid source / 2) < firstInvalid source := by omega
    obtain ⟨hbound, hget⟩ := List.getElem?_eq_some_iff.mp hchar
    have hdigit := List.not_of_lt_findIdx hlt
    rw [hget, h.invalid] at hdigit
    cases hdigit
  · intro heven
    have hindex : 2 * (firstInvalid source / 2) = firstInvalid source := by omega
    rw [hindex] at hchar
    obtain ⟨hbound, hget⟩ := List.getElem?_eq_some_iff.mp hchar
    have hdigit := List.findIdx_getElem (w := hbound)
    change (!isHexDigit (hexBody source)[firstInvalid source]) = true at hdigit
    rw [hget] at hdigit
    obtain ⟨bytes, hbytes⟩ := hexPairs_bytes (hexBody source)
    refine ⟨?_, by simpa using hdigit, _, hbytes.digits.1, ?_⟩
    · rw [← List.head?_drop, drop_invalidCharPos, hleft]
      rfl
    · rw [take_invalidCharPos]
      split
      · exact .inr rfl
      · exact .inl rfl

theorem incompleteByte_iff (hodd : (hexPairs (hexBody source)).2.length % 2 = 1) :
    IncompleteByte source ↔ (hexBody source).all isHexDigit = true := by
  refine ⟨fun h => h.digits, fun h => ⟨h, ?_⟩⟩
  have hlength := left_length source
  omega

end

/-! ## The texts of the errors -/

/-- Only one of the two texts begins like this. -/
theorem ne_of_opening {opening t t' : JsString} (h : opening.isPrefixOf t = true)
    (h' : opening.isPrefixOf t' = false) : t ≠ t' := by
  rintro rfl
  rw [h] at h'
  cases h'

theorem naturalText_injective : Function.Injective naturalText := by
  intro n n' h
  have hvalue := naturalOfText_naturalText n
  rw [h, naturalOfText_naturalText] at hvalue
  exact (Option.some.inj hvalue).symm

def incompleteText (source : JsString) : JsString :=
  js "The last byte of input string '" ++ source ++ js "' is incomplete."

def invalidDigitText (u : UInt16) (i : ℕ) : JsString :=
  js "Invalid hex-digit '" ++ [u] ++ js "' found in input string at index " ++ naturalText i ++
    js "."

def platformIncompleteText (source : JsString) : JsString :=
  js "Last byte of source string '" ++ source ++ js "' is incomplete"

def platformInvalidDigitText (u : UInt16) (i : ℕ) : JsString :=
  js "Invalid hex-digit '" ++ [u] ++ js "' found in source string at index " ++ naturalText i

theorem invalidDigitText_inj {u u' : UInt16} {i i' : ℕ}
    (h : invalidDigitText u i = invalidDigitText u' i') : u = u' ∧ i = i' := by
  unfold invalidDigitText at h
  simp only [List.append_assoc] at h
  have h := List.append_cancel_left h
  simp only [List.cons_append, List.nil_append, List.cons.injEq] at h
  refine ⟨h.1, naturalText_injective ?_⟩
  exact List.append_cancel_right (List.append_cancel_left h.2)

theorem platformInvalidDigitText_inj {u u' : UInt16} {i i' : ℕ}
    (h : platformInvalidDigitText u i = platformInvalidDigitText u' i') : u = u' ∧ i = i' := by
  unfold platformInvalidDigitText at h
  simp only [List.append_assoc] at h
  have h := List.append_cancel_left h
  simp only [List.cons_append, List.nil_append, List.cons.injEq] at h
  exact ⟨h.1, naturalText_injective (List.append_cancel_left h.2)⟩

/-! ## What is left over when an error is reported -/

/-- An even number of characters, of which this is the first. -/
structure EvenLeft (source : JsString) (u : UInt16) (i : ℕ) : Prop where
  pos : i = invalidCharPos source
  matched : source.any isLineTerminator = false
  even : (hexPairs (hexBody source)).2.length % 2 = 0
  head : ∃ rest, (hexPairs (hexBody source)).2 = u :: rest

structure OddLeft (source : JsString) : Prop where
  matched : source.any isLineTerminator = false
  odd : (hexPairs (hexBody source)).2.length % 2 = 1

/-- What `assertIsHex` says of an invalid digit is what it found. -/
theorem assertIsHex_invalidDigit {source : JsString} {byteLen : Option ℤ} {u : UInt16} {i : ℕ}
    (h : assertIsHex source byteLen = .error (.typeError (invalidDigitText u i))) :
    EvenLeft source u i := by
  have hopening : (js "Invalid").isPrefixOf (invalidDigitText u i) = true := rfl
  have hdiagnosis := assertIsHex_diagnosis source byteLen
  generalize hresult : assertIsHex source byteLen = result at hdiagnosis
  rw [h] at hresult
  cases hdiagnosis with
  | accepted _ => cases hresult
  | byteLength _ _ => cases hresult
  | @invalidDigit u' rest hterminator hleft heven =>
    rw [Except.error.injEq, JsError.typeError.injEq] at hresult
    obtain ⟨rfl, rfl⟩ := invalidDigitText_inj hresult
    exact ⟨rfl, hterminator, heven, rest, hleft⟩
  | _ =>
    rw [Except.error.injEq, JsError.typeError.injEq] at hresult
    exact absurd hresult (ne_of_opening hopening rfl)

/-- Only an odd number of characters left over is reported as an incomplete byte. -/
theorem assertIsHex_incomplete {source : JsString} {byteLen : Option ℤ}
    (h : assertIsHex source byteLen = .error (.typeError (incompleteText source))) :
    OddLeft source := by
  have hopening : (js "The last byte").isPrefixOf (incompleteText source) = true := rfl
  have hdiagnosis := assertIsHex_diagnosis source byteLen
  generalize hresult : assertIsHex source byteLen = result at hdiagnosis
  rw [h] at hresult
  cases hdiagnosis with
  | accepted _ => cases hresult
  | byteLength _ _ => cases hresult
  | incomplete hterminator hodd => exact ⟨hterminator, hodd⟩
  | _ =>
    rw [Except.error.injEq, JsError.typeError.injEq] at hresult
    exact absurd hresult (ne_of_opening hopening rfl)

/-! ## The parser of `platform-js` -/

/-- The ways its `parseHex` can end. -/
inductive PlatformDiagnosis (source : JsString) : Except ParseError ParsedHexString → Prop
  | accepted {parsedHex : ParsedHexString} (h : ValidHex source none) :
    PlatformDiagnosis source (.ok parsedHex)
  | empty (h : source = []) :
    PlatformDiagnosis source (.error ⟨js "Source string must have non-zero length"⟩)
  | invalid (h : source.any isLineTerminator = true ∨ hexBody source = []) :
    PlatformDiagnosis source
      (.error ⟨js "Source string '" ++ source ++ js "' is not a valid hex-string"⟩)
  | incomplete (h : source.any isLineTerminator = false)
      (hodd : (hexPairs (hexBody source)).2.length % 2 = 1) :
    PlatformDiagnosis source (.error ⟨platformIncompleteText source⟩)
  | invalidDigit {u : UInt16} {rest : JsString} (h : source.any isLineTerminator = false)
      (hleft : (hexPairs (hexBody source)).2 = u :: rest)
      (heven : (hexPairs (hexBody source)).2.length % 2 = 0) :
    PlatformDiagnosis source (.error ⟨platformInvalidDigitText u (invalidCharPos source)⟩)

theorem platform_parseHex_diagnosis (source : JsString) :
    PlatformDiagnosis source (PlatformJs.parseHex source) := by
  cases hresult : PlatformJs.parseHex source with
  | ok parsedHex => exact .accepted (platform_parseHex_ok.mp hresult).1
  | error e =>
    have happend := hexPairs_append (hexBody source)
    have hdrop := drop_invalidCharPos source
    have hterminator := (hexPairs_terminator (hexBody source)).trans (hexBody_terminator source)
    rw [PlatformJs.parseHex] at hresult
    extract_lets hasPrefix pairs byteChars incompleteChars charPos at hresult
    have hleft : incompleteChars = (hexPairs (hexBody source)).2 := rfl
    have hpos : charPos = invalidCharPos source := rfl
    rw [hleft, hpos, hdrop, hterminator] at hresult
    split_ifs at hresult with hsource hmatch hrest hodd hnone
    · cases hresult
      exact .empty (List.isEmpty_iff.mp hsource)
    · cases hresult
      exact .invalid (.inl hmatch)
    · cases hresult
      exact .incomplete (by simpa using hmatch) (by omega)
    · cases hopen : (hexPairs (hexBody source)).2 with
      | nil => simp [hopen] at hrest
      | cons u rest =>
        rw [hopen] at hresult
        cases hresult
        exact .invalidDigit (by simpa using hmatch) hopen (by omega)
    · cases hresult
      have hnil : (hexPairs (hexBody source)).2 = [] := by simpa using hrest
      rw [hnil, List.append_nil] at happend
      exact .invalid (.inr (happend.symm.trans (List.isEmpty_iff.mp hnone)))

theorem platform_invalidDigit {source : JsString} {u : UInt16} {i : ℕ}
    (h : PlatformJs.parseHex source = .error ⟨platformInvalidDigitText u i⟩) :
    EvenLeft source u i := by
  have hopening : (js "Invalid").isPrefixOf (platformInvalidDigitText u i) = true := rfl
  have hdiagnosis := platform_parseHex_diagnosis source
  generalize hresult : PlatformJs.parseHex source = result at hdiagnosis
  rw [h] at hresult
  cases hdiagnosis with
  | accepted _ => cases hresult
  | @invalidDigit u' rest hterminator hleft heven =>
    rw [Except.error.injEq, ParseError.mk.injEq] at hresult
    obtain ⟨rfl, rfl⟩ := platformInvalidDigitText_inj hresult
    exact ⟨rfl, hterminator, heven, rest, hleft⟩
  | _ =>
    rw [Except.error.injEq, ParseError.mk.injEq] at hresult
    exact absurd hresult (ne_of_opening hopening rfl)

theorem platform_incomplete {source : JsString}
    (h : PlatformJs.parseHex source = .error ⟨platformIncompleteText source⟩) :
    OddLeft source := by
  have hopening : (js "Last byte").isPrefixOf (platformIncompleteText source) = true := rfl
  have hdiagnosis := platform_parseHex_diagnosis source
  generalize hresult : PlatformJs.parseHex source = result at hdiagnosis
  rw [h] at hresult
  cases hdiagnosis with
  | accepted _ => cases hresult
  | incomplete hterminator hodd => exact ⟨hterminator, hodd⟩
  | _ =>
    rw [Except.error.injEq, ParseError.mk.injEq] at hresult
    exact absurd hresult (ne_of_opening hopening rfl)

/-! ## When the diagnoses are true -/

/-- What is said of an invalid digit and of an incomplete byte is so. -/
structure TrueDiagnostics (source : JsString) : Prop where
  invalidDigit : ∀ byteLen u i,
    assertIsHex source byteLen = .error (.typeError (invalidDigitText u i)) → InvalidAt source u i
  incomplete : ∀ byteLen,
    assertIsHex source byteLen = .error (.typeError (incompleteText source)) →
      IncompleteByte source
  platformInvalidDigit : ∀ u i,
    PlatformJs.parseHex source = .error ⟨platformInvalidDigitText u i⟩ → InvalidAt source u i
  platformIncomplete :
    PlatformJs.parseHex source = .error ⟨platformIncompleteText source⟩ → IncompleteByte source

/-- The texts on which parity tells the two faults apart. -/
def Diagnosable (source : JsString) : Prop :=
  source.any isLineTerminator = true ∨ (hexBody source).all isHexDigit = true ∨
    (hexBody source).length % 2 = 0 ∧ firstInvalid source % 2 = 0

theorem OddLeft.incompleteByte {source : JsString} (hleft : OddLeft source)
    (h : Diagnosable source) : IncompleteByte source := by
  rcases h with hterminator | hdigits | ⟨heven, -⟩
  · rw [hleft.matched] at hterminator
    cases hterminator
  · exact (incompleteByte_iff hleft.odd).mpr hdigits
  · have hlength := left_length source
    have hodd := hleft.odd
    omega

theorem EvenLeft.invalidAt {source : JsString} {u : UInt16} {i : ℕ} (hleft : EvenLeft source u i)
    (h : Diagnosable source) : InvalidAt source u i := by
  obtain ⟨rfl, hmatched, heven, rest, hhead⟩ := hleft
  rcases h with hterminator | hdigits | ⟨-, hfirst⟩
  · rw [hmatched] at hterminator
    cases hterminator
  · -- With hex digits only, at most one of them is left over.
    have hlength := left_length source
    have hsome := congrArg List.length hhead
    have hall : firstInvalid source = (hexBody source).length := by
      rw [firstInvalid, List.findIdx_eq_length]
      intro u hu
      rw [List.all_eq_true.mp hdigits u hu]
      rfl
    rw [List.length_cons] at hsome
    omega
  · exact (invalidAt_iff hhead).mpr hfirst

/-- The diagnoses are true exactly where parity tells the two faults apart. -/
theorem true_diagnostics_iff (source : JsString) :
    TrueDiagnostics source ↔ Diagnosable source := by
  have hlength := left_length source
  constructor
  · intro h
    have hdiagnosis := assertIsHex_diagnosis source none
    generalize hresult : assertIsHex source none = result at hdiagnosis
    cases hdiagnosis with
    | accepted hvalid =>
      obtain ⟨bytes, htext, -⟩ := hvalid
      exact .inr (.inl (hexText_iff.mp htext).2.digits.1)
    | empty hsource =>
      rw [hsource]
      exact .inr (.inl rfl)
    | byteLength hn _ => cases hn
    | unmatched hterminator => exact .inl hterminator
    | incomplete _ hodd => exact .inr (.inl (h.incomplete none hresult).digits)
    | invalidDigit _ hleft heven =>
      have hfirst := (invalidAt_iff hleft).mp (h.invalidDigit none _ _ hresult)
      exact .inr (.inr ⟨by omega, hfirst⟩)
    | invalid hbody =>
      rw [Diagnosable, hbody]
      exact .inr (.inl rfl)
    | length hn _ _ => cases hn
  · intro h
    exact ⟨fun byteLen u i hreport => (assertIsHex_invalidDigit hreport).invalidAt h,
      fun byteLen hreport => (assertIsHex_incomplete hreport).incompleteByte h,
      fun u i hreport => (platform_invalidDigit hreport).invalidAt h,
      fun hreport => (platform_incomplete hreport).incompleteByte h⟩

/-- In `xyz` no character is a hex digit, and its last byte is said to be incomplete. -/
theorem xyz_incomplete :
    assertIsHex (js "xyz") none = .error (.typeError (incompleteText (js "xyz"))) ∧
      ¬ TrueDiagnostics (js "xyz") := by
  have hreport : assertIsHex (js "xyz") none =
    .error (.typeError (incompleteText (js "xyz"))) := rfl
  refine ⟨hreport, fun h => ?_⟩
  have hdigits := (h.incomplete none hreport).digits
  cases hdigits

end MidnightJs
