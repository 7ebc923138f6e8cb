import MidnightJs.Foundations.Json
import Mathlib.Tactic.NormNum

/-! # UTF-8

Encoding of characters, and the decoder that replaces what is no character: every maximal part of an
incomplete sequence becomes one replacement character. -/

namespace Foundations.Utf8
open Js
set_option autoImplicit false

def replacement : Char := Char.ofNat 0xFFFD

/-! ## Encoding -/

def encodeChar (c : Char) : List UInt8 :=
  let n := c.toNat
  if n < 0x80 then [n.toUInt8]
  else if n < 0x800 then [(0xC0 + n / 64).toUInt8, (0x80 + n % 64).toUInt8]
  else if n < 0x10000 then
    [(0xE0 + n / 4096).toUInt8, (0x80 + n / 64 % 64).toUInt8, (0x80 + n % 64).toUInt8]
  else [(0xF0 + n / 262144).toUInt8, (0x80 + n / 4096 % 64).toUInt8, (0x80 + n / 64 % 64).toUInt8,
    (0x80 + n % 64).toUInt8]

def encode (chars : List Char) : List UInt8 := chars.flatMap encodeChar

/-- The character of a code unit that stands alone. -/
def unitChar (u : UInt16) : Char :=
  if isLeadSurrogate u || isTrailSurrogate u then replacement else Char.ofNat u.toNat

def pairChar (lead trail : UInt16) : Char :=
  Char.ofNat (0x10000 + (lead.toNat - 0xD800) * 0x400 + (trail.toNat - 0xDC00))

/-- The bytes of a string; a surrogate that stands alone is replaced. -/
def encodeString (s : JsString) : List UInt8 :=
  match s with
  | [] => []
  | [u] => encodeChar (unitChar u)
  | u :: v :: rest =>
    if isLeadSurrogate u && isTrailSurrogate v then encodeChar (pairChar u v) ++ encodeString rest
    else encodeChar (unitChar u) ++ encodeString (v :: rest)

/-! ## Decoding -/

/-- Between two characters, or inside a sequence: the range of the next byte, how many bytes follow
it, and the value so far. -/
inductive Place
  | between
  | inside (lower upper left value : ℕ)

/-- A byte that does not continue a sequence. -/
def start (b : UInt8) : List Char × Place :=
  let n := b.toNat
  if n < 0x80 then ([Char.ofNat n], .between)
  else if n < 0xC2 then ([replacement], .between)
  else if n < 0xE0 then ([], .inside 0x80 0xBF 0 (n - 0xC0))
  else if n < 0xF0 then
    ([], .inside (if n = 0xE0 then 0xA0 else 0x80) (if n = 0xED then 0x9F else 0xBF) 1 (n - 0xE0))
  else if n < 0xF5 then
    ([], .inside (if n = 0xF0 then 0x90 else 0x80) (if n = 0xF4 then 0x8F else 0xBF) 2 (n - 0xF0))
  else ([replacement], .between)

def step (place : Place) (b : UInt8) : List Char × Place :=
  match place with
  | .between => start b
  | .inside lower upper left value =>
    if lower ≤ b.toNat ∧ b.toNat ≤ upper then
      match left with
      | 0 => ([Char.ofNat (value * 64 + (b.toNat - 0x80))], .between)
      | left + 1 => ([], .inside 0x80 0xBF left (value * 64 + (b.toNat - 0x80)))
    else (replacement :: (start b).1, (start b).2)

def decodeFrom (place : Place) (bytes : List UInt8) : List Char :=
  match bytes with
  | [] =>
    match place with
    | .between => []
    | .inside _ _ _ _ => [replacement]
  | b :: rest => (step place b).1 ++ decodeFrom (step place b).2 rest

def decode (bytes : List UInt8) : List Char := decodeFrom .between bytes

/-! ## One character -/

theorem toNat_toUInt8 {n : ℕ} (h : n < 256) : n.toUInt8.toNat = n := by
  rw [Nat.toUInt8, UInt8.toNat_ofNat', Nat.mod_eq_of_lt h]

theorem char_range (c : Char) : c.toNat < 0xD800 ∨ 0xDFFF < c.toNat ∧ c.toNat < 0x110000 := c.valid

section
variable {k left value lower upper : ℕ}

theorem start_ascii (h : k < 0x80) : start k.toUInt8 = ([Char.ofNat k], .between) := by
  rw [start, toNat_toUInt8 (by omega), if_pos h]

theorem start_two (h : 2 ≤ k) (hk : k < 0x20) :
    start (0xC0 + k).toUInt8 = ([], .inside 0x80 0xBF 0 k) := by
  rw [start, toNat_toUInt8 (by omega), if_neg (by omega), if_neg (by omega), if_pos (by omega),
    Nat.add_sub_cancel_left]

theorem start_three (hk : k < 0x10) : start (0xE0 + k).toUInt8 =
    ([], .inside (if k = 0 then 0xA0 else 0x80) (if k = 13 then 0x9F else 0xBF) 1 k) := by
  have hfirst : 0xE0 + k = 0xE0 ↔ k = 0 := by omega
  have hlast : 0xE0 + k = 0xED ↔ k = 13 := by omega
  rw [start, toNat_toUInt8 (by omega), if_neg (by omega), if_neg (by omega), if_neg (by omega),
    if_pos (by omega), Nat.add_sub_cancel_left]
  simp only [hfirst, hlast]

theorem start_four (hk : k < 5) : start (0xF0 + k).toUInt8 =
    ([], .inside (if k = 0 then 0x90 else 0x80) (if k = 4 then 0x8F else 0xBF) 2 k) := by
  have hfirst : 0xF0 + k = 0xF0 ↔ k = 0 := by omega
  have hlast : 0xF0 + k = 0xF4 ↔ k = 4 := by omega
  rw [start, toNat_toUInt8 (by omega), if_neg (by omega), if_neg (by omega), if_neg (by omega),
    if_neg (by omega), if_pos (by omega), Nat.add_sub_cancel_left]
  simp only [hfirst, hlast]

theorem step_last (hk : k < 64) (hlower : lower ≤ 0x80 + k) (hupper : 0x80 + k ≤ upper) :
    step (.inside lower upper 0 value) (0x80 + k).toUInt8 =
      ([Char.ofNat (value * 64 + k)], .between) := by
  rw [step, toNat_toUInt8 (by omega), if_pos ⟨hlower, hupper⟩, Nat.add_sub_cancel_left]

theorem step_more (hk : k < 64) (hlower : lower ≤ 0x80 + k) (hupper : 0x80 + k ≤ upper) :
    step (.inside lower upper (left + 1) value) (0x80 + k).toUInt8 =
      ([], .inside 0x80 0xBF left (value * 64 + k)) := by
  rw [step, toNat_toUInt8 (by omega), if_pos ⟨hlower, hupper⟩, Nat.add_sub_cancel_left]

end

theorem step_between (b : UInt8) : step .between b = start b := rfl

/-- The bytes of a character are decoded as that character, whatever follows. -/
theorem decodeFrom_encodeChar (c : Char) (rest : List UInt8) :
    decodeFrom .between (encodeChar c ++ rest) = c :: decodeFrom .between rest := by
  have hrange := char_range c
  have hchar : Char.ofNat c.toNat = c := Char.ofNat_toNat c
  obtain ⟨n, hn⟩ : ∃ n, c.toNat = n := ⟨_, rfl⟩
  rw [encodeChar, hn]
  rw [hn] at hrange hchar
  split_ifs with h1 h2 h3
  · simp only [List.cons_append, List.nil_append, decodeFrom, step, start_ascii h1, hchar]
  · have hvalue : n / 64 * 64 + n % 64 = n := by omega
    have hfirst : start (0xC0 + n / 64).toUInt8 = _ := start_two (by omega) (by omega)
    have hlast : step (.inside 0x80 0xBF 0 (n / 64)) (0x80 + n % 64).toUInt8 = _ :=
      step_last (by omega) (by omega) (by omega)
    simp only [List.cons_append, List.nil_append, decodeFrom, step_between, hfirst, hlast, hvalue,
      hchar]
  · have hvalue : (n / 4096 * 64 + n / 64 % 64) * 64 + n % 64 = n := by omega
    have hfirst : start (0xE0 + n / 4096).toUInt8 = _ := start_three (by omega)
    have hnext : step (.inside (if n / 4096 = 0 then 0xA0 else 0x80)
        (if n / 4096 = 13 then 0x9F else 0xBF) 1 (n / 4096)) (0x80 + n / 64 % 64).toUInt8 = _ :=
      step_more (by omega) (by split <;> omega) (by split <;> omega)
    have hlast : step (.inside 0x80 0xBF 0 (n / 4096 * 64 + n / 64 % 64))
        (0x80 + n % 64).toUInt8 = _ := step_last (by omega) (by omega) (by omega)
    simp only [List.cons_append, List.nil_append, decodeFrom, step_between, hfirst, hnext, hlast,
      hvalue, hchar]
  · have hvalue : ((n / 262144 * 64 + n / 4096 % 64) * 64 + n / 64 % 64) * 64 + n % 64 = n := by
      omega
    have hfirst : start (0xF0 + n / 262144).toUInt8 = _ := start_four (by omega)
    have hsecond : step (.inside (if n / 262144 = 0 then 0x90 else 0x80)
        (if n / 262144 = 4 then 0x8F else 0xBF) 2 (n / 262144)) (0x80 + n / 4096 % 64).toUInt8 = _ :=
      step_more (by omega) (by split <;> omega) (by split <;> omega)
    have hthird : step (.inside 0x80 0xBF 1 (n / 262144 * 64 + n / 4096 % 64))
        (0x80 + n / 64 % 64).toUInt8 = _ := step_more (by omega) (by omega) (by omega)
    have hlast : step (.inside 0x80 0xBF 0
        ((n / 262144 * 64 + n / 4096 % 64) * 64 + n / 64 % 64)) (0x80 + n % 64).toUInt8 = _ :=
      step_last (by omega) (by omega) (by omega)
    simp only [List.cons_append, List.nil_append, decodeFrom, step_between, hfirst, hsecond, hthird,
      hlast, hvalue, hchar]

theorem decodeFrom_encode (chars : List Char) (rest : List UInt8) :
    decodeFrom .between (encode chars ++ rest) = chars ++ decodeFrom .between rest := by
  induction chars with
  | nil => rfl
  | cons c chars ih =>
    rw [encode, List.flatMap_cons, List.append_assoc, decodeFrom_encodeChar, List.cons_append]
    exact congrArg (List.cons c) ih

theorem decode_encode (chars : List Char) : decode (encode chars) = chars := by
  have h := decodeFrom_encode chars []
  rwa [List.append_nil, decodeFrom, List.append_nil] at h

/-! ## Strings of characters -/

theorem utf16_toNat {n : ℕ} (h : n < 0x10000) : n.toUInt16.toNat = n := by
  rw [Nat.toUInt16, UInt16.toNat_ofNat', Nat.mod_eq_of_lt h]

theorem isLeadSurrogate_iff (u : UInt16) :
    isLeadSurrogate u = true ↔ 0xD800 ≤ u.toNat ∧ u.toNat ≤ 0xDBFF := by
  simp [isLeadSurrogate, UInt16.le_iff_toNat_le]

theorem isTrailSurrogate_iff (u : UInt16) :
    isTrailSurrogate u = true ↔ 0xDC00 ≤ u.toNat ∧ u.toNat ≤ 0xDFFF := by
  simp [isTrailSurrogate, UInt16.le_iff_toNat_le]

theorem isLeadSurrogate_char {c : Char} (h : c.toNat < 0x10000) :
    isLeadSurrogate c.toNat.toUInt16 = false := by
  have hrange := char_range c
  rw [← Bool.not_eq_true, isLeadSurrogate_iff, utf16_toNat h]
  omega

theorem isTrailSurrogate_char {c : Char} (h : c.toNat < 0x10000) :
    isTrailSurrogate c.toNat.toUInt16 = false := by
  have hrange := char_range c
  rw [← Bool.not_eq_true, isTrailSurrogate_iff, utf16_toNat h]
  omega

theorem unitChar_utf16 {c : Char} (h : c.toNat < 0x10000) : unitChar c.toNat.toUInt16 = c := by
  rw [unitChar, isLeadSurrogate_char h, isTrailSurrogate_char h, utf16_toNat h]
  exact Char.ofNat_toNat c

/-- A unit that is no leading surrogate is encoded by itself. -/
theorem encodeString_cons {u : UInt16} (h : isLeadSurrogate u = false) (rest : JsString) :
    encodeString (u :: rest) = encodeChar (unitChar u) ++ encodeString rest := by
  cases rest with
  | nil => rw [encodeString, encodeString, List.append_nil]
  | cons v rest => rw [encodeString, h, Bool.false_and, if_neg Bool.false_ne_true]

theorem encodeString_utf16 (c : Char) (rest : JsString) :
    encodeString (utf16 c ++ rest) = encodeChar c ++ encodeString rest := by
  have hrange := char_range c
  rw [utf16]
  split_ifs with h
  · rw [List.singleton_append, encodeString_cons (isLeadSurrogate_char h), unitChar_utf16 h]
  · have hlead : ((c.toNat - 0x10000) / 0x400 + 0xD800).toUInt16.toNat =
        (c.toNat - 0x10000) / 0x400 + 0xD800 := utf16_toNat (by omega)
    have htrail : ((c.toNat - 0x10000) % 0x400 + 0xDC00).toUInt16.toNat =
        (c.toNat - 0x10000) % 0x400 + 0xDC00 := utf16_toNat (by omega)
    have hpair : pairChar ((c.toNat - 0x10000) / 0x400 + 0xD800).toUInt16
        ((c.toNat - 0x10000) % 0x400 + 0xDC00).toUInt16 = c := by
      have hvalue : 0x10000 + (c.toNat - 0x10000) / 0x400 * 0x400 + (c.toNat - 0x10000) % 0x400 =
          c.toNat := by omega
      rw [pairChar, hlead, htrail, Nat.add_sub_cancel, Nat.add_sub_cancel, hvalue]
      exact Char.ofNat_toNat c
    rw [List.cons_append, List.singleton_append, encodeString, if_pos, hpair]
    rw [Bool.and_eq_true, isLeadSurrogate_iff, isTrailSurrogate_iff, hlead, htrail]
    omega

theorem encodeString_chars (chars : List Char) :
    encodeString (chars.flatMap utf16) = encode chars := by
  induction chars with
  | nil => rfl
  | cons c chars ih => rw [List.flatMap_cons, encodeString_utf16, ih, encode, encode,
      List.flatMap_cons]

/-- A string is encoded in two parts where no surrogate pair is cut. -/
theorem encodeString_append {v : UInt16} (hv : isTrailSurrogate v = false) (s rest : JsString) :
    encodeString (s ++ v :: rest) = encodeString s ++ encodeString (v :: rest) := by
  induction s using encodeString.induct with
  | case1 => rfl
  | case2 u =>
    have hone : encodeString [u] = encodeChar (unitChar u) := rfl
    rw [List.singleton_append, hone, encodeString, hv, Bool.and_false, if_neg Bool.false_ne_true]
  | case3 u w s hpair ih =>
    rw [List.cons_append, List.cons_append, encodeString, encodeString, if_pos hpair, if_pos hpair,
      ih, List.append_assoc]
  | case4 u w s hpair ih =>
    rw [List.cons_append] at ih
    rw [List.cons_append, List.cons_append, encodeString, encodeString, if_neg hpair,
      if_neg hpair, ih, List.append_assoc]

/-! ## Boundaries -/

/-- A byte that only stands inside a sequence. -/
def isContinuation (b : UInt8) : Bool := 0x80 ≤ b.toNat && b.toNat < 0xC0

/-- The bytes begin inside a sequence. -/
def StartsInside (bytes : List UInt8) : Prop := bytes.head?.any isContinuation = true

instance (bytes : List UInt8) : Decidable (StartsInside bytes) :=
  inferInstanceAs (Decidable (_ = true))

theorem isContinuation_toUInt8 {n : ℕ} (h : n < 256) :
    isContinuation n.toUInt8 = true ↔ 0x80 ≤ n ∧ n < 0xC0 := by
  rw [isContinuation, toNat_toUInt8 h, Bool.and_eq_true, decide_eq_true_eq, decide_eq_true_eq]

/-- The first byte of a character opens it, the others continue it. -/
theorem encodeChar_shape (c : Char) : ∃ b tail, encodeChar c = b :: tail ∧
    isContinuation b = false ∧ ∀ t ∈ tail, isContinuation t = true := by
  have hrange := char_range c
  obtain ⟨n, hn⟩ : ∃ n, c.toNat = n := ⟨_, rfl⟩
  rw [encodeChar, hn]
  rw [hn] at hrange
  have hopen : ∀ k < 256, ¬ (0x80 ≤ k ∧ k < 0xC0) → isContinuation k.toUInt8 = false := by
    intro k hk hnot
    rwa [← Bool.not_eq_true, isContinuation_toUInt8 hk]
  have hcontinue : ∀ k < 64, isContinuation (0x80 + k).toUInt8 = true := by
    intro k hk
    rw [isContinuation_toUInt8 (by omega)]
    omega
  split_ifs with h1 h2 h3
  · exact ⟨_, _, rfl, hopen _ (by omega) (by omega), List.forall_mem_nil _⟩
  · exact ⟨_, _, rfl, hopen _ (by omega) (by omega),
      List.forall_mem_singleton.mpr (hcontinue _ (by omega))⟩
  · exact ⟨_, _, rfl, hopen _ (by omega) (by omega),
      List.forall_mem_cons.mpr ⟨hcontinue _ (by omega),
        List.forall_mem_singleton.mpr (hcontinue _ (by omega))⟩⟩
  · exact ⟨_, _, rfl, hopen _ (by omega) (by omega),
      List.forall_mem_cons.mpr ⟨hcontinue _ (by omega),
        List.forall_mem_cons.mpr ⟨hcontinue _ (by omega),
          List.forall_mem_singleton.mpr (hcontinue _ (by omega))⟩⟩⟩

/-- Bytes cut in front of an opening byte are cut between two characters. -/
theorem encode_split {chars : List Char} {bytes rest : List UInt8}
    (h : bytes ++ rest = encode chars) (hrest : ¬ StartsInside rest) :
    ∃ before after, bytes = encode before ∧ rest = encode after := by
  induction chars generalizing bytes with
  | nil =>
    obtain ⟨rfl, rfl⟩ := List.append_eq_nil_iff.mp h
    exact ⟨[], [], rfl, rfl⟩
  | cons c chars ih =>
    cases bytes with
    | nil => exact ⟨[], c :: chars, rfl, h⟩
    | cons b bytes =>
      obtain ⟨first, tail, hchar, -, htail⟩ := encodeChar_shape c
      rw [encode, List.flatMap_cons, hchar, List.cons_append, List.cons_append,
        List.cons.injEq] at h
      obtain ⟨rfl, h⟩ := h
      rcases List.append_eq_append_iff.mp h with ⟨middle, htail', hmiddle⟩ | ⟨middle, hbytes, hmiddle⟩
      · -- The cut is inside this character, or right behind it.
        cases middle with
        | nil =>
          rw [List.append_nil] at htail'
          rw [List.nil_append] at hmiddle
          refine ⟨[c], chars, ?_, hmiddle⟩
          rw [encode, List.flatMap_singleton, hchar, htail']
        | cons t middle =>
          refine absurd ?_ hrest
          rw [hmiddle, StartsInside]
          exact htail t (htail' ▸ List.mem_append_right _ (List.mem_cons_self ..))
      · obtain ⟨before, after, hbefore, hafter⟩ := ih hmiddle.symm
        refine ⟨c :: before, after, ?_, hafter⟩
        rw [hbytes, hbefore, encode, encode, List.flatMap_cons, hchar, List.cons_append]

theorem encode_append (before after : List Char) :
    encode (before ++ after) = encode before ++ encode after :=
  List.flatMap_append

theorem encode_injective : Function.Injective encode := by
  intro chars chars' h
  rw [← decode_encode chars, h, decode_encode]

theorem utf16_injective : Function.Injective fun chars : List Char => chars.flatMap utf16 := by
  intro chars chars' h
  apply encode_injective
  rw [← encodeString_chars, ← encodeString_chars]
  exact congrArg encodeString h

/-! ## Decoding in pieces -/

/-- The text of bytes that arrive in pieces, when every piece is decoded by itself. -/
def decodeChunks (chunks : List (List UInt8)) : List Char := chunks.flatMap decode

theorem flatten_not_startsInside {chunks : List (List UInt8)}
    (h : ∀ chunk ∈ chunks, ¬ StartsInside chunk) : ¬ StartsInside chunks.flatten := by
  induction chunks with
  | nil => exact Bool.false_ne_true
  | cons chunk chunks ih =>
    rw [List.forall_mem_cons] at h
    cases chunk with
    | nil => exact ih h.2
    | cons b bytes => exact h.1

/-- Pieces cut between two characters are decoded as the whole is. -/
theorem decodeChunks_eq {chars : List Char} {chunks : List (List UInt8)}
    (hwhole : chunks.flatten = encode chars) (h : ∀ chunk ∈ chunks, ¬ StartsInside chunk) :
    decodeChunks chunks = chars := by
  induction chunks generalizing chars with
  | nil => exact encode_injective hwhole
  | cons chunk chunks ih =>
    rw [List.forall_mem_cons] at h
    rw [List.flatten_cons] at hwhole
    obtain ⟨before, after, hbefore, hafter⟩ :=
      encode_split hwhole (flatten_not_startsInside h.2)
    have hchars : before ++ after = chars := by
      apply encode_injective
      rw [encode_append, ← hbefore, ← hafter, hwhole]
    have hrest : chunks.flatMap decode = after := ih hafter h.2
    rw [decodeChunks, List.flatMap_cons, hrest, hbefore, decode_encode, hchars]

/-- The bytes that open a character. -/
def openings (bytes : List UInt8) : ℕ := bytes.countP fun b => !isContinuation b

theorem openings_append (bytes rest : List UInt8) :
    openings (bytes ++ rest) = openings bytes + openings rest :=
  List.countP_append ..

theorem openings_encode (chars : List Char) : openings (encode chars) = chars.length := by
  induction chars with
  | nil => rfl
  | cons c chars ih =>
    obtain ⟨b, tail, hchar, hb, htail⟩ := encodeChar_shape c
    have hnone : tail.countP (fun t => !isContinuation t) = 0 := by
      rw [List.countP_eq_zero]
      intro t ht
      simp [htail t ht]
    have hone : openings (encodeChar c) = 1 := by
      rw [hchar, openings, List.countP_cons_of_pos (by simp [hb]), hnone]
    have hsplit : encode (c :: chars) = encodeChar c ++ encode chars := rfl
    rw [hsplit, openings_append, hone, ih, List.length_cons, Nat.add_comm]

namespace Place

/-- A sequence that has begun is one character, whole or replaced. -/
def pending : Place → ℕ
  | between => 0
  | inside _ _ _ _ => 1

/-- Only continuation bytes continue a sequence. -/
def Proper : Place → Prop
  | between => True
  | inside lower upper _ _ => 0x80 ≤ lower ∧ upper < 0xC0

end Place

theorem start_continuation {b : UInt8} (h : isContinuation b = true) :
    start b = ([replacement], .between) := by
  rw [isContinuation, Bool.and_eq_true, decide_eq_true_eq, decide_eq_true_eq] at h
  rw [start, if_neg (by omega), if_pos (by omega)]

theorem start_proper (b : UInt8) : (start b).2.Proper := by
  unfold start
  dsimp only
  split_ifs <;> simp [Place.Proper]

theorem start_emits (b : UInt8) : 1 ≤ (start b).1.length + (start b).2.pending := by
  unfold start
  dsimp only
  split_ifs <;> simp [Place.pending]

theorem step_proper {place : Place} (h : place.Proper) (b : UInt8) :
    (step place b).2.Proper := by
  cases place with
  | between => exact start_proper b
  | inside lower upper left value =>
    unfold step
    dsimp only
    split
    · cases left with
      | zero => trivial
      | succ left => exact ⟨le_refl _, Nat.lt_succ_self _⟩
    · exact start_proper b

/-- A byte that opens a character adds one to what is decoded or begun. -/
theorem step_emits {place : Place} (h : place.Proper) (b : UInt8) :
    place.pending + openings [b] ≤ (step place b).1.length + (step place b).2.pending := by
  have hone : openings [b] ≤ 1 := List.countP_le_length
  have hstart := start_emits b
  cases place with
  | between =>
    rw [step_between, Place.pending]
    omega
  | inside lower upper left value =>
    unfold step
    dsimp only
    split
    · rename_i hrange
      have hinside : isContinuation b = true := by
        rw [isContinuation, Bool.and_eq_true, decide_eq_true_eq, decide_eq_true_eq]
        exact ⟨h.1.trans hrange.1, hrange.2.trans_lt h.2⟩
      have hnone : openings [b] = 0 := by simp [openings, hinside]
      cases left with
      | zero => simp [Place.pending, hnone]
      | succ left => simp [Place.pending, hnone]
    · rw [List.length_cons]
      change 1 + openings [b] ≤ (start b).1.length + 1 + (start b).2.pending
      omega

/-- At least one character is decoded for every byte that opens one. -/
theorem decodeFrom_length {place : Place} (h : place.Proper) (bytes : List UInt8) :
    place.pending + openings bytes ≤ (decodeFrom place bytes).length := by
  induction bytes generalizing place with
  | nil => cases place <;> exact le_refl _
  | cons b rest ih =>
    have hstep := step_emits h b
    have hrest := ih (step_proper h b)
    have hsplit : openings (b :: rest) = openings [b] + openings rest := openings_append [b] rest
    rw [decodeFrom, List.length_append]
    omega

theorem decode_length (bytes : List UInt8) : openings bytes ≤ (decode bytes).length := by
  have hproper : Place.Proper .between := trivial
  have h := decodeFrom_length hproper bytes
  rwa [Place.pending, Nat.zero_add] at h

/-- Bytes that begin inside a sequence are decoded with a character too many. -/
theorem decode_length_inside {bytes : List UInt8} (h : StartsInside bytes) :
    openings bytes < (decode bytes).length := by
  cases bytes with
  | nil => exact absurd h Bool.false_ne_true
  | cons b rest =>
    have hb : isContinuation b = true := h
    have hrest := decode_length rest
    have hnone : openings (b :: rest) = openings rest :=
      List.countP_cons_of_neg (by simp [hb])
    rw [decode, decodeFrom, step_between, start_continuation hb, hnone]
    exact Nat.lt_succ_of_le hrest

theorem decodeChunks_length (chunks : List (List UInt8)) :
    openings chunks.flatten ≤ (decodeChunks chunks).length := by
  induction chunks with
  | nil => exact le_refl _
  | cons chunk chunks ih =>
    have hchunk := decode_length chunk
    rw [List.flatten_cons, openings_append, decodeChunks, List.flatMap_cons, List.length_append]
    exact Nat.add_le_add hchunk ih

theorem decodeChunks_length_inside {chunks : List (List UInt8)}
    (h : ∃ chunk ∈ chunks, StartsInside chunk) :
    openings chunks.flatten < (decodeChunks chunks).length := by
  obtain ⟨chunk, hmem, hinside⟩ := h
  obtain ⟨before, after, rfl⟩ := List.append_of_mem hmem
  have hbefore := decodeChunks_length before
  have hchunk := decode_length_inside hinside
  have hafter := decodeChunks_length after
  rw [decodeChunks] at hbefore hafter ⊢
  rw [List.flatten_append, List.flatten_cons, openings_append, openings_append,
    List.flatMap_append, List.flatMap_cons, List.length_append, List.length_append]
  omega

/-- Pieces of an encoded text are decoded as that text exactly when all are cut between two
characters. -/
theorem decodeChunks_eq_iff {chars : List Char} {chunks : List (List UInt8)}
    (hwhole : chunks.flatten = encode chars) :
    decodeChunks chunks = chars ↔ ∀ chunk ∈ chunks, ¬ StartsInside chunk := by
  constructor
  · intro h chunk hmem hinside
    have hlong := decodeChunks_length_inside ⟨chunk, hmem, hinside⟩
    rw [h, hwhole, openings_encode] at hlong
    exact lt_irrefl _ hlong
  · exact decodeChunks_eq hwhole

end Foundations.Utf8
