import Mathlib.Data.List.Basic

/-!
# Text and UTF-8

Python's `str` and `bytes`. A `str` is a sequence of code points and, unlike a
sequence of Unicode scalar values, it may hold lone surrogates: `json.loads`
produces them from escapes, and `str.encode` refuses them. Text is therefore a
list of code points and not a `String`, and encoding is partial.

`decode` has the two error handlers the program meets. The strict one is what
`bytes.decode("utf-8")` does. The other is `surrogatepass`, which `json.loads`
uses on bytes, and which admits the three-byte form of a surrogate.

The two directions are tied together by `decode_encode` and
`encode_of_decode`. The second holds for the strict handler only, and says that
strict UTF-8 is canonical: no text has two encodings, so a byte string that is
accepted is the encoding of what it decodes to.

## Main definitions

* `Str`: Text as a list of code points.
* `Bytes`: Octet strings.
* `lit`: The text of an ASCII literal.
* `encodeChar`: The UTF-8 form of one code point.
* `encode`: The UTF-8 form of a text, if it has one.
* `decodeChar`: The first character of an octet string.
* `decode`: Reading an octet string as UTF-8.
* `strip`: Text without its surrounding whitespace.
* `splitSpace`: The fields of a text between runs of whitespace.

## Theorems

* `lit_inj`: Different literals are different texts.
* `decodeChar_encodeChar`: A character's encoding decodes to it.
* `encodeChar_of_decodeChar`: A strictly decoded character came from its
  encoding.
* `decode_encode`: Encoded text decodes to itself.
* `encode_of_decode`: Strictly decoded octets are the encoding of the text.
-/

namespace Py

/-- Text as Python's `str` has it: a list of code points. -/
abbrev Str := List Nat

instance : LawfulBEq Str := inferInstance

/-- Octet strings. -/
abbrev Bytes := List UInt8

/-- The text of an ASCII literal, whose octets are its code points. -/
def lit (s : String) : Str := s.toByteArray.data.toList.map UInt8.toNat

@[simp] theorem lit_inj {a b : String} : lit a = lit b ↔ a = b := by
  constructor
  · intro h
    have hinj : Function.Injective (List.map UInt8.toNat) :=
      List.map_injective_iff.mpr (fun x y hxy => UInt8.toNat_inj.mp hxy)
    rw [← String.toByteArray_inj]
    exact ByteArray.ext (Array.toList_inj.mp (hinj h))
  · intro h
    rw [h]

/-- The UTF-8 form of one code point. Surrogates have none. -/
def encodeChar (c : Nat) : Option Bytes :=
  if c < 0x80 then some [UInt8.ofNat c]
  else if c < 0x800 then some [UInt8.ofNat (0xC0 + c / 64), UInt8.ofNat (0x80 + c % 64)]
  else if c < 0x10000 then
    if 0xD800 ≤ c ∧ c < 0xE000 then none
    else some [UInt8.ofNat (0xE0 + c / 4096), UInt8.ofNat (0x80 + c / 64 % 64),
      UInt8.ofNat (0x80 + c % 64)]
  else if c < 0x110000 then
    some [UInt8.ofNat (0xF0 + c / 262144), UInt8.ofNat (0x80 + c / 4096 % 64),
      UInt8.ofNat (0x80 + c / 64 % 64), UInt8.ofNat (0x80 + c % 64)]
  else none

/-- The UTF-8 form of a text, if it has one. -/
def encode : Str → Option Bytes
  | [] => some []
  | c :: s => do
    let b ← encodeChar c
    let t ← encode s
    return b ++ t

/-- A continuation octet. -/
abbrev IsTail (b : UInt8) : Prop := 0x80 ≤ b.toNat ∧ b.toNat < 0xC0

/-- The first character of an octet string and what follows it. With `pass`
    the three-byte form of a surrogate is admitted. -/
def decodeChar (pass : Bool) : Bytes → Option (Nat × Bytes)
  | [] => none
  | b0 :: t =>
    if b0.toNat < 0x80 then some (b0.toNat, t)
    else if b0.toNat < 0xC2 then none
    else if b0.toNat < 0xE0 then
      match t with
      | b1 :: r =>
        if IsTail b1 then some ((b0.toNat - 0xC0) * 64 + (b1.toNat - 0x80), r) else none
      | _ => none
    else if b0.toNat < 0xF0 then
      match t with
      | b1 :: b2 :: r =>
        let c := (b0.toNat - 0xE0) * 4096 + (b1.toNat - 0x80) * 64 + (b2.toNat - 0x80)
        if IsTail b1 ∧ IsTail b2 ∧ 0x800 ≤ c ∧ (pass = true ∨ c < 0xD800 ∨ 0xE000 ≤ c)
        then some (c, r) else none
      | _ => none
    else if b0.toNat < 0xF5 then
      match t with
      | b1 :: b2 :: b3 :: r =>
        let c := (b0.toNat - 0xF0) * 262144 + (b1.toNat - 0x80) * 4096 + (b2.toNat - 0x80) * 64
          + (b3.toNat - 0x80)
        if IsTail b1 ∧ IsTail b2 ∧ IsTail b3 ∧ 0x10000 ≤ c ∧ c < 0x110000
        then some (c, r) else none
      | _ => none
    else none

/-- Reading characters until none is left. The count bounds the characters
    and is met by the length of the octet string. -/
def decodeUpTo (pass : Bool) : Nat → Bytes → Option Str
  | _, [] => some []
  | 0, _ => none
  | n + 1, b => do
    let (c, r) ← decodeChar pass b
    let s ← decodeUpTo pass n r
    return c :: s

/-- Reading an octet string as UTF-8. -/
def decode (pass : Bool) (b : Bytes) : Option Str := decodeUpTo pass b.length b

theorem toNat_ofNat_lt {n : Nat} (h : n < 256) : (UInt8.ofNat n).toNat = n := by
  rw [UInt8.toNat_ofNat']
  exact Nat.mod_eq_of_lt h

theorem decodeChar_encodeChar (pass : Bool) (c : Nat) (b r : Bytes)
    (h : encodeChar c = some b) : decodeChar pass (b ++ r) = some (c, r) := by
  unfold encodeChar at h
  split at h
  · next h1 =>
      cases h
      simp only [List.cons_append, List.nil_append, decodeChar, toNat_ofNat_lt (show c < 256 by omega),
        if_pos h1]
  split at h
  · next h1 h2 =>
      cases h
      have e0 := toNat_ofNat_lt (show 0xC0 + c / 64 < 256 by omega)
      have e1 := toNat_ofNat_lt (show 0x80 + c % 64 < 256 by omega)
      have hc : (0xC0 + c / 64 - 0xC0) * 64 + (0x80 + c % 64 - 0x80) = c := by omega
      simp only [List.cons_append, List.nil_append, decodeChar, IsTail, e0, e1, hc]
      rw [if_neg (by omega), if_neg (by omega), if_pos (by omega), if_pos (by omega)]
  split at h
  · next h1 h2 h3 =>
      split at h
      · cases h
      next hsur =>
      cases h
      have e0 := toNat_ofNat_lt (show 0xE0 + c / 4096 < 256 by omega)
      have e1 := toNat_ofNat_lt (show 0x80 + c / 64 % 64 < 256 by omega)
      have e2 := toNat_ofNat_lt (show 0x80 + c % 64 < 256 by omega)
      have hc : (0xE0 + c / 4096 - 0xE0) * 4096 + (0x80 + c / 64 % 64 - 0x80) * 64
          + (0x80 + c % 64 - 0x80) = c := by omega
      simp only [List.cons_append, List.nil_append, decodeChar, IsTail, e0, e1, e2, hc]
      rw [if_neg (by omega), if_neg (by omega), if_neg (by omega), if_pos (by omega),
        if_pos (by omega)]
  split at h
  · next h1 h2 h3 h4 =>
      cases h
      have e0 := toNat_ofNat_lt (show 0xF0 + c / 262144 < 256 by omega)
      have e1 := toNat_ofNat_lt (show 0x80 + c / 4096 % 64 < 256 by omega)
      have e2 := toNat_ofNat_lt (show 0x80 + c / 64 % 64 < 256 by omega)
      have e3 := toNat_ofNat_lt (show 0x80 + c % 64 < 256 by omega)
      have hc : (0xF0 + c / 262144 - 0xF0) * 262144 + (0x80 + c / 4096 % 64 - 0x80) * 4096
          + (0x80 + c / 64 % 64 - 0x80) * 64 + (0x80 + c % 64 - 0x80) = c := by omega
      simp only [List.cons_append, List.nil_append, decodeChar, IsTail, e0, e1, e2, e3, hc]
      rw [if_neg (by omega), if_neg (by omega), if_neg (by omega), if_neg (by omega),
        if_pos (by omega), if_pos (by omega)]
  · cases h

theorem ofNat_eq {b : UInt8} {n : Nat} (h : b.toNat = n) : UInt8.ofNat n = b := by
  rw [← h, UInt8.ofNat_toNat]

theorem encodeChar_of_decodeChar (b r : Bytes) (c : Nat) (h : decodeChar false b = some (c, r)) :
    ∃ e, encodeChar c = some e ∧ b = e ++ r := by
  cases b with
  | nil => simp only [decodeChar, reduceCtorEq] at h
  | cons b0 t =>
      have hb0 := b0.toNat_lt
      simp only [decodeChar] at h
      split at h
      · next h1 =>
          simp only [Option.some.injEq, Prod.mk.injEq] at h
          rcases h with ⟨rfl, rfl⟩
          exact ⟨[b0], by simp only [encodeChar, if_pos h1, UInt8.ofNat_toNat], rfl⟩
      split at h
      · cases h
      split at h
      · next h1 h2 h3 =>
          rcases t with _ | ⟨b1, t⟩
          · cases h
          simp only [IsTail] at h
          split at h
          · next ht =>
              simp only [Option.some.injEq, Prod.mk.injEq] at h
              rcases h with ⟨rfl, rfl⟩
              refine ⟨[b0, b1], ?_, rfl⟩
              unfold encodeChar
              rw [if_neg (by omega), if_pos (by omega),
                ofNat_eq (show b0.toNat = _ by omega), ofNat_eq (show b1.toNat = _ by omega)]
          · cases h
      split at h
      · next h1 h2 h3 h4 =>
          rcases t with _ | ⟨b1, _ | ⟨b2, t⟩⟩
          · cases h
          · cases h
          simp only [IsTail, reduceCtorEq, false_or] at h
          split at h
          · next ht =>
              simp only [Option.some.injEq, Prod.mk.injEq] at h
              rcases h with ⟨rfl, rfl⟩
              refine ⟨[b0, b1, b2], ?_, rfl⟩
              unfold encodeChar
              rw [if_neg (by omega), if_neg (by omega), if_pos (by omega), if_neg (by omega),
                ofNat_eq (show b0.toNat = _ by omega), ofNat_eq (show b1.toNat = _ by omega),
                ofNat_eq (show b2.toNat = _ by omega)]
          · cases h
      split at h
      · next h1 h2 h3 h4 h5 =>
          rcases t with _ | ⟨b1, _ | ⟨b2, _ | ⟨b3, t⟩⟩⟩
          · cases h
          · cases h
          · cases h
          simp only [IsTail] at h
          split at h
          · next ht =>
              simp only [Option.some.injEq, Prod.mk.injEq] at h
              rcases h with ⟨rfl, rfl⟩
              refine ⟨[b0, b1, b2, b3], ?_, rfl⟩
              unfold encodeChar
              rw [if_neg (by omega), if_neg (by omega), if_neg (by omega), if_pos (by omega),
                ofNat_eq (show b0.toNat = _ by omega), ofNat_eq (show b1.toNat = _ by omega),
                ofNat_eq (show b2.toNat = _ by omega), ofNat_eq (show b3.toNat = _ by omega)]
          · cases h
      · cases h

theorem encodeChar_ne_nil {c : Nat} {b : Bytes} (h : encodeChar c = some b) : b ≠ [] := by
  rintro rfl
  have hd := decodeChar_encodeChar false c [] [] h
  simp only [List.nil_append, decodeChar, reduceCtorEq] at hd

theorem length_le_encode (s : Str) (b : Bytes) (h : encode s = some b) : s.length ≤ b.length := by
  induction s generalizing b with
  | nil => exact Nat.zero_le _
  | cons c s ih =>
      simp only [encode, Option.bind_eq_bind, Option.bind_eq_some_iff, Option.pure_def,
        Option.some.injEq] at h
      rcases h with ⟨e, he, t, ht, rfl⟩
      have hpos := List.length_pos_iff.mpr (encodeChar_ne_nil he)
      have hlen := ih t ht
      simp only [List.length_cons, List.length_append]
      omega

theorem decodeUpTo_encode (pass : Bool) (s : Str) (b : Bytes) (h : encode s = some b) (n : Nat)
    (hn : s.length ≤ n) : decodeUpTo pass n b = some s := by
  induction s generalizing b n with
  | nil =>
      simp only [encode, Option.some.injEq] at h
      rw [← h, decodeUpTo]
  | cons c s ih =>
      simp only [encode, Option.bind_eq_bind, Option.bind_eq_some_iff, Option.pure_def,
        Option.some.injEq] at h
      rcases h with ⟨e, he, t, ht, rfl⟩
      cases n with
      | zero => exact absurd hn (Nat.not_succ_le_zero _)
      | succ m =>
          simp only [List.length_cons, Nat.add_le_add_iff_right] at hn
          rcases e with _ | ⟨b0, e⟩
          · exact absurd rfl (encodeChar_ne_nil he)
          have hd := decodeChar_encodeChar pass c _ t he
          rw [List.cons_append] at hd ⊢
          simp only [decodeUpTo, hd, ih t ht m hn, Option.bind_eq_bind, Option.bind_some,
            Option.pure_def]

/-- Encoded text decodes to itself, whichever handler reads it. -/
theorem decode_encode (pass : Bool) (s : Str) (b : Bytes) (h : encode s = some b) :
    decode pass b = some s :=
  decodeUpTo_encode pass s b h b.length (length_le_encode s b h)

/-- Different texts have different octets. -/
theorem encode_injective {s t : Str} {b : Bytes} (hs : encode s = some b) (ht : encode t = some b) :
    s = t := by
  have h := decode_encode false s b hs
  rw [decode_encode false t b ht, Option.some.injEq] at h
  exact h.symm

theorem encode_of_decodeUpTo (n : Nat) (b : Bytes) (s : Str) (h : decodeUpTo false n b = some s) :
    encode s = some b := by
  induction n generalizing b s with
  | zero =>
      cases b with
      | nil =>
          simp only [decodeUpTo, Option.some.injEq] at h
          rw [← h, encode]
      | cons b0 t => simp only [decodeUpTo, reduceCtorEq] at h
  | succ m ih =>
      cases b with
      | nil =>
          simp only [decodeUpTo, Option.some.injEq] at h
          rw [← h, encode]
      | cons b0 t =>
          simp only [decodeUpTo, Option.bind_eq_bind, Option.bind_eq_some_iff, Option.pure_def,
            Option.some.injEq] at h
          rcases h with ⟨⟨c, r⟩, hc, s', hs, rfl⟩
          rcases encodeChar_of_decodeChar _ _ _ hc with ⟨e, he, heq⟩
          simp only [encode, he, ih r s' hs, Option.bind_eq_bind, Option.bind_some,
            Option.pure_def, heq]

/-- Strict UTF-8 is canonical: accepted octets are the encoding of what they
    decode to. -/
theorem encode_of_decode (b : Bytes) (s : Str) (h : decode false b = some s) :
    encode s = some b :=
  encode_of_decodeUpTo _ b s h

theorem encode_append (s t : Str) (a b : Bytes) (hs : encode s = some a) (ht : encode t = some b) :
    encode (s ++ t) = some (a ++ b) := by
  induction s generalizing a with
  | nil =>
      simp only [encode, Option.some.injEq] at hs
      rw [← hs, List.nil_append, List.nil_append, ht]
  | cons c s ih =>
      simp only [encode, Option.bind_eq_bind, Option.bind_eq_some_iff, Option.pure_def,
        Option.some.injEq] at hs
      rcases hs with ⟨e, he, a', ha', rfl⟩
      simp only [List.cons_append, encode, he, ih a' ha', Option.bind_eq_bind, Option.bind_some,
        Option.pure_def, List.append_assoc]

/-- The characters `str.isspace` accepts. -/
def isSpace (c : Nat) : Bool :=
  (9 ≤ c && c ≤ 13) || (28 ≤ c && c ≤ 32) || c == 0x85 || c == 0xA0 || c == 0x1680 ||
    (0x2000 ≤ c && c ≤ 0x200A) || c == 0x2028 || c == 0x2029 || c == 0x202F || c == 0x205F ||
    c == 0x3000

/-- Text without its surrounding whitespace, `str.strip`. -/
def strip (s : Str) : Str := ((s.dropWhile isSpace).reverse.dropWhile isSpace).reverse

/-- `str.split` with no separator, reading one character at a time. The
    second argument holds the field being read, backwards. -/
def splitSpaceFrom : Str → Str → List Str
  | [], field => if field = [] then [] else [field.reverse]
  | c :: s, field =>
    if isSpace c then
      if field = [] then splitSpaceFrom s [] else field.reverse :: splitSpaceFrom s []
    else splitSpaceFrom s (c :: field)

/-- The fields of a text between runs of whitespace. -/
def splitSpace (s : Str) : List Str := splitSpaceFrom s []

def isDigit (c : Nat) : Bool := 48 ≤ c && c ≤ 57

def isUpper (c : Nat) : Bool := 65 ≤ c && c ≤ 90

def isLower (c : Nat) : Bool := 97 ≤ c && c ≤ 122

/-- The class `[A-Za-z0-9]`. -/
def isAlnum (c : Nat) : Bool := isDigit c || isUpper c || isLower c

/-- The class `[A-Za-z0-9_-]`. -/
def isWordDash (c : Nat) : Bool := isAlnum c || c == 95 || c == 45

end Py
