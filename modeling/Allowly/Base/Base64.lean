import Allowly.Base.Text

/-!
# Base64

The encodings of octets by 64 characters, over any two characters for the last two
values. Six bits make a value and a value makes a character, so three octets make four
characters, and a last group of one or two octets makes two or three.

Decoding is the lenient one of the standard library: it drops the bits of the last
character that belong to no octet. Encoding what was decoded and comparing is how the
program finds the texts that have such bits.

## Main definitions

* `Base64.Alphabet`: The two characters that alphabets differ in.
* `Base64.toValues`, `Base64.fromValues`: Octets as groups of six bits, and back.
* `Base64.encodeBare`: Encoding without padding.
* `Base64.encode`: Encoding, padded to a multiple of four characters.
* `Base64.decode`: Decoding padded text.

## Theorems

* `Base64.fromValues_toValues`: The groups of octets make the octets.
* `Base64.length_toValues`: How many groups there are.
* `Base64.encodeBare_injective`: Different octets have different encodings.
* `Base64.decode_encode`: Encoded octets are decoded to themselves.
-/

namespace Py

namespace Base64

/-- What alphabets differ in: the characters for 62 and 63. -/
structure Alphabet where
  plus : Nat
  slash : Nat
  plus_special : isAlnum plus = false
  slash_special : isAlnum slash = false
  differ : plus ≠ slash
  plus_pads : plus ≠ 61
  slash_pads : slash ≠ 61

/-- The alphabet with `+` and `/`. -/
def Alphabet.standard : Alphabet := ⟨43, 47, by decide, by decide, by decide, by decide, by decide⟩

/-- The alphabet with `-` and `_`. -/
def Alphabet.urlsafe : Alphabet := ⟨45, 95, by decide, by decide, by decide, by decide, by decide⟩

variable (a : Alphabet)

/-- The character for a value below 64. -/
def symbol (n : Nat) : Nat :=
  if n < 26 then 65 + n
  else if n < 52 then 71 + n
  else if n < 62 then n - 4
  else if n = 62 then a.plus
  else a.slash

/-- The value of a character. -/
def symbolValue (c : Nat) : Option Nat :=
  if isUpper c then some (c - 65)
  else if isLower c then some (c - 71)
  else if isDigit c then some (c + 4)
  else if c = a.plus then some 62
  else if c = a.slash then some 63
  else none

/-- Is the character one of the 64? -/
def isSymbol (c : Nat) : Bool := isAlnum c || c == a.plus || c == a.slash

/-- The groups of six bits. -/
def toValues : Bytes → List Nat
  | [] => []
  | [x] => [x.toNat / 4, x.toNat % 4 * 16]
  | [x, y] => [x.toNat / 4, x.toNat % 4 * 16 + y.toNat / 16, y.toNat % 16 * 4]
  | x :: y :: z :: r =>
    x.toNat / 4 :: (x.toNat % 4 * 16 + y.toNat / 16) :: (y.toNat % 16 * 4 + z.toNat / 64)
      :: z.toNat % 64 :: toValues r

/-- The octets that groups of six bits make. One group alone makes none, and bits
    that fill no octet are dropped. -/
def fromValues : List Nat → Option Bytes
  | [] => some []
  | [_] => none
  | [p, q] => some [UInt8.ofNat (p * 4 + q / 16)]
  | [p, q, r] => some [UInt8.ofNat (p * 4 + q / 16), UInt8.ofNat (q % 16 * 16 + r / 4)]
  | p :: q :: r :: s :: rest => do
    let b ← fromValues rest
    return UInt8.ofNat (p * 4 + q / 16) :: UInt8.ofNat (q % 16 * 16 + r / 4)
      :: UInt8.ofNat (r % 4 * 64 + s) :: b

/-- Encoding without padding. -/
def encodeBare (b : Bytes) : Str := (toValues b).map (symbol a)

/-- The padding after a number of characters. -/
def pads (n : Nat) : Str := List.replicate ((4 - n % 4) % 4) 61

/-- Encoding with padding, `b64encode`. -/
def encode (b : Bytes) : Str := encodeBare a b ++ pads (encodeBare a b).length

/-- Decoding, `b64decode`, of characters of the alphabet and the padding that
    completes them. The library is more lenient about other text, which the
    program does not give it. -/
def decode (s : Str) : Option Bytes :=
  let data := s.takeWhile (· != 61)
  if s = data ++ pads data.length then (data.mapM (symbolValue a)).bind fromValues else none

theorem symbolValue_symbol {n : Nat} (h : n < 64) : symbolValue a (symbol a n) = some n := by
  have hplus := a.plus_special
  have hslash := a.slash_special
  have hdiffer := a.differ
  simp only [isAlnum, isDigit, isUpper, isLower, Bool.or_eq_false_iff, Bool.and_eq_false_iff,
    decide_eq_false_iff_not] at hplus hslash
  have hvalue (c : Nat) : symbolValue a c =
      if 65 ≤ c ∧ c ≤ 90 then some (c - 65)
      else if 97 ≤ c ∧ c ≤ 122 then some (c - 71)
      else if 48 ≤ c ∧ c ≤ 57 then some (c + 4)
      else if c = a.plus then some 62
      else if c = a.slash then some 63
      else none := by
    simp only [symbolValue, isUpper, isLower, isDigit, Bool.and_eq_true, decide_eq_true_eq]
  rw [hvalue, symbol]
  split
  · rw [if_pos (by omega), Nat.add_sub_cancel_left]
  split
  · rw [if_neg (by omega), if_pos (by omega), Nat.add_sub_cancel_left]
  split
  · rw [if_neg (by omega), if_neg (by omega), if_pos (by omega), Nat.sub_add_cancel (by omega)]
  split
  · next h62 => rw [if_neg (by omega), if_neg (by omega), if_neg (by omega), if_pos rfl, h62]
  · rw [if_neg (by omega), if_neg (by omega), if_neg (by omega), if_neg (Ne.symm hdiffer),
      if_pos rfl]
    exact congrArg some (by omega)

theorem isSymbol_symbol {n : Nat} (h : n < 64) : isSymbol a (symbol a n) = true := by
  have hsymbol (c : Nat) : isSymbol a c = true ↔
      (((48 ≤ c ∧ c ≤ 57) ∨ (65 ≤ c ∧ c ≤ 90)) ∨ (97 ≤ c ∧ c ≤ 122) ∨ c = a.plus) ∨ c = a.slash := by
    simp only [isSymbol, isAlnum, isDigit, isUpper, isLower, Bool.or_eq_true, Bool.and_eq_true,
      decide_eq_true_eq, beq_iff_eq, or_assoc]
  rw [hsymbol, symbol]
  split
  · omega
  split
  · omega
  split
  · omega
  split
  · exact Or.inl (Or.inr (Or.inr rfl))
  · exact Or.inr rfl

/-- Padding is no symbol. -/
theorem ne_pad_of_isSymbol {c : Nat} (h : isSymbol a c = true) : c ≠ 61 := by
  rintro rfl
  have hplus := a.plus_pads
  have hslash := a.slash_pads
  simp only [isSymbol, isAlnum, isDigit, isUpper, isLower, Bool.or_eq_true, Bool.and_eq_true,
    decide_eq_true_eq, beq_iff_eq] at h
  omega

theorem toValues_lt (b : Bytes) : ∀ v ∈ toValues b, v < 64 := by
  induction b using toValues.induct with
  | case1 => exact fun v hv => absurd hv List.not_mem_nil
  | case2 x =>
      have hx := x.toNat_lt
      intro v hv
      simp only [toValues, List.mem_cons, List.not_mem_nil, or_false] at hv
      omega
  | case3 x y =>
      have hx := x.toNat_lt
      have hy := y.toNat_lt
      intro v hv
      simp only [toValues, List.mem_cons, List.not_mem_nil, or_false] at hv
      omega
  | case4 x y z r ih =>
      have hx := x.toNat_lt
      have hy := y.toNat_lt
      have hz := z.toNat_lt
      intro v hv
      simp only [toValues, List.mem_cons] at hv
      rcases hv with hv | hv | hv | hv | hv
      · omega
      · omega
      · omega
      · omega
      · exact ih v hv

theorem length_toValues (b : Bytes) : (toValues b).length = (b.length * 4 + 2) / 3 := by
  induction b using toValues.induct with
  | case1 => rfl
  | case2 x => simp only [toValues, List.length_cons, List.length_nil]
  | case3 x y => simp only [toValues, List.length_cons, List.length_nil]
  | case4 x y z r ih =>
      simp only [toValues, List.length_cons, ih]
      omega

theorem fromValues_toValues (b : Bytes) : fromValues (toValues b) = some b := by
  induction b using toValues.induct with
  | case1 => rfl
  | case2 x =>
      rw [toValues, fromValues, ofNat_eq (b := x) (by omega)]
  | case3 x y =>
      have hy := y.toNat_lt
      rw [toValues, fromValues, ofNat_eq (b := x) (by omega), ofNat_eq (b := y) (by omega)]
  | case4 x y z r ih =>
      have hy := y.toNat_lt
      have hz := z.toNat_lt
      rw [toValues, fromValues, ih, ofNat_eq (b := x) (by omega), ofNat_eq (b := y) (by omega),
        ofNat_eq (b := z) (by omega)]
      rfl

theorem mapM_symbol {vs : List Nat} (h : ∀ v ∈ vs, v < 64) :
    (vs.map (symbol a)).mapM (symbolValue a) = some vs := by
  induction vs with
  | nil => rfl
  | cons v vs ih =>
      have hv := symbolValue_symbol a (h v List.mem_cons_self)
      have hrest := ih fun w hw => h w (List.mem_cons_of_mem _ hw)
      rw [List.map_cons, List.mapM_cons, hv, hrest]
      rfl

theorem isSymbol_encodeBare (b : Bytes) : ∀ c ∈ encodeBare a b, isSymbol a c = true := by
  intro c hc
  rcases List.mem_map.mp hc with ⟨v, hv, rfl⟩
  exact isSymbol_symbol a (toValues_lt b v hv)

@[simp] theorem length_encodeBare (b : Bytes) :
    (encodeBare a b).length = (b.length * 4 + 2) / 3 := by
  rw [encodeBare, List.length_map, length_toValues]

theorem encodeBare_ne_nil {b : Bytes} (h : b ≠ []) : encodeBare a b ≠ [] := by
  intro hnil
  have hlen := length_encodeBare a b
  have hpos := List.length_pos_iff.mpr h
  rw [hnil, List.length_nil] at hlen
  omega

/-- The characters before the padding. -/
theorem takeWhile_symbols {s : Str} (h : ∀ c ∈ s, isSymbol a c = true) (n : Nat) :
    (s ++ List.replicate n 61).takeWhile (· != 61) = s := by
  have hne : ∀ c ∈ s, (c != 61) = true := fun c hc => bne_iff_ne.mpr (ne_pad_of_isSymbol a (h c hc))
  rw [List.takeWhile_append_of_pos hne]
  cases n with
  | zero => rw [List.replicate_zero, List.takeWhile_nil, List.append_nil]
  | succ n => rw [List.replicate_succ, List.takeWhile_cons_of_neg (by decide), List.append_nil]

theorem decode_pads {s : Str} (h : ∀ c ∈ s, isSymbol a c = true) :
    decode a (s ++ pads s.length) = (s.mapM (symbolValue a)).bind fromValues := by
  have htake : (s ++ pads s.length).takeWhile (· != 61) = s := takeWhile_symbols a h _
  simp only [decode, htake, if_true]

/-- Encoded octets are decoded to themselves. -/
theorem decode_encode (b : Bytes) : decode a (encode a b) = some b := by
  rw [encode, decode_pads a (isSymbol_encodeBare a b), encodeBare, mapM_symbol a (toValues_lt b),
    Option.bind_some, fromValues_toValues]

/-- Different octets have different encodings. -/
theorem encodeBare_injective : Function.Injective (encodeBare a) := by
  intro b c h
  have hb := decode_encode a b
  rw [encode, h] at hb
  have hc := decode_encode a c
  rw [encode, hb] at hc
  exact Option.some.inj hc

end Base64

end Py
