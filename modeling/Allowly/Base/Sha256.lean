import Allowly.Base.Text

/-!
# SHA-256

The digest of `hashlib.sha256` and the keyed digest of `hmac.digest`, on octet
strings. Words are natural numbers below `2 ^ 32`, and the arithmetic that wraps
around does so by an explicit remainder.

The compression function is a fold over the 64 rounds of a block, with the message
schedule computed beforehand as a list that grows backwards: its head is the word
of the latest round, so the four words a new one is made of stand at fixed places.

## Main definitions

* `Sha256.digest`: The 32 octets of a digest.
* `hexdigest`: The digest in hexadecimal.
* `hmac`: The keyed digest.
-/

namespace Py

namespace Sha256

def word : Nat := 4294967296

def add (a b : Nat) : Nat := (a + b) % word

def rotate (n x : Nat) : Nat := (x >>> n) ||| ((x <<< (32 - n)) % word)

/-- The round constants. -/
def constants : List Nat :=
  [0x428a2f98, 0x71374491, 0xb5c0fbcf, 0xe9b5dba5, 0x3956c25b, 0x59f111f1, 0x923f82a4, 0xab1c5ed5,
   0xd807aa98, 0x12835b01, 0x243185be, 0x550c7dc3, 0x72be5d74, 0x80deb1fe, 0x9bdc06a7, 0xc19bf174,
   0xe49b69c1, 0xefbe4786, 0x0fc19dc6, 0x240ca1cc, 0x2de92c6f, 0x4a7484aa, 0x5cb0a9dc, 0x76f988da,
   0x983e5152, 0xa831c66d, 0xb00327c8, 0xbf597fc7, 0xc6e00bf3, 0xd5a79147, 0x06ca6351, 0x14292967,
   0x27b70a85, 0x2e1b2138, 0x4d2c6dfc, 0x53380d13, 0x650a7354, 0x766a0abb, 0x81c2c92e, 0x92722c85,
   0xa2bfe8a1, 0xa81a664b, 0xc24b8b70, 0xc76c51a3, 0xd192e819, 0xd6990624, 0xf40e3585, 0x106aa070,
   0x19a4c116, 0x1e376c08, 0x2748774c, 0x34b0bcb5, 0x391c0cb3, 0x4ed8aa4a, 0x5b9cca4f, 0x682e6ff3,
   0x748f82ee, 0x78a5636f, 0x84c87814, 0x8cc70208, 0x90befffa, 0xa4506ceb, 0xbef9a3f7, 0xc67178f2]

/-- The eight words the digest is computed in. -/
structure State where
  a : Nat
  b : Nat
  c : Nat
  d : Nat
  e : Nat
  f : Nat
  g : Nat
  h : Nat

def initial : State :=
  { a := 0x6a09e667, b := 0xbb67ae85, c := 0x3c6ef372, d := 0xa54ff53a
    e := 0x510e527f, f := 0x9b05688c, g := 0x1f83d9ab, h := 0x5be0cd19 }

/-- One round, with its constant and its word of the schedule. -/
def round (s : State) (kw : Nat × Nat) : State :=
  let s1 := rotate 6 s.e ^^^ rotate 11 s.e ^^^ rotate 25 s.e
  let ch := (s.e &&& s.f) ^^^ ((word - 1 - s.e) &&& s.g)
  let t1 := add (add (add s.h s1) (add ch kw.1)) kw.2
  let s0 := rotate 2 s.a ^^^ rotate 13 s.a ^^^ rotate 22 s.a
  let maj := (s.a &&& s.b) ^^^ (s.a &&& s.c) ^^^ (s.b &&& s.c)
  { a := add t1 (add s0 maj), b := s.a, c := s.b, d := s.c
    e := add s.d t1, f := s.e, g := s.f, h := s.g }

/-- The schedule with `n` more words, the latest first. -/
def schedule : Nat → List Nat → List Nat
  | 0, ws => ws
  | n + 1, ws =>
    let w2 := ws.getD 1 0
    let w15 := ws.getD 14 0
    let s0 := rotate 7 w15 ^^^ rotate 18 w15 ^^^ (w15 >>> 3)
    let s1 := rotate 17 w2 ^^^ rotate 19 w2 ^^^ (w2 >>> 10)
    schedule n (add (add (ws.getD 15 0) s0) (add (ws.getD 6 0) s1) :: ws)

/-- The big-endian words of an octet string. -/
def words32 : Bytes → List Nat
  | a :: b :: c :: d :: r =>
    (((a.toNat * 256 + b.toNat) * 256 + c.toNat) * 256 + d.toNat) :: words32 r
  | _ => []

/-- The state after a block of 64 octets. -/
def compress (s : State) (block : Bytes) : State :=
  let ws := (schedule 48 (words32 block).reverse).reverse
  let t := (constants.zip ws).foldl round s
  { a := add s.a t.a, b := add s.b t.b, c := add s.c t.c, d := add s.d t.d
    e := add s.e t.e, f := add s.f t.f, g := add s.g t.g, h := add s.h t.h }

/-- The `n` low octets of a number, most significant first. -/
def bigEndian : Nat → Nat → Bytes
  | 0, _ => []
  | n + 1, x => bigEndian n (x / 256) ++ [UInt8.ofNat (x % 256)]

/-- The padding after a message of a given length. -/
def padding (length : Nat) : Bytes :=
  0x80 :: List.replicate ((119 - length % 64) % 64) 0 ++ bigEndian 8 (length * 8)

/-- The state after a number of blocks. -/
def blocks : Nat → State → Bytes → State
  | 0, s, _ => s
  | n + 1, s, b => blocks n (compress s (b.take 64)) (b.drop 64)

def digest (b : Bytes) : Bytes :=
  let m := b ++ padding b.length
  let s := blocks (m.length / 64) initial m
  [s.a, s.b, s.c, s.d, s.e, s.f, s.g, s.h].flatMap (bigEndian 4)

end Sha256

/-- The lower-case hexadecimal digits of an octet string. -/
def hexText (b : Bytes) : Str :=
  b.flatMap fun x =>
    let digit (n : Nat) : Nat := if n < 10 then 48 + n else 87 + n
    [digit (x.toNat / 16), digit (x.toNat % 16)]

/-- `hashlib.sha256(b).hexdigest()`. -/
def hexdigest (b : Bytes) : Str := hexText (Sha256.digest b)

/-- `hmac.digest(key, message, hashlib.sha256)`. -/
def hmac (key message : Bytes) : Bytes :=
  let key := if key.length ≤ 64 then key else Sha256.digest key
  let key := key ++ List.replicate (64 - key.length) 0
  Sha256.digest (key.map (· ^^^ 0x5c) ++ Sha256.digest (key.map (· ^^^ 0x36) ++ message))

example : hexdigest [97, 98, 99]
    = lit "ba7816bf8f01cfea414140de5dae2223b00361a396177a9cb410ff61f20015ad" := by
  decide +kernel

end Py
