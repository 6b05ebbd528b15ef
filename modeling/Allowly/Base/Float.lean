import Allowly.Base.Text
import Mathlib.Data.Nat.Digits.Defs
import Mathlib.Data.Nat.Log

/-!
# Binary64

Python's `float`, as far as the program meets it: a JSON number with a fraction
or an exponent, a clock reading, and the texts `repr` gives back.

A finite value is a signed mantissa and a binary exponent, normalised so that
the representation is unique. `ofRatio` rounds a quotient of naturals to the
nearest value, ties to even, and everything else is built on it: reading a
decimal, and subtracting.

`reprDigits` lists the decimals `repr` chooses among, shortest first and nearest
first within a length. The choice itself needs the JSON number scanner, and is
made in `Base.JsonText`.

## Main definitions

* `Float64`: Finite values, infinities and not-a-number.
* `Float64.ofRatio`: Rounding a quotient to the nearest value.
* `Float64.ofDecimal`: The value of a decimal.
* `Float64.num`: The exact value of a finite float, as a mantissa and exponent.
* `Float64.sub`: The rounded difference.
* `dyadicEq`, `dyadicLe`: Comparing exact values.
* `Float64.reprDigits`: The decimals that `repr` chooses among.
* `decimalText`: A decimal written the way `repr` writes it.
-/

namespace Py

inductive Float64 where
  | finite (neg : Bool) (mant : Nat) (exp : Int)
  | inf (neg : Bool)
  | nan
  deriving DecidableEq, Repr

namespace Float64

def zero (neg : Bool) : Float64 := .finite neg 0 (-1074)

/-- Rounding `num / den` to the nearest value, ties to even. -/
def ofRatio (neg : Bool) (num den : Nat) : Float64 :=
  if num = 0 then zero neg
  else
    -- The quotient lies strictly between 2 ^ (l - 1) and 2 ^ (l + 1).
    let l : Int := (Nat.log2 num : Int) - Nat.log2 den
    let atLeast := den * 2 ^ l.toNat ≤ num * 2 ^ (-l).toNat
    let e := max (-1074) (if atLeast then l - 52 else l - 53)
    let n := num * 2 ^ (-e).toNat
    let d := den * 2 ^ e.toNat
    let q := n / d
    let r := n % d
    let m := if 2 * r < d then q else if d < 2 * r then q + 1 else q + q % 2
    if m = 2 ^ 53 then (if e + 1 > 971 then .inf neg else .finite neg (2 ^ 52) (e + 1))
    else if e > 971 then .inf neg
    else .finite neg m e

/-- The value of `digits * 10 ^ exp`. The first two cases only keep the powers
    small: there the result is already known. -/
def ofDecimal (neg : Bool) (digits : Nat) (exp : Int) : Float64 :=
  if digits = 0 then zero neg
  else if 310 < exp then .inf neg
  else if exp + (Nat.log 10 digits + 1 : Nat) < -400 then zero neg
  else ofRatio neg (digits * 10 ^ exp.toNat) (10 ^ (-exp).toNat)

/-- The exact value of a finite float, as a mantissa and a binary exponent. -/
def num : Float64 → Option (Int × Int)
  | .finite neg m e => some (if neg then -(m : Int) else m, e)
  | .inf _ => none
  | .nan => none

def isFinite (x : Float64) : Bool := x.num.isSome

/-- Rounding `m * 2 ^ e`. -/
def ofDyadic (m e : Int) : Float64 :=
  ofRatio (decide (m < 0)) (m.natAbs * 2 ^ e.toNat) (2 ^ (-e).toNat)

def ofInt (n : Int) : Float64 := ofDyadic n 0

/-- The rounded difference of two finite floats. -/
def sub (x y : Float64) : Float64 :=
  match x.num, y.num with
  | some (a, e), some (b, f) =>
    let k := min e f
    ofDyadic (a * 2 ^ (e - k).toNat - b * 2 ^ (f - k).toNat) k
  | _, _ => .nan

def abs : Float64 → Float64
  | .finite _ m e => .finite false m e
  | .inf _ => .inf false
  | .nan => .nan

end Float64

/-- Whether two exact values `m * 2 ^ e` are the same number. -/
def dyadicEq (x y : Int × Int) : Bool :=
  let k := min x.2 y.2
  x.1 * 2 ^ (x.2 - k).toNat == y.1 * 2 ^ (y.2 - k).toNat

def dyadicLe (x y : Int × Int) : Bool :=
  let k := min x.2 y.2
  x.1 * 2 ^ (x.2 - k).toNat ≤ y.1 * 2 ^ (y.2 - k).toNat

/-- The comparison `x <= n` of a float with an integer. -/
def Float64.leInt (x : Float64) (n : Int) : Bool :=
  match x with
  | .inf neg => neg
  | .nan => false
  | .finite .. => match x.num with
    | some v => dyadicLe v (n, 0)
    | none => false

/-- The decimal digits of a number, most significant first. -/
def natText (n : Nat) : Str := if n = 0 then [48] else (Nat.digits 10 n).reverse.map (· + 48)

/-- A decimal `digits * 10 ^ exp` written the way `repr` writes it: fixed
    notation while the decimal point is at most 16 places from the first digit
    to the right and 3 to the left, and an exponent otherwise. -/
def decimalText (neg : Bool) (digits : Nat) (exp : Int) : Str :=
  let ds := ((natText digits).reverse.dropWhile (· == 48)).reverse
  let point : Int := (natText digits).length + exp
  let sign := if neg then lit "-" else []
  let zeros (n : Int) : Str := List.replicate n.toNat 48
  if -4 < point ∧ point ≤ 16 then
    if point ≤ 0 then sign ++ lit "0." ++ zeros (-point) ++ ds
    else if (ds.length : Int) ≤ point then sign ++ ds ++ zeros (point - ds.length) ++ lit ".0"
    else sign ++ ds.take point.toNat ++ lit "." ++ ds.drop point.toNat
  else
    let e := point - 1
    let et := natText e.natAbs
    sign ++ ds.take 1 ++ (if ds.length ≤ 1 then [] else lit "." ++ ds.drop 1) ++ lit "e"
      ++ lit (if e < 0 then "-" else "+") ++ zeros (2 - et.length) ++ et

/-- The decimal exponent of the first digit of `n / d`. -/
def leadingExponent (n d : Nat) : Int :=
  if d ≤ n then Nat.log 10 (n / d)
  else -(((List.range 400).find? (fun j => d ≤ n * 10 ^ j)).getD 0 : Nat)

/-- The decimals `repr` chooses among, shortest first and, within a length,
    nearest first. -/
def Float64.reprDigits (m : Nat) (e : Int) : List (Nat × Int) :=
  let n := m * 2 ^ e.toNat
  let d := 2 ^ (-e).toNat
  let p := leadingExponent n d
  (List.range 17).flatMap fun k =>
    let s := p - k
    let a := n * 10 ^ (-s).toNat
    let b := d * 10 ^ s.toNat
    if 2 * (a % b) ≤ b then [(a / b, s), (a / b + 1, s)] else [(a / b + 1, s), (a / b, s)]

end Py
