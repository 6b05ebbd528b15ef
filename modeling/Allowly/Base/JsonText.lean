import Allowly.Base.Json

/-!
# JSON Texts

`json.loads` and `json.dumps`, as the program calls them.

Reading has two stages, as in Python. `scanValue` recognises the text and keeps
every member it reads, repeated keys included. What becomes of a repeated key is
then decided by the object hook: `loads` lets the last one win, which is what a
plain `dict` does, and a caller with a hook of its own looks at the members as
they were scanned. The other hook is `parse_constant`: the texts `NaN`,
`Infinity` and `-Infinity` are only read when `constants` is set.

A string literal is scanned to code units first, so that the two halves of a
surrogate pair can be joined exactly when both were written as escapes and stand
next to each other.

The scanner's recursion is bounded by a count, which the length of the text
meets. Python bounds the nesting by its recursion limit instead; that limit is a
resource of the interpreter and is not modelled, nor is the one of `dumps`.

Writing is `dumps` with `ensure_ascii=False`, `allow_nan=False` and the compact
separators. It fails on infinities and on not-a-number, and on an integer past
the interpreter's conversion limit. A float is written as the first decimal among
`reprDigits` that reads back as that float. Seventeen digits are always enough,
so one is found for every finite float.

## Main definitions

* `scanString`, `scanNumber`, `scanValue`: Recognising the text of a value.
* `parse`: Recognising a whole text.
* `merge`: Building dictionaries, the last of a repeated key winning.
* `detectEncoding`, `decodeJson`: The encodings `json.loads` takes bytes in.
* `loads`, `loadsBytes`: `json.loads` on text and on bytes.
* `dumps`: `json.dumps`.
-/

namespace Py

/-- The digits in the longest integer that is converted to or from text. -/
def maxIntDigits : Nat := 4300

def isWs (c : Nat) : Bool := c == 32 || c == 9 || c == 10 || c == 13

def skipWs (s : Str) : Str := s.dropWhile isWs

/-- A unit of a string literal: a character, or the value of a `\u` escape. -/
inductive StrUnit where
  | plain (c : Nat)
  | escape (c : Nat)

def hexVal (c : Nat) : Option Nat :=
  if isDigit c then some (c - 48)
  else if 97 ≤ c ∧ c ≤ 102 then some (c - 87)
  else if 65 ≤ c ∧ c ≤ 70 then some (c - 55)
  else none

def hex4 (a b c d : Nat) : Option Nat := do
  let a ← hexVal a
  let b ← hexVal b
  let c ← hexVal c
  let d ← hexVal d
  return ((a * 16 + b) * 16 + c) * 16 + d

/-- The character a one-letter escape stands for. -/
def simpleEscape (c : Nat) : Option Nat :=
  if c = 34 then some 34
  else if c = 92 then some 92
  else if c = 47 then some 47
  else if c = 98 then some 8
  else if c = 102 then some 12
  else if c = 110 then some 10
  else if c = 114 then some 13
  else if c = 116 then some 9
  else none

/-- The units of a string literal after its opening quote, and what follows its
    closing quote. -/
def scanUnits : Str → Option (List StrUnit × Str)
  | [] => none
  | 34 :: r => some ([], r)
  | 92 :: 117 :: a :: b :: c :: d :: r => do
    let u ← hex4 a b c d
    let (us, r) ← scanUnits r
    return (.escape u :: us, r)
  | 92 :: e :: r => do
    let u ← simpleEscape e
    let (us, r) ← scanUnits r
    return (.plain u :: us, r)
  | c :: r =>
    if c < 32 ∨ c = 92 then none
    else do
      let (us, r) ← scanUnits r
      return (.plain c :: us, r)

def isHigh (c : Nat) : Bool := 0xD800 ≤ c && c < 0xDC00

def isLow (c : Nat) : Bool := 0xDC00 ≤ c && c < 0xE000

/-- The text of a list of units, with escaped surrogate pairs joined. -/
def joinUnits : List StrUnit → Str
  | [] => []
  | .plain c :: us => c :: joinUnits us
  | .escape h :: .escape l :: us =>
    if isHigh h && isLow l then
      (0x10000 + (h - 0xD800) * 1024 + (l - 0xDC00)) :: joinUnits us
    else h :: joinUnits (.escape l :: us)
  | .escape c :: us => c :: joinUnits us

/-- A string literal after its opening quote. -/
def scanString (s : Str) : Option (Str × Str) :=
  (scanUnits s).map fun p => (joinUnits p.1, p.2)

/-- The number a run of decimal digits denotes. -/
def digitsVal (ds : Str) : Nat := ds.foldl (fun a d => a * 10 + (d - 48)) 0

/-- The digits before the point: no leading zero. -/
def scanInt : Str → Option (Str × Str)
  | [] => none
  | c :: r =>
    if c = 48 then some ([48], r)
    else if isDigit c then some (c :: r.takeWhile isDigit, r.dropWhile isDigit)
    else none

/-- The digits after a point, when a point and a digit follow. -/
def scanFrac : Str → Option (Str × Str)
  | 46 :: c :: r => if isDigit c then some (c :: r.takeWhile isDigit, r.dropWhile isDigit) else none
  | _ => none

/-- The sign and digits of an exponent, when one follows. -/
def scanExp : Str → Option ((Bool × Str) × Str)
  | e :: c :: r =>
    if e = 101 ∨ e = 69 then
      if isDigit c then some ((false, c :: r.takeWhile isDigit), r.dropWhile isDigit)
      else
        match r with
        | d :: r =>
          if (c = 43 ∨ c = 45) ∧ isDigit d = true then
            some ((c == 45, d :: r.takeWhile isDigit), r.dropWhile isDigit)
          else none
        | [] => none
    else none
  | _ => none

/-- The value of a number literal from its parts. -/
def numberValue (neg : Bool) (int : Str) (frac : Option Str) (exp : Option (Bool × Str)) :
    Option Json :=
  match frac, exp with
  | none, none =>
    if int.length ≤ maxIntDigits then
      some (.int (if neg then -(digitsVal int : Int) else digitsVal int))
    else none
  | _, _ =>
    let f := frac.getD []
    let e : Int := match exp with
      | some (true, ds) => -(digitsVal ds : Int)
      | some (false, ds) => digitsVal ds
      | none => 0
    some (.float (Float64.ofDecimal neg (digitsVal (int ++ f)) (e - f.length)))

/-- The sign of a number literal, and what follows it. -/
def scanSign : Str → Bool × Str
  | 45 :: r => (true, r)
  | s => (false, s)

/-- A part of a literal that may be missing. -/
def scanOptional {A : Type} (scan : Str → Option (A × Str)) (s : Str) : Option A × Str :=
  match scan s with
  | some (a, r) => (some a, r)
  | none => (none, s)

/-- A number literal. -/
def scanNumber (s : Str) : Option (Json × Str) := do
  let (neg, s) := scanSign s
  let (int, s) ← scanInt s
  let (frac, s) := scanOptional scanFrac s
  let (exp, s) := scanOptional scanExp s
  let j ← numberValue neg int frac exp
  return (j, s)

/-- What follows a fixed word, when the text starts with it. -/
def dropWord : Str → Str → Option Str
  | [], s => some s
  | w :: ws, c :: s => if c = w then dropWord ws s else none
  | _ :: _, [] => none

/-- The words that stand for a value. -/
def words (constants : Bool) : List (Str × Json) :=
  [(lit "null", .null), (lit "true", .bool true), (lit "false", .bool false)] ++
    if constants then
      [(lit "NaN", .float .nan), (lit "Infinity", .float (.inf false)),
        (lit "-Infinity", .float (.inf true))]
    else []

/-- A fixed word standing for a value. -/
def scanWord (constants : Bool) (s : Str) : Option (Json × Str) :=
  (words constants).findSome? fun p => (dropWord p.1 s).map fun r => (p.2, r)

mutual

/-- A value at the start of a text, and what follows it. -/
def scanValue (constants : Bool) : Nat → Str → Option (Json × Str)
  | 0, _ => none
  | _ + 1, [] => none
  | n + 1, c :: s =>
    if c = 34 then do
      let (t, r) ← scanString s
      return (.str t, r)
    else if c = 91 then
      match skipWs s with
      | 93 :: r => some (.arr [], r)
      | s => do
        let (xs, r) ← scanItems constants n s
        return (.arr xs, r)
    else if c = 123 then
      match skipWs s with
      | 125 :: r => some (.obj [], r)
      | s => do
        let (ms, r) ← scanMembers constants n s
        return (.obj ms, r)
    else
      match scanWord constants (c :: s) with
      | some p => some p
      | none => scanNumber (c :: s)

/-- The items of an array after its bracket, up to and including the closing
    one. There is at least one item. -/
def scanItems (constants : Bool) : Nat → Str → Option (List Json × Str)
  | 0, _ => none
  | n + 1, s => do
    let (x, r) ← scanValue constants n s
    match skipWs r with
    | 93 :: r => some ([x], r)
    | 44 :: r => do
      let (xs, r) ← scanItems constants n (skipWs r)
      return (x :: xs, r)
    | _ => none

/-- The members of an object after its brace, up to and including the closing
    one. There is at least one member. -/
def scanMembers (constants : Bool) : Nat → Str → Option (List (Str × Json) × Str)
  | 0, _ => none
  | n + 1, 34 :: s => do
    let (k, r) ← scanString s
    match skipWs r with
    | 58 :: r => do
      let (v, r) ← scanValue constants n (skipWs r)
      match skipWs r with
      | 125 :: r => some ([(k, v)], r)
      | 44 :: r => do
        let (ms, r) ← scanMembers constants n (skipWs r)
        return ((k, v) :: ms, r)
      | _ => none
    | _ => none
  | _ + 1, _ => none

end

/-- A whole text as one value. Repeated keys are kept. -/
def parse (constants : Bool) (s : Str) : Option Json :=
  match scanValue constants (s.length + 1) (skipWs s) with
  | some (j, r) => if skipWs r = [] then some j else none
  | none => none

mutual

/-- Building dictionaries: the last of a repeated key wins, at the place of the
    first. -/
def Json.merge : Json → Json
  | .arr xs => .arr (Json.mergeItems xs)
  | .obj ms => .obj (Json.mergeMembers [] ms)
  | j => j
termination_by structural j => j

def Json.mergeItems : List Json → List Json
  | [] => []
  | x :: xs => Json.merge x :: Json.mergeItems xs
termination_by structural xs => xs

def Json.mergeMembers (built : List (Str × Json)) : List (Str × Json) → List (Str × Json)
  | [] => built
  | (k, v) :: ms => Json.mergeMembers (Json.insert k (Json.merge v) built) ms
termination_by structural ms => ms

end

/-- `json.loads` on text. -/
def loads (s : Str) : Option Json := (parse true s).map Json.merge

inductive Encoding where
  | utf8
  | utf8Sig
  | utf16 (big : Bool)
  | utf32 (big : Bool)

/-- The encoding `json.loads` takes a byte string to be in, and the octets that
    remain once a byte order mark is dropped. -/
def detectEncoding (s : Bytes) : Encoding × Bytes :=
  if [0x00, 0x00, 0xFE, 0xFF] <+: s then (.utf32 true, s.drop 4)
  else if [0xFF, 0xFE, 0x00, 0x00] <+: s then (.utf32 false, s.drop 4)
  else if [0xFE, 0xFF] <+: s then (.utf16 true, s.drop 2)
  else if [0xFF, 0xFE] <+: s then (.utf16 false, s.drop 2)
  else if [0xEF, 0xBB, 0xBF] <+: s then (.utf8Sig, s.drop 3)
  else
    match s with
    | a :: b :: c :: d :: _ =>
      if a = 0 then (if b = 0 then .utf32 true else .utf16 true, s)
      else if b = 0 then (if c = 0 ∧ d = 0 then .utf32 false else .utf16 false, s)
      else (.utf8, s)
    | [a, b] => (if a = 0 then .utf16 true else if b = 0 then .utf16 false else .utf8, s)
    | _ => (.utf8, s)

/-- The code units of a UTF-16 octet string. -/
def units16 (big : Bool) : Bytes → Option (List Nat)
  | [] => some []
  | a :: b :: r => do
    let us ← units16 big r
    return (if big then a.toNat * 256 + b.toNat else b.toNat * 256 + a.toNat) :: us
  | _ => none

/-- Joining surrogate pairs. A surrogate without its other half is kept. -/
def joinUtf16 : List Nat → Str
  | h :: l :: us =>
    if isHigh h && isLow l then (0x10000 + (h - 0xD800) * 1024 + (l - 0xDC00)) :: joinUtf16 us
    else h :: joinUtf16 (l :: us)
  | us => us

/-- The code points of a UTF-32 octet string. -/
def units32 (big : Bool) : Bytes → Option Str
  | [] => some []
  | a :: b :: c :: d :: r => do
    let us ← units32 big r
    let c := if big then ((a.toNat * 256 + b.toNat) * 256 + c.toNat) * 256 + d.toNat
      else ((d.toNat * 256 + c.toNat) * 256 + b.toNat) * 256 + a.toNat
    if c < 0x110000 then some (c :: us) else none
  | _ => none

/-- The text of a byte string given to `json.loads`. -/
def decodeJson (b : Bytes) : Option Str :=
  match detectEncoding b with
  | (.utf8, b) => decode true b
  | (.utf8Sig, b) => decode true b
  | (.utf16 big, b) => (units16 big b).map joinUtf16
  | (.utf32 big, b) => units32 big b

/-- `json.loads` on bytes. -/
def loadsBytes (b : Bytes) : Option Json := (decodeJson b).bind loads

/-- The hexadecimal digit of a number below 16. -/
def hexDigit (n : Nat) : Nat := if n < 10 then 48 + n else 87 + n

/-- How a character is written inside a string literal. -/
def escapeChar (c : Nat) : Str :=
  if c = 34 then [92, 34]
  else if c = 92 then [92, 92]
  else if c = 10 then [92, 110]
  else if c = 13 then [92, 114]
  else if c = 9 then [92, 116]
  else if c = 12 then [92, 102]
  else if c = 8 then [92, 98]
  else if c < 32 then [92, 117, 48, 48, hexDigit (c / 16), hexDigit (c % 16)]
  else [c]

def dumpsString (s : Str) : Str := 34 :: s.flatMap escapeChar ++ [34]

def dumpsInt (n : Int) : Option Str :=
  if (natText n.natAbs).length ≤ maxIntDigits then
    some ((if n < 0 then [45] else []) ++ natText n.natAbs)
  else none

/-- `float.__repr__`: the first of the candidate decimals that reads back. -/
def reprFloat : Float64 → Option Str
  | .finite neg m e =>
    let candidates :=
      if m = 0 then [lit (if neg then "-0.0" else "0.0")]
      else (Float64.reprDigits m e).map fun c => decimalText neg c.1 c.2
    candidates.find? fun t => scanNumber t == some (.float (.finite neg m e), [])
  | _ => none

mutual

/-- `json.dumps` with `ensure_ascii=False`, `allow_nan=False` and compact
    separators. -/
def dumps : Json → Option Str
  | .null => some (lit "null")
  | .bool b => some (lit (if b then "true" else "false"))
  | .int n => dumpsInt n
  | .float x => reprFloat x
  | .str s => some (dumpsString s)
  | .arr xs => do
    let t ← dumpsItems xs
    return 91 :: t ++ [93]
  | .obj ms => do
    let t ← dumpsMembers ms
    return 123 :: t ++ [125]
termination_by structural j => j

def dumpsItems : List Json → Option Str
  | [] => some []
  | x :: xs => do
    let t ← dumps x
    let u ← dumpsItems xs
    return t ++ (if xs = [] then [] else [44]) ++ u
termination_by structural xs => xs

def dumpsMembers : List (Str × Json) → Option Str
  | [] => some []
  | (k, v) :: ms => do
    let t ← dumps v
    let u ← dumpsMembers ms
    return dumpsString k ++ 58 :: t ++ (if ms = [] then [] else [44]) ++ u
termination_by structural ms => ms

end

end Py
