import Allowly.Base.Url

/-!
# Query Strings

`parse_qsl` and `urlencode` of `urllib.parse`, and the parts of `urlparse` that
`urlsplit` leaves open.

A query is decoded with the error handler `replace`: where the octets are not UTF-8,
each longest part that begins a character stands as one U+FFFD.

## Main definitions

* `decodeReplace`: Reading octets as UTF-8, with replacement characters.
* `unquotePlus`, `quotePlus`: Percent encoding where a plus is a space.
* `parseQsl`: The names and values of a query.
* `urlencode`: The query of one name and its value.
* `splitParams`: A path without the parameters of its last segment.
-/

namespace Py

/-- Can this octet follow the first one of a character? -/
def isSecond (b0 b1 : UInt8) : Bool :=
  let low : Nat := if b0.toNat = 0xE0 then 0xA0 else if b0.toNat = 0xF0 then 0x90 else 0x80
  let high : Nat := if b0.toNat = 0xED then 0xA0 else if b0.toNat = 0xF4 then 0x90 else 0xC0
  low ≤ b1.toNat && b1.toNat < high

/-- The number of octets that stand as one replacement character. -/
def faultLength : Bytes → Nat
  | b0 :: b1 :: r =>
    if b0.toNat < 0xE0 ∨ 0xF5 ≤ b0.toNat ∨ isSecond b0 b1 = false then 1
    else if b0.toNat < 0xF0 then 2
    else
      match r with
      | b2 :: _ => if 0x80 ≤ b2.toNat ∧ b2.toNat < 0xC0 then 3 else 2
      | [] => 2
  | _ => 1

/-- Reading characters until none is left. The count bounds the characters. -/
def decodeReplaceUpTo : Nat → Bytes → Str
  | _, [] => []
  | 0, _ => []
  | n + 1, b =>
    match decodeChar false b with
    | some (c, r) => c :: decodeReplaceUpTo n r
    | none => 0xFFFD :: decodeReplaceUpTo n (b.drop (faultLength b))

/-- `bytes.decode("utf-8", "replace")`. -/
def decodeReplace (b : Bytes) : Str := decodeReplaceUpTo b.length b

/-- `unquote(s.replace("+", " "))`. -/
def unquotePlus (s : Str) : Str :=
  let s := s.map fun c => if c = 43 then 32 else c
  if s.contains 37 then
    let runs := s.splitBy fun a b => (a < 128) == (b < 128)
    runs.flatMap fun r => if r.all (· < 128) then decodeReplace (unquoteBytes r) else r
  else s

/-- `quote_plus`. -/
def quotePlus (s : Str) : Option Str :=
  (encode s).map (List.flatMap fun b => if b.toNat = 32 then [43] else quoteByte b)

/-- `parse_qsl(query, keep_blank_values=True)`. -/
def parseQsl (query : Str) : List (Str × Str) :=
  ((splitChar 38 query).filter (· ≠ [])).map fun item =>
    let (name, value) := partition 61 item
    (unquotePlus name, unquotePlus (value.getD []))

/-- `urlencode` of one name with its value. -/
def urlencode (name value : Str) : Option Str := do
  let name ← quotePlus name
  let value ← quotePlus value
  return name ++ 61 :: value

/-- `_splitparams`: the path `urlparse` gives. -/
def splitParams (path : Str) : Str :=
  match rpartition 47 path with
  | (some before, last) => before ++ 47 :: (partition 59 last).1
  | (none, last) => (partition 59 last).1

example : parseQsl (lit "a=1&b=%41%ff+%E2%82&&c") =
    [(lit "a", lit "1"), (lit "b", [65, 0xFFFD, 32, 0xFFFD]), (lit "c", [])] := by
  decide +kernel

end Py
