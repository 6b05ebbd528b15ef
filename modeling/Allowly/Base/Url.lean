import Allowly.Base.JsonText
import Mathlib.Data.List.TakeWhile

/-!
# URLs

The parts of `urllib.parse` and `ipaddress` the program uses.

`urlsplit` drops leading control characters and every tab and line break, splits
off the scheme at the first colon, and the network location at the next slash,
question mark or hash. It refuses unbalanced brackets and a bracketed host that is
not an address. Of the addresses it accepts in brackets only the future form
`v1.x` is given a host name here; the name of an IPv6 address contains a colon, and
a caller that does not accept one need not know more. The check of the location
under compatibility normalisation is left out in the same way: it concerns
characters outside ASCII, which no caller accepts in a host, a port or a user.

`unquote` decodes each run of ASCII characters on its own, so that what was decoded
before stays as it is.

## Main definitions

* `partition`, `rpartition`, `splitChar`: Splitting text at a character.
* `SplitResult`, `urlsplit`: The five parts of a URL.
* `SplitResult.hostname`, `SplitResult.port`, `SplitResult.username`: Parts of the location.
* `isIpv4`: The addresses `ip_address` accepts without a colon.
* `unquote`, `quote`: Percent encoding.

## Theorems

* `urlsplit_origin`, `hostname_origin`: The host of an origin.
-/

namespace Py

/-- The text before the first `c`, and the text after it if there is one. -/
def partition (c : Nat) : Str → Str × Option Str
  | [] => ([], none)
  | d :: s =>
    if d = c then ([], some s)
    else
      let (a, b) := partition c s
      (d :: a, b)

/-- The text before the last `c` if there is one, and the text after it. -/
def rpartition (c : Nat) (s : Str) : Option Str × Str :=
  match partition c s.reverse with
  | (a, some b) => (some b.reverse, a.reverse)
  | (a, none) => (none, a.reverse)

/-- The fields of a text between the occurrences of `c`. -/
def splitChar (c : Nat) : Str → List Str
  | [] => [[]]
  | d :: s =>
    if d = c then [] :: splitChar c s
    else
      match splitChar c s with
      | [] => [[d]]
      | field :: fields => (d :: field) :: fields

def startsWith (w s : Str) : Bool := (dropWord w s).isSome

/-- How the letters of a text are turned to lower case. Text outside ASCII is left
    to a parameter. -/
def lower (other : Str → Str) (s : Str) : Str :=
  if s.all (· < 128) then s.map fun c => if isUpper c then c + 32 else c else other s

def upper (other : Str → Str) (s : Str) : Str :=
  if s.all (· < 128) then s.map fun c => if isLower c then c - 32 else c else other s

structure SplitResult where
  scheme : Str
  netloc : Str
  path : Str
  query : Str
  fragment : Str
  deriving DecidableEq

/-- The characters a scheme is made of. -/
def isSchemeChar (c : Nat) : Bool := isAlnum c || c == 43 || c == 45 || c == 46

/-- The scheme of a URL, when it has one, and what follows the colon. -/
def splitScheme (url : Str) : Str × Str :=
  match partition 58 url with
  | (scheme, some r) =>
    match scheme with
    | c :: _ =>
      if (isUpper c || isLower c) && scheme.all isSchemeChar then (lower id scheme, r) else ([], url)
    | [] => ([], url)
  | (_, none) => ([], url)

/-- The network location after two slashes, and what follows it. -/
def splitNetloc (url : Str) : Str × Str :=
  match url with
  | 47 :: 47 :: r =>
    let stop (c : Nat) : Bool := c == 47 || c == 63 || c == 35
    (r.takeWhile (!stop ·), r.dropWhile (!stop ·))
  | _ => ([], url)

/-- The host between brackets must be an address of a future version, or an
    IPv6 address, which is not told apart from other text here. -/
def isFutureAddress (host : Str) : Bool :=
  match host with
  | 118 :: r =>
    match partition 46 r with
    | (v, some (_ :: _)) => v != [] && v.all fun c => (hexVal c).isSome
    | _ => false
  | _ => false

/-- Is the network location one `urlsplit` refuses because of its brackets? -/
def badBrackets (netloc : Str) : Bool :=
  if netloc.contains 91 != netloc.contains 93 then true
  else if netloc.contains 91 then
    match partition 91 (rpartition 64 netloc).2 with
    | (before, some bracketed) =>
      let (host, port) := partition 93 bracketed
      let port := port.getD []
      before != [] || (port != [] && port.head? != some 58)
        || !(isFutureAddress host || host.contains 58)
    | (_, none) => true
  else false

/-- `urlsplit`, which raises on misplaced brackets. -/
def urlsplit (url : Str) : Option SplitResult :=
  let url := url.dropWhile (· ≤ 32)
  let url := url.filter fun c => c != 9 && c != 13 && c != 10
  let (scheme, url) := splitScheme url
  let (netloc, url) := splitNetloc url
  if badBrackets netloc then none
  else
    let (url, fragment) := partition 35 url
    let (path, query) := partition 63 url
    some { scheme, netloc, path, query := query.getD [], fragment := fragment.getD [] }

namespace SplitResult

/-- The host and the port as they are written. -/
def hostinfo (u : SplitResult) : Str × Str :=
  let info := (rpartition 64 u.netloc).2
  match partition 91 info with
  | (_, some bracketed) =>
    let (host, port) := partition 93 bracketed
    (host, (partition 58 (port.getD [])).2.getD [])
  | (_, none) =>
    let (host, port) := partition 58 info
    (host, port.getD [])

/-- The host in lower case. What follows a percent sign is left alone. -/
def hostname (other : Str → Str) (u : SplitResult) : Str :=
  let (host, zone) := partition 37 u.hostinfo.1
  lower other host ++ match zone with
    | some z => 37 :: z
    | none => []

/-- The port, which must be a number, if one is given. -/
def port (u : SplitResult) : Option (Option Nat) :=
  let port := u.hostinfo.2
  if port = [] then some none
  else if port.all isDigit && digitsVal port ≤ 65535 then some (some (digitsVal port))
  else none

/-- The user, if the location names one. -/
def username (u : SplitResult) : Option Str :=
  (rpartition 64 u.netloc).1.map fun info => (partition 58 info).1

end SplitResult

/-- A part of an IPv4 address. -/
def isOctet (s : Str) : Bool :=
  s != [] && s.all isDigit && s.length ≤ 3 && (s == [48] || s.head? != some 48)
    && digitsVal s ≤ 255

/-- Is the text an address in the dotted notation? -/
def isIpv4 (s : Str) : Bool :=
  let parts := splitChar 46 s
  parts.length == 4 && parts.all isOctet

/-- The octets percent-encoded ASCII text stands for. -/
def unquoteBytes : Str → Bytes
  | [] => []
  | 37 :: a :: b :: s =>
    match hexVal a, hexVal b with
    | some x, some y => UInt8.ofNat (x * 16 + y) :: unquoteBytes s
    | _, _ => 37 :: unquoteBytes (a :: b :: s)
  | c :: s => UInt8.ofNat c :: unquoteBytes s

/-- `unquote(s, errors="strict")`, which raises where the octets are not UTF-8. -/
def unquote (s : Str) : Option Str :=
  if s.contains 37 then
    let runs := s.splitBy fun a b => (a < 128) == (b < 128)
    (runs.mapM fun (r : Str) => if r.all (· < 128) then decode false (unquoteBytes r) else some r).map
      List.flatten
  else some s

/-- The characters `quote` leaves alone. -/
def isUnreserved (c : Nat) : Bool := isAlnum c || c == 95 || c == 46 || c == 45 || c == 126

/-- An octet as `quote` writes it. -/
def quoteByte (b : UInt8) : Str :=
  if isUnreserved b.toNat then [b.toNat]
  else
    let digit (n : Nat) : Nat := if n < 10 then 48 + n else 55 + n
    [37, digit (b.toNat / 16), digit (b.toNat % 16)]

/-- `quote(s, safe="")`, which raises on text that has no UTF-8 form. -/
def quote (s : Str) : Option Str := (encode s).map (List.flatMap quoteByte)

theorem partition_none {c : Nat} {s : Str} (h : c ∉ s) : partition c s = (s, none) := by
  induction s with
  | nil => rfl
  | cons d s ih =>
      rw [List.mem_cons, not_or] at h
      rw [partition, if_neg (Ne.symm h.1), ih h.2]

theorem splitChar_none {c : Nat} {s : Str} (h : c ∉ s) : splitChar c s = [s] := by
  induction s with
  | nil => rfl
  | cons d s ih =>
      rw [List.mem_cons, not_or] at h
      rw [splitChar, if_neg (Ne.symm h.1), ih h.2]

theorem rpartition_none {c : Nat} {s : Str} (h : c ∉ s) : rpartition c s = (none, s) := by
  have hr : c ∉ s.reverse := by rwa [List.mem_reverse]
  simp only [rpartition, partition_none hr, List.reverse_reverse]

/-- A host name of letters in lower case, digits, dots and hyphens. -/
def isDnsChar (c : Nat) : Bool := isLower c || isDigit c || c == 46 || c == 45

theorem isDnsChar_range {c : Nat} (h : isDnsChar c = true) :
    (97 ≤ c ∧ c ≤ 122) ∨ (48 ≤ c ∧ c ≤ 57) ∨ c = 46 ∨ c = 45 := by
  simp only [isDnsChar, isLower, isDigit, Bool.or_eq_true, Bool.and_eq_true, decide_eq_true_eq,
    beq_iff_eq] at h
  omega

/-- The origin of a host name is split into the scheme and the host. -/
theorem urlsplit_origin {host : Str} (h : host.all isDnsChar = true) :
    urlsplit (lit "https://" ++ host) =
      some { scheme := lit "https", netloc := host, path := [], query := [], fragment := [] } := by
  rw [List.all_eq_true] at h
  have hnot : ∀ {c : Nat}, isDnsChar c = false → c ∉ host := by
    intro c hc hmem
    rw [h c hmem] at hc
    cases hc
  have hfilter : host.filter (fun c => c != 9 && c != 13 && c != 10) = host := by
    refine List.filter_eq_self.mpr fun c hc => ?_
    have hrange := isDnsChar_range (h c hc)
    simp only [bne_iff_ne, Bool.and_eq_true, ne_eq]
    omega
  have hstop : ∀ c ∈ host, (!(c == 47 || c == 63 || c == 35)) = true := by
    intro c hc
    have hrange := isDnsChar_range (h c hc)
    simp only [Bool.not_eq_true', Bool.or_eq_false_iff, beq_eq_false_iff_ne]
    omega
  have htake : host.takeWhile (fun c => !(c == 47 || c == 63 || c == 35)) = host :=
    List.takeWhile_eq_self_iff.mpr hstop
  have hdrop : host.dropWhile (fun c => !(c == 47 || c == 63 || c == 35)) = [] :=
    List.dropWhile_eq_nil_iff.mpr hstop
  have hbrackets : badBrackets host = false := by
    have h91 : host.contains 91 = false := by
      rw [List.contains_eq_mem, decide_eq_false_iff_not]
      exact hnot (by decide)
    have h93 : host.contains 93 = false := by
      rw [List.contains_eq_mem, decide_eq_false_iff_not]
      exact hnot (by decide)
    rw [badBrackets, h91, h93]
    rfl
  have hlit : lit "https://" ++ host = 104 :: 116 :: 116 :: 112 :: 115 :: 58 :: 47 :: 47 :: host :=
    rfl
  have hscheme : splitScheme (104 :: 116 :: 116 :: 112 :: 115 :: 58 :: 47 :: 47 :: host) =
      (lit "https", 47 :: 47 :: host) := rfl
  rw [hlit, urlsplit]
  simp only [List.dropWhile_cons, Nat.reduceLeDiff, decide_false, Bool.false_eq_true, if_false,
    List.filter_cons, hfilter, Nat.reduceBNe, Bool.and_self, if_true, hscheme, splitNetloc, htake,
    hdrop, hbrackets, partition, Option.getD_none]

/-- The host of such an origin is the host name. -/
theorem hostname_origin {host : Str} (other : Str → Str) (h : host.all isDnsChar = true) :
    SplitResult.hostname other
      { scheme := lit "https", netloc := host, path := [], query := [], fragment := [] } = host := by
  rw [List.all_eq_true] at h
  have hnot : ∀ {c : Nat}, isDnsChar c = false → c ∉ host := by
    intro c hc hmem
    rw [h c hmem] at hc
    cases hc
  have hinfo : SplitResult.hostinfo
      { scheme := lit "https", netloc := host, path := [], query := [], fragment := [] } =
      (host, []) := by
    simp only [SplitResult.hostinfo, rpartition_none (hnot (c := 64) (by decide)),
      partition_none (hnot (c := 91) (by decide)), partition_none (hnot (c := 58) (by decide)),
      Option.getD_none]
  have hascii : host.all (· < 128) = true := by
    refine List.all_eq_true.mpr fun c hc => ?_
    have hrange := isDnsChar_range (h c hc)
    rw [decide_eq_true_eq]
    omega
  have hlower : host.map (fun c => if isUpper c then c + 32 else c) = host := by
    refine (List.map_congr_left fun c hc => ?_).trans (List.map_id host)
    have hrange := isDnsChar_range (h c hc)
    have hupper : isUpper c = false := by
      simp only [isUpper, Bool.and_eq_false_iff, decide_eq_false_iff_not]
      omega
    rw [hupper]
    rfl
  simp only [SplitResult.hostname, hinfo, partition_none (hnot (c := 37) (by decide)), lower, hascii,
    if_true, hlower, List.append_nil]

example : urlsplit (lit "HTTPS://api.example.com:443/v1/a%20b?x=1#y")
    = some { scheme := lit "https", netloc := lit "api.example.com:443", path := lit "/v1/a%20b"
             query := lit "x=1", fragment := lit "y" } := by
  decide +kernel

end Py
