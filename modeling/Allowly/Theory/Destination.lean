import Allowly.Theory.Descriptor
import Mathlib.Data.List.SplitBy

/-!
# Where a Request May Go

A path is checked after four rounds of decoding only. That is enough for any number of
rounds: decoding leaves alone every character that no escape is made of, so a slash or a
control character that shows up in an early round is still there in the fourth, and what has
no percent sign is not changed any more.

A host is checked by its characters, by its dots and as a dotted quad. The resolver takes
more texts for addresses: fewer parts, and parts in octal or in hexadecimal.

## Main definitions

* `unquoteTimes`: Decoding a number of times.
* `Harmless`: What no segment may stop being.
* `inetAton`, `isIpv6`: The texts that stand for addresses.
* `Shorthand`: The addresses that are no dotted quads.

## Theorems

* `mem_unquote`: Characters no escape is made of stay.
* `path_harmless`: No accepted path hides a traversal.
* `literal_iff`: The accepted hosts that are addresses.
-/

namespace Allowly

open Py

variable {L : Libs}

/-! ### Decoding -/

/-- An octet of ASCII in the encoding of a character is the character. -/
theorem eq_of_mem_encodeChar {c : Nat} {e : Bytes} (h : encodeChar c = some e) {x : UInt8}
    (hx : x ∈ e) (hlt : x.toNat < 128) : c = x.toNat := by
  unfold encodeChar at h
  split at h
  · next hc =>
      cases h
      rw [List.mem_singleton.mp hx, toNat_ofNat_lt (by omega)]
  split at h
  · next hc _ =>
      cases h
      simp only [List.mem_cons, List.not_mem_nil, or_false] at hx
      rcases hx with rfl | rfl
      · rw [toNat_ofNat_lt (by omega)] at hlt
        omega
      · rw [toNat_ofNat_lt (by omega)] at hlt
        omega
  split at h
  · split at h
    · cases h
    · cases h
      simp only [List.mem_cons, List.not_mem_nil, or_false] at hx
      rcases hx with rfl | rfl | rfl
      · rw [toNat_ofNat_lt (by omega)] at hlt
        omega
      · rw [toNat_ofNat_lt (by omega)] at hlt
        omega
      · rw [toNat_ofNat_lt (by omega)] at hlt
        omega
  split at h
  · cases h
    simp only [List.mem_cons, List.not_mem_nil, or_false] at hx
    rcases hx with rfl | rfl | rfl | rfl
    · rw [toNat_ofNat_lt (by omega)] at hlt
      omega
    · rw [toNat_ofNat_lt (by omega)] at hlt
      omega
    · rw [toNat_ofNat_lt (by omega)] at hlt
      omega
    · rw [toNat_ofNat_lt (by omega)] at hlt
      omega
  · cases h

theorem mem_of_mem_encode {s : Str} {b : Bytes} (h : encode s = some b) {x : UInt8} (hx : x ∈ b)
    (hlt : x.toNat < 128) : x.toNat ∈ s := by
  induction s generalizing b with
  | nil =>
      cases h
      exact absurd hx List.not_mem_nil
  | cons c s ih =>
      simp only [encode, Option.bind_eq_bind, Option.bind_eq_some_iff, Option.pure_def,
        Option.some.injEq] at h
      rcases h with ⟨e, he, t, ht, rfl⟩
      rcases List.mem_append.mp hx with hx | hx
      · rw [← eq_of_mem_encodeChar he hx hlt]
        exact List.mem_cons_self
      · exact List.mem_cons_of_mem _ (ih ht hx)

/-- A character that is neither the sign of an escape nor a digit of one. -/
def IsInert (c : Nat) : Prop := c < 128 ∧ c ≠ 37 ∧ hexVal c = none

theorem mem_unquoteBytes {c : Nat} (hc : IsInert c) (s : Str) (h : c ∈ s) :
    UInt8.ofNat c ∈ unquoteBytes s := by
  induction s using unquoteBytes.induct with
  | case1 => exact absurd h List.not_mem_nil
  | case2 a b s x y hx hy ih =>
      rw [unquoteBytes, hx, hy]
      simp only [List.mem_cons] at h ⊢
      rcases h with rfl | rfl | rfl | h
      · exact absurd rfl hc.2.1
      · rw [hc.2.2] at hy
        cases hy
      · rw [hc.2.2] at hx
        cases hx
      · exact Or.inr (ih h)
  | case3 a b s hbad ih =>
      have heq : unquoteBytes (37 :: a :: b :: s) = 37 :: unquoteBytes (a :: b :: s) := by
        rw [unquoteBytes]
        split
        · next x y hx hy => exact absurd hy (hbad x y hx)
        · rfl
      rw [heq]
      rcases List.mem_cons.mp h with rfl | h
      · exact absurd rfl hc.2.1
      · exact List.mem_cons_of_mem _ (ih h)
  | case4 d s hshort ih =>
      rw [unquoteBytes.eq_3 d s hshort]
      rcases List.mem_cons.mp h with rfl | h
      · exact List.mem_cons_self
      · exact List.mem_cons_of_mem _ (ih h)

theorem mem_flatten_of_mapM {A B : Type} {f : A → Option (List B)} {xs : List A} {ys : List (List B)}
    (h : xs.mapM f = some ys) {a : A} (ha : a ∈ xs) : ∃ y, f a = some y ∧ ∀ b ∈ y, b ∈ ys.flatten := by
  induction xs generalizing ys with
  | nil => exact absurd ha List.not_mem_nil
  | cons x xs ih =>
      simp only [List.mapM_cons, Option.bind_eq_bind, Option.bind_eq_some_iff, Option.pure_def,
        Option.some.injEq] at h
      rcases h with ⟨y, hy, ys, hys, rfl⟩
      rcases List.mem_cons.mp ha with rfl | ha
      · exact ⟨y, hy, fun b hb => List.mem_append.mpr (Or.inl hb)⟩
      · rcases ih hys ha with ⟨z, hz, hmem⟩
        exact ⟨z, hz, fun b hb => List.mem_append.mpr (Or.inr (hmem b hb))⟩

/-- Characters no escape is made of stay. -/
theorem mem_unquote {c : Nat} (hc : IsInert c) {s t : Str} (h : unquote s = some t) (hs : c ∈ s) :
    c ∈ t := by
  unfold unquote at h
  by_cases hp : s.contains 37 = true
  · rw [if_pos hp] at h
    simp only [Option.map_eq_some_iff] at h
    rcases h with ⟨parts, hparts, rfl⟩
    have hflat := List.flatten_splitBy (fun a b : Nat => (a < 128 : Bool) == (b < 128 : Bool)) s
    rw [← hflat] at hs
    rcases List.mem_flatten.mp hs with ⟨run, hrun, hcrun⟩
    rcases mem_flatten_of_mapM hparts hrun with ⟨y, hy, hmem⟩
    refine hmem c ?_
    by_cases hascii : (run.all fun c => c < 128) = true
    · rw [if_pos hascii] at hy
      have hbyte := mem_unquoteBytes hc run hcrun
      have hnat : (UInt8.ofNat c).toNat = c := toNat_ofNat_lt (by have := hc.1; omega)
      have hres := mem_of_mem_encode (encode_of_decode _ _ hy) hbyte (by rw [hnat]; exact hc.1)
      rwa [hnat] at hres
    · rw [if_neg hascii, Option.some.injEq] at hy
      rw [← hy]
      exact hcrun
  · rw [if_neg hp, Option.some.injEq] at h
    rw [← h]
    exact hs

theorem unquote_plain {s : Str} (h : 37 ∉ s) : unquote s = some s := by
  rw [unquote, if_neg]
  rw [List.contains_eq_mem, decide_eq_true_eq]
  exact h

/-- Decoding a number of times. -/
def unquoteTimes : Nat → Str → Option Str
  | 0, s => some s
  | n + 1, s => (unquoteTimes n s).bind unquote

theorem unquoteTimes_add (m n : Nat) (s : Str) :
    unquoteTimes (m + n) s = (unquoteTimes m s).bind (unquoteTimes n) := by
  induction n with
  | zero =>
      change unquoteTimes m s = (unquoteTimes m s).bind (unquoteTimes 0)
      cases unquoteTimes m s with
      | none => rfl
      | some t => rfl
  | succ n ih =>
      rw [← Nat.add_assoc, unquoteTimes, ih, Option.bind_assoc]
      rfl

theorem mem_unquoteTimes {c : Nat} (hc : IsInert c) {n : Nat} {s t : Str}
    (h : unquoteTimes n s = some t) (hs : c ∈ s) : c ∈ t := by
  induction n generalizing t with
  | zero =>
      cases h
      exact hs
  | succ n ih =>
      rcases Option.bind_eq_some_iff.mp h with ⟨u, hu, ht⟩
      exact mem_unquote hc ht (ih hu)

theorem unquoteTimes_plain {s : Str} (h : 37 ∉ s) (n : Nat) : unquoteTimes n s = some s := by
  induction n with
  | zero => rfl
  | succ n ih => rw [unquoteTimes, ih, Option.bind_some, unquote_plain h]

theorem unquoteFour_eq (s : Str) : unquoteFour s = unquoteTimes 4 s := by
  simp only [unquoteFour, unquoteTimes, Option.bind_eq_bind, Option.bind_assoc, Option.bind_some]

/-- No dots that name another segment, no separator and no control character. -/
structure Harmless (s : Str) : Prop where
  dot : s ≠ lit "."
  dots : s ≠ lit ".."
  slash : 47 ∉ s
  backslash : 92 ∉ s
  control : ∀ c ∈ s, 32 ≤ c ∧ c ≠ 127

theorem not_ambiguous {s : Str} (h : ambiguousSegment s = false) : Harmless s ∧ 37 ∉ s := by
  simp only [ambiguousSegment, Bool.or_eq_false_iff, beq_eq_false_iff_ne, List.any_eq_false,
    List.contains_eq_mem, decide_eq_false_iff_not, Bool.or_eq_true, beq_iff_eq, decide_eq_true_eq,
    not_or] at h
  rcases h with ⟨⟨⟨⟨hdot, hdots⟩, hseparator⟩, hpercent⟩, hcontrol⟩
  refine ⟨⟨hdot, hdots, ?_, ?_, ?_⟩, hpercent⟩
  · intro hmem
    exact (hseparator 47 hmem).1 rfl
  · intro hmem
    exact (hseparator 92 hmem).2 rfl
  · intro c hc
    have hrange := hcontrol c hc
    omega

/-- What is harmless after some rounds was harmless before them. -/
theorem harmless_before {n : Nat} {s t : Str} (h : unquoteTimes n s = some t) (ht : Harmless t) :
    Harmless s := by
  have hstay {c : Nat} (hc : IsInert c) (hs : c ∈ s) : c ∈ t := mem_unquoteTimes hc h hs
  constructor
  · -- Dots have no percent sign, so decoding leaves them as they are.
    rintro rfl
    rw [unquoteTimes_plain (by decide), Option.some.injEq] at h
    exact ht.dot h.symm
  · rintro rfl
    rw [unquoteTimes_plain (by decide), Option.some.injEq] at h
    exact ht.dots h.symm
  · exact fun hs => ht.slash (hstay ⟨by decide, by decide, rfl⟩ hs)
  · exact fun hs => ht.backslash (hstay ⟨by decide, by decide, rfl⟩ hs)
  · intro c hc
    by_contra hbad
    have hinert : IsInert c := by
      refine ⟨by omega, by omega, ?_⟩
      simp only [hexVal, isDigit, Bool.and_eq_true, decide_eq_true_eq]
      rw [if_neg (by omega), if_neg (by omega), if_neg (by omega)]
    have hmem := ht.control c (hstay hinert hc)
    omega

theorem segment_of_checked {segments : List Str} (h : checkSegments segments = .ok ())
    {s : Str} (hs : s ∈ segments) : ∃ t, unquoteTimes 4 s = some t ∧ ambiguousSegment t = false := by
  induction segments with
  | nil => exact absurd hs List.not_mem_nil
  | cons x segments ih =>
      rw [checkSegments] at h
      split at h
      · cases h
      · next decoded hdecoded =>
          rcases of_ite_error h with ⟨hgood, h⟩
          rcases List.mem_cons.mp hs with rfl | hs
          · exact ⟨decoded, (unquoteFour_eq s).symm.trans hdecoded, Bool.eq_false_of_not_eq_true hgood⟩
          · exact ih h hs

/-- An accepted URL was checked segment by segment, and its host is a destination. -/
theorem checked_of_ok {a : HttpArgs} {d : Descriptor} {normalized : List (Str × Str)}
    (h : a.request L = .ok (d, normalized)) :
    checkSegments (splitChar 47 d.path) = .ok () ∧
      ∃ u host, urlsplit a.url = some u ∧ destination L u = .ok host := by
  unfold HttpArgs.request Allowly.request at h
  rcases of_ite_error h with ⟨_, h⟩
  split at h
  · cases h
  · next u hu =>
      rcases bind_eq_ok.mp h with ⟨host, hhost, hk⟩
      rcases of_ite_error hk with ⟨_, hk⟩
      rcases of_ite_error hk with ⟨_, hk⟩
      rcases bind_eq_ok.mp hk with ⟨⟨⟩, hsegments, hk⟩
      rcases bind_eq_ok.mp hk with ⟨normalized, hnormal, hk⟩
      rcases of_ite_error hk with ⟨_, hk⟩
      split at hk
      · cases hk
      · rcases of_ite_error hk with ⟨_, hk⟩
        cases hk
        exact ⟨hsegments, u, host, hu, hhost⟩

/-- No accepted path hides a traversal, however often it is decoded, and four rounds
    decode it completely. -/
theorem path_harmless (L : Libs) (a : HttpArgs) (d : Descriptor) (normalized : List (Str × Str))
    (h : a.request L = .ok (d, normalized)) (s : Str) (hs : s ∈ splitChar 47 d.path) (n : Nat) :
    ∃ t, unquoteTimes n s = some t ∧ Harmless t ∧
      (4 ≤ n → unquoteTimes n s = unquoteTimes 4 s) := by
  rcases segment_of_checked (checked_of_ok h).1 hs with ⟨t, ht, hclear⟩
  rcases not_ambiguous hclear with ⟨hharmless, hpercent⟩
  by_cases hn : 4 ≤ n
  · have hsplit : unquoteTimes n s = some t := by
      rw [← Nat.add_sub_cancel' hn, unquoteTimes_add, ht, Option.bind_some,
        unquoteTimes_plain hpercent]
    exact ⟨t, hsplit, hharmless, fun _ => hsplit.trans ht.symm⟩
  · -- The fourth round begins where an earlier one ended.
    have hsplit := ht
    rw [show 4 = n + (4 - n) by omega, unquoteTimes_add] at hsplit
    rcases Option.bind_eq_some_iff.mp hsplit with ⟨u, hu, hrest⟩
    exact ⟨u, hu, harmless_before hrest hharmless, fun hle => absurd hle hn⟩

theorem path_harmless_sample :
    ∃ t, unquoteTimes 7 (lit "pay") = some t ∧ Harmless t ∧
      (4 ≤ 7 → unquoteTimes 7 (lit "pay") = unquoteTimes 4 (lit "pay")) :=
  path_harmless sampleLibs plainHttp modeDescriptor [(lit "x-mode", lit "1")]
    (ok_of_toOption (by decide +kernel)) (lit "pay") (by decide) 7

/-! ### Addresses -/

/-- The value of digits in a base. -/
def baseVal (base : Nat) (digit : Nat → Option Nat) (ds : Str) : Option Nat :=
  ds.foldl (fun n d => n.bind fun n => (digit d).map fun v => n * base + v) (some 0)

/-- A part of an address as the resolver reads it: octal after a zero, hexadecimal after
    a zero and an x, and decimal otherwise. -/
def inetNumber (s : Str) : Option Nat :=
  match s with
  | [] => none
  | 48 :: 120 :: ds => if ds = [] then none else baseVal 16 hexVal ds
  | 48 :: ds => baseVal 8 (fun c => if 48 ≤ c ∧ c ≤ 55 then some (c - 48) else none) ds
  | c :: ds => if (c :: ds).all isDigit then some (digitsVal (c :: ds)) else none

/-- The address that one to four parts stand for, `inet_aton`. The last part fills the
    octets that remain. -/
def inetAton (s : Str) : Option Nat :=
  match (splitChar 46 s).mapM inetNumber with
  | some [p] => if p < 2 ^ 32 then some p else none
  | some [p, q] => if p ≤ 255 ∧ q < 2 ^ 24 then some (p * 2 ^ 24 + q) else none
  | some [p, q, r] =>
    if p ≤ 255 ∧ q ≤ 255 ∧ r < 2 ^ 16 then some (p * 2 ^ 24 + q * 2 ^ 16 + r) else none
  | some [p, q, r, t] =>
    if p ≤ 255 ∧ q ≤ 255 ∧ r ≤ 255 ∧ t ≤ 255 then
      some (p * 2 ^ 24 + q * 2 ^ 16 + r * 2 ^ 8 + t)
    else none
  | _ => none

/-- What every IPv6 literal looks like: at least two colons, and between them nothing,
    groups of up to four hexadecimal digits, or a dotted quad. -/
def isIpv6 (s : Str) : Bool :=
  let fields := splitChar 58 s
  3 ≤ fields.length && fields.all fun f =>
    f.length ≤ 4 && f.all (fun c => (hexVal c).isSome) || isIpv4 f

/-- Is the host an address? -/
def IsLiteral (host : Str) : Prop := (inetAton host).isSome = true ∨ isIpv6 host = true

/-- A part that begins with a zero and goes on. -/
def LedByZero (part : Str) : Prop := 1 < part.length ∧ part.head? = some 48

/-- The addresses in two or three parts, and those in four of which one is not written
    as a plain decimal. -/
def Shorthand (host : Str) : Prop :=
  (∃ p q, (splitChar 46 host).mapM inetNumber = some [p, q] ∧ p ≤ 255 ∧ q < 2 ^ 24) ∨
  (∃ p q r, (splitChar 46 host).mapM inetNumber = some [p, q, r] ∧ p ≤ 255 ∧ q ≤ 255 ∧
    r < 2 ^ 16) ∨
  ∃ p q r t, (splitChar 46 host).mapM inetNumber = some [p, q, r, t] ∧ p ≤ 255 ∧ q ≤ 255 ∧
    r ≤ 255 ∧ t ≤ 255 ∧ ∃ part ∈ splitChar 46 host, LedByZero part

theorem foldl_digits_ge (ds : Str) (n : Nat) :
    n * 10 ^ ds.length ≤ ds.foldl (fun a d => a * 10 + (d - 48)) n := by
  induction ds generalizing n with
  | nil => simp only [List.length_nil, Nat.pow_zero, Nat.mul_one, List.foldl_nil, le_refl]
  | cons d ds ih =>
      rw [List.foldl_cons, List.length_cons, Nat.pow_succ]
      calc n * (10 ^ ds.length * 10) = n * 10 * 10 ^ ds.length := by
            rw [Nat.mul_comm (10 ^ ds.length), Nat.mul_assoc]
        _ ≤ (n * 10 + (d - 48)) * 10 ^ ds.length :=
            Nat.mul_le_mul_right _ (Nat.le_add_right _ _)
        _ ≤ _ := ih _

/-- A plain decimal below 256 has at most three digits. -/
theorem length_of_small {c : Nat} {ds : Str} (hc : isDigit c = true) (hz : c ≠ 48)
    (hv : digitsVal (c :: ds) ≤ 255) : ds.length ≤ 2 := by
  by_contra hlong
  simp only [isDigit, Bool.and_eq_true, decide_eq_true_eq] at hc
  have hge := foldl_digits_ge ds (c - 48)
  have hpow : 10 ^ 3 ≤ 10 ^ ds.length := Nat.pow_le_pow_right (by decide) (by omega)
  have hlead : 1 * 10 ^ ds.length ≤ (c - 48) * 10 ^ ds.length :=
    Nat.mul_le_mul_right _ (by omega)
  have hval : digitsVal (c :: ds) = ds.foldl (fun a d => a * 10 + (d - 48)) (c - 48) := by
    rw [digitsVal, List.foldl_cons, Nat.zero_mul, Nat.zero_add]
  omega

/-- A part that is not led by a zero is one of a dotted quad. -/
theorem isOctet_of_number {part : Str} {v : Nat} (h : inetNumber part = some v) (hv : v ≤ 255)
    (hz : ¬ LedByZero part) : isOctet part = true := by
  rcases part with _ | ⟨c, ds⟩
  · cases h
  by_cases hc : c = 48
  · subst hc
    have hnil : ds = [] := by
      by_contra hne
      refine hz ⟨?_, rfl⟩
      have hpos := List.length_pos_iff.mpr hne
      rw [List.length_cons]
      omega
    rw [hnil]
    rfl
  · have hnumber : (c :: ds).all isDigit = true ∧ digitsVal (c :: ds) = v := by
      unfold inetNumber at h
      split at h
      · cases h
      · next heq => exact absurd (List.cons.inj heq).1 hc
      · next heq => exact absurd (List.cons.inj heq).1 hc
      · next heq =>
          cases heq
          by_cases hall : (c :: ds).all isDigit = true
          · rw [if_pos hall, Option.some.injEq] at h
            exact ⟨hall, h⟩
          · rw [if_neg hall] at h
            cases h
    have hdigit : isDigit c = true := List.all_eq_true.mp hnumber.1 c List.mem_cons_self
    have hshort := length_of_small hdigit hc (hnumber.2 ▸ hv)
    have hlen : (c :: ds).length ≤ 3 := by
      rw [List.length_cons]
      omega
    have hval : digitsVal (c :: ds) ≤ 255 := hnumber.2 ▸ hv
    simp only [isOctet, hnumber.1, hlen, hval, decide_true, Bool.and_true, Bool.and_eq_true,
      Bool.or_eq_true, bne_iff_ne, List.head?_cons, Option.some.injEq, ne_eq]
    exact ⟨List.cons_ne_nil _ _, Or.inr hc⟩

theorem length_splitChar_pos (c : Nat) (s : Str) : 1 ≤ (splitChar c s).length := by
  induction s with
  | nil => exact Nat.le_refl 1
  | cons d s ih =>
      rw [splitChar]
      split
      · exact Nat.succ_le_succ (Nat.zero_le _)
      · split
        · exact Nat.le_refl 1
        · exact Nat.succ_le_succ (Nat.zero_le _)

theorem two_le_splitChar {c : Nat} {s : Str} (h : c ∈ s) : 2 ≤ (splitChar c s).length := by
  induction s with
  | nil => exact absurd h List.not_mem_nil
  | cons d s ih =>
      rw [splitChar]
      by_cases hd : d = c
      · rw [if_pos hd, List.length_cons]
        exact Nat.succ_le_succ (length_splitChar_pos c s)
      · rw [if_neg hd]
        have hrest := ih ((List.mem_cons.mp h).resolve_left (Ne.symm hd))
        split
        · next heq =>
            rw [heq] at hrest
            cases hrest
        · next field fields heq =>
            rw [heq, List.length_cons] at hrest
            rw [List.length_cons]
            exact hrest

theorem length_of_mapM {A B : Type} {f : A → Option B} {xs : List A} {ys : List B}
    (h : xs.mapM f = some ys) : ys.length = xs.length := by
  induction xs generalizing ys with
  | nil =>
      cases h
      rfl
  | cons x xs ih =>
      simp only [List.mapM_cons, Option.bind_eq_bind, Option.bind_eq_some_iff, Option.pure_def,
        Option.some.injEq] at h
      rcases h with ⟨y, _, ys, hys, rfl⟩
      rw [List.length_cons, List.length_cons, ih hys]

theorem number_of_mapM {xs : List Str} {vs : List Nat} (h : xs.mapM inetNumber = some vs)
    {x : Str} (hx : x ∈ xs) : ∃ v ∈ vs, inetNumber x = some v := by
  induction xs generalizing vs with
  | nil => exact absurd hx List.not_mem_nil
  | cons y xs ih =>
      simp only [List.mapM_cons, Option.bind_eq_bind, Option.bind_eq_some_iff, Option.pure_def,
        Option.some.injEq] at h
      rcases h with ⟨v, hv, vs, hvs, rfl⟩
      rcases List.mem_cons.mp hx with rfl | hx
      · exact ⟨v, List.mem_cons_self, hv⟩
      · rcases ih hvs hx with ⟨w, hw, hn⟩
        exact ⟨w, List.mem_cons_of_mem _ hw, hn⟩

/-- Four small parts are a dotted quad, unless one is led by a zero. -/
theorem ledByZero_of_quad {host : Str} {p q r t : Nat}
    (h : (splitChar 46 host).mapM inetNumber = some [p, q, r, t])
    (hsmall : ∀ v ∈ [p, q, r, t], v ≤ 255) (hquad : isIpv4 host = false) :
    ∃ part ∈ splitChar 46 host, LedByZero part := by
  by_contra hnone
  have hlen : (splitChar 46 host).length = 4 := (length_of_mapM h).symm
  have hall : (splitChar 46 host).all isOctet = true := by
    rw [List.all_eq_true]
    intro part hpart
    rcases number_of_mapM h hpart with ⟨v, hv, hn⟩
    exact isOctet_of_number hn (hsmall v hv) fun hz => hnone ⟨part, hpart, hz⟩
  rw [isIpv4, hlen, hall] at hquad
  cases hquad

/-- The filter removes the hosts in one part and the dotted quads, and only these. -/
theorem isSome_inetAton {host : Str} (hdot : 46 ∈ host) (hquad : isIpv4 host = false) :
    (inetAton host).isSome = true ↔ Shorthand host := by
  constructor
  · intro h
    unfold inetAton at h
    split at h
    · next p heq =>
        have hlen := length_of_mapM heq
        have htwo := two_le_splitChar hdot
        rw [List.length_singleton] at hlen
        omega
    · next p q heq =>
        split at h
        · next hb => exact Or.inl ⟨p, q, heq, hb⟩
        · cases h
    · next p q r heq =>
        split at h
        · next hb => exact Or.inr (Or.inl ⟨p, q, r, heq, hb⟩)
        · cases h
    · next p q r t heq =>
        split at h
        · next hb =>
            have hsmall : ∀ v ∈ [p, q, r, t], v ≤ 255 := by
              intro v hv
              simp only [List.mem_cons, List.not_mem_nil, or_false] at hv
              omega
            exact Or.inr (Or.inr ⟨p, q, r, t, heq, hb.1, hb.2.1, hb.2.2.1, hb.2.2.2,
              ledByZero_of_quad heq hsmall hquad⟩)
        · cases h
    · cases h
  · rintro (⟨p, q, heq, hb⟩ | ⟨p, q, r, heq, hb⟩ | ⟨p, q, r, t, heq, hp, hq, hr, ht, _⟩)
    · simp only [inetAton, heq, if_pos hb, Option.isSome_some]
    · simp only [inetAton, heq, if_pos hb, Option.isSome_some]
    · simp only [inetAton, heq, if_pos (show p ≤ 255 ∧ q ≤ 255 ∧ r ≤ 255 ∧ t ≤ 255 from
        ⟨hp, hq, hr, ht⟩), Option.isSome_some]

/-- What the checks of a destination say of its host. -/
theorem destination_facts {u : SplitResult} {host : Str} (h : destination L u = .ok host) :
    host = u.hostname L.lowerOther ∧ 46 ∈ host ∧ isIpv4 host = false ∧ 58 ∉ host := by
  have hname := destination_host h
  unfold destination at h
  rcases of_ite_error h with ⟨_, h⟩
  split at h
  · cases h
  · rcases of_ite_error h with ⟨hbad, h⟩
    rcases of_ite_error h with ⟨hquad, h⟩
    cases h
    simp only [not_or, not_not] at hbad
    refine ⟨hname, hbad.2.2.2.2, Bool.eq_false_of_not_eq_true hquad, ?_⟩
    intro hcolon
    exact absurd (List.all_eq_true.mp hbad.2.2.2.1 58 hcolon) (by decide)

/-- The accepted hosts that are addresses are the shorthand ones. -/
theorem literal_iff (L : Libs) (a : HttpArgs) (d : Descriptor) (normalized : List (Str × Str))
    (h : a.request L = .ok (d, normalized)) (u : SplitResult) (hu : urlsplit a.url = some u) :
    ¬ IsLiteral (u.hostname L.lowerOther) ↔ ¬ Shorthand (u.hostname L.lowerOther) := by
  rcases (checked_of_ok h).2 with ⟨w, host, hw, hdest⟩
  rw [hu, Option.some.injEq] at hw
  subst hw
  rcases destination_facts hdest with ⟨hname, hdot, hquad, hcolon⟩
  rw [← hname]
  refine not_congr ((or_iff_left ?_).trans (isSome_inetAton hdot hquad))
  -- A host without colons has one field between them.
  intro hsix
  rw [isIpv6, splitChar_none hcolon] at hsix
  cases hsix

theorem literal_iff_sample :
    ¬ IsLiteral (lit "api.example.com") ↔ ¬ Shorthand (lit "api.example.com") :=
  literal_iff sampleLibs plainHttp modeDescriptor [(lit "x-mode", lit "1")]
    (ok_of_toOption (by decide +kernel))
    ⟨lit "https", lit "api.example.com", lit "/pay", [], []⟩ (by decide +kernel)

/-- An address in three parts is accepted. -/
theorem literal_accepted :
    ¬ ∀ (a : HttpArgs) (d : Descriptor) (normalized : List (Str × Str)) (u : SplitResult),
      a.request sampleLibs = .ok (d, normalized) → urlsplit a.url = some u →
        ¬ IsLiteral (u.hostname sampleLibs.lowerOther) := by
  intro h
  refine h ⟨lit "https://8.8.2056/pay", lit "GET", [], []⟩
    { sampleDescriptor with origin := lit "https://8.8.2056" } []
    ⟨lit "https", lit "8.8.2056", lit "/pay", [], []⟩ (ok_of_toOption (by decide +kernel))
    (by decide +kernel) (Or.inl ?_)
  decide +kernel

end Allowly
