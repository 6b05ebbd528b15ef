import Allowly.Base.Url
import Mathlib.Data.List.SplitBy

/-!
# Dot Segments

A segment of a path that is `.` or `..` is not sent: an HTTP client takes it out, and with
`..` the segment in front of it. Whether a slash stays where the last segment was such a
one differs between clients, and is a parameter.

`quote` keeps a text in one segment, from which the text can be read back. It does not
change dots.

## Main definitions

* `joinPath`, `pathSegments`: Paths and their segments.
* `isDotSegment`: `.` and `..`.
* `removeDotSegments`: The path that is sent.

## Theorems

* `pathSegments_joinPath`: The segments of a path that is put together.
* `resolveDots_plain`: Without dot segments everything stays.
* `resolveDots_lt`: With one, segments are lost.
* `unquote_quote`: `unquote` reads back what `quote` has written.
* `isDotSegment_quote`: A text is written as a dot segment exactly when it is one.
-/

namespace Py

/-- The path of these segments. -/
def joinPath (segments : List Str) : Str := segments.flatMap fun s => 47 :: s

/-- The segments of an absolute path. -/
def pathSegments (path : Str) : List Str := (splitChar 47 path).tail

def isDotSegment (s : Str) : Bool := s == lit "." || s == lit ".."

/-- The segments that are left, after those that were kept already, last first. -/
def resolveDots : List Str → List Str → List Str
  | kept, [] => kept.reverse
  | kept, s :: rest =>
    if s = lit "." then resolveDots kept rest
    else if s = lit ".." then resolveDots kept.tail rest
    else resolveDots (s :: kept) rest

/-- The segments of the path that is sent. -/
def sentSegments (slash : Bool) (segments : List Str) : List Str :=
  resolveDots [] segments ++ if slash && segments.getLast?.any isDotSegment then [[]] else []

/-- The path that is sent. -/
def removeDotSegments (slash : Bool) (path : Str) : Str :=
  joinPath (sentSegments slash (pathSegments path))

/-! ### Paths and segments -/

theorem joinPath_append (ss ts : List Str) : joinPath (ss ++ ts) = joinPath ss ++ joinPath ts :=
  List.flatMap_append

theorem splitChar_append {c : Nat} {s : Str} (h : c ∉ s) (t : Str) :
    splitChar c (s ++ c :: t) = s :: splitChar c t := by
  induction s with
  | nil => rw [List.nil_append, splitChar, if_pos rfl]
  | cons d s ih =>
      rw [List.mem_cons, not_or] at h
      rw [List.cons_append, splitChar, if_neg (Ne.symm h.1), ih h.2]

theorem splitChar_joinPath {s : Str} {ss : List Str} (hs : 47 ∉ s) (hss : ∀ t ∈ ss, 47 ∉ t) :
    splitChar 47 (s ++ joinPath ss) = s :: ss := by
  induction ss generalizing s with
  | nil => rw [joinPath, List.flatMap_nil, List.append_nil, splitChar_none hs]
  | cons t ss ih =>
      have hcons : joinPath (t :: ss) = 47 :: (t ++ joinPath ss) := rfl
      rw [hcons, splitChar_append hs, ih (hss t List.mem_cons_self)]
      intro u hu
      exact hss u (List.mem_cons_of_mem t hu)

/-- The segments of a path that is put together. -/
theorem pathSegments_joinPath {ss : List Str} (h : ∀ s ∈ ss, 47 ∉ s) :
    pathSegments (joinPath ss) = ss := by
  have hsplit := splitChar_joinPath List.not_mem_nil h
  rw [List.nil_append] at hsplit
  rw [pathSegments, hsplit, List.tail_cons]

/-! ### Removal -/

theorem not_dot {s : Str} (h : isDotSegment s = false) : s ≠ lit "." ∧ s ≠ lit ".." := by
  rw [isDotSegment, Bool.or_eq_false_iff, beq_eq_false_iff_ne, beq_eq_false_iff_ne] at h
  exact h

/-- Without dot segments everything stays. -/
theorem resolveDots_plain {ss : List Str} (h : ∀ s ∈ ss, isDotSegment s = false) (kept : List Str) :
    resolveDots kept ss = kept.reverse ++ ss := by
  induction ss generalizing kept with
  | nil => rw [resolveDots, List.append_nil]
  | cons s ss ih =>
      have hs := not_dot (h s List.mem_cons_self)
      rw [resolveDots, if_neg hs.1, if_neg hs.2, ih fun t ht => h t (List.mem_cons_of_mem s ht),
        List.reverse_cons, List.append_assoc, List.singleton_append]

theorem sentSegments_plain {ss : List Str} (slash : Bool) (h : ∀ s ∈ ss, isDotSegment s = false) :
    sentSegments slash ss = ss := by
  have hlast : (ss.getLast?.any isDotSegment) = false := by
    cases hl : ss.getLast? with
    | none => rfl
    | some s => exact h s (List.mem_of_getLast? hl)
  rw [sentSegments, hlast, Bool.and_false, if_neg (by decide), List.append_nil,
    resolveDots_plain h, List.reverse_nil, List.nil_append]

theorem mem_resolveDots {kept ss : List Str} {s : Str} (h : s ∈ resolveDots kept ss) :
    s ∈ kept ∨ s ∈ ss := by
  induction ss generalizing kept with
  | nil => exact Or.inl (List.mem_reverse.mp h)
  | cons t ss ih =>
      rw [resolveDots] at h
      split at h
      · exact (ih h).imp_right (List.mem_cons_of_mem t)
      · split at h
        · exact (ih h).imp List.mem_of_mem_tail (List.mem_cons_of_mem t)
        · rcases ih h with hk | hs
          · rcases List.mem_cons.mp hk with rfl | hk
            · exact Or.inr List.mem_cons_self
            · exact Or.inl hk
          · exact Or.inr (List.mem_cons_of_mem t hs)

theorem mem_sentSegments {slash : Bool} {ss : List Str} {s : Str} (h : s ∈ sentSegments slash ss) :
    s ∈ ss ∨ s = [] := by
  rcases List.mem_append.mp h with h | h
  · exact Or.inl ((mem_resolveDots h).resolve_left List.not_mem_nil)
  · split at h
    · exact Or.inr (List.mem_singleton.mp h)
    · cases h

/-- What is sent has the segments that were kept. -/
theorem pathSegments_removeDotSegments {ss : List Str} (slash : Bool) (h : ∀ s ∈ ss, 47 ∉ s) :
    pathSegments (removeDotSegments slash (joinPath ss)) = sentSegments slash ss := by
  rw [removeDotSegments, pathSegments_joinPath h, pathSegments_joinPath]
  intro s hs
  rcases mem_sentSegments hs with hs | rfl
  · exact h s hs
  · exact List.not_mem_nil

theorem resolveDots_le (kept ss : List Str) :
    (resolveDots kept ss).length ≤ kept.length + ss.length := by
  induction ss generalizing kept with
  | nil => rw [resolveDots, List.length_reverse, List.length_nil, Nat.add_zero]
  | cons s ss ih =>
      have htail : kept.tail.length ≤ kept.length := by
        rw [List.length_tail]
        omega
      rw [resolveDots, List.length_cons]
      split
      · have hrest := ih kept
        omega
      · split
        · have hrest := ih kept.tail
          omega
        · have hrest := ih (s :: kept)
          rw [List.length_cons] at hrest
          omega

/-- With a dot segment, segments are lost. -/
theorem resolveDots_lt {ss : List Str} {s : Str} (hs : s ∈ ss) (hdot : isDotSegment s = true)
    (kept : List Str) : (resolveDots kept ss).length < kept.length + ss.length := by
  induction ss generalizing kept with
  | nil => exact absurd hs List.not_mem_nil
  | cons t ss ih =>
      have htail : kept.tail.length ≤ kept.length := by
        rw [List.length_tail]
        omega
      have hle := resolveDots_le kept ss
      have hletail := resolveDots_le kept.tail ss
      rw [resolveDots, List.length_cons]
      split
      · omega
      · next hone =>
          split
          · omega
          · next htwo =>
              -- This one stays, so the dot segment comes later.
              have hne : s ≠ t := by
                intro heq
                rw [isDotSegment, Bool.or_eq_true, beq_iff_eq, beq_iff_eq, heq] at hdot
                exact hdot.elim hone htwo
              have hrest := ih (List.mem_of_ne_of_mem hne hs) (t :: kept)
              rw [List.length_cons] at hrest
              omega

/-! ### Quoted segments -/

theorem hexVal_upper {n : Nat} (h : n < 16) : hexVal (if n < 10 then 48 + n else 55 + n) = some n := by
  have hall : ∀ n < 16, hexVal (if n < 10 then 48 + n else 55 + n) = some n := by
    decide
  exact hall n h

theorem mem_quoteByte {b : UInt8} {c : Nat} (h : c ∈ quoteByte b) : isUnreserved c = true ∨ c = 37 := by
  have hdigit : ∀ n < 16, isUnreserved (if n < 10 then 48 + n else 55 + n) = true := by
    decide
  rw [quoteByte] at h
  split at h
  · next hb =>
      rw [List.mem_singleton] at h
      rw [h]
      exact Or.inl hb
  · have hlt : b.toNat < 256 := b.toNat_lt
    rcases List.mem_cons.mp h with h | h
    · exact Or.inr h
    · rcases List.mem_cons.mp h with h | h
      · rw [h]
        exact Or.inl (hdigit _ (by omega))
      · rw [List.mem_singleton] at h
        rw [h]
        exact Or.inl (hdigit _ (by omega))

theorem mem_quote {s t : Str} (h : quote s = some t) {c : Nat} (hc : c ∈ t) :
    isUnreserved c = true ∨ c = 37 := by
  rcases Option.map_eq_some_iff.mp h with ⟨b, _, rfl⟩
  rcases List.mem_flatMap.mp hc with ⟨x, _, hx⟩
  exact mem_quoteByte hx

theorem isUnreserved_lt {c : Nat} (h : isUnreserved c = true) : c < 128 := by
  simp only [isUnreserved, isAlnum, isDigit, isUpper, isLower, Bool.or_eq_true, Bool.and_eq_true,
    decide_eq_true_eq, beq_iff_eq] at h
  omega

theorem quote_ascii {s t : Str} (h : quote s = some t) {c : Nat} (hc : c ∈ t) : c < 128 := by
  rcases mem_quote h hc with hc | hc
  · exact isUnreserved_lt hc
  · omega

/-- A quoted text has no slash. -/
theorem quote_slash {s t : Str} (h : quote s = some t) : 47 ∉ t := by
  intro hc
  rcases mem_quote h hc with hc | hc
  · exact absurd hc (by decide)
  · cases hc

theorem unquoteBytes_cons {c : Nat} (hc : c ≠ 37) (s : Str) :
    unquoteBytes (c :: s) = UInt8.ofNat c :: unquoteBytes s := by
  rw [unquoteBytes]
  intro a b r heq
  exact absurd heq hc

theorem unquoteBytes_quoteByte (b : UInt8) (s : Str) :
    unquoteBytes (quoteByte b ++ s) = b :: unquoteBytes s := by
  rw [quoteByte]
  split
  · next hb =>
      have hne : b.toNat ≠ 37 := by
        intro heq
        rw [heq] at hb
        exact absurd hb (by decide)
      rw [List.singleton_append, unquoteBytes_cons hne, UInt8.ofNat_toNat]
  · have hlt : b.toNat < 256 := b.toNat_lt
    have hhigh := hexVal_upper (n := b.toNat / 16) (by omega)
    have hlow := hexVal_upper (n := b.toNat % 16) (by omega)
    simp only [List.cons_append, List.nil_append]
    rw [unquoteBytes, hhigh, hlow]
    simp only
    rw [Nat.div_add_mod', UInt8.ofNat_toNat]

theorem unquoteBytes_quote (b : Bytes) : unquoteBytes (b.flatMap quoteByte) = b := by
  induction b with
  | nil => rfl
  | cons x b ih => rw [List.flatMap_cons, unquoteBytes_quoteByte, ih]

/-- Text that is all ASCII is one run. -/
theorem splitBy_ascii {s : Str} (hs : s ≠ []) (h : ∀ c ∈ s, c < 128) :
    s.splitBy (fun a b => (a < 128 : Bool) == (b < 128 : Bool)) = [s] := by
  refine List.splitBy_of_isChain hs (List.Pairwise.isChain ?_)
  refine List.pairwise_of_forall_mem_list ?_
  intro a ha b hb
  rw [decide_eq_true (h a ha), decide_eq_true (h b hb)]
  rfl

/-- `unquote` reads back what `quote` has written. -/
theorem unquote_quote {s t : Str} (h : quote s = some t) : unquote t = some s := by
  have hascii : ∀ c ∈ t, c < 128 := fun c hc => quote_ascii h hc
  rcases Option.map_eq_some_iff.mp h with ⟨b, hb, ht⟩
  have hbytes : unquoteBytes t = b := by
    rw [← ht, unquoteBytes_quote]
  rw [unquote]
  split
  · next hp =>
      have hne : t ≠ [] := by
        intro heq
        rw [heq] at hp
        cases hp
      have hall : (t.all fun c => c < 128) = true := by
        rw [List.all_eq_true]
        intro c hc
        exact decide_eq_true (hascii c hc)
      simp only [splitBy_ascii hne hascii, List.mapM_cons, List.mapM_nil, hall, if_true, hbytes,
        decode_encode false s b hb]
      simp
  · next hp =>
      -- Without a percent sign every octet stands for itself.
      rw [List.contains_eq_mem, decide_eq_true_eq] at hp
      have hplain : ∀ r : Str, 37 ∉ r → (∀ c ∈ r, c < 128) → encode r = some (unquoteBytes r) := by
        intro r
        induction r with
        | nil =>
            intro _ _
            rfl
        | cons c r ih =>
            intro hr hlt
            rw [List.mem_cons, not_or] at hr
            have hc := hlt c List.mem_cons_self
            rw [unquoteBytes_cons (Ne.symm hr.1), encode, ih hr.2 fun d hd => hlt d (List.mem_cons_of_mem c hd),
              encodeChar, if_pos hc]
            rfl
      rw [← hbytes] at hb
      rw [encode_injective hb (hplain t hp hascii)]

/-- A text is written as a dot segment exactly when it is one. -/
theorem isDotSegment_quote {s t : Str} (h : quote s = some t) : isDotSegment t = isDotSegment s := by
  have hread := unquote_quote h
  have hkeeps : ∀ d : Str, quote d = some d → (t == d) = (s == d) := by
    intro d hd
    rw [Bool.eq_iff_iff, beq_iff_eq, beq_iff_eq]
    refine ⟨?_, ?_⟩
    · intro htd
      rw [htd, unquote_quote hd, Option.some.injEq] at hread
      exact hread.symm
    · intro hsd
      rw [hsd, hd, Option.some.injEq] at h
      exact h.symm
  rw [isDotSegment, isDotSegment, hkeeps _ (by decide), hkeeps _ (by decide)]

end Py
