import Allowly.Theory.Response
import Allowly.Theory.Scenario
import Mathlib.Data.List.Nodup
import Mathlib.Data.List.Lookmap
import Mathlib.Data.List.Dedup

/-!
# What the Descriptor Commits To

The runtime sees the descriptor of a request and not the request, so an approval covers
whatever has that descriptor. With digests that tell apart what they are taken of, that is
one request: method, host, path, query, headers and body are all in it. Nothing else is:
the order of the headers, and the letter case of the method, of the host and of the names
of the headers, do not change it.

The headers are compared as a map from names to values. A list of pairs with different
names is the map it stands for up to its order, and sorting takes the order away.

## Main definitions

* `headerMessage`: What the digest of a header value is of.
* `HttpArgs`: The arguments of `_request`.
* `SameHttp`: Two arguments are the same request.
* `Hashed`: What SHA-256 is computed of for a request.

## Theorems

* `request_private`: What the descriptor says of the private part.
* `sortHeaders_congr`: Sorting takes the order of headers away.
* `descriptor_commits`: Equal descriptors are the same request.
-/

namespace Allowly

open Py

variable {L : Libs}

/-- What the digest of a header value is of. -/
def headerMessage (x : Str × Str) : Bytes :=
  asciiBytes (lit "allowly.execution.header.v1") ++ 0 :: asciiBytes x.1 ++ 0 :: asciiBytes x.2

/-! ### The private part of a request -/

theorem asciiBytes_inj {s t : Str} (hs : ∀ c ∈ s, c < 256) (ht : ∀ c ∈ t, c < 256)
    (h : asciiBytes s = asciiBytes t) : s = t := by
  induction s generalizing t with
  | nil =>
      cases t with
      | nil => rfl
      | cons d t => cases h
  | cons c s ih =>
      cases t with
      | nil => cases h
      | cons d t =>
          rw [asciiBytes, asciiBytes, List.map_cons, List.map_cons, List.cons.injEq] at h
          have hcd : c = d := by
            have hnat := congrArg UInt8.toNat h.1
            rwa [toNat_ofNat_lt (hs c List.mem_cons_self),
              toNat_ofNat_lt (ht d List.mem_cons_self)] at hnat
          rw [hcd, ih (fun c hc => hs c (List.mem_cons_of_mem _ hc))
            (fun c hc => ht c (List.mem_cons_of_mem _ hc)) h.2]

theorem insertSorted_perm (x : Str × Str) (xs : List (Str × Str)) :
    (insertSorted x xs).Perm (x :: xs) := by
  induction xs with
  | nil => exact List.Perm.refl _
  | cons y ys ih =>
      rw [insertSorted]
      split
      · exact List.Perm.refl _
      · exact (ih.cons y).trans (List.Perm.swap x y ys)

theorem sortHeaders_perm (xs : List (Str × Str)) : (sortHeaders xs).Perm xs := by
  induction xs with
  | nil => exact List.Perm.refl _
  | cons x xs ih => exact (insertSorted_perm x _).trans (ih.cons x)

/-- Header values are printable ASCII. -/
theorem normalizeHeaders_ascii {normalized given headers : List (Str × Str)}
    (hn : ∀ x ∈ normalized, ∀ c ∈ x.2, c < 256)
    (h : normalizeHeaders L normalized given = .ok headers) : ∀ x ∈ headers, ∀ c ∈ x.2, c < 256 := by
  induction given generalizing normalized with
  | nil =>
      cases h
      exact hn
  | cons x given ih =>
      rcases x with ⟨name, value⟩
      rw [normalizeHeaders] at h
      rcases of_ite_error h with ⟨hgood, h⟩
      refine ih ?_ h
      intro y hy c hc
      rcases List.mem_append.mp hy with hy | hy
      · exact hn y hy c hc
      · rw [List.mem_singleton] at hy
        rw [hy] at hc
        have hall : (value.all fun c => 0x20 ≤ c && c ≤ 0x7e) = true := by
          by_contra hbad
          exact hgood (Or.inr (Or.inr (Or.inr (Or.inr (Or.inr hbad)))))
        have hrange := List.all_eq_true.mp hall c hc
        simp only [Bool.and_eq_true, decide_eq_true_eq] at hrange
        omega

/-- What the descriptor says of the private part. -/
theorem request_private {url method : Str} {given headers : List (Str × Str)} {body : Str}
    {d : Descriptor} (hr : request L url method given body = .ok (d, headers)) :
    normalizeHeaders L [] given = .ok headers ∧
      (∃ encoded, encode body = some encoded ∧ d.bodySha256 = sha encoded) ∧
      d.headers = (sortHeaders headers).map fun x => (x.1, headerSha x) := by
  unfold request at hr
  rcases of_ite_error hr with ⟨_, hr⟩
  split at hr
  · cases hr
  · rcases bind_eq_ok.mp hr with ⟨host, _, hk⟩
    rcases of_ite_error hk with ⟨_, hk⟩
    rcases of_ite_error hk with ⟨_, hk⟩
    rcases bind_eq_ok.mp hk with ⟨_, _, hk⟩
    rcases bind_eq_ok.mp hk with ⟨normalized, hnormal, hk⟩
    rcases of_ite_error hk with ⟨_, hk⟩
    split at hk
    · cases hk
    · next encoded hencoded =>
        rcases of_ite_error hk with ⟨_, hk⟩
        cases hk
        exact ⟨hnormal, ⟨encoded, hencoded, rfl⟩, rfl⟩

/-! ### Headers as a map -/

/-- The value a list of headers has for a name. -/
def valueOf (name : Str) (headers : List (Str × Str)) : Option Str :=
  (headers.find? fun x => x.1 == name).map Prod.snd

theorem valueOf_eq_some {headers : List (Str × Str)} (hn : (headers.map Prod.fst).Nodup)
    {n v : Str} : valueOf n headers = some v ↔ (n, v) ∈ headers := by
  induction headers with
  | nil => exact ⟨fun h => (by cases h), fun h => absurd h List.not_mem_nil⟩
  | cons x headers ih =>
      rw [List.map_cons, List.nodup_cons] at hn
      by_cases hx : x.1 = n
      · have hfind : valueOf n (x :: headers) = some x.2 := by
          rw [valueOf, List.find?_cons, beq_iff_eq.mpr hx, Option.map_some]
        rw [hfind, Option.some.injEq, List.mem_cons]
        constructor
        · intro hv
          exact Or.inl (Prod.ext hx.symm hv.symm)
        · rintro (he | hmem)
          · rw [← he]
          · exact absurd (List.mem_map.mpr ⟨_, hmem, hx.symm⟩) hn.1
      · have hfind : valueOf n (x :: headers) = valueOf n headers := by
          rw [valueOf, List.find?_cons, beq_eq_false_iff_ne.mpr hx, valueOf]
        rw [hfind, List.mem_cons]
        refine (ih hn.2).trans ⟨Or.inr, ?_⟩
        rintro (he | hmem)
        · exact absurd (congrArg Prod.fst he).symm hx
        · exact hmem

/-- Headers with different names are their map up to the order. -/
theorem perm_iff_valueOf {xs ys : List (Str × Str)} (hx : (xs.map Prod.fst).Nodup)
    (hy : (ys.map Prod.fst).Nodup) : xs.Perm ys ↔ ∀ name, valueOf name xs = valueOf name ys := by
  have hmem : (∀ name, valueOf name xs = valueOf name ys) ↔ ∀ x, x ∈ xs ↔ x ∈ ys := by
    constructor
    · intro h x
      rw [← valueOf_eq_some hx (n := x.1), ← valueOf_eq_some hy (n := x.1), h]
    · intro h name
      refine Option.ext fun value => ?_
      rw [valueOf_eq_some hx, valueOf_eq_some hy, h]
  rw [hmem]
  exact List.perm_ext_iff_of_nodup hx.of_map hy.of_map

/-- The headers the descriptor is made of are the given ones with their names in lower
    case, and these names are different. -/
theorem normalizeHeaders_eq {normalized given headers : List (Str × Str)}
    (hn : (normalized.map Prod.fst).Nodup)
    (h : normalizeHeaders L normalized given = .ok headers) :
    headers = normalized ++ given.map (fun x => (lower L.lowerOther x.1, x.2)) ∧
      (headers.map Prod.fst).Nodup := by
  induction given generalizing normalized with
  | nil =>
      cases h
      exact ⟨(List.append_nil _).symm, hn⟩
  | cons x given ih =>
      rcases x with ⟨name, value⟩
      rw [normalizeHeaders] at h
      rcases of_ite_error h with ⟨hgood, h⟩
      have hfresh : lower L.lowerOther name ∉ normalized.map Prod.fst :=
        fun hmem => hgood (Or.inr (Or.inr (Or.inr (Or.inl hmem))))
      have hnodup : ((normalized ++ [(lower L.lowerOther name, value)]).map Prod.fst).Nodup := by
        rw [List.map_append, List.nodup_append]
        refine ⟨hn, List.nodup_singleton _, ?_⟩
        intro k hk l hl hkl
        rw [List.map_singleton, List.mem_singleton] at hl
        have hk' : k = lower L.lowerOther name := hkl.trans hl
        rw [hk'] at hk
        exact hfresh hk
      rcases ih hnodup h with ⟨heq, hkeys⟩
      refine ⟨?_, hkeys⟩
      rw [heq, List.append_assoc, List.map_cons, List.singleton_append]

theorem valueOf_lowered (given : List (Str × Str)) (name : Str) :
    valueOf name (given.map fun x => (lower L.lowerOther x.1, x.2)) =
      (given.find? fun x => lower L.lowerOther x.1 == name).map Prod.snd := by
  rw [valueOf, List.find?_map, Option.map_map]
  rfl

/-! ### Sorting -/

theorem textLe_refl (s : Str) : textLe s s = true := by
  induction s with
  | nil => rfl
  | cons c s ih => rw [textLe, ih, beq_self_eq_true, Bool.and_self, Bool.or_true]

theorem textLe_total (s t : Str) : textLe s t = true ∨ textLe t s = true := by
  induction s generalizing t with
  | nil => exact Or.inl (by cases t <;> rfl)
  | cons a s ih =>
      cases t with
      | nil => exact Or.inr rfl
      | cons b t =>
          simp only [textLe, Bool.or_eq_true, decide_eq_true_eq, Bool.and_eq_true, beq_iff_eq]
          have hrest := ih t
          by_cases hab : a = b
          · exact hrest.imp (fun h => Or.inr ⟨hab, h⟩) fun h => Or.inr ⟨hab.symm, h⟩
          · rcases Nat.lt_or_gt_of_ne hab with hlt | hlt
            · exact Or.inl (Or.inl hlt)
            · exact Or.inr (Or.inl hlt)

theorem textLe_antisymm {s t : Str} (h : textLe s t = true) (h' : textLe t s = true) : s = t := by
  induction s generalizing t with
  | nil =>
      cases t with
      | nil => rfl
      | cons b t => cases h'
  | cons a s ih =>
      cases t with
      | nil => cases h
      | cons b t =>
          simp only [textLe, Bool.or_eq_true, decide_eq_true_eq, Bool.and_eq_true, beq_iff_eq] at h h'
          have hab : a = b := by omega
          have hst : textLe s t = true := by
            rcases h with hlt | ⟨_, h⟩
            · omega
            · exact h
          have hts : textLe t s = true := by
            rcases h' with hlt | ⟨_, h'⟩
            · omega
            · exact h'
          rw [hab, ih hst hts]

theorem textLe_trans {s t u : Str} (h : textLe s t = true) (h' : textLe t u = true) :
    textLe s u = true := by
  induction s generalizing t u with
  | nil => cases u <;> rfl
  | cons a s ih =>
      cases t with
      | nil => cases h
      | cons b t =>
          cases u with
          | nil => cases h'
          | cons c u =>
              simp only [textLe, Bool.or_eq_true, decide_eq_true_eq, Bool.and_eq_true,
                beq_iff_eq] at h h' ⊢
              rcases h with hlt | ⟨hab, h⟩
              · exact Or.inl (by omega)
              · rcases h' with hlt | ⟨hbc, h'⟩
                · exact Or.inl (by omega)
                · exact Or.inr ⟨hab.trans hbc, ih h h'⟩

theorem insertSorted_sorted (x : Str × Str) {xs : List (Str × Str)}
    (h : xs.Pairwise fun x y => textLe x.1 y.1 = true) :
    (insertSorted x xs).Pairwise fun x y => textLe x.1 y.1 = true := by
  induction xs with
  | nil => exact List.pairwise_singleton _ _
  | cons y ys ih =>
      rcases List.pairwise_cons.mp h with ⟨hy, hys⟩
      rw [insertSorted]
      split
      · next hle =>
          refine List.pairwise_cons.mpr ⟨?_, h⟩
          intro z hz
          rcases List.mem_cons.mp hz with rfl | hz
          · exact hle
          · exact textLe_trans hle (hy z hz)
      · next hle =>
          refine List.pairwise_cons.mpr ⟨?_, ih hys⟩
          intro z hz
          rcases List.mem_cons.mp ((insertSorted_perm x ys).mem_iff.mp hz) with rfl | hz
          · exact (textLe_total y.1 z.1).resolve_right hle
          · exact hy z hz

theorem sortHeaders_sorted (xs : List (Str × Str)) :
    (sortHeaders xs).Pairwise fun x y => textLe x.1 y.1 = true := by
  induction xs with
  | nil => exact List.Pairwise.nil
  | cons x xs ih => exact insertSorted_sorted x ih

/-- Sorting takes the order of headers with different names away. -/
theorem sortHeaders_congr {xs ys : List (Str × Str)} (hx : (xs.map Prod.fst).Nodup)
    (h : xs.Perm ys) : sortHeaders xs = sortHeaders ys := by
  have hperm : (sortHeaders xs).Perm (sortHeaders ys) :=
    (sortHeaders_perm xs).trans (h.trans (sortHeaders_perm ys).symm)
  refine @List.Perm.eq_of_pairwise _ (fun x y => textLe x.1 y.1 = true) _ _ ?_
    (sortHeaders_sorted xs) (sortHeaders_sorted ys) hperm
  intro x y hmx hmy hxy hyx
  -- Two headers with one name are one header.
  have hname : x.1 = y.1 := textLe_antisymm hxy hyx
  have hxs : x ∈ xs := (sortHeaders_perm xs).mem_iff.mp hmx
  have hys : y ∈ xs := h.mem_iff.mpr ((sortHeaders_perm ys).mem_iff.mp hmy)
  have hvx := (valueOf_eq_some hx (n := x.1)).mpr hxs
  have hvy := (valueOf_eq_some hx (n := y.1)).mpr hys
  rw [hname, hvy, Option.some.injEq] at hvx
  exact Prod.ext hname hvx.symm

/-! ### Requests -/

/-- The destination is the host of the URL. -/
theorem destination_host {u : SplitResult} {host : Str} (h : destination L u = .ok host) :
    host = u.hostname L.lowerOther := by
  unfold destination at h
  rcases of_ite_error h with ⟨_, h⟩
  split at h
  · cases h
  · rcases of_ite_error h with ⟨_, h⟩
    rcases of_ite_error h with ⟨_, h⟩
    cases h
    rfl

/-- The arguments of `_request`. -/
structure HttpArgs where
  url : Str
  method : Str
  headers : List (Str × Str)
  body : Str

/-- `_request` on these arguments. -/
def HttpArgs.request (L : Libs) (a : HttpArgs) : Except Exc (Descriptor × List (Str × Str)) :=
  Allowly.request L a.url a.method a.headers a.body

/-- The path that is requested. -/
def requestPath (u : SplitResult) : Str := if u.path = [] then lit "/" else u.path

/-- The value of a header whose name in lower case is this one. -/
def HttpArgs.header (L : Libs) (a : HttpArgs) (name : Str) : Option Str :=
  (a.headers.find? fun x => lower L.lowerOther x.1 == name).map Prod.snd

/-- Two arguments are the same request. -/
structure SameHttp (L : Libs) (a b : HttpArgs) : Prop where
  method : upper L.upperOther a.method = upper L.upperOther b.method
  host : (urlsplit a.url).map (·.hostname L.lowerOther) = (urlsplit b.url).map (·.hostname L.lowerOther)
  path : (urlsplit a.url).map requestPath = (urlsplit b.url).map requestPath
  query : (urlsplit a.url).map (·.query) = (urlsplit b.url).map (·.query)
  headers : ∀ name, a.header L name = b.header L name
  body : encode a.body = encode b.body

/-- What SHA-256 is computed of for a request: the body, and the headers with their
    values. -/
def Hashed (L : Libs) (a : HttpArgs) (b : Bytes) : Prop :=
  encode a.body = some b ∨
    ∃ x ∈ a.headers, b = headerMessage (lower L.lowerOther x.1, x.2)

/-- The parts of the descriptor of an accepted request. -/
structure Describes (L : Libs) (a : HttpArgs) (d : Descriptor) (normalized : List (Str × Str))
    (encoded : Bytes) : Prop where
  method : d.method = upper L.upperOther a.method
  split : ∃ u, urlsplit a.url = some u ∧ d.origin = lit "https://" ++ u.hostname L.lowerOther ∧
    d.path = requestPath u ∧ d.query = u.query
  normal : normalizeHeaders L [] a.headers = .ok normalized
  headers : d.headers = (sortHeaders normalized).map fun x => (x.1, headerSha x)
  encodes : encode a.body = some encoded
  bodySha256 : d.bodySha256 = sha encoded
  bodySize : d.bodySize = encoded.length
  contentType : d.contentType = headerValue "content-type" normalized

theorem describes_of_ok {a : HttpArgs} {d : Descriptor} {normalized : List (Str × Str)}
    (h : a.request L = .ok (d, normalized)) : ∃ encoded, Describes L a d normalized encoded := by
  unfold HttpArgs.request Allowly.request at h
  rcases of_ite_error h with ⟨_, h⟩
  split at h
  · cases h
  · next u hu =>
      rcases bind_eq_ok.mp h with ⟨host, hhost, hk⟩
      have hname : host = u.hostname L.lowerOther := destination_host hhost
      rcases of_ite_error hk with ⟨_, hk⟩
      rcases of_ite_error hk with ⟨_, hk⟩
      rcases bind_eq_ok.mp hk with ⟨_, _, hk⟩
      rcases bind_eq_ok.mp hk with ⟨normalized, hnormal, hk⟩
      rcases of_ite_error hk with ⟨_, hk⟩
      split at hk
      · cases hk
      · next encoded hencoded =>
          rcases of_ite_error hk with ⟨_, hk⟩
          cases hk
          exact ⟨encoded, rfl, ⟨u, hu, by rw [hname], rfl, rfl⟩, hnormal, rfl, hencoded, rfl, rfl, rfl⟩

/-- The value of a header is what the map has. -/
theorem Describes.header {a : HttpArgs} {d : Descriptor} {normalized : List (Str × Str)}
    {encoded : Bytes} (h : Describes L a d normalized encoded) (name : Str) :
    a.header L name = valueOf name normalized := by
  rw [(normalizeHeaders_eq (by exact List.nodup_nil) h.normal).1, List.nil_append, valueOf_lowered]
  rfl

theorem Describes.hashed {a : HttpArgs} {d : Descriptor} {normalized : List (Str × Str)}
    {encoded : Bytes} (h : Describes L a d normalized encoded) {x : Str × Str}
    (hx : x ∈ normalized) : Hashed L a (headerMessage x) := by
  rw [(normalizeHeaders_eq (by exact List.nodup_nil) h.normal).1, List.nil_append] at hx
  rcases List.mem_map.mp hx with ⟨y, hy, rfl⟩
  exact Or.inr ⟨y, hy, rfl⟩

/-- Equal digests of headers are equal headers. -/
theorem shaHeaders_eq {xs ys : List (Str × Str)} (hx : ∀ x ∈ xs, ∀ c ∈ x.2, c < 256)
    (hy : ∀ y ∈ ys, ∀ c ∈ y.2, c < 256)
    (hinj : ∀ x ∈ xs, ∀ y ∈ ys, hexdigest (headerMessage x) = hexdigest (headerMessage y) →
      headerMessage x = headerMessage y)
    (h : (xs.map fun x => (x.1, headerSha x)) = ys.map fun y => (y.1, headerSha y)) : xs = ys := by
  induction xs generalizing ys with
  | nil => exact (List.map_eq_nil_iff.mp h.symm).symm
  | cons x xs ih =>
      cases ys with
      | nil => cases h
      | cons y ys =>
          rw [List.map_cons, List.map_cons, List.cons.injEq, Prod.mk.injEq] at h
          rcases h with ⟨⟨hname, hsha⟩, hrest⟩
          have hmessage : headerMessage x = headerMessage y :=
            hinj x List.mem_cons_self y List.mem_cons_self (List.append_cancel_left hsha)
          have hvalue : x.2 = y.2 := by
            rw [headerMessage, headerMessage, hname] at hmessage
            have hbytes := List.append_cancel_left hmessage
            rw [List.cons.injEq] at hbytes
            exact asciiBytes_inj (hx x List.mem_cons_self) (hy y List.mem_cons_self) hbytes.2
          have htail : xs = ys := by
            refine ih (fun z hz => hx z (List.mem_cons_of_mem _ hz))
              (fun z hz => hy z (List.mem_cons_of_mem _ hz)) ?_ hrest
            intro z hz w hw
            exact hinj z (List.mem_cons_of_mem _ hz) w (List.mem_cons_of_mem _ hw)
          rw [Prod.ext hname hvalue, htail]

theorem sameHttp_of_eq {a b : HttpArgs} {d : Descriptor} {xs ys : List (Str × Str)}
    {ea eb : Bytes} (ha : Describes L a d xs ea) (hb : Describes L b d ys eb)
    (hinj : ∀ x y, Hashed L a x → Hashed L b y → hexdigest x = hexdigest y → x = y) :
    SameHttp L a b := by
  rcases ha.split with ⟨u, hu, hou, hpu, hqu⟩
  rcases hb.split with ⟨w, hw, how, hpw, hqw⟩
  have hhost : u.hostname L.lowerOther = w.hostname L.lowerOther :=
    List.append_cancel_left (hou.symm.trans how)
  have hbody : ea = eb := by
    refine hinj ea eb (Or.inl ha.encodes) (Or.inl hb.encodes) ?_
    exact List.append_cancel_left (ha.bodySha256.symm.trans hb.bodySha256)
  have hsorted : sortHeaders xs = sortHeaders ys := by
    refine shaHeaders_eq ?_ ?_ ?_ (ha.headers.symm.trans hb.headers)
    · intro x hx
      exact normalizeHeaders_ascii (fun _ hm => absurd hm List.not_mem_nil) ha.normal x
        ((sortHeaders_perm xs).mem_iff.mp hx)
    · intro y hy
      exact normalizeHeaders_ascii (fun _ hm => absurd hm List.not_mem_nil) hb.normal y
        ((sortHeaders_perm ys).mem_iff.mp hy)
    · intro x hx y hy
      exact hinj _ _ (ha.hashed ((sortHeaders_perm xs).mem_iff.mp hx))
        (hb.hashed ((sortHeaders_perm ys).mem_iff.mp hy))
  have hperm : xs.Perm ys :=
    (sortHeaders_perm xs).symm.trans (hsorted ▸ sortHeaders_perm ys)
  have hnx := (normalizeHeaders_eq (by exact List.nodup_nil) ha.normal).2
  have hny := (normalizeHeaders_eq (by exact List.nodup_nil) hb.normal).2
  constructor
  · rw [← ha.method, ← hb.method]
  · rw [hu, hw, Option.map_some, Option.map_some, hhost]
  · rw [hu, hw, Option.map_some, Option.map_some, ← hpu, ← hpw]
  · rw [hu, hw, Option.map_some, Option.map_some, ← hqu, ← hqw]
  · intro name
    rw [ha.header, hb.header]
    exact (perm_iff_valueOf hnx hny).mp hperm name
  · rw [ha.encodes, hb.encodes, hbody]

theorem eq_of_sameHttp {a b : HttpArgs} {d e : Descriptor} {xs ys : List (Str × Str)}
    {ea eb : Bytes} (ha : Describes L a d xs ea) (hb : Describes L b e ys eb)
    (h : SameHttp L a b) : d = e := by
  rcases ha.split with ⟨u, hu, hou, hpu, hqu⟩
  rcases hb.split with ⟨w, hw, how, hpw, hqw⟩
  have hhost := h.host
  have hpath := h.path
  have hquery := h.query
  have hbody := h.body
  rw [hu, hw, Option.map_some, Option.map_some, Option.some.injEq] at hhost hpath hquery
  rw [ha.encodes, hb.encodes, Option.some.injEq] at hbody
  have hnx := (normalizeHeaders_eq (by exact List.nodup_nil) ha.normal).2
  have hny := (normalizeHeaders_eq (by exact List.nodup_nil) hb.normal).2
  have hvalues : ∀ name, valueOf name xs = valueOf name ys := by
    intro name
    rw [← ha.header, ← hb.header]
    exact h.headers name
  have hsorted : sortHeaders xs = sortHeaders ys :=
    sortHeaders_congr hnx ((perm_iff_valueOf hnx hny).mpr hvalues)
  have hmethod : d.method = e.method := by rw [ha.method, hb.method, h.method]
  have horigin : d.origin = e.origin := by rw [hou, how, hhost]
  have hpaths : d.path = e.path := by rw [hpu, hpw, hpath]
  have hqueries : d.query = e.query := by rw [hqu, hqw, hquery]
  have hheaders : d.headers = e.headers := by rw [ha.headers, hb.headers, hsorted]
  have hsha : d.bodySha256 = e.bodySha256 := by rw [ha.bodySha256, hb.bodySha256, hbody]
  have hsize : d.bodySize = e.bodySize := by rw [ha.bodySize, hb.bodySize, hbody]
  have htype : d.contentType = e.contentType := by
    rw [ha.contentType, hb.contentType]
    exact hvalues (lit "content-type")
  cases d
  cases e
  simp only [Descriptor.mk.injEq]
  exact ⟨hmethod, horigin, hpaths, hqueries, hheaders, hsha, hsize, htype⟩

/-- Equal descriptors are the same request, if SHA-256 tells apart what it is computed
    of. -/
theorem descriptor_commits (L : Libs) (a b : HttpArgs) (d e : Descriptor)
    (xs ys : List (Str × Str)) (ha : a.request L = .ok (d, xs)) (hb : b.request L = .ok (e, ys))
    (hinj : ∀ x y, Hashed L a x → Hashed L b y → hexdigest x = hexdigest y → x = y) :
    d = e ↔ SameHttp L a b := by
  rcases describes_of_ok ha with ⟨ea, hda⟩
  rcases describes_of_ok hb with ⟨eb, hdb⟩
  constructor
  · intro hde
    rw [← hde] at hdb
    exact sameHttp_of_eq hda hdb hinj
  · exact eq_of_sameHttp hda hdb

/-- One request with a header, and the same written otherwise. -/
def plainHttp : HttpArgs :=
  ⟨lit "https://api.example.com/pay", lit "GET", [(lit "x-mode", lit "1")], []⟩

def otherwiseHttp : HttpArgs :=
  ⟨lit "https://API.example.com/pay", lit "get", [(lit "X-Mode", lit "1")], []⟩

def modeDescriptor : Descriptor :=
  { sampleDescriptor with headers := [(lit "x-mode", headerSha (lit "x-mode", lit "1"))] }

theorem descriptor_commits_sample :
    modeDescriptor = modeDescriptor ↔ SameHttp sampleLibs plainHttp otherwiseHttp := by
  refine descriptor_commits sampleLibs plainHttp otherwiseHttp modeDescriptor modeDescriptor
    [(lit "x-mode", lit "1")] [(lit "x-mode", lit "1")] (ok_of_toOption (by decide +kernel))
    (ok_of_toOption (by decide +kernel)) ?_
  have hbody : hexdigest [] ≠ hexdigest (headerMessage (lit "x-mode", lit "1")) := by
    decide +kernel
  -- Two texts are hashed for each: that of no body, and that of the header.
  have hplain : ∀ x, Hashed sampleLibs plainHttp x →
      x = [] ∨ x = headerMessage (lit "x-mode", lit "1") := by
    rintro x (hx | ⟨y, hy, rfl⟩)
    · exact Or.inl (Option.some.inj hx).symm
    · exact Or.inr (by rw [List.mem_singleton.mp hy]; decide +kernel)
  have hother : ∀ x, Hashed sampleLibs otherwiseHttp x →
      x = [] ∨ x = headerMessage (lit "x-mode", lit "1") := by
    rintro x (hx | ⟨y, hy, rfl⟩)
    · exact Or.inl (Option.some.inj hx).symm
    · exact Or.inr (by rw [List.mem_singleton.mp hy]; decide +kernel)
  intro x y hx hy h
  rcases hplain x hx with rfl | rfl
  · rcases hother y hy with rfl | rfl
    · rfl
    · exact absurd h hbody
  · rcases hother y hy with rfl | rfl
    · exact absurd h.symm hbody
    · rfl

end Allowly
