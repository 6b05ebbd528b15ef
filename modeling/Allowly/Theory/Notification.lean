import Allowly.Base.JsonRoundTrip
import Allowly.Base.Rounding
import Allowly.Theory.Descriptor
import Allowly.Theory.Encoding

/-!
# Resolution Webhooks

What a delivery must look like to be taken for genuine, and what a signature is of.

`Genuine` says it clause by clause, as the receiver of a delivery would: the headers occur
once, the time is near, one signature is the expected one, and the payload is the event.
The loops of the code decide exactly that, whatever the order of the headers and of the
signatures. The only clause that is not what one would write down is the tolerance: the
distance in time is a float, and distances just above 300 seconds are rounded down to it.

The signed content is a concatenation with an unrestricted end. It can be taken apart
because neither the ID nor the time can hold the separator.

## Main definitions

* `Once`: A header occurs once and is within its bounds.
* `TokenForm`: A signature as the header holds it.
* `DescribesEvent`: The event a payload describes.
* `Genuine`: What is accepted.
* `Delivery`, `Signs`: What a signature is of.

## Theorems

* `checkSignatures_eq_ok`: The loop over the signatures.
* `signedHeaders_once`: The loop over the headers.
* `eventOf_eq_ok`: The checks of the payload.
* `verify_iff`: What is accepted is what is genuine.
* `signature_bound`: A signature is of one delivery.
-/

namespace Allowly

open Py

variable {L : Libs}

/-! ### Signatures -/

theorem partition_some {c : Nat} {s a b : Str} :
    partition c s = (a, some b) ↔ s = a ++ c :: b ∧ c ∉ a := by
  induction s generalizing a with
  | nil => simp [partition]
  | cons d s ih =>
      rw [partition]
      by_cases hd : d = c
      · rw [if_pos hd, Prod.mk.injEq, Option.some.injEq]
        constructor
        · rintro ⟨rfl, rfl⟩
          exact ⟨by rw [hd, List.nil_append], List.not_mem_nil⟩
        · rintro ⟨hs, hmem⟩
          rcases a with _ | ⟨x, a⟩
          · exact ⟨rfl, (List.cons.inj hs).2⟩
          · rw [List.cons_append] at hs
            rw [← (List.cons.inj hs).1, hd] at hmem
            exact absurd List.mem_cons_self hmem
      · rw [if_neg hd]
        rcases hp : partition c s with ⟨a', b'⟩
        simp only [Prod.mk.injEq]
        constructor
        · rintro ⟨rfl, rfl⟩
          rcases ih.mp hp with ⟨hs, hmem⟩
          refine ⟨by rw [hs, List.cons_append], ?_⟩
          rw [List.mem_cons, not_or]
          exact ⟨Ne.symm hd, hmem⟩
        · rintro ⟨hs, hmem⟩
          rcases a with _ | ⟨x, a⟩
          · exact absurd (List.cons.inj hs).1 hd
          · rw [List.cons_append] at hs
            rw [List.mem_cons, not_or] at hmem
            have hrest := ih.mpr ⟨(List.cons.inj hs).2, hmem.2⟩
            rw [hp, Prod.mk.injEq] at hrest
            exact ⟨by rw [(List.cons.inj hs).1, hrest.1], hrest.2⟩

/-- A signature as the header holds it: a scheme, a comma, and a value, which for the
    scheme that is known is the encoding of 32 octets. -/
def TokenForm (token : Str) : Prop :=
  ∃ scheme value, token = scheme ++ 44 :: value ∧ scheme ≠ [] ∧ scheme.all isAlnum = true ∧
    value ≠ [] ∧ 44 ∉ value ∧
      (scheme = lit "v1" → ∃ b : Bytes, b.length = 32 ∧ Base64.encode .standard b = value)

/-- The token of a signature. -/
def signatureToken (b : Bytes) : Str := lit "v1" ++ 44 :: Base64.encode .standard b

/-- Letters and digits are no commas. -/
theorem comma_of_alnum {s : Str} (h : s.all isAlnum = true) : 44 ∉ s := by
  intro hmem
  exact absurd (List.all_eq_true.mp h 44 hmem) (by decide)

/-- One token: whether it is the expected one. -/
theorem checkSignatures_one {expected : Bytes} {token : Str} {rest : List Str} {verified r : Bool}
    (hlen : expected.length = 32) :
    checkSignatures expected (token :: rest) verified = .ok r ↔ TokenForm token ∧
      checkSignatures expected rest (verified || decide (token = signatureToken expected)) =
        .ok r := by
  rw [checkSignatures]
  rcases hp : partition 44 token with ⟨scheme, _ | encoded⟩
  · simp only
    refine iff_of_false (fun h => by cases h) ?_
    rintro ⟨⟨s, v, htoken, _, hs, _⟩, _⟩
    rw [partition_some.mpr ⟨htoken, comma_of_alnum hs⟩] at hp
    cases hp
  · rcases partition_some.mp hp with ⟨htoken, hscheme⟩
    have hunique {s v : Str} (ht : token = s ++ 44 :: v) (hs : s.all isAlnum = true) :
        s = scheme ∧ v = encoded := by
      have h := partition_some.mpr ⟨ht, comma_of_alnum hs⟩
      rw [hp, Prod.mk.injEq, Option.some.injEq] at h
      exact ⟨h.1.symm, h.2.symm⟩
    simp only
    by_cases hbad : encoded = [] ∨ 44 ∈ encoded ∨ scheme = [] ∨ scheme.all isAlnum = false
    · rw [if_pos hbad]
      refine iff_of_false (fun h => by cases h) ?_
      rintro ⟨⟨s, v, ht, hne, hs, hv, hcomma, _⟩, _⟩
      rcases hunique ht hs with ⟨rfl, rfl⟩
      rcases hbad with h | h | h | h
      · exact hv h
      · exact hcomma h
      · exact hne h
      · rw [hs] at h
        cases h
    · rw [if_neg hbad]
      simp only [not_or, Bool.not_eq_false] at hbad
      rcases hbad with ⟨hv, hcomma, hne, hs⟩
      by_cases hone : scheme = lit "v1"
      · rw [if_pos hone]
        have hmatch : ∀ d : Bytes, Base64.encode .standard d = encoded →
            (expected == d) = decide (token = signatureToken expected) := by
          intro d hd
          by_cases hed : expected = d
          · rw [hed, beq_self_eq_true, htoken, hone, ← hd]
            exact (decide_eq_true rfl).symm
          · rw [beq_eq_false_iff_ne.mpr hed]
            refine (decide_eq_false fun ht => hed ?_).symm
            have heq := (hunique ht (by decide)).2
            have hdec := Base64.decode_encode .standard expected
            rw [heq, ← hd, Base64.decode_encode, Option.some.injEq] at hdec
            exact hdec.symm
        constructor
        · intro h
          rcases bind_eq_ok.mp h with ⟨d, hd, hk⟩
          rcases (base64Of32_eq_ok encoded d).mp hd with ⟨hd32, henc⟩
          refine ⟨⟨scheme, encoded, htoken, hne, hs, hv, hcomma, fun _ => ⟨d, hd32, henc⟩⟩, ?_⟩
          rw [← hmatch d henc]
          exact hk
        · rintro ⟨⟨s, v, ht, _, hs', _, _, hcanonical⟩, hk⟩
          rcases hunique ht hs' with ⟨rfl, rfl⟩
          rcases hcanonical hone with ⟨d, hd32, henc⟩
          refine bind_eq_ok.mpr ⟨d, (base64Of32_eq_ok _ d).mpr ⟨hd32, henc⟩, ?_⟩
          rw [hmatch d henc]
          exact hk
      · rw [if_neg hone]
        have hother : token ≠ signatureToken expected :=
          fun ht => hone (hunique ht (by decide)).1.symm
        rw [decide_eq_false hother, Bool.or_false]
        exact ⟨fun hk => ⟨⟨scheme, encoded, htoken, hne, hs, hv, hcomma,
          fun h => absurd h hone⟩, hk⟩, fun h => h.2⟩

/-- The loop over the signatures: all have the form, and one may be the expected one. -/
theorem checkSignatures_eq_ok {expected : Bytes} {tokens : List Str} {verified r : Bool}
    (hlen : expected.length = 32) : checkSignatures expected tokens verified = .ok r ↔
      (∀ t ∈ tokens, TokenForm t) ∧
        r = (verified || decide (signatureToken expected ∈ tokens)) := by
  induction tokens generalizing verified with
  | nil =>
      rw [checkSignatures, Except.ok.injEq]
      simp only [List.not_mem_nil, false_imp_iff, implies_true, decide_false, Bool.or_false,
        true_and]
      exact eq_comm
  | cons token tokens ih =>
      rw [checkSignatures_one hlen, ih, List.forall_mem_cons, and_assoc]
      refine and_congr_right fun _ => and_congr_right fun _ => ?_
      simp only [List.mem_cons, Bool.decide_or, Bool.or_assoc, eq_comm (a := signatureToken expected)]

theorem length_bigEndian (n x : Nat) : (Sha256.bigEndian n x).length = n := by
  induction n generalizing x with
  | zero => rfl
  | succ n ih => rw [Sha256.bigEndian, List.length_append, ih, List.length_singleton]

theorem length_digest (b : Bytes) : (Sha256.digest b).length = 32 := by
  simp only [Sha256.digest, List.flatMap_cons, List.flatMap_nil, List.length_append,
    List.length_nil, length_bigEndian]

theorem length_hmac (key message : Bytes) : (hmac key message).length = 32 := length_digest _

/-- A delivery, as far as it is signed. -/
structure Delivery where
  id : Str
  timestamp : Str
  body : Bytes
  deriving DecidableEq

namespace Delivery

/-- The headers have the syntax that is checked. -/
def Formed (d : Delivery) : Prop :=
  hasIdForm (lit "evt_") d.id = true ∧ isSeconds d.timestamp = true

def content (d : Delivery) : Bytes := signedContent d.id d.timestamp d.body

end Delivery

/-- Is a token a signature of the delivery under this key? -/
def Signs (key : Bytes) (token : Str) (d : Delivery) : Prop :=
  checkSignatures (hmac key d.content) [token] false = .ok true

theorem dropWord_start {start value : Str} (h : hasIdForm start value = true) :
    ∃ c rest, value = start ++ c :: rest ∧ (c :: rest).all isWordDash = true := by
  unfold hasIdForm at h
  split at h
  · next c rest heq => exact ⟨c, rest, (dropWord_iff _ _ _).mp heq, h⟩
  · cases h

/-- An event ID has no separator in it. -/
theorem plain_id {id : Str} (h : hasIdForm (lit "evt_") id = true) : ∀ c ∈ id, c < 128 ∧ c ≠ 46 := by
  rcases dropWord_start h with ⟨d, rest, rfl, hall⟩
  intro c hc
  rcases List.mem_append.mp hc with hc | hc
  · have hstart : ∀ c ∈ lit "evt_", c < 128 ∧ c ≠ 46 := by decide
    exact hstart c hc
  · have hw := List.all_eq_true.mp hall c hc
    simp only [isWordDash, isAlnum, isDigit, isUpper, isLower, Bool.or_eq_true, Bool.and_eq_true,
      decide_eq_true_eq, beq_iff_eq] at hw
    omega

/-- Nor has a time. -/
theorem plain_seconds {s : Str} (h : isSeconds s = true) : ∀ c ∈ s, c < 128 ∧ c ≠ 46 := by
  simp only [isSeconds, Bool.or_eq_true, beq_iff_eq, Bool.and_eq_true] at h
  rcases h with rfl | h
  · decide
  · intro c hc
    have hd := List.all_eq_true.mp h.1.1.1 c hc
    simp only [isDigit, Bool.and_eq_true, decide_eq_true_eq] at hd
    omega

theorem append_cons_inj {A : Type} {c : A} {a b x y : List A} (ha : c ∉ a) (hb : c ∉ b)
    (h : a ++ c :: x = b ++ c :: y) : a = b ∧ x = y := by
  induction a generalizing b with
  | nil =>
      rcases b with _ | ⟨d, b⟩
      · exact ⟨rfl, (List.cons.inj h).2⟩
      · rw [List.nil_append, List.cons_append] at h
        exact absurd ((List.cons.inj h).1 ▸ List.mem_cons_self) hb
  | cons d a ih =>
      rw [List.mem_cons, not_or] at ha
      rcases b with _ | ⟨e, b⟩
      · rw [List.nil_append, List.cons_append] at h
        exact absurd (List.cons.inj h).1.symm ha.1
      · rw [List.cons_append, List.cons_append] at h
        rw [List.mem_cons, not_or] at hb
        rcases ih ha.2 hb.2 (List.cons.inj h).2 with ⟨hab, hxy⟩
        exact ⟨by rw [(List.cons.inj h).1, hab], hxy⟩

/-- Octets of text without separators, a separator, and the rest can be taken apart. -/
theorem split_content {s t : Str} {x y : Bytes} (hs : ∀ c ∈ s, c < 128 ∧ c ≠ 46)
    (ht : ∀ c ∈ t, c < 128 ∧ c ≠ 46)
    (h : asciiBytes s ++ 46 :: x = asciiBytes t ++ 46 :: y) : s = t ∧ x = y := by
  have hnot {u : Str} (hu : ∀ c ∈ u, c < 128 ∧ c ≠ 46) : (46 : UInt8) ∉ asciiBytes u := by
    intro hmem
    rcases List.mem_map.mp hmem with ⟨c, hc, heq⟩
    have hnat := congrArg UInt8.toNat heq
    rw [toNat_ofNat_lt (by have := hu c hc; omega)] at hnat
    exact (hu c hc).2 hnat
  rcases append_cons_inj (hnot hs) (hnot ht) h with ⟨hst, hxy⟩
  exact ⟨asciiBytes_inj (fun c hc => by have := hs c hc; omega)
    (fun c hc => by have := ht c hc; omega) hst, hxy⟩

/-- Different deliveries have different contents. -/
theorem content_injective {d e : Delivery} (hd : d.Formed) (he : e.Formed)
    (h : d.content = e.content) : d = e := by
  have hcontent (x : Delivery) : x.content = asciiBytes x.id ++ 46 ::
      (asciiBytes x.timestamp ++ 46 :: x.body) := by
    simp only [Delivery.content, signedContent, asciiBytes, List.map_append, List.append_assoc]
    rfl
  rw [hcontent d, hcontent e] at h
  rcases split_content (plain_id hd.1) (plain_id he.1) h with ⟨hid, hrest⟩
  rcases split_content (plain_seconds hd.2) (plain_seconds he.2) hrest with ⟨htime, hbody⟩
  cases d
  cases e
  rw [Delivery.mk.injEq]
  exact ⟨hid, htime, hbody⟩

/-- No encoding holds a comma. -/
theorem comma_encode (b : Bytes) : 44 ∉ Base64.encode .standard b := by
  intro hmem
  rcases List.mem_append.mp hmem with h | h
  · exact absurd (Base64.isSymbol_encodeBare .standard b 44 h) (by decide)
  · exact absurd (List.eq_of_mem_replicate h) (by decide)

theorem signs_iff {key : Bytes} {token : Str} {d : Delivery} :
    Signs key token d ↔ token = signatureToken (hmac key d.content) := by
  rw [Signs, checkSignatures_eq_ok (length_hmac _ _)]
  simp only [List.mem_singleton, forall_eq, Bool.false_or]
  constructor
  · intro h
    exact (decide_eq_true_eq.mp h.2.symm).symm
  · rintro rfl
    refine ⟨⟨lit "v1", _, rfl, by decide, by decide, ?_, ?_, fun _ => ⟨_, length_hmac _ _, rfl⟩⟩,
      (decide_eq_true rfl).symm⟩
    · exact List.append_ne_nil_of_left_ne_nil (Base64.encodeBare_ne_nil _
        (List.ne_nil_of_length_pos (by rw [length_hmac]; decide))) _
    · exact comma_encode _

/-- A signature is of one delivery. Whatever other tokens a header carries, it is accepted
    for another delivery only because of one that does not sign this one. -/
theorem signature_bound (key : Bytes) (d e : Delivery) (hd : d.Formed) (he : e.Formed)
    (hinj : hmac key d.content = hmac key e.content → d.content = e.content) :
    (d.content = e.content → d = e) ∧
      (∀ token, Signs key token d → Signs key token e → d = e) ∧
      ∀ tokens, checkSignatures (hmac key e.content) tokens false = .ok true →
        ∃ token ∈ tokens, Signs key token e ∧ (d ≠ e → ¬ Signs key token d) := by
  have hone : ∀ token, Signs key token d → Signs key token e → d = e := by
    intro token ht hu
    rw [signs_iff] at ht hu
    have hencoded : Base64.encode .standard (hmac key d.content) =
        Base64.encode .standard (hmac key e.content) :=
      (List.cons.inj (List.append_cancel_left (ht.symm.trans hu))).2
    have hsame : hmac key d.content = hmac key e.content := by
      have hdec := Base64.decode_encode .standard (hmac key d.content)
      rw [hencoded, Base64.decode_encode, Option.some.injEq] at hdec
      exact hdec.symm
    exact content_injective hd he (hinj hsame)
  refine ⟨content_injective hd he, hone, ?_⟩
  intro tokens h
  rcases (checkSignatures_eq_ok (length_hmac _ _)).mp h with ⟨_, hmem⟩
  rw [Bool.false_or] at hmem
  refine ⟨_, decide_eq_true_eq.mp hmem.symm, signs_iff.mpr rfl, ?_⟩
  intro hne hsigns
  exact hne (hone _ hsigns (signs_iff.mpr rfl))

def firstDelivery : Delivery := ⟨lit "evt_1", lit "1700000000", [123, 125]⟩

def secondDelivery : Delivery := ⟨lit "evt_1", lit "1700000001", [123, 125]⟩

theorem signature_bound_sample :
    (firstDelivery.content = secondDelivery.content → firstDelivery = secondDelivery) ∧
      (∀ token, Signs [] token firstDelivery → Signs [] token secondDelivery →
        firstDelivery = secondDelivery) ∧
      ∀ tokens, checkSignatures (hmac [] secondDelivery.content) tokens false = .ok true →
        ∃ token ∈ tokens, Signs [] token secondDelivery ∧
          (firstDelivery ≠ secondDelivery → ¬ Signs [] token firstDelivery) :=
  signature_bound [] firstDelivery secondDelivery ⟨by decide, by decide⟩ ⟨by decide, by decide⟩
    fun h => absurd h (by decide +kernel)

/-! ### Headers -/

/-- The headers that are signed or sign. -/
def signedNames : List Str := [idHeader, timestampHeader, signatureHeader]

/-- The value of a header is within its bounds. -/
def ValueFits (name value : Str) : Prop :=
  value ≠ [] ∧ value.length ≤ headerLimit name ∧ value.all isPrintable = true

/-- A header occurs once, whatever the letter case of its name, and its value is text
    within its bounds. -/
def Once (L : Libs) (headers : List HeaderEntry) (name value : Str) : Prop :=
  (headers.filter fun x => entryName L x == name).map Prod.snd = [some value] ∧
    ValueFits name value

/-- The values of the three headers, by name. -/
def collected (L : Libs) (headers : List HeaderEntry) : List (Str × Str) :=
  (headers.filter fun x => decide (entryName L x ∈ signedNames)).map fun x =>
    (entryName L x, x.2.getD [])

theorem collected_cons (x : HeaderEntry) (headers : List HeaderEntry) :
    collected L (x :: headers) =
      if entryName L x ∈ signedNames then (entryName L x, x.2.getD []) :: collected L headers
      else collected L headers := by
  by_cases hx : entryName L x ∈ signedNames
  · rw [if_pos hx]
    simp only [collected, List.filter_cons, decide_eq_true hx, if_true, List.map_cons]
  · rw [if_neg hx]
    simp only [collected, List.filter_cons, decide_eq_false hx, Bool.false_eq_true, if_false]

/-- The loop over the headers collects them, if none is repeated or out of bounds. -/
theorem signedHeaders_eq_ok {found result : List (Str × Str)} {headers : List HeaderEntry}
    (hf : (found.map Prod.fst).Nodup) : signedHeaders L found headers = .ok result ↔
      result = found ++ collected L headers ∧ (result.map Prod.fst).Nodup ∧
        ∀ x ∈ headers, entryName L x ∈ signedNames →
          ∃ value, x.2 = some value ∧ ValueFits (entryName L x) value := by
  induction headers generalizing found with
  | nil =>
      rw [signedHeaders, Except.ok.injEq, collected, List.filter_nil, List.map_nil, List.append_nil]
      constructor
      · rintro rfl
        exact ⟨rfl, hf, fun x hx => absurd hx List.not_mem_nil⟩
      · exact fun h => h.1.symm
  | cons x headers ih =>
      rw [signedHeaders, collected_cons]
      change (if entryName L x ∉ signedNames then _ else _) = _ ↔ _
      simp only [List.forall_mem_cons]
      by_cases hx : entryName L x ∈ signedNames
      · rw [if_neg (not_not.mpr hx), if_pos hx]
        rcases hv : x.2 with _ | value
        · refine iff_of_false (fun h => by cases h) ?_
          rintro ⟨_, _, hall, _⟩
          rcases hall hx with ⟨value, hvalue, _⟩
          cases hvalue
        · simp only [Option.getD_some, Option.some.injEq]
          by_cases hbad : entryName L x ∈ found.map Prod.fst ∨ value = []
          · rw [if_pos hbad]
            refine iff_of_false (fun h => by cases h) ?_
            rintro ⟨hres, hnodup, hall, _⟩
            rcases hbad with hmem | hnil
            · rw [hres, List.map_append, List.nodup_append] at hnodup
              exact hnodup.2.2 _ hmem _ List.mem_cons_self rfl
            · rcases hall hx with ⟨_, rfl, hfits⟩
              exact hfits.1 hnil
          rw [if_neg hbad]
          rw [not_or] at hbad
          by_cases hlimit : value.length > headerLimit (entryName L x) ∨ value.all isPrintable = false
          · rw [if_pos hlimit]
            refine iff_of_false (fun h => by cases h) ?_
            rintro ⟨_, _, hall, _⟩
            rcases hall hx with ⟨_, rfl, hfits⟩
            rcases hlimit with hlong | hprint
            · exact absurd hfits.2.1 (Nat.not_le.mpr hlong)
            · rw [hfits.2.2] at hprint
              cases hprint
          · rw [if_neg hlimit]
            rw [not_or, Nat.not_lt, Bool.not_eq_false] at hlimit
            have hnew : ((found ++ [(entryName L x, value)]).map Prod.fst).Nodup := by
              rw [List.map_append, List.nodup_append]
              refine ⟨hf, List.nodup_singleton _, ?_⟩
              intro k hk l hl hkl
              rw [List.map_singleton, List.mem_singleton] at hl
              have hk' : k = entryName L x := hkl.trans hl
              rw [hk'] at hk
              exact hbad.1 hk
            rw [ih hnew, List.append_assoc, List.singleton_append]
            constructor
            · rintro ⟨hres, hnodup, hall⟩
              exact ⟨hres, hnodup, fun _ => ⟨value, rfl, hbad.2, hlimit.1, hlimit.2⟩, hall⟩
            · rintro ⟨hres, hnodup, _, hall⟩
              exact ⟨hres, hnodup, hall⟩
      · rw [if_pos hx, if_neg hx, ih hf]
        constructor
        · rintro ⟨hres, hnodup, hall⟩
          exact ⟨hres, hnodup, fun h => absurd h hx, hall⟩
        · rintro ⟨hres, hnodup, _, hall⟩
          exact ⟨hres, hnodup, hall⟩

/-- What was collected for one of the names. -/
theorem filter_collected {name : Str} (hn : name ∈ signedNames) (headers : List HeaderEntry) :
    ((collected L headers).filter fun y => y.1 == name) =
      (headers.filter fun x => entryName L x == name).map fun x => (name, x.2.getD []) := by
  induction headers with
  | nil => rfl
  | cons x headers ih =>
      rw [collected_cons]
      by_cases hx : entryName L x = name
      · rw [if_pos (hx ▸ hn)]
        simp only [List.filter_cons, hx, beq_self_eq_true, if_true, List.map_cons, ih]
      · have hne : (entryName L x == name) = false := beq_eq_false_iff_ne.mpr hx
        split
        · simp only [List.filter_cons, hne, Bool.false_eq_true, if_false, ih]
        · simp only [List.filter_cons, hne, Bool.false_eq_true, if_false, ih]

theorem names_collected {y : Str × Str} {headers : List HeaderEntry} (hy : y ∈ collected L headers) :
    y.1 ∈ signedNames := by
  rcases List.mem_map.mp hy with ⟨x, hx, rfl⟩
  exact decide_eq_true_eq.mp (List.mem_filter.mp hx).2

theorem filter_nodup {xs : List (Str × Str)} (hn : (xs.map Prod.fst).Nodup) {x : Str × Str}
    (hx : x ∈ xs) : xs.filter (fun y => y.1 == x.1) = [x] := by
  induction xs with
  | nil => exact absurd hx List.not_mem_nil
  | cons z xs ih =>
      rw [List.map_cons, List.nodup_cons] at hn
      by_cases hz : z.1 = x.1
      · have hrest : xs.filter (fun y => y.1 == x.1) = [] := by
          refine List.filter_eq_nil_iff.mpr fun y hy heq => hn.1 ?_
          rw [hz, ← beq_iff_eq.mp heq]
          exact List.mem_map.mpr ⟨y, hy, rfl⟩
        simp only [List.filter_cons, beq_iff_eq.mpr hz, if_true, hrest]
        rcases List.mem_cons.mp hx with rfl | hx
        · rfl
        · exact absurd (List.mem_map.mpr ⟨x, hx, hz.symm⟩) hn.1
      · simp only [List.filter_cons, beq_eq_false_iff_ne.mpr hz, Bool.false_eq_true, if_false]
        exact ih hn.2 ((List.mem_cons.mp hx).resolve_left fun h => hz (h ▸ rfl))

/-- The three headers were found, once each. -/
theorem signedHeaders_once {headers : List HeaderEntry} {i t g : Str} :
    (∃ found, signedHeaders L [] headers = .ok found ∧ found.length = 3 ∧
      foundValue idHeader found = i ∧ foundValue timestampHeader found = t ∧
        foundValue signatureHeader found = g) ↔
      Once L headers idHeader i ∧ Once L headers timestampHeader t ∧
        Once L headers signatureHeader g := by
  have hstart : (([] : List (Str × Str)).map Prod.fst).Nodup := List.nodup_nil
  have hdistinct : signedNames.Nodup := by decide
  constructor
  · rintro ⟨found, hfound, hthree, rfl, rfl, rfl⟩
    rcases (signedHeaders_eq_ok hstart).mp hfound with ⟨hres, hnodup, hall⟩
    rw [List.nil_append] at hres
    -- Three different names out of three are all of them.
    have hperm : (found.map Prod.fst).Perm signedNames := by
      refine (List.subperm_of_subset hnodup ?_).perm_of_length_le ?_
      · intro k hk
        rcases List.mem_map.mp hk with ⟨y, hy, rfl⟩
        rw [hres] at hy
        exact names_collected hy
      · rw [List.length_map, hthree]
        exact Nat.le_refl 3
    have hone : ∀ name ∈ signedNames, Once L headers name (foundValue name found) := by
      intro name hname
      rcases List.mem_map.mp (hperm.mem_iff.mpr hname) with ⟨⟨k, v⟩, hy, rfl⟩
      have hfilter := filter_nodup hnodup hy
      have hvalue : foundValue k found = v := by
        rw [foundValue, ← List.head?_filter, hfilter]
        rfl
      have hentries := filter_collected (L := L) hname headers
      rw [← hres, hfilter] at hentries
      rcases List.map_eq_singleton_iff.mp hentries.symm with ⟨x, hx, heq⟩
      have hmem := List.mem_filter.mp (hx ▸ List.mem_singleton_self x : x ∈ headers.filter _)
      have hxname := beq_iff_eq.mp hmem.2
      rcases hall x hmem.1 (hxname ▸ hname) with ⟨value, hxv, hfits⟩
      have hv : value = v := by
        have hsecond := congrArg Prod.snd heq
        rw [hxv] at hsecond
        exact hsecond
      rw [hvalue, ← hv]
      refine ⟨?_, hxname ▸ hfits⟩
      rw [hx, List.map_singleton, hxv]
    exact ⟨hone _ (by decide), hone _ (by decide), hone _ (by decide)⟩
  · rintro ⟨hi, ht, hg⟩
    have hone : ∀ name ∈ signedNames, ∃ value, Once L headers name value := by
      intro name hname
      simp only [signedNames, List.mem_cons, List.not_mem_nil, or_false] at hname
      rcases hname with rfl | rfl | rfl
      · exact ⟨i, hi⟩
      · exact ⟨t, ht⟩
      · exact ⟨g, hg⟩
    have hfilter {name value : Str} (hname : name ∈ signedNames) (h : Once L headers name value) :
        (collected L headers).filter (fun y => y.1 == name) = [(name, value)] := by
      rw [filter_collected hname]
      rcases List.map_eq_singleton_iff.mp h.1 with ⟨x, hx, hxv⟩
      rw [hx, List.map_singleton, hxv]
      rfl
    have hcount : ∀ name ∈ signedNames, ((collected L headers).map Prod.fst).count name = 1 := by
      intro name hname
      rcases hone name hname with ⟨value, hvalue⟩
      have hlen := congrArg List.length (hfilter hname hvalue)
      rw [List.length_singleton] at hlen
      rw [List.count, List.countP_map, List.countP_eq_length_filter]
      exact hlen
    have hnodup : ((collected L headers).map Prod.fst).Nodup := by
      refine List.nodup_iff_count_le_one.mpr fun name => ?_
      by_cases hname : name ∈ signedNames
      · exact Nat.le_of_eq (hcount name hname)
      · refine le_trans (Nat.le_of_eq (List.count_eq_zero.mpr fun hmem => hname ?_)) (Nat.zero_le 1)
        rcases List.mem_map.mp hmem with ⟨y, hy, rfl⟩
        exact names_collected hy
    have hperm : ((collected L headers).map Prod.fst).Perm signedNames := by
      refine (List.perm_ext_iff_of_nodup hnodup hdistinct).mpr fun name => ⟨?_, ?_⟩
      · intro hmem
        rcases List.mem_map.mp hmem with ⟨y, hy, rfl⟩
        exact names_collected hy
      · intro hname
        exact List.one_le_count_iff.mp (Nat.le_of_eq (hcount name hname).symm)
    have hvalue {name value : Str} (hname : name ∈ signedNames) (h : Once L headers name value) :
        foundValue name (collected L headers) = value := by
      rw [foundValue, ← List.head?_filter, hfilter hname h]
      rfl
    refine ⟨collected L headers, (signedHeaders_eq_ok hstart).mpr ⟨rfl, hnodup, ?_⟩, ?_,
      hvalue (by decide) hi, hvalue (by decide) ht, hvalue (by decide) hg⟩
    · intro x hx hname
      rcases hone _ hname with ⟨value, honce⟩
      rcases List.map_eq_singleton_iff.mp honce.1 with ⟨y, hy, hyv⟩
      have hmem : x ∈ headers.filter fun z => entryName L z == entryName L x :=
        List.mem_filter.mpr ⟨hx, beq_self_eq_true _⟩
      rw [hy, List.mem_singleton] at hmem
      exact ⟨value, hmem ▸ hyv, honce.2⟩
    · have hlen := hperm.length_eq
      rw [List.length_map] at hlen
      exact hlen

/-! ### The payload -/

/-- No object repeats a key. -/
theorem uniqueKeys_iff :
    (∀ j, uniqueKeys j = true ↔ j.WellFormed) ∧
      (∀ xs, uniqueItems xs = true ↔ Json.WellFormedItems xs) ∧
        ∀ ms, uniqueMembers ms = true ↔ Json.WellFormedMembers ms := by
  refine Json.induct ?_ ?_ ?_ ?_ ?_ ?_ ?_ ?_ ?_ ?_ ?_
  · exact iff_of_true rfl trivial
  · exact fun _ => iff_of_true rfl trivial
  · exact fun _ => iff_of_true rfl trivial
  · exact fun _ => iff_of_true rfl trivial
  · exact fun _ => iff_of_true rfl trivial
  · intro xs ih
    rw [uniqueKeys, ih, Json.WellFormed]
  · intro ms ih
    rw [uniqueKeys, Bool.and_eq_true, decide_eq_true_eq, ih, Json.WellFormed]
  · exact iff_of_true rfl trivial
  · intro x xs hx ih
    rw [uniqueItems, Bool.and_eq_true, hx, ih, Json.WellFormedItems]
  · exact iff_of_true rfl trivial
  · intro k v ms hv ih
    rw [uniqueMembers, Bool.and_eq_true, hv, ih, Json.WellFormedMembers]

/-- The payload is JSON in UTF-8, in which no object at any depth repeats a key. -/
theorem payloadOf_eq_ok {rawBody : Bytes} {j : Json} : payloadOf rawBody = .ok j ↔
    ∃ text, encode text = some rawBody ∧ TextOf false j text ∧ j.WellFormed := by
  constructor
  · intro h
    simp only [payloadOf] at h
    split at h
    · cases h
    · next text htext =>
        split at h
        · cases h
        · next k hk =>
            by_cases hu : uniqueKeys k = true
            · rw [if_pos hu] at h
              cases h
              exact ⟨text, encode_of_decode _ _ htext, (parse_iff _ _ _).mp hk, (uniqueKeys_iff.1 _).mp hu⟩
            · rw [if_neg hu] at h
              cases h
  · rintro ⟨text, htext, hj, hu⟩
    simp only [payloadOf, decode_encode false text rawBody htext, (parse_iff _ _ _).mpr hj,
      (uniqueKeys_iff.1 j).mpr hu, if_true]

/-- An object with exactly these keys. -/
def HasKeys (j : Json) (keys : List String) : Prop :=
  j.isObj = true ∧ (∀ k ∈ keys, j.has k = true) ∧ ∀ n ∈ j.names, ∃ k ∈ keys, lit k = n

theorem recordOf_eq_ok {value v : Json} {keys : List String} :
    recordOf value keys = .ok v ↔ v = value ∧ HasKeys value keys := by
  have hkeys : (value.isObj ∧ keys.all (value.has ·) = true ∧
      (value.names.all fun k => keys.any fun r => lit r == k) = true) ↔ HasKeys value keys := by
    simp only [HasKeys, List.all_eq_true, List.any_eq_true, beq_iff_eq]
  rw [recordOf]
  by_cases h : HasKeys value keys
  · rw [if_pos (hkeys.mpr h), Except.ok.injEq]
    exact ⟨fun he => ⟨he.symm, h⟩, fun he => he.1.symm⟩
  · rw [if_neg (mt hkeys.mp h)]
    exact iff_of_false (fun he => by cases he) fun he => h he.2

theorem boundedString_eq_ok {raw : Json} {key : String} {s : Str} :
    boundedString raw key = .ok s ↔ raw.get key = .str s ∧ s ≠ [] ∧ s.length ≤ 2048 := by
  unfold boundedString
  split
  · next t ht =>
      by_cases hbad : t = [] ∨ t.length > 2048
      · rw [if_pos hbad]
        refine iff_of_false (fun h => by cases h) ?_
        rintro ⟨hs, hne, hlen⟩
        rw [ht, Json.str.injEq] at hs
        subst hs
        rcases hbad with hnil | hlong
        · exact hne hnil
        · omega
      · rw [if_neg hbad, Except.ok.injEq]
        rw [not_or, Nat.not_lt] at hbad
        rw [ht, Json.str.injEq]
        constructor
        · rintro rfl
          exact ⟨rfl, hbad⟩
        · exact fun h => h.1
  · next hnot =>
      refine iff_of_false (fun h => by cases h) ?_
      rintro ⟨hs, _⟩
      exact hnot s hs

/-- A member is an ID that begins as it should. -/
def IsId (raw : Json) (key start : String) (v : Str) : Prop :=
  raw.get key = .str v ∧ v.length ≤ 128 ∧ hasIdForm (lit start) v = true

theorem identifierOf_eq_ok {raw : Json} {key start : String} {v : Str} :
    identifierOf raw key start = .ok v ↔ IsId raw key start v := by
  constructor
  · intro h
    rcases bind_eq_ok.mp h with ⟨w, hw, hk⟩
    rcases of_ite_error hk with ⟨hgood, hk⟩
    cases hk
    rw [not_or, Nat.not_lt, Bool.not_eq_false] at hgood
    exact ⟨(boundedString_eq_ok.mp hw).1, hgood⟩
  · rintro ⟨hv, hlen, hform⟩
    have hne : v ≠ [] := by
      rcases dropWord_start hform with ⟨c, rest, rfl, _⟩
      exact List.append_ne_nil_of_right_ne_nil _ (List.cons_ne_nil _ _)
    refine bind_eq_ok.mpr ⟨v, boundedString_eq_ok.mpr ⟨hv, hne, by omega⟩, ?_⟩
    have hgood : ¬(v.length > 128 ∨ hasIdForm (lit start) v = false) := by
      rw [hform]
      simp only [Bool.true_eq_false, or_false, Nat.not_lt]
      exact hlen
    rw [if_neg hgood]
    rfl

theorem timestampOf_eq_ok {raw : Json} {key : String} {t : Str} :
    timestampOf L raw key = .ok t ↔
      raw.get key = .str t ∧ t.length ≤ 2048 ∧ timestampValid L t = true := by
  constructor
  · intro h
    rcases bind_eq_ok.mp h with ⟨w, hw, hk⟩
    by_cases hvalid : timestampValid L w = true
    · rw [if_pos hvalid] at hk
      cases hk
      rcases boundedString_eq_ok.mp hw with ⟨hget, _, hlen⟩
      exact ⟨hget, hlen, hvalid⟩
    · rw [if_neg hvalid] at hk
      cases hk
  · rintro ⟨hget, hlen, hvalid⟩
    have hne : t ≠ [] := by
      rintro rfl
      cases hvalid
    refine bind_eq_ok.mpr ⟨t, boundedString_eq_ok.mpr ⟨hget, hne, hlen⟩, ?_⟩
    rw [if_pos hvalid]
    rfl

theorem eventTypeOf_eq_ok {raw : Json} {key : String} {t : EventType} :
    eventTypeOf raw key = .ok t ↔ raw.get key = .str t.text := by
  constructor
  · intro h
    rcases bind_eq_ok.mp h with ⟨w, hw, hk⟩
    split at hk
    · next u hu =>
        cases hk
        have htext := List.find?_some hu
        rw [beq_iff_eq] at htext
        rw [(boundedString_eq_ok.mp hw).1, htext]
    · cases hk
  · intro hget
    refine bind_eq_ok.mpr ⟨t.text, boundedString_eq_ok.mpr ⟨hget, ?_, ?_⟩, ?_⟩
    · cases t <;> decide
    · cases t <;> decide
    · cases t <;> rfl

/-- The source receipt of a resolution: null, or an ID. -/
def IsSource (data : Json) : Option Str → Prop
  | none => data.get "source_receipt_id" = .null
  | some v => IsId data "source_receipt_id" "rcp_" v

theorem sourceReceiptOf_eq_ok {data : Json} (hk : data.has "source_receipt_id" = true)
    {s : Option Str} : sourceReceiptOf data = .ok s ↔ IsSource data s := by
  have hnullable : nullableString data "source_receipt_id" =
      if data.get "source_receipt_id" = .null then .ok none
      else (boundedString data "source_receipt_id").map some := by
    rw [nullableString, if_neg (by rw [hk]; decide)]
  rw [sourceReceiptOf, hnullable]
  by_cases hnull : data.get "source_receipt_id" = .null
  · rw [if_pos hnull]
    constructor
    · intro h
      cases h
      exact hnull
    · intro h
      cases s with
      | none => rfl
      | some v =>
          rw [IsSource, IsId, hnull] at h
          cases h.1
  · rw [if_neg hnull]
    constructor
    · intro h
      rcases bind_eq_ok.mp h with ⟨o, ho, hk⟩
      rcases map_eq_ok.mp ho with ⟨v, hv, rfl⟩
      rcases bind_eq_ok.mp hk with ⟨w, hw, hk⟩
      cases hk
      have hid := identifierOf_eq_ok.mp hw
      have hsame : w = v := by
        have hget := (boundedString_eq_ok.mp hv).1
        rw [hid.1] at hget
        exact Json.str.inj hget
      rw [hsame] at hid
      exact hid
    · intro h
      cases s with
      | none => exact absurd h hnull
      | some v =>
          have hid := identifierOf_eq_ok.mpr h
          rcases bind_eq_ok.mp hid with ⟨w, hw, hk⟩
          rcases of_ite_error hk with ⟨_, hk⟩
          cases hk
          refine bind_eq_ok.mpr ⟨some v, map_eq_ok.mpr ⟨v, hw, rfl⟩, ?_⟩
          exact bind_eq_ok.mpr ⟨v, hid, rfl⟩

/-- The event a payload describes. -/
structure DescribesEvent (L : Libs) (raw : Json) (e : ResolutionWebhookEvent) : Prop where
  members : HasKeys raw eventKeys
  id : raw.get "id" = .str e.id
  workspaceId : raw.get "workspace_id" = .str e.workspaceId
  type : raw.get "type" = .str e.type.text
  timestamp : raw.get "timestamp" = .str e.timestamp ∧ e.timestamp.length ≤ 2048 ∧
    timestampValid L e.timestamp = true
  data : HasKeys (raw.get "data") dataKeys
  promptId : IsId (raw.get "data") "prompt_id" e.type.promptStart e.data.promptId
  status : (raw.get "data").get "status" = .str e.data.status ∧
    (e.data.status = lit "approved" ∨ e.data.status = lit "rejected")
  sourceReceiptId : IsSource (raw.get "data") e.data.sourceReceiptId
  resolutionReceiptId : IsId (raw.get "data") "resolution_receipt_id" "rcp_"
    e.data.resolutionReceiptId

theorem eventOf_eq_ok {raw : Json} {eventId workspaceId : Str} {e : ResolutionWebhookEvent} :
    eventOf L raw eventId workspaceId = .ok e ↔
      DescribesEvent L raw e ∧ e.id = eventId ∧ e.workspaceId = workspaceId := by
  constructor
  · intro h
    rcases bind_eq_ok.mp h with ⟨body, hbody, hk⟩
    rcases recordOf_eq_ok.mp hbody with ⟨rfl, hmembers⟩
    rcases of_ite_error hk with ⟨hids, hk⟩
    rw [not_or, not_not, not_not] at hids
    rcases bind_eq_ok.mp hk with ⟨type, htype, hk⟩
    rcases bind_eq_ok.mp hk with ⟨data, hdata, hk⟩
    rcases recordOf_eq_ok.mp hdata with ⟨rfl, hkeys⟩
    rcases bind_eq_ok.mp hk with ⟨promptId, hprompt, hk⟩
    rcases bind_eq_ok.mp hk with ⟨status, hstatus, hk⟩
    rcases of_ite_error hk with ⟨hchoice, hk⟩
    rw [not_and_or, not_not, not_not] at hchoice
    rcases bind_eq_ok.mp hk with ⟨source, hsource, hk⟩
    rcases bind_eq_ok.mp hk with ⟨timestamp, htime, hk⟩
    rcases bind_eq_ok.mp hk with ⟨resolution, hresolution, hk⟩
    cases hk
    exact ⟨⟨hmembers, hids.1, hids.2, eventTypeOf_eq_ok.mp htype, timestampOf_eq_ok.mp htime, hkeys,
      identifierOf_eq_ok.mp hprompt, ⟨(boundedString_eq_ok.mp hstatus).1, hchoice⟩,
      (sourceReceiptOf_eq_ok (hkeys.2.1 _ (by decide))).mp hsource,
      identifierOf_eq_ok.mp hresolution⟩, rfl, rfl⟩
  · rintro ⟨hd, rfl, rfl⟩
    rw [eventOf]
    refine bind_eq_ok.mpr ⟨raw, recordOf_eq_ok.mpr ⟨rfl, hd.members⟩, ?_⟩
    rw [if_neg (not_or.mpr ⟨not_not.mpr hd.id, not_not.mpr hd.workspaceId⟩)]
    refine bind_eq_ok.mpr ⟨e.type, eventTypeOf_eq_ok.mpr hd.type, ?_⟩
    refine bind_eq_ok.mpr ⟨_, recordOf_eq_ok.mpr ⟨rfl, hd.data⟩, ?_⟩
    refine bind_eq_ok.mpr ⟨_, identifierOf_eq_ok.mpr hd.promptId, ?_⟩
    have hstatus : e.data.status ≠ [] ∧ e.data.status.length ≤ 2048 := by
      rcases hd.status.2 with h | h
      · rw [h]
        decide
      · rw [h]
        decide
    refine bind_eq_ok.mpr ⟨_, boundedString_eq_ok.mpr ⟨hd.status.1, hstatus⟩, ?_⟩
    have hchoice : ¬(e.data.status ≠ lit "approved" ∧ e.data.status ≠ lit "rejected") := by
      rw [not_and_or, not_not, not_not]
      exact hd.status.2
    rw [if_neg hchoice]
    refine bind_eq_ok.mpr ⟨_, (sourceReceiptOf_eq_ok (hd.data.2.1 _ (by decide))).mpr
      hd.sourceReceiptId, ?_⟩
    refine bind_eq_ok.mpr ⟨_, timestampOf_eq_ok.mpr hd.timestamp, ?_⟩
    exact bind_eq_ok.mpr ⟨_, identifierOf_eq_ok.mpr hd.resolutionReceiptId, rfl⟩

/-! ### Deliveries -/

/-- The time of a delivery is near: at most 300 seconds from now, or so little further
    that the distance, as a float, is 300 seconds. -/
def Near (now : Float64) (seconds : Nat) : Prop :=
  ∃ q, now.value = some q ∧ |q - seconds| ≤ 300 + 1 / 2 ^ 45

theorem digitsVal_lt {s : Str} (h : isSeconds s = true) : digitsVal s < 2 ^ 53 := by
  have hbound : ∀ (ds : Str) (n : Nat), (∀ d ∈ ds, isDigit d = true) →
      ds.foldl (fun a d => a * 10 + (d - 48)) n < (n + 1) * 10 ^ ds.length := by
    intro ds
    induction ds with
    | nil =>
        intro n _
        rw [List.foldl_nil, List.length_nil]
        omega
    | cons d ds ih =>
        intro n hd
        have hrange := hd d List.mem_cons_self
        simp only [isDigit, Bool.and_eq_true, decide_eq_true_eq] at hrange
        rw [List.foldl_cons, List.length_cons, Nat.pow_succ]
        refine lt_of_lt_of_le (ih _ fun x hx => hd x (List.mem_cons_of_mem _ hx)) ?_
        calc (n * 10 + (d - 48) + 1) * 10 ^ ds.length ≤ ((n + 1) * 10) * 10 ^ ds.length :=
              Nat.mul_le_mul_right _ (by omega)
          _ = (n + 1) * (10 ^ ds.length * 10) := by rw [Nat.mul_assoc, Nat.mul_comm 10]
  have hs : (∀ d ∈ s, isDigit d = true) ∧ s.length ≤ 12 := by
    simp only [isSeconds, Bool.or_eq_true, beq_iff_eq, Bool.and_eq_true, decide_eq_true_eq] at h
    rcases h with rfl | h
    · decide
    · exact ⟨List.all_eq_true.mp h.1.1.1, h.1.2⟩
  have hlt := hbound s 0 hs.1
  rw [Nat.zero_add, Nat.one_mul] at hlt
  have hpow : 10 ^ s.length ≤ 10 ^ 12 := Nat.pow_le_pow_right (by decide) hs.2
  exact lt_of_lt_of_le hlt (le_trans hpow (by decide))

/-- What the tolerance admits. -/
theorem withinTolerance_iff {now : Float64} {s : Str} (h : isSeconds s = true) :
    (now.isFinite = true ∧ withinTolerance now (digitsVal s) = true) ↔ Near now (digitsVal s) := by
  have hfinite : now.isFinite = true ↔ ∃ q, now.value = some q := by
    rw [Float64.isFinite, Float64.value]
    cases now.num with
    | none =>
        refine iff_of_false (by decide) ?_
        rintro ⟨q, hq⟩
        cases hq
    | some v => exact iff_of_true rfl ⟨_, rfl⟩
  constructor
  · rintro ⟨hf, hw⟩
    rcases hfinite.mp hf with ⟨q, hq⟩
    exact ⟨q, hq, (sub_leInt hq (ofInt_value (digitsVal_lt h))).mp hw⟩
  · rintro ⟨q, hq, hle⟩
    exact ⟨hfinite.mpr ⟨q, hq⟩, (sub_leInt hq (ofInt_value (digitsVal_lt h))).mpr hle⟩

/-- The headers of a delivery authenticate it. -/
structure Authentic (rawBody key : Bytes) (eventId timestamp signatures : Str) (now : Float64) :
    Prop where
  formed : Delivery.Formed ⟨eventId, timestamp, rawBody⟩
  near : Near now (digitsVal timestamp)
  count : 1 ≤ (splitSpace signatures).length ∧ (splitSpace signatures).length ≤ 8
  tokens : ∀ t ∈ splitSpace signatures, TokenForm t
  signed : signatureToken (hmac key (signedContent eventId timestamp rawBody)) ∈
    splitSpace signatures

theorem authenticate_eq_ok {rawBody key : Bytes} {eventId timestamp signatures : Str}
    {now : Float64} : authenticate rawBody key eventId timestamp signatures now = .ok () ↔
      Authentic rawBody key eventId timestamp signatures now := by
  constructor
  · intro h
    rcases of_ite_error h with ⟨hform, h⟩
    rw [not_or, Bool.not_eq_false, Bool.not_eq_false] at hform
    rcases of_ite_error h with ⟨hfinite, h⟩
    rcases of_ite_error h with ⟨hnear, h⟩
    rw [Bool.not_eq_false] at hfinite hnear
    rcases of_ite_error h with ⟨hcount, h⟩
    rcases bind_eq_ok.mp h with ⟨verified, hverified, hk⟩
    rcases (checkSignatures_eq_ok (length_hmac _ _)).mp hverified with ⟨htokens, hmem⟩
    by_cases hv : verified = true
    · rw [hv, Bool.false_or] at hmem
      exact ⟨hform, (withinTolerance_iff hform.2).mp ⟨hfinite, hnear⟩, by omega, htokens,
        decide_eq_true_eq.mp hmem.symm⟩
    · rw [if_neg hv] at hk
      cases hk
  · rintro ⟨hform, hnear, hcount, htokens, hmem⟩
    have htolerance := (withinTolerance_iff hform.2).mpr hnear
    have hbad : ¬(hasIdForm (lit "evt_") eventId = false ∨ isSeconds timestamp = false) := by
      rw [hform.1, hform.2]
      decide
    rw [authenticate, if_neg hbad, if_neg (by rw [htolerance.1]; decide),
      if_neg (by rw [htolerance.2]; decide)]
    simp only
    rw [if_neg (by omega)]
    refine bind_eq_ok.mpr ⟨true, (checkSignatures_eq_ok (length_hmac _ _)).mpr ⟨htokens, ?_⟩, rfl⟩
    rw [Bool.false_or, decide_eq_true hmem]

theorem signingKey_eq_ok {secret : Str} {key : Bytes} : signingKey secret = .ok key ↔
    key.length = 32 ∧ secret = secretStart ++ Base64.encode .standard key := by
  unfold signingKey
  rcases hd : dropWord secretStart secret with _ | encoded
  · refine iff_of_false (fun h => by cases h) ?_
    rintro ⟨_, hs⟩
    rw [(dropWord_iff _ _ _).mpr hs] at hd
    cases hd
  · rw [(dropWord_iff _ _ _).mp hd, List.append_cancel_left_eq]
    simp only
    rw [base64Of32_eq_ok]
    exact and_congr_right fun _ => eq_comm

/-- What is taken for genuine. -/
structure Genuine (L : Libs) (rawBody : Bytes) (headers : List HeaderEntry)
    (secret workspaceId : Str) (now : Float64) (e : ResolutionWebhookEvent) : Prop where
  size : 1 ≤ rawBody.length ∧ rawBody.length ≤ 16 * 1024
  workspace : workspaceId ≠ []
  authentic : ∃ (key : Bytes) (timestamp signatures : Str), key.length = 32 ∧
    secret = lit "whsec_" ++ Base64.encode .standard key ∧ Once L headers idHeader e.id ∧
    Once L headers timestampHeader timestamp ∧ Once L headers signatureHeader signatures ∧
    Authentic rawBody key e.id timestamp signatures now
  payload : ∃ (text : Str) (j : Json), encode text = some rawBody ∧ TextOf false j text ∧
    j.WellFormed ∧ DescribesEvent L j e
  expected : e.workspaceId = workspaceId

/-- What is accepted is what is genuine. -/
theorem verify_iff (L : Libs) (rawBody : Bytes) (headers : List HeaderEntry)
    (secret workspaceId : Str) (now : Float64) (e : ResolutionWebhookEvent) :
    verifyResolutionWebhook L rawBody headers secret workspaceId now = .ok e ↔
      Genuine L rawBody headers secret workspaceId now e := by
  constructor
  · intro h
    rcases of_ite_error h with ⟨hsize, h⟩
    rcases of_ite_error h with ⟨hworkspace, h⟩
    rcases bind_eq_ok.mp h with ⟨key, hkey, hk⟩
    rcases bind_eq_ok.mp hk with ⟨found, hfound, hk⟩
    rcases of_ite_error hk with ⟨hthree, hk⟩
    rcases bind_eq_ok.mp hk with ⟨⟨⟩, hauth, hk⟩
    rcases bind_eq_ok.mp hk with ⟨j, hj, hevent⟩
    rcases eventOf_eq_ok.mp hevent with ⟨hdescribes, hid, hexpected⟩
    rcases signedHeaders_once.mp ⟨found, hfound, not_not.mp hthree, rfl, rfl, rfl⟩ with
      ⟨hi, ht, hg⟩
    rcases signingKey_eq_ok.mp hkey with ⟨hlen, hsecret⟩
    rcases payloadOf_eq_ok.mp hj with ⟨text, htext, hjson, hunique⟩
    have hauthentic := authenticate_eq_ok.mp hauth
    rw [← hid] at hi hauthentic
    exact ⟨by omega, hworkspace, ⟨key, _, _, hlen, hsecret, hi, ht, hg, hauthentic⟩,
      ⟨text, j, htext, hjson, hunique, hdescribes⟩, hexpected⟩
  · rintro ⟨hsize, hworkspace, ⟨key, timestamp, signatures, hlen, hsecret, hi, ht, hg, hauth⟩,
      ⟨text, j, htext, hjson, hunique, hdescribes⟩, hexpected⟩
    rcases signedHeaders_once.mpr ⟨hi, ht, hg⟩ with ⟨found, hfound, hthree, hid, htime, hsigs⟩
    rw [verifyResolutionWebhook, if_neg (by omega), if_neg hworkspace]
    refine bind_eq_ok.mpr ⟨key, signingKey_eq_ok.mpr ⟨hlen, hsecret⟩, ?_⟩
    refine bind_eq_ok.mpr ⟨found, hfound, ?_⟩
    rw [if_neg (not_not.mpr hthree)]
    simp only [hid, htime, hsigs]
    refine bind_eq_ok.mpr ⟨(), authenticate_eq_ok.mpr hauth, ?_⟩
    refine bind_eq_ok.mpr ⟨j, payloadOf_eq_ok.mpr ⟨text, htext, hjson, hunique⟩, ?_⟩
    exact eventOf_eq_ok.mpr ⟨hdescribes, rfl, hexpected⟩

/-! ### A delivery just outside the tolerance -/

def lateKey : Bytes := List.replicate 32 0

def lateBody : Bytes := asciiBytes (lit ("\x7b\"id\":\"evt_1\",\"type\":\"confirmation.resolved\"," ++
  "\"timestamp\":\"2026-01-01T00:00:00Z\",\"workspace_id\":\"ws_1\"," ++
  "\"data\":\x7b\"prompt_id\":\"cnf_1\",\"status\":\"approved\",\"source_receipt_id\":null," ++
  "\"resolution_receipt_id\":\"rcp_1\"\x7d\x7d"))

def lateHeaders : List HeaderEntry :=
  [(some (lit "Webhook-Id"), some (lit "evt_1")), (some timestampHeader, some (lit "301")),
    (some signatureHeader,
      some (signatureToken (hmac lateKey (signedContent (lit "evt_1") (lit "301") lateBody))))]

/-- The largest float below one. -/
def lateNow : Float64 := .finite false (2 ^ 53 - 1) (-53)

/-- A delivery is accepted whose time is more than 300 seconds away. -/
theorem tolerance_exceeded :
    (∃ e, verifyResolutionWebhook sampleLibs lateBody lateHeaders
      (secretStart ++ Base64.encode .standard lateKey) (lit "ws_1") lateNow = .ok e) ∧
      Once sampleLibs lateHeaders timestampHeader (lit "301") ∧
      ∃ q, lateNow.value = some q ∧ 300 < |q - 301| := by
  refine ⟨?_, ⟨by decide +kernel, by decide, by decide, by decide⟩, _, rfl, ?_⟩
  · have hok : (verifyResolutionWebhook sampleLibs lateBody lateHeaders
        (secretStart ++ Base64.encode .standard lateKey) (lit "ws_1") lateNow).toOption.isSome =
          true := by
      decide +kernel
    rcases Option.isSome_iff_exists.mp hok with ⟨e, he⟩
    exact ⟨e, ok_of_toOption he⟩
  · norm_num [dyadic]

end Allowly
