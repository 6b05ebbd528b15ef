import Allowly.Core.Webhook
import Allowly.Theory.Response

/-!
# Canonical Encodings

A decoder is canonical for an encoder if it accepts the encodings of the values it is for
and nothing else, and gives back what was encoded. Then no two texts it accepts stand for
the same value, so nobody can change an accepted text without changing what it means.

The two base64 decoders of the program are of this kind. The library routine under them
is not: it drops the bits of the last character that belong to no octet. Both decoders
encode the result again and compare, and that is what the proofs rest on.

## Main definitions

* `Canonical`: A decoder that accepts exactly the encodings.

## Theorems

* `Canonical.injective`: Different accepted texts have different values.
* `canonical_base64Of32`: Signing keys and signatures.
* `canonical_decodeCredential`: The keys of an agent credential.
* `encodings_canonical`: Both.
-/

namespace Allowly

open Py

/-- The decoder accepts exactly the encodings of the values in `P`, and refuses the rest
    with an error in `E`. -/
structure Canonical {A : Type} (decoder : Str → Except Exc A) (encoder : A → Str) (P : A → Prop)
    (E : Exc → Prop) : Prop where
  decodes : ∀ s v, decoder s = .ok v ↔ P v ∧ encoder v = s
  refuses : ∀ s x, decoder s = .error x → E x
  accepts : ∀ s, (∃ v, decoder s = .ok v) ↔ ∃ v, P v ∧ encoder v = s
  restores : ∀ v, P v → decoder (encoder v) = .ok v
  injective : ∀ s t v, decoder s = .ok v → decoder t = .ok v → s = t

/-- The rest follows from what is decoded and what is refused. -/
theorem canonical_of {A : Type} {decoder : Str → Except Exc A} {encoder : A → Str} {P : A → Prop}
    {E : Exc → Prop} (hd : ∀ s v, decoder s = .ok v ↔ P v ∧ encoder v = s)
    (hr : ∀ s x, decoder s = .error x → E x) : Canonical decoder encoder P E where
  decodes := hd
  refuses := hr
  accepts s := exists_congr fun v => hd s v
  restores v hv := (hd _ v).mpr ⟨hv, rfl⟩
  injective s t v hs ht := by
    rw [← ((hd s v).mp hs).2, ← ((hd t v).mp ht).2]

/-- `AllowlyProtocolError`. -/
def IsProtocolError (x : Exc) : Prop := ∃ text shown, x = .protocol text shown

/-- `ValueError` itself. -/
def IsValueError (x : Exc) : Prop := ∃ text, x = .value text

theorem length_encode_32 {b : Bytes} (h : b.length = 32) :
    (Base64.encodeBare .standard b).length = 43 := by
  rw [Base64.length_encodeBare, h]

/-- The encoding of 32 octets passes the pattern. -/
theorem pattern_encode {b : Bytes} (h : b.length = 32) :
    (Base64.encode .standard b).length = 44 ∧
      ((Base64.encode .standard b).take 43).all (Base64.isSymbol .standard) = true ∧
      (Base64.encode .standard b).drop 43 = lit "=" := by
  have hlen := length_encode_32 h
  have henc : Base64.encode .standard b = Base64.encodeBare .standard b ++ lit "=" := by
    rw [Base64.encode, hlen]
    rfl
  rw [henc]
  refine ⟨?_, ?_, ?_⟩
  · rw [List.length_append, hlen]
    rfl
  · rw [← hlen, List.take_left, List.all_eq_true]
    exact Base64.isSymbol_encodeBare .standard b
  · rw [← hlen, List.drop_left]

theorem base64Of32_eq_ok (s : Str) (b : Bytes) :
    base64Of32 s = .ok b ↔ b.length = 32 ∧ Base64.encode .standard b = s := by
  constructor
  · intro h
    simp only [base64Of32] at h
    split at h
    · cases h
    split at h
    · cases h
    · next decoded hdecoded =>
        by_cases hbad : decoded.length ≠ 32 ∨ Base64.encode .standard decoded ≠ s
        · rw [if_pos hbad] at h
          cases h
        · rw [if_neg hbad] at h
          cases h
          rw [not_or, not_not, not_not] at hbad
          exact hbad
  · rintro ⟨hlen, rfl⟩
    rcases pattern_encode hlen with ⟨hfour, hall, hend⟩
    have hpass : ¬((Base64.encode .standard b).length ≠ 44 ∨
        ((Base64.encode .standard b).take 43).all (Base64.isSymbol .standard) = false ∨
        (Base64.encode .standard b).drop 43 ≠ lit "=") := by
      rw [hall, hend, hfour]
      decide
    simp only [base64Of32, if_neg hpass, Base64.decode_encode]
    rw [if_neg (not_or.mpr ⟨not_not.mpr hlen, not_not.mpr rfl⟩)]

theorem base64Of32_refuses (s : Str) (x : Exc) (h : base64Of32 s = .error x) :
    IsProtocolError x := by
  simp only [base64Of32] at h
  split at h
  · cases h
    exact ⟨_, _, rfl⟩
  split at h
  · cases h
    exact ⟨_, _, rfl⟩
  split at h
  · cases h
    exact ⟨_, _, rfl⟩
  · cases h

theorem canonical_base64Of32 :
    Canonical base64Of32 (Base64.encode .standard) (fun b => b.length = 32) IsProtocolError :=
  canonical_of base64Of32_eq_ok base64Of32_refuses

/-- Taking the padding away leaves the characters. -/
theorem credentialText_eq (b : Bytes) : credentialText b = Base64.encodeBare .urlsafe b := by
  have hstop (s : Str) (n : Nat) (hs : ∀ c ∈ s, c ≠ 61) :
      (List.replicate n 61 ++ s).dropWhile (· == 61) = s := by
    rw [List.dropWhile_append_of_pos fun c hc => beq_iff_eq.mpr (List.eq_of_mem_replicate hc)]
    rcases s with _ | ⟨c, s⟩
    · rfl
    · exact List.dropWhile_cons_of_neg fun h => hs c List.mem_cons_self (beq_iff_eq.mp h)
  have hne : ∀ c ∈ (Base64.encodeBare .urlsafe b).reverse, c ≠ 61 := by
    intro c hc
    exact Base64.ne_pad_of_isSymbol .urlsafe
      (Base64.isSymbol_encodeBare .urlsafe b c (List.mem_reverse.mp hc))
  rw [credentialText, Base64.encode, List.reverse_append, Base64.pads, List.reverse_replicate,
    hstop _ _ hne, List.reverse_reverse]

/-- The characters of the pattern are those of the alphabet. -/
theorem isSymbol_urlsafe (c : Nat) : Base64.isSymbol .urlsafe c = isWordDash c := by
  rw [Base64.isSymbol, isWordDash, Bool.or_assoc, Bool.or_assoc]
  exact congrArg (isAlnum c || ·) (Bool.or_comm _ _)

theorem decodeCredential_eq_ok (s : Str) (b : Bytes) :
    decodeCredential s = .ok b ↔ b ≠ [] ∧ credentialText b = s := by
  constructor
  · intro h
    simp only [decodeCredential] at h
    by_cases hform : s = [] ∨ s.all isWordDash = false
    · rw [if_pos hform] at h
      cases h
    rw [if_neg hform] at h
    rw [not_or] at hform
    split at h
    · cases h
    · next decoded hdecoded =>
        by_cases hbad : credentialText decoded ≠ s
        · rw [if_pos hbad] at h
          cases h
        · rw [if_neg hbad] at h
          cases h
          have hback := not_not.mp hbad
          refine ⟨?_, hback⟩
          -- No octets at all have the empty text, which the pattern refuses.
          rintro rfl
          exact hform.1 hback.symm
  · rintro ⟨hne, rfl⟩
    have hform : ¬(credentialText b = [] ∨ (credentialText b).all isWordDash = false) := by
      rw [credentialText_eq, not_or, Bool.not_eq_false, List.all_eq_true]
      refine ⟨Base64.encodeBare_ne_nil _ hne, ?_⟩
      intro c hc
      rw [← isSymbol_urlsafe]
      exact Base64.isSymbol_encodeBare .urlsafe b c hc
    have hdecode : Base64.decode .urlsafe (credentialText b ++ Base64.pads (credentialText b).length)
        = some b := by
      rw [credentialText_eq]
      exact Base64.decode_encode .urlsafe b
    simp only [decodeCredential, if_neg hform, hdecode, ne_eq, not_true, if_false]

theorem decodeCredential_refuses (s : Str) (x : Exc) (h : decodeCredential s = .error x) :
    IsValueError x := by
  simp only [decodeCredential] at h
  split at h
  · cases h
    exact ⟨_, rfl⟩
  split at h
  · cases h
    exact ⟨_, rfl⟩
  split at h
  · cases h
    exact ⟨_, rfl⟩
  · cases h

theorem canonical_decodeCredential :
    Canonical decodeCredential credentialText (fun b => b ≠ []) IsValueError :=
  canonical_of decodeCredential_eq_ok decodeCredential_refuses

/-- Keys, signatures and credentials have one text each. -/
theorem encodings_canonical :
    Canonical base64Of32 (Base64.encode .standard) (fun b => b.length = 32) IsProtocolError ∧
      Canonical decodeCredential credentialText (fun b => b ≠ []) IsValueError :=
  ⟨canonical_base64Of32, canonical_decodeCredential⟩

end Allowly
