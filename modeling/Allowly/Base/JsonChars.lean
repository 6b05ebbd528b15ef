import Allowly.Base.JsonText

/-!
# Texts in JSON that Have a UTF-8 Form

A value that was read may hold lone surrogates, and a text with one has no UTF-8 form. What
was written as octets holds none, at any depth: the writer leaves such characters as they
are, so the octets would not exist.

## Main definitions

* `Encodes`: Every character has a UTF-8 form.
* `Json.Encodes`: The value is written, as a text that has a UTF-8 form.

## Theorems

* `encode_eq_some_iff`: A text has a UTF-8 form when its characters have.
* `encodes_dumpsString`: A string literal has one when the text has.
* `Json.Encodes.get`: What is in an object has one when the object has.
* `Json.encodes_texts`: A list of texts has one when each text has.
-/

namespace Py

/-- Every character has a UTF-8 form. -/
def Encodes (s : Str) : Prop := ∀ c ∈ s, (encodeChar c).isSome = true

theorem encode_eq_some_iff {s : Str} : (∃ b, encode s = some b) ↔ Encodes s := by
  induction s with
  | nil =>
      refine ⟨fun _ c hc => ?_, fun _ => ⟨[], rfl⟩⟩
      cases hc
  | cons c s ih =>
      constructor
      · intro h
        rcases h with ⟨b, h⟩
        simp only [encode, Option.bind_eq_bind, Option.bind_eq_some_iff] at h
        rcases h with ⟨e, he, t, ht, _⟩
        intro d hd
        rcases List.mem_cons.mp hd with rfl | hd
        · rw [he]
          rfl
        · exact ih.mp ⟨t, ht⟩ d hd
      · intro h
        rcases Option.isSome_iff_exists.mp (h c List.mem_cons_self) with ⟨e, he⟩
        rcases ih.mpr fun d hd => h d (List.mem_cons_of_mem c hd) with ⟨t, ht⟩
        refine ⟨e ++ t, ?_⟩
        simp only [encode, he, ht, Option.bind_eq_bind, Option.bind_some, Option.pure_def]

theorem encodes_append {s t : Str} : Encodes (s ++ t) ↔ Encodes s ∧ Encodes t := by
  simp only [Encodes, List.mem_append, or_imp, forall_and]

theorem encodes_cons {c : Nat} {s : Str} :
    Encodes (c :: s) ↔ (encodeChar c).isSome = true ∧ Encodes s := by
  simp only [Encodes, List.mem_cons, forall_eq_or_imp]

theorem encodes_nil : Encodes [] := nofun

theorem encodeChar_ascii {c : Nat} (h : c < 128) : (encodeChar c).isSome = true := by
  rw [encodeChar, if_pos (by omega)]
  rfl

theorem encodes_ascii {s : Str} (h : ∀ c ∈ s, c < 128) : Encodes s :=
  fun c hc => encodeChar_ascii (h c hc)

theorem hexDigit_lt {n : Nat} (h : n < 16) : hexDigit n < 128 := by
  unfold hexDigit
  split
  · omega
  · omega

/-- An escape is ASCII, and any other character is written as it is. -/
theorem encodes_escapeChar {c : Nat} : Encodes (escapeChar c) ↔ (encodeChar c).isSome = true := by
  by_cases hc : c < 128
  · refine ⟨fun _ => encodeChar_ascii hc, fun _ => encodes_ascii ?_⟩
    intro d hd
    unfold escapeChar at hd
    split_ifs at hd
    · simp at hd; omega
    · simp at hd; omega
    · simp at hd; omega
    · simp at hd; omega
    · simp at hd; omega
    · simp at hd; omega
    · simp at hd; omega
    · have h1 := hexDigit_lt (show c / 16 < 16 by omega)
      have h2 := hexDigit_lt (show c % 16 < 16 by omega)
      simp at hd
      omega
    · simp at hd; omega
  · have hsame : escapeChar c = [c] := by
      unfold escapeChar
      rw [if_neg (by omega), if_neg (by omega), if_neg (by omega), if_neg (by omega),
        if_neg (by omega), if_neg (by omega), if_neg (by omega), if_neg (by omega)]
    rw [hsame, encodes_cons]
    exact and_iff_left encodes_nil

theorem encodes_flatMap {s : Str} : Encodes (s.flatMap escapeChar) ↔ Encodes s := by
  induction s with
  | nil => exact Iff.rfl
  | cons c s ih => rw [List.flatMap_cons, encodes_append, encodes_cons, encodes_escapeChar, ih]

theorem encodes_dumpsString {s : Str} : Encodes (dumpsString s) ↔ Encodes s := by
  rw [dumpsString, List.cons_append, encodes_cons, encodes_append, encodes_flatMap]
  refine ⟨fun h => h.2.1, fun h => ⟨encodeChar_ascii (by decide), h, ?_⟩⟩
  exact encodes_cons.mpr ⟨encodeChar_ascii (by decide), encodes_nil⟩

namespace Json

/-- The value is written, as a text that has a UTF-8 form. -/
def Encodes (j : Json) : Prop := ∃ t, dumps j = some t ∧ Py.Encodes t

theorem encodes_null : Encodes .null := by
  refine ⟨lit "null", rfl, encodes_ascii ?_⟩
  decide

theorem encodes_str {s : Str} : Encodes (.str s) ↔ Py.Encodes s := by
  constructor
  · intro h
    rcases h with ⟨t, ht, h⟩
    cases ht
    exact encodes_dumpsString.mp h
  · intro h
    exact ⟨dumpsString s, rfl, encodes_dumpsString.mpr h⟩

theorem encodes_lookup {ms : List (Str × Json)} {u k : Str} {v : Json}
    (hu : dumpsMembers ms = some u) (h : Py.Encodes u) (hv : lookup k ms = some v) :
    Encodes v := by
  induction ms generalizing u with
  | nil => cases hv
  | cons m ms ih =>
      rcases m with ⟨l, w⟩
      simp only [dumpsMembers, Option.bind_eq_bind, Option.bind_eq_some_iff, Option.pure_def,
        Option.some.injEq] at hu
      rcases hu with ⟨t, ht, u', hu', rfl⟩
      rw [encodes_append, encodes_append, List.append_cons, encodes_append] at h
      rw [lookup] at hv
      by_cases hk : k = l
      · rw [if_pos hk, Option.some.injEq] at hv
        rw [← hv]
        exact ⟨t, ht, h.1.1.2⟩
      · rw [if_neg hk] at hv
        exact ih hu' h.2 hv

/-- What is in an object has a UTF-8 form when the object has. -/
theorem Encodes.get {j : Json} (h : j.Encodes) (k : String) : (j.get k).Encodes := by
  cases j with
  | obj ms =>
      rcases h with ⟨t, ht, h⟩
      simp only [dumps, Option.bind_eq_bind, Option.bind_eq_some_iff, Option.pure_def,
        Option.some.injEq] at ht
      rcases ht with ⟨u, hu, rfl⟩
      rw [List.cons_append, encodes_cons, encodes_append] at h
      cases hv : lookup (lit k) ms with
      | none =>
          rw [Json.get, hv]
          exact encodes_null
      | some v =>
          rw [Json.get, hv]
          exact encodes_lookup hu h.2.1 hv
  | _ => exact encodes_null

/-- A list of texts has a UTF-8 form when each text has. -/
theorem encodes_texts {ss : List Str} (h : ∀ s ∈ ss, Py.Encodes s) :
    Encodes (.arr (ss.map .str)) := by
  have hitems : ∃ u, dumpsItems (ss.map .str) = some u ∧ Py.Encodes u := by
    induction ss with
    | nil => exact ⟨[], rfl, encodes_nil⟩
    | cons s ss ih =>
        rcases ih fun x hx => h x (List.mem_cons_of_mem s hx) with ⟨u, hu, henc⟩
        refine ⟨dumpsString s ++ (if ss.map Json.str = [] then [] else [44]) ++ u, ?_, ?_⟩
        · simp only [List.map_cons, dumpsItems, dumps, hu, Option.bind_eq_bind, Option.bind_some,
            Option.pure_def]
        · rw [encodes_append, encodes_append]
          refine ⟨⟨encodes_dumpsString.mpr (h s List.mem_cons_self), ?_⟩, henc⟩
          split
          · exact encodes_nil
          · exact encodes_ascii (by decide)
  rcases hitems with ⟨u, hu, henc⟩
  refine ⟨91 :: u ++ [93], ?_, ?_⟩
  · simp only [dumps, hu, Option.bind_eq_bind, Option.bind_some, Option.pure_def]
  · rw [List.cons_append, encodes_cons, encodes_append]
    exact ⟨encodeChar_ascii (by decide), henc, encodes_ascii (by decide)⟩

end Json

end Py
