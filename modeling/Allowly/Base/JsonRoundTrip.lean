import Allowly.Base.JsonScan
import Mathlib.Data.Nat.Digits.Lemmas

/-!
# Reading Back What Was Written

`dumps` writes a text of the value it is given, so by `parse_iff` the scanner
reads that value again. What `loads` does after scanning, building dictionaries,
changes nothing as long as no object repeats a key.

Going through bytes needs one thing more. `json.loads` guesses the encoding from
the first octets, and the guess must be UTF-8. It is for an object: the text begins
with a brace, and what follows a brace is a quote or the closing brace.

## Main definitions

* `unitOf`: The unit a character is written as.

## Theorems

* `dumps_text`: What `dumps` writes is a text of the value.
* `merge_of_wellFormed`: Building dictionaries keeps a value without repeated keys.
* `loads_dumps`: `json.loads` undoes `json.dumps`.
* `loadsBytes_dumps`: So it does on the UTF-8 bytes of an object.
-/

namespace Py

/-- The unit a character is written as inside a literal. -/
def unitOf (c : Nat) : StrUnit :=
  if c < 32 ∧ c ≠ 10 ∧ c ≠ 13 ∧ c ≠ 9 ∧ c ≠ 12 ∧ c ≠ 8 then .escape c else .plain c

theorem hex4_hexDigit : ∀ c < 32, hex4 48 48 (hexDigit (c / 16)) (hexDigit (c % 16)) = some c := by
  decide

theorem escapeChar_text (c : Nat) : UnitText (unitOf c) (escapeChar c) := by
  by_cases hs : c = 34 ∨ c = 92 ∨ c = 10 ∨ c = 13 ∨ c = 9 ∨ c = 12 ∨ c = 8
  · rcases hs with rfl | rfl | rfl | rfl | rfl | rfl | rfl
    all_goals exact UnitText.simple _ _ rfl
  · unfold escapeChar
    rw [if_neg (by omega), if_neg (by omega), if_neg (by omega), if_neg (by omega),
      if_neg (by omega), if_neg (by omega), if_neg (by omega)]
    by_cases hlow : c < 32
    · have hu : unitOf c = .escape c := if_pos (by omega)
      rw [hu, if_pos hlow]
      exact UnitText.hex _ _ _ _ c (hex4_hexDigit c hlow)
    · have hu : unitOf c = .plain c := if_neg (by omega)
      rw [hu, if_neg hlow]
      exact UnitText.char c (by omega) (by omega) (by omega)

/-- No character is written as half of a surrogate pair. -/
theorem joinUnits_unitOf (s : Str) : joinUnits (s.map unitOf) = s := by
  induction s with
  | nil => rfl
  | cons c s ih =>
      rw [List.map_cons]
      by_cases hc : c < 32 ∧ c ≠ 10 ∧ c ≠ 13 ∧ c ≠ 9 ∧ c ≠ 12 ∧ c ≠ 8
      · have hu : unitOf c = .escape c := if_pos hc
        rw [hu]
        cases hs : s.map unitOf with
        | nil =>
            rw [hs] at ih
            rw [joinUnits, ih]
            rintro _ _ h
            cases h
        | cons u us =>
            rw [hs] at ih
            cases u with
            | plain d =>
                rw [joinUnits, ih]
                rintro _ _ h
                cases h
            | escape d =>
                have hhigh : isHigh c = false := by
                  simp only [isHigh, Bool.and_eq_false_iff, decide_eq_false_iff_not]
                  exact Or.inl (by omega)
                rw [joinUnits, hhigh, Bool.false_and, if_neg Bool.false_ne_true, ih]
      · have hu : unitOf c = .plain c := if_neg hc
        rw [hu, joinUnits, ih]

theorem unitsText_flatMap (s : Str) : UnitsText (s.map unitOf) (s.flatMap escapeChar) := by
  induction s with
  | nil => rfl
  | cons c s ih => exact ⟨_, _, rfl, escapeChar_text c, ih⟩

theorem dumpsString_text (s : Str) : StringText s (dumpsString s) :=
  ⟨s.map unitOf, s.flatMap escapeChar, unitsText_flatMap s, joinUnits_unitOf s, rfl⟩

/-! ### Numbers -/

theorem digitsVal_append (a b : Str) (n : Nat) :
    (a ++ b).foldl (fun a d => a * 10 + (d - 48)) n
      = b.foldl (fun a d => a * 10 + (d - 48)) (a.foldl (fun a d => a * 10 + (d - 48)) n) :=
  List.foldl_append

theorem digitsVal_digits (ds : List Nat) :
    digitsVal (ds.reverse.map (· + 48)) = Nat.ofDigits 10 ds := by
  induction ds with
  | nil => rfl
  | cons d ds ih =>
      rw [List.reverse_cons, List.map_append, digitsVal, digitsVal_append, ← digitsVal, ih,
        Nat.ofDigits_cons]
      simp only [List.map_cons, List.map_nil, List.foldl_cons, List.foldl_nil]
      omega

theorem digitsVal_natText (n : Nat) : digitsVal (natText n) = n := by
  unfold natText
  by_cases hn : n = 0
  · rw [if_pos hn, hn]
    rfl
  · rw [if_neg hn, digitsVal_digits, Nat.ofDigits_digits]

theorem natText_text (n : Nat) : IntText (natText n) := by
  unfold natText
  by_cases hn : n = 0
  · rw [if_pos hn]
    exact Or.inl rfl
  · rw [if_neg hn]
    have hdigit : ∀ d ∈ Nat.digits 10 n, isDigit (d + 48) = true := by
      intro d hd
      have hlt := Nat.digits_lt_base (by omega : 1 < 10) hd
      simp only [isDigit, Bool.and_eq_true, decide_eq_true_eq]
      omega
    have hne : Nat.digits 10 n ≠ [] := Nat.digits_ne_nil_iff_ne_zero.mpr hn
    have hlast := Nat.getLast_digit_ne_zero 10 hn
    have hrev : (Nat.digits 10 n).reverse
        = (Nat.digits 10 n).getLast hne :: (Nat.digits 10 n).dropLast.reverse := by
      conv_lhs => rw [← List.dropLast_append_getLast hne]
      rw [List.reverse_append]
      rfl
    refine Or.inr ⟨(Nat.digits 10 n).getLast hne + 48,
      (Nat.digits 10 n).dropLast.reverse.map (· + 48), by rw [hrev]; rfl,
      hdigit _ (List.getLast_mem hne), by omega, ?_⟩
    intro c hc
    rcases List.mem_map.mp hc with ⟨d, hd, rfl⟩
    exact hdigit d (List.mem_of_mem_dropLast (List.mem_reverse.mp hd))

theorem dumpsInt_text {n : Int} {t : Str} (h : dumpsInt n = some t) : NumberText (.int n) t := by
  unfold dumpsInt at h
  by_cases hlen : (natText n.natAbs).length ≤ maxIntDigits
  · rw [if_pos hlen, Option.some.injEq] at h
    subst h
    refine ⟨decide (n < 0), natText n.natAbs, none, [], none, [], natText_text _, rfl, rfl, ?_, ?_⟩
    · simp only [decide_eq_true_eq, List.append_nil]
    · simp only [numberValue, if_pos hlen, digitsVal_natText, Option.some.injEq, Json.int.injEq,
        decide_eq_true_eq]
      by_cases hn : n < 0
      · rw [if_pos hn]
        omega
      · rw [if_neg hn]
        omega
  · rw [if_neg hlen] at h
    cases h

theorem reprFloat_text {x : Float64} {t : Str} (h : reprFloat x = some t) :
    NumberText (.float x) t := by
  cases x with
  | inf neg => cases h
  | nan => cases h
  | finite neg m e =>
      have hread := List.find?_some h
      rw [beq_iff_eq] at hread
      rcases scanNumber_sound hread with ⟨a, ha, heq⟩
      rw [List.append_nil] at heq
      rw [heq]
      exact ha

/-! ### Values -/

/-- What `dumps` writes is a text of the value. -/
theorem dumps_text (constants : Bool) (j : Json) (t : Str) (h : dumps j = some t) :
    ValueText constants j t := by
  refine (Json.induct (P := fun j => ∀ t, dumps j = some t → ValueText constants j t)
    (Q := fun xs => ∀ t, dumpsItems xs = some t → ItemsText constants xs t)
    (R := fun ms => ∀ t, dumpsMembers ms = some t → MembersText constants ms t)
    ?_ ?_ ?_ ?_ ?_ ?_ ?_ ?_ ?_ ?_ ?_).1 j t h
  · intro t h
    rw [dumps, Option.some.injEq] at h
    exact h.symm
  · intro b t h
    rw [dumps, Option.some.injEq] at h
    exact h.symm
  · intro n t h
    exact dumpsInt_text h
  · intro x t h
    exact Or.inl (reprFloat_text h)
  · intro s t h
    rw [dumps, Option.some.injEq] at h
    rw [← h]
    exact dumpsString_text s
  · intro xs ih t h
    simp only [dumps, Option.bind_eq_bind, Option.bind_eq_some_iff, Option.pure_def,
      Option.some.injEq] at h
    rcases h with ⟨b, hb, rfl⟩
    exact ⟨b, ih b hb, rfl⟩
  · intro ms ih t h
    simp only [dumps, Option.bind_eq_bind, Option.bind_eq_some_iff, Option.pure_def,
      Option.some.injEq] at h
    rcases h with ⟨b, hb, rfl⟩
    exact ⟨b, ih b hb, rfl⟩
  · intro t h
    rw [dumpsItems, Option.some.injEq] at h
    rw [← h]
    exact ws_nil
  · intro x xs hx ih t h
    simp only [dumpsItems, Option.bind_eq_bind, Option.bind_eq_some_iff, Option.pure_def,
      Option.some.injEq] at h
    rcases h with ⟨a, ha, b, hb, rfl⟩
    by_cases hxs : xs = []
    · subst hxs
      rw [dumpsItems, Option.some.injEq] at hb
      refine ⟨[], a, [], [], ws_nil, hx a ha, ws_nil, ?_, Or.inl ⟨rfl, rfl⟩⟩
      rw [← hb, if_pos rfl]
      simp only [List.append_nil, List.nil_append]
    · refine ⟨[], a, [], 44 :: b, ws_nil, hx a ha, ws_nil, ?_, Or.inr ⟨hxs, b, rfl, ih b hb⟩⟩
      rw [if_neg hxs]
      simp only [List.append_assoc, List.nil_append, List.cons_append]
  · intro t h
    rw [dumpsMembers, Option.some.injEq] at h
    rw [← h]
    exact ws_nil
  · intro k v ms hv ih t h
    simp only [dumpsMembers, Option.bind_eq_bind, Option.bind_eq_some_iff, Option.pure_def,
      Option.some.injEq] at h
    rcases h with ⟨a, ha, b, hb, rfl⟩
    by_cases hms : ms = []
    · subst hms
      rw [dumpsMembers, Option.some.injEq] at hb
      refine ⟨[], dumpsString k, [], [], a, [], [], ws_nil, dumpsString_text k, ws_nil, ws_nil,
        hv a ha, ws_nil, ?_, Or.inl ⟨rfl, rfl⟩⟩
      rw [← hb, if_pos rfl]
      simp only [List.append_nil, List.nil_append]
    · refine ⟨[], dumpsString k, [], [], a, [], 44 :: b, ws_nil, dumpsString_text k, ws_nil,
        ws_nil, hv a ha, ws_nil, ?_, Or.inr ⟨hms, b, rfl, ih b hb⟩⟩
      rw [if_neg hms]
      simp only [List.append_assoc, List.nil_append, List.cons_append]

theorem insert_fresh {k : Str} {ms : List (Str × Json)} (h : k ∉ ms.map Prod.fst) (v : Json) :
    Json.insert k v ms = ms ++ [(k, v)] := by
  induction ms with
  | nil => rfl
  | cons m ms ih =>
      rw [List.map_cons, List.mem_cons, not_or] at h
      rw [Json.insert, if_neg h.1, ih h.2, List.cons_append]

/-- Building dictionaries keeps a value without repeated keys. -/
theorem merge_of_wellFormed (j : Json) (h : j.WellFormed) : j.merge = j := by
  refine (Json.induct (P := fun j => j.WellFormed → j.merge = j)
    (Q := fun xs => Json.WellFormedItems xs → Json.mergeItems xs = xs)
    (R := fun ms => Json.WellFormedMembers ms → ∀ built,
      ((built ++ ms).map Prod.fst).Nodup → Json.mergeMembers built ms = built ++ ms)
    ?_ ?_ ?_ ?_ ?_ ?_ ?_ ?_ ?_ ?_ ?_).1 j h
  · exact fun _ => rfl
  · exact fun _ _ => rfl
  · exact fun _ _ => rfl
  · exact fun _ _ => rfl
  · exact fun _ _ => rfl
  · intro xs ih h
    rw [Json.merge, ih h]
  · intro ms ih h
    rw [Json.merge, ih h.2 [] h.1, List.nil_append]
  · exact fun _ => rfl
  · intro x xs hx ih h
    rw [Json.mergeItems, hx h.1, ih h.2]
  · intro _ built _
    rw [Json.mergeMembers, List.append_nil]
  · intro k v ms hv ih h built hnodup
    have hfresh : k ∉ built.map Prod.fst := by
      rw [List.map_append, List.map_cons, List.nodup_append] at hnodup
      intro hk
      exact hnodup.2.2 k hk k List.mem_cons_self rfl
    rw [Json.mergeMembers, hv h.1, insert_fresh hfresh, ih h.2]
    · rw [List.append_assoc, List.singleton_append]
    · rw [List.append_assoc, List.singleton_append]
      exact hnodup

/-- `json.loads` undoes `json.dumps`. -/
theorem loads_dumps {j : Json} {t : Str} (hw : j.WellFormed) (h : dumps j = some t) :
    loads t = some j := by
  have htext : TextOf true j t :=
    ⟨[], t, [], ws_nil, dumps_text true j t h, ws_nil, (List.append_nil t).symm⟩
  rw [loads, (parse_iff true t j).mpr htext, Option.map_some, merge_of_wellFormed j hw]

theorem dumps_injective {a b : Json} {t : Str} (ha : a.WellFormed) (hb : b.WellFormed)
    (hta : dumps a = some t) (htb : dumps b = some t) : a = b := by
  have h := loads_dumps ha hta
  rw [loads_dumps hb htb, Option.some.injEq] at h
  exact h.symm

/-- A text that begins with two characters of which neither is null is taken to
    be in UTF-8, unless it begins with a byte order mark. -/
theorem detectEncoding_utf8 {a b : UInt8} (r : Bytes) (ha : a ≠ 0) (hb : b ≠ 0)
    (hfe : a ≠ 0xFE) (hff : a ≠ 0xFF) (hef : a ≠ 0xEF) :
    detectEncoding (a :: b :: r) = (.utf8, a :: b :: r) := by
  have hmark {c : UInt8} (hc : a ≠ c) (m : Bytes) : ¬ c :: m <+: a :: b :: r :=
    fun h => hc (List.cons_prefix_cons.mp h).1.symm
  unfold detectEncoding
  rw [if_neg (hmark ha _), if_neg (hmark hff _), if_neg (hmark hfe _), if_neg (hmark hff _),
    if_neg (hmark hef _)]
  rcases r with _ | ⟨c, _ | ⟨d, r⟩⟩
  · simp only [if_neg ha, if_neg hb]
  · rfl
  · simp only [if_neg ha, if_neg hb]

/-- The text of an object begins with a brace and a quote, or is a pair of
    braces. -/
theorem dumps_obj_head {ms : List (Str × Json)} {t : Str} (h : dumps (.obj ms) = some t) :
    ∃ c r, t = 123 :: c :: r ∧ (c = 34 ∨ c = 125) := by
  simp only [dumps, Option.bind_eq_bind, Option.bind_eq_some_iff, Option.pure_def,
    Option.some.injEq] at h
  rcases h with ⟨b, hb, rfl⟩
  cases ms with
  | nil =>
      rw [dumpsMembers, Option.some.injEq] at hb
      rw [← hb]
      exact ⟨125, [], rfl, Or.inr rfl⟩
  | cons m ms =>
      simp only [dumpsMembers, Option.bind_eq_bind, Option.bind_eq_some_iff, Option.pure_def,
        Option.some.injEq] at hb
      rcases hb with ⟨a, _, u, _, rfl⟩
      exact ⟨34, _, rfl, Or.inl rfl⟩

/-- `json.loads` undoes `json.dumps` on the UTF-8 bytes of an object. -/
theorem loadsBytes_dumps {j : Json} {t : Str} {b : Bytes} (ho : j.isObj = true)
    (hw : j.WellFormed) (h : dumps j = some t) (hb : encode t = some b) :
    loadsBytes b = some j := by
  have hdecode : decodeJson b = some t := by
    cases j with
    | obj ms =>
        rcases dumps_obj_head h with ⟨c, r, rfl, hc⟩
        have hbytes : ∃ d q, b = 123 :: d :: q ∧ d ≠ 0 := by
          rcases hc with rfl | rfl
          · simp only [encode, encodeChar, Option.bind_eq_bind, Option.bind_eq_some_iff,
              Option.pure_def, Option.some.injEq] at hb
            rcases hb with ⟨x, hx, y, ⟨z, hz, w, hw, rfl⟩, rfl⟩
            simp at hx hz
            subst hx hz
            exact ⟨34, w, rfl, by decide⟩
          · simp only [encode, encodeChar, Option.bind_eq_bind, Option.bind_eq_some_iff,
              Option.pure_def, Option.some.injEq] at hb
            rcases hb with ⟨x, hx, y, ⟨z, hz, w, hw, rfl⟩, rfl⟩
            simp at hx hz
            subst hx hz
            exact ⟨125, w, rfl, by decide⟩
        rcases hbytes with ⟨d, q, rfl, hd⟩
        rw [decodeJson, detectEncoding_utf8 q (by decide) hd (by decide) (by decide) (by decide)]
        exact decode_encode true _ _ hb
    | _ => cases ho
  rw [loadsBytes, hdecode, Option.bind_some, loads_dumps hw h]

/-- Merging leaves no key twice in an object. -/
theorem wellFormed_merge (j : Json) : j.merge.WellFormed := by
  have h := Json.induct (P := fun j => j.merge.WellFormed)
    (Q := fun xs => Json.WellFormedItems (Json.mergeItems xs))
    (R := fun ms => ∀ built, Json.WellFormed (.obj built) →
      Json.WellFormed (.obj (Json.mergeMembers built ms)))
    trivial (fun _ => trivial) (fun _ => trivial) (fun _ => trivial) (fun _ => trivial)
    (fun xs ih => ih) (fun ms ih => ih [] ⟨List.nodup_nil, trivial⟩) trivial
    (fun x xs hx ih => ⟨hx, ih⟩) (fun built h => h) ?_
  · exact h.1 j
  · intro k v ms hv ih built hb
    refine ih _ ⟨?_, Json.wellFormedMembers_insert hb.2 hv⟩
    rw [Json.keys_insert]
    by_cases hk : k ∈ built.map Prod.fst
    · rw [if_pos hk]
      exact hb.1
    · rw [if_neg hk]
      exact List.nodup_append.mpr ⟨hb.1, List.nodup_singleton _, by
        intro a ha b hb' hab
        rw [List.mem_singleton] at hb'
        exact hk (hb' ▸ hab ▸ ha)⟩

theorem wellFormed_loadsBytes {b : Bytes} {j : Json} (h : loadsBytes b = some j) :
    j.WellFormed := by
  rw [loadsBytes, Option.bind_eq_some_iff] at h
  rcases h with ⟨t, _, ht⟩
  rw [loads, Option.map_eq_some_iff] at ht
  rcases ht with ⟨i, _, rfl⟩
  exact wellFormed_merge i

end Py
