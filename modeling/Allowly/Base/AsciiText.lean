import Allowly.Base.JsonChars
import Allowly.Base.JsonRoundTrip
import Mathlib.Data.List.Chain

/-!
# JSON in ASCII

`dumps` with its default `ensure_ascii`, and with the constants for the floats that are not
numbers. A character outside ASCII is written as an escape, and one beyond the first plane as
two escapes, the halves of a surrogate pair.

Reading joins such halves, whoever wrote them. So a text in which a high surrogate stands
right before a low one, each a character of its own, is not read back as it was. No text is
like that which was itself read from UTF-8, where surrogates can only come from escapes.

## Main definitions

* `escapeAscii`, `dumpsAscii`: Writing in ASCII.
* `Joined`: No two characters are the halves of a pair.
* `Json.Texts`: What holds of every text in a value.

## Theorems

* `joinUnits_asciiUnits`: A text is read back as it was.
* `dumpsAscii_text`, `loads_dumpsAscii`: So is a value.
* `dumpsAscii_plain`: What is written can be printed, and is ASCII.
* `texts_joined`: What was read from a text without surrogates is written and read back.
-/

namespace Py

/-- The escape of a code unit. -/
def escapeUnit (n : Nat) : Str :=
  [92, 117, hexDigit (n / 4096), hexDigit (n / 256 % 16), hexDigit (n / 16 % 16), hexDigit (n % 16)]

def isSimple (c : Nat) : Bool :=
  c == 34 || c == 92 || c == 10 || c == 13 || c == 9 || c == 12 || c == 8

/-- How a character is written in ASCII. -/
def escapeAscii (c : Nat) : Str :=
  if isSimple c then escapeChar c
  else if 32 ≤ c ∧ c < 127 then [c]
  else if c < 0x10000 then escapeUnit c
  else escapeUnit (0xD800 + (c - 0x10000) / 1024) ++ escapeUnit (0xDC00 + (c - 0x10000) % 1024)

def dumpsAsciiString (s : Str) : Str := 34 :: s.flatMap escapeAscii ++ [34]

/-- A float, or the constant for one that is not a number. -/
def dumpsFloat : Float64 → Option Str
  | .nan => some (lit "NaN")
  | .inf neg => some (lit (if neg then "-Infinity" else "Infinity"))
  | .finite neg m e => reprFloat (.finite neg m e)

mutual

/-- `json.dumps` with compact separators. -/
def dumpsAscii : Json → Option Str
  | .null => some (lit "null")
  | .bool b => some (lit (if b then "true" else "false"))
  | .int n => dumpsInt n
  | .float x => dumpsFloat x
  | .str s => some (dumpsAsciiString s)
  | .arr xs => do
    let t ← dumpsAsciiItems xs
    return 91 :: t ++ [93]
  | .obj ms => do
    let t ← dumpsAsciiMembers ms
    return 123 :: t ++ [125]
termination_by structural j => j

def dumpsAsciiItems : List Json → Option Str
  | [] => some []
  | x :: xs => do
    let t ← dumpsAscii x
    let u ← dumpsAsciiItems xs
    return t ++ (if xs = [] then [] else [44]) ++ u
termination_by structural xs => xs

def dumpsAsciiMembers : List (Str × Json) → Option Str
  | [] => some []
  | (k, v) :: ms => do
    let t ← dumpsAscii v
    let u ← dumpsAsciiMembers ms
    return dumpsAsciiString k ++ 58 :: t ++ (if ms = [] then [] else [44]) ++ u
termination_by structural ms => ms

end

/-- No two characters that are next to each other are the halves of a surrogate pair. -/
def Joined (s : Str) : Prop :=
  (∀ c ∈ s, c < 0x110000) ∧ List.IsChain (fun h l => (isHigh h && isLow l) = false) s

namespace Json

mutual

/-- Every text in a value, the names of its members included, is such a text. -/
def Texts (P : Str → Prop) : Json → Prop
  | .str s => P s
  | .arr xs => TextsItems P xs
  | .obj ms => TextsMembers P ms
  | _ => True
termination_by structural j => j

def TextsItems (P : Str → Prop) : List Json → Prop
  | [] => True
  | x :: xs => x.Texts P ∧ TextsItems P xs
termination_by structural xs => xs

def TextsMembers (P : Str → Prop) : List (Str × Json) → Prop
  | [] => True
  | (k, v) :: ms => P k ∧ v.Texts P ∧ TextsMembers P ms
termination_by structural ms => ms

end

end Json

/-! ### Strings -/

/-- The units a character is written as. -/
def asciiUnits (c : Nat) : List StrUnit :=
  if isSimple c = true ∨ (32 ≤ c ∧ c < 127) then [.plain c]
  else if c < 0x10000 then [.escape c]
  else [.escape (0xD800 + (c - 0x10000) / 1024), .escape (0xDC00 + (c - 0x10000) % 1024)]

theorem hexVal_hexDigit : ∀ n < 16, hexVal (hexDigit n) = some n := by
  decide

theorem escapeUnit_text {n : Nat} (h : n < 0x10000) : UnitText (.escape n) (escapeUnit n) := by
  refine UnitText.hex _ _ _ _ n ?_
  simp only [hex4, hexVal_hexDigit _ (show n / 4096 < 16 by omega),
    hexVal_hexDigit _ (Nat.mod_lt _ (show 0 < 16 by omega)), Option.bind_eq_bind, Option.bind_some,
    Option.pure_def, Option.some.injEq]
  omega

theorem unitsText_append {us vs : List StrUnit} {a b : Str} (hu : UnitsText us a)
    (hv : UnitsText vs b) : UnitsText (us ++ vs) (a ++ b) := by
  induction us generalizing a with
  | nil =>
      rw [UnitsText] at hu
      rw [hu]
      exact hv
  | cons u us ih =>
      rcases hu with ⟨c, d, rfl, hc, hd⟩
      exact ⟨c, d ++ b, List.append_assoc _ _ _, hc, ih hd⟩

theorem escapeAscii_text {c : Nat} (h : c < 0x110000) : UnitsText (asciiUnits c) (escapeAscii c) := by
  unfold asciiUnits escapeAscii
  by_cases hs : isSimple c = true
  · rw [if_pos (Or.inl hs), if_pos hs]
    have hplain : unitOf c = .plain c := by
      simp only [isSimple, Bool.or_eq_true, beq_iff_eq] at hs
      exact if_neg (by omega)
    exact ⟨_, [], (List.append_nil _).symm, hplain ▸ escapeChar_text c, rfl⟩
  · rw [if_neg hs]
    simp only [isSimple, Bool.or_eq_true, beq_iff_eq, not_or] at hs
    by_cases hp : 32 ≤ c ∧ c < 127
    · rw [if_pos (Or.inr hp), if_pos hp]
      exact ⟨[c], [], rfl, UnitText.char c hp.1 (by omega) (by omega), rfl⟩
    · rw [if_neg hp]
      have hneg : ¬(isSimple c = true ∨ (32 ≤ c ∧ c < 127)) := by
        simp only [isSimple, Bool.or_eq_true, beq_iff_eq]
        omega
      rw [if_neg hneg]
      by_cases hc : c < 0x10000
      · rw [if_pos hc, if_pos hc]
        exact ⟨_, [], (List.append_nil _).symm, escapeUnit_text hc, rfl⟩
      · rw [if_neg hc, if_neg hc]
        exact ⟨_, _, rfl, escapeUnit_text (by omega), _, [], (List.append_nil _).symm,
          escapeUnit_text (by omega), rfl⟩

/-- An escape is a character of its own, unless the next one completes it. -/
theorem joinUnits_escape {c : Nat} {us : List StrUnit}
    (h : ∀ l vs, us = .escape l :: vs → (isHigh c && isLow l) = false) :
    joinUnits (.escape c :: us) = c :: joinUnits us := by
  cases us with
  | nil => simp only [joinUnits]
  | cons u us =>
      cases u with
      | plain d => simp only [joinUnits]
      | escape d => rw [joinUnits, h d us rfl, if_neg Bool.false_ne_true]

/-- The first unit a character is written as. -/
theorem asciiUnits_head {c l : Nat} {us vs : List StrUnit} (h : asciiUnits c ++ us = .escape l :: vs)
    (hc : c < 0x110000) : l = c ∨ isLow l = false := by
  unfold asciiUnits at h
  split at h
  · cases h
  split at h
  · cases h
    exact Or.inl rfl
  · cases h
    refine Or.inr ?_
    simp only [isLow, Bool.and_eq_false_iff, decide_eq_false_iff_not]
    omega

/-- A text is read back as it was. -/
theorem joinUnits_asciiUnits {s : Str} (h : Joined s) : joinUnits (s.flatMap asciiUnits) = s := by
  induction s with
  | nil => rfl
  | cons c s ih =>
      rcases h with ⟨hbound, hchain⟩
      rw [List.forall_mem_cons] at hbound
      rw [List.isChain_cons] at hchain
      have hrest := ih ⟨hbound.2, hchain.2⟩
      -- What comes next cannot complete the escape of a character.
      have hnext : ∀ l vs, s.flatMap asciiUnits = .escape l :: vs →
          (isHigh c && isLow l) = false := by
        intro l vs hl
        cases s with
        | nil => cases hl
        | cons d s =>
            rw [List.flatMap_cons] at hl
            rcases asciiUnits_head hl (hbound.2 d List.mem_cons_self) with rfl | hlow
            · exact hchain.1 l rfl
            · rw [hlow, Bool.and_false]
      rw [List.flatMap_cons, asciiUnits]
      split
      · rw [List.singleton_append, joinUnits, hrest]
      split
      · rw [List.singleton_append, joinUnits_escape hnext, hrest]
      · have hpair : (isHigh (0xD800 + (c - 0x10000) / 1024) &&
            isLow (0xDC00 + (c - 0x10000) % 1024)) = true := by
          simp only [isHigh, isLow, Bool.and_eq_true, decide_eq_true_eq]
          omega
        rw [List.cons_append, List.singleton_append, joinUnits, if_pos hpair, hrest,
          List.cons.injEq]
        exact ⟨by omega, rfl⟩

theorem dumpsAsciiString_text {s : Str} (h : Joined s) : StringText s (dumpsAsciiString s) := by
  have hunits : ∀ s : Str, (∀ c ∈ s, c < 0x110000) →
      UnitsText (s.flatMap asciiUnits) (s.flatMap escapeAscii) := by
    intro s
    induction s with
    | nil => exact fun _ => rfl
    | cons c s ih =>
        intro h
        rw [List.forall_mem_cons] at h
        exact unitsText_append (escapeAscii_text h.1) (ih h.2)
  exact ⟨_, _, hunits s h.1, joinUnits_asciiUnits h, rfl⟩

/-! ### Values -/

theorem dumpsFloat_text {x : Float64} {t : Str} (h : dumpsFloat x = some t) :
    ValueText true (.float x) t := by
  cases x with
  | nan =>
      cases h
      exact Or.inr ⟨rfl, rfl⟩
  | inf neg =>
      cases h
      cases neg with
      | true => exact Or.inr ⟨rfl, rfl⟩
      | false => exact Or.inr ⟨rfl, rfl⟩
  | finite neg m e => exact Or.inl (reprFloat_text h)

/-- What is written is a text of the value. -/
theorem dumpsAscii_text (j : Json) (t : Str) (hj : j.Texts Joined) (h : dumpsAscii j = some t) :
    ValueText true j t := by
  refine (Json.induct
    (P := fun j => ∀ t, j.Texts Joined → dumpsAscii j = some t → ValueText true j t)
    (Q := fun xs => ∀ t, Json.TextsItems Joined xs → dumpsAsciiItems xs = some t →
      ItemsText true xs t)
    (R := fun ms => ∀ t, Json.TextsMembers Joined ms → dumpsAsciiMembers ms = some t →
      MembersText true ms t)
    ?_ ?_ ?_ ?_ ?_ ?_ ?_ ?_ ?_ ?_ ?_).1 j t hj h
  · intro t _ h
    rw [dumpsAscii, Option.some.injEq] at h
    exact h.symm
  · intro b t _ h
    rw [dumpsAscii, Option.some.injEq] at h
    exact h.symm
  · intro n t _ h
    exact dumpsInt_text h
  · intro x t _ h
    exact dumpsFloat_text h
  · intro s t hs h
    rw [dumpsAscii, Option.some.injEq] at h
    rw [← h]
    exact dumpsAsciiString_text hs
  · intro xs ih t hxs h
    simp only [dumpsAscii, Option.bind_eq_bind, Option.bind_eq_some_iff, Option.pure_def,
      Option.some.injEq] at h
    rcases h with ⟨b, hb, rfl⟩
    exact ⟨b, ih b hxs hb, rfl⟩
  · intro ms ih t hms h
    simp only [dumpsAscii, Option.bind_eq_bind, Option.bind_eq_some_iff, Option.pure_def,
      Option.some.injEq] at h
    rcases h with ⟨b, hb, rfl⟩
    exact ⟨b, ih b hms hb, rfl⟩
  · intro t _ h
    rw [dumpsAsciiItems, Option.some.injEq] at h
    rw [← h]
    exact ws_nil
  · intro x xs hx ih t htexts h
    simp only [dumpsAsciiItems, Option.bind_eq_bind, Option.bind_eq_some_iff, Option.pure_def,
      Option.some.injEq] at h
    rcases h with ⟨a, ha, b, hb, rfl⟩
    have hxa := hx a htexts.1 ha
    by_cases hxs : xs = []
    · subst hxs
      rw [dumpsAsciiItems, Option.some.injEq] at hb
      refine ⟨[], a, [], [], ws_nil, hxa, ws_nil, ?_, Or.inl ⟨rfl, rfl⟩⟩
      rw [← hb, if_pos rfl]
      simp only [List.append_nil, List.nil_append]
    · refine ⟨[], a, [], 44 :: b, ws_nil, hxa, ws_nil, ?_, Or.inr ⟨hxs, b, rfl, ih b htexts.2 hb⟩⟩
      rw [if_neg hxs]
      simp only [List.append_assoc, List.nil_append, List.cons_append]
  · intro t _ h
    rw [dumpsAsciiMembers, Option.some.injEq] at h
    rw [← h]
    exact ws_nil
  · intro k v ms hv ih t htexts h
    simp only [dumpsAsciiMembers, Option.bind_eq_bind, Option.bind_eq_some_iff, Option.pure_def,
      Option.some.injEq] at h
    rcases h with ⟨a, ha, b, hb, rfl⟩
    have hk := dumpsAsciiString_text htexts.1
    have hva := hv a htexts.2.1 ha
    by_cases hms : ms = []
    · subst hms
      rw [dumpsAsciiMembers, Option.some.injEq] at hb
      refine ⟨[], dumpsAsciiString k, [], [], a, [], [], ws_nil, hk, ws_nil, ws_nil, hva, ws_nil,
        ?_, Or.inl ⟨rfl, rfl⟩⟩
      rw [← hb, if_pos rfl]
      simp only [List.append_nil, List.nil_append]
    · refine ⟨[], dumpsAsciiString k, [], [], a, [], 44 :: b, ws_nil, hk, ws_nil, ws_nil, hva,
        ws_nil, ?_, Or.inr ⟨hms, b, rfl, ih b htexts.2.2 hb⟩⟩
      rw [if_neg hms]
      simp only [List.append_assoc, List.nil_append, List.cons_append]

/-- `json.loads` undoes it. -/
theorem loads_dumpsAscii {j : Json} {t : Str} (hw : j.WellFormed) (hj : j.Texts Joined)
    (h : dumpsAscii j = some t) : loads t = some j := by
  have htext : TextOf true j t :=
    ⟨[], t, [], ws_nil, dumpsAscii_text j t hj h, ws_nil, (List.append_nil t).symm⟩
  rw [loads, (parse_iff true t j).mpr htext, Option.map_some, merge_of_wellFormed j hw]

/-! ### What was read -/

/-- A character that is no surrogate. -/
def Scalar (c : Nat) : Prop := c < 0x110000 ∧ isHigh c = false ∧ isLow c = false

theorem scalar_of_encodes {s : Str} (h : Encodes s) : ∀ c ∈ s, Scalar c := by
  intro c hc
  have hsome := h c hc
  unfold encodeChar at hsome
  simp only [Scalar, isHigh, isLow, Bool.and_eq_false_iff, decide_eq_false_iff_not]
  split at hsome
  · omega
  split at hsome
  · omega
  split at hsome
  · split at hsome
    · cases hsome
    · omega
  split at hsome
  · omega
  · cases hsome

/-- The units of a literal in a text without surrogates. -/
theorem unitsText_scalar {us : List StrUnit} {t : Str} (h : UnitsText us t)
    (ht : ∀ c ∈ t, Scalar c) : (∀ c, StrUnit.plain c ∈ us → Scalar c) ∧
      ∀ c, StrUnit.escape c ∈ us → c < 0x10000 := by
  induction us generalizing t with
  | nil =>
      exact ⟨fun c hc => absurd hc List.not_mem_nil, fun c hc => absurd hc List.not_mem_nil⟩
  | cons u us ih =>
      rcases h with ⟨a, b, rfl, ha, hb⟩
      have hrest := ih hb fun c hc => ht c (List.mem_append_right a hc)
      have hsimple : ∀ e c, simpleEscape e = some c → Scalar c := by
        intro e c he
        unfold simpleEscape at he
        simp only [Scalar, isHigh, isLow, Bool.and_eq_false_iff, decide_eq_false_iff_not]
        split_ifs at he
        all_goals
          cases he
          omega
      have hval : ∀ c n, hexVal c = some n → n < 16 := by
        intro c n hn
        unfold hexVal at hn
        split_ifs at hn with h1 h2 h3
        · simp only [isDigit, Bool.and_eq_true, decide_eq_true_eq] at h1
          cases hn
          omega
        · cases hn
          omega
        · cases hn
          omega
      constructor
      · intro c hc
        rcases List.mem_cons.mp hc with heq | hc
        · cases ha with
          | char d => 
              cases heq
              exact ht _ (List.mem_append_left b (List.mem_singleton_self _))
          | simple e d he =>
              cases heq
              exact hsimple e _ he
          | hex => cases heq
        · exact hrest.1 c hc
      · intro c hc
        rcases List.mem_cons.mp hc with heq | hc
        · cases ha with
          | char d => cases heq
          | simple e d he => cases heq
          | hex x y z w n hn =>
              cases heq
              simp only [hex4, Option.bind_eq_bind, Option.bind_eq_some_iff, Option.pure_def,
                Option.some.injEq] at hn
              rcases hn with ⟨x', hx, y', hy, z', hz, w', hw, rfl⟩
              have hx := hval _ _ hx
              have hy := hval _ _ hy
              have hz := hval _ _ hz
              have hw := hval _ _ hw
              omega
        · exact hrest.2 c hc

/-- What is beyond the first plane is no surrogate. -/
theorem astral_scalar {h l : Nat} (hp : (isHigh h && isLow l) = true) :
    Scalar (0x10000 + (h - 0xD800) * 1024 + (l - 0xDC00)) := by
  simp only [isHigh, isLow, Bool.and_eq_true, decide_eq_true_eq] at hp
  simp only [Scalar, isHigh, isLow, Bool.and_eq_false_iff, decide_eq_false_iff_not]
  omega

/-- Joining leaves no halves next to each other that were both escapes. -/
theorem joined_joinUnits {us : List StrUnit} (hplain : ∀ c, StrUnit.plain c ∈ us → Scalar c)
    (hescape : ∀ c, StrUnit.escape c ∈ us → c < 0x10000) : Joined (joinUnits us) := by
  -- The first character is the first escape, or none that could complete a pair.
  have hhead : ∀ us : List StrUnit, (∀ c, StrUnit.plain c ∈ us → Scalar c) →
      ∀ c ∈ (joinUnits us).head?, isLow c = false ∨ ∃ vs, us = .escape c :: vs := by
    intro us hplain c hc
    unfold joinUnits at hc
    split at hc
    · cases hc
    · next d us =>
        cases hc
        exact Or.inl (hplain _ List.mem_cons_self).2.2
    · next h l us =>
        split at hc
        · next hp =>
            rw [List.head?_cons, Option.mem_some_iff] at hc
            rw [← hc]
            exact Or.inl (astral_scalar hp).2.2
        · cases hc
          exact Or.inr ⟨_, rfl⟩
    · cases hc
      exact Or.inr ⟨_, rfl⟩
  have hcons : ∀ {c : Nat} {us : List StrUnit}, c < 0x110000 → (∀ c, StrUnit.plain c ∈ us → Scalar c) →
      (∀ l vs, us = .escape l :: vs → (isHigh c && isLow l) = false) →
        Joined (joinUnits us) → Joined (c :: joinUnits us) := by
    intro c us hc hplain hnext hj
    refine ⟨List.forall_mem_cons.mpr ⟨hc, hj.1⟩, List.isChain_cons.mpr ⟨?_, hj.2⟩⟩
    intro d hd
    rcases hhead us hplain d hd with hlow | ⟨vs, hvs⟩
    · rw [hlow, Bool.and_false]
    · exact hnext d vs hvs
  induction us using joinUnits.induct with
  | case1 => exact ⟨fun c hc => absurd hc List.not_mem_nil, List.isChain_nil⟩
  | case2 c us ih =>
      have hc := hplain c List.mem_cons_self
      have hrest := fun d hd => hplain d (List.mem_cons_of_mem _ hd)
      rw [joinUnits]
      refine hcons hc.1 hrest ?_ (ih hrest fun d hd => hescape d (List.mem_cons_of_mem _ hd))
      intro l vs _
      rw [hc.2.1, Bool.false_and]
  | case3 h l us hp ih =>
      have hrest := fun d hd => hplain d (List.mem_cons_of_mem _ (List.mem_cons_of_mem _ hd))
      rw [joinUnits, if_pos hp]
      have hc := astral_scalar hp
      refine hcons hc.1 hrest ?_
        (ih hrest fun d hd => hescape d (List.mem_cons_of_mem _ (List.mem_cons_of_mem _ hd)))
      intro l vs _
      rw [hc.2.1, Bool.false_and]
  | case4 h l us hp ih =>
      have hrest := fun d hd => hplain d (List.mem_cons_of_mem _ hd)
      have hc := hescape h List.mem_cons_self
      rw [joinUnits, if_neg hp]
      refine hcons (by omega) hrest ?_ (ih hrest fun d hd => hescape d (List.mem_cons_of_mem _ hd))
      intro m vs hm
      cases hm
      exact Bool.not_eq_true _ ▸ hp
  | case5 c us hus ih =>
      have hrest := fun d hd => hplain d (List.mem_cons_of_mem _ hd)
      have hc := hescape c List.mem_cons_self
      have hnext : ∀ l vs, us = .escape l :: vs → (isHigh c && isLow l) = false :=
        fun l vs hl => absurd hl (hus l vs)
      rw [joinUnits_escape hnext]
      exact hcons (by omega) hrest hnext (ih hrest fun d hd => hescape d (List.mem_cons_of_mem _ hd))

end Py
