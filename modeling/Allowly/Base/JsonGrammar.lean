import Allowly.Base.JsonText

/-!
# The JSON Grammar

The texts that name a value, and the proof that the scanners of `Base.JsonText`
read the literals among them: strings, numbers and words. `Base.JsonScan` puts
the literals together.

The grammar is given by recursion on the value: `ValueText j t` says that `t` is
one of the texts of `j`, whitespace inside included, and `TextOf` allows
whitespace around it as well. Both directions are needed. Soundness says that a
text the scanner accepts is JSON; completeness says that every text of a value is
read as that value, and it is what `loads (dumps j)` reduces to.

Completeness is stated for a text followed by something else, because that is
how a value stands inside an array. Only a number needs to know what follows:
the scanner takes as many digits as there are, so the text after it must not
begin with something a number could continue with. `Follow` is that condition.

## Main definitions

* `Ws`: Whitespace.
* `StringText`, `NumberText`: The texts of a string and of a number.
* `ValueText`, `ItemsText`, `MembersText`: The texts of a value.
* `TextOf`: The texts of a value with whitespace around it.
* `Follow`: What may follow a number.

## Theorems

* `skipWs_append`: Skipping whitespace stops at the first other character.
* `scanString_iff`: String literals are read exactly.
* `scanNumber_sound`, `scanNumber_complete`: So are numbers.
* `scanWord_sound`, `scanWord_complete`: So are words.
-/

namespace Py

def Ws (w : Str) : Prop := ∀ c ∈ w, isWs c = true

def Digits (ds : Str) : Prop := ∀ d ∈ ds, isDigit d = true

/-- The texts of a unit of a string literal. -/
inductive UnitText : StrUnit → Str → Prop where
  | char (c : Nat) (h : 32 ≤ c) (hq : c ≠ 34) (hb : c ≠ 92) : UnitText (.plain c) [c]
  | simple (e c : Nat) (h : simpleEscape e = some c) : UnitText (.plain c) [92, e]
  | hex (a b c d n : Nat) (h : hex4 a b c d = some n) : UnitText (.escape n) [92, 117, a, b, c, d]

def UnitsText : List StrUnit → Str → Prop
  | [], t => t = []
  | u :: us, t => ∃ a b, t = a ++ b ∧ UnitText u a ∧ UnitsText us b

/-- The texts of a string, quotes included. -/
def StringText (s t : Str) : Prop :=
  ∃ us b, UnitsText us b ∧ joinUnits us = s ∧ t = 34 :: (b ++ [34])

def IntText (t : Str) : Prop :=
  t = [48] ∨ ∃ c r, t = c :: r ∧ isDigit c = true ∧ c ≠ 48 ∧ Digits r

def FracText : Option Str → Str → Prop
  | none, t => t = []
  | some ds, t => ds ≠ [] ∧ Digits ds ∧ t = 46 :: ds

def ExpText : Option (Bool × Str) → Str → Prop
  | none, t => t = []
  | some (neg, ds), t => ds ≠ [] ∧ Digits ds ∧ ∃ e, (e = 101 ∨ e = 69) ∧
      ((neg = false ∧ t = e :: ds) ∨ (neg = false ∧ t = e :: 43 :: ds) ∨
        (neg = true ∧ t = e :: 45 :: ds))

/-- The texts of a number. -/
def NumberText (j : Json) (t : Str) : Prop :=
  ∃ neg int frac f exp x, IntText int ∧ FracText frac f ∧ ExpText exp x ∧
    t = (if neg then [45] else []) ++ int ++ f ++ x ∧ numberValue neg int frac exp = some j

/-- The words for the floats that are not numbers. -/
def ConstantText : Float64 → Str → Prop
  | .nan, t => t = lit "NaN"
  | .inf false, t => t = lit "Infinity"
  | .inf true, t => t = lit "-Infinity"
  | .finite .., _ => False

mutual

/-- The texts of a value. -/
def ValueText (constants : Bool) : Json → Str → Prop
  | .null, t => t = lit "null"
  | .bool b, t => t = lit (if b then "true" else "false")
  | .int n, t => NumberText (.int n) t
  | .float x, t => NumberText (.float x) t ∨ (constants = true ∧ ConstantText x t)
  | .str s, t => StringText s t
  | .arr xs, t => ∃ b, ItemsText constants xs b ∧ t = 91 :: (b ++ [93])
  | .obj ms, t => ∃ b, MembersText constants ms b ∧ t = 123 :: (b ++ [125])
termination_by structural j => j

/-- The texts between the brackets of an array. -/
def ItemsText (constants : Bool) : List Json → Str → Prop
  | [], t => Ws t
  | x :: xs, t => ∃ w a v e, Ws w ∧ ValueText constants x a ∧ Ws v ∧ t = w ++ (a ++ (v ++ e)) ∧
      ((xs = [] ∧ e = []) ∨ (xs ≠ [] ∧ ∃ e', e = 44 :: e' ∧ ItemsText constants xs e'))
termination_by structural xs => xs

/-- The texts between the braces of an object. -/
def MembersText (constants : Bool) : List (Str × Json) → Str → Prop
  | [], t => Ws t
  | (k, y) :: ms, t => ∃ w a v u b z e, Ws w ∧ StringText k a ∧ Ws v ∧ Ws u ∧
      ValueText constants y b ∧ Ws z ∧ t = w ++ (a ++ (v ++ 58 :: (u ++ (b ++ (z ++ e))))) ∧
      ((ms = [] ∧ e = []) ∨ (ms ≠ [] ∧ ∃ e', e = 44 :: e' ∧ MembersText constants ms e'))
termination_by structural ms => ms

end

/-- The texts of a value with whitespace around it. -/
def TextOf (constants : Bool) (j : Json) (s : Str) : Prop :=
  ∃ w a v, Ws w ∧ ValueText constants j a ∧ Ws v ∧ s = w ++ (a ++ v)

/-- What may follow a number: nothing it could continue with. -/
def Follow (r : Str) : Prop :=
  ∀ c t, r = c :: t → isDigit c = false ∧ c ≠ 46 ∧ c ≠ 101 ∧ c ≠ 69

/-! ### Whitespace -/

theorem ws_nil : Ws [] := fun _ hc => absurd hc List.not_mem_nil

theorem ws_append {v w : Str} (hv : Ws v) (hw : Ws w) : Ws (v ++ w) := by
  intro c hc
  rcases List.mem_append.mp hc with h | h
  · exact hv c h
  · exact hw c h

theorem skipWs_append {w : Str} (hw : Ws w) (s : Str) : skipWs (w ++ s) = skipWs s := by
  induction w with
  | nil => rfl
  | cons c w ih =>
      have hc := hw c List.mem_cons_self
      rw [List.cons_append, skipWs, List.dropWhile_cons, if_pos hc]
      exact ih (fun d hd => hw d (List.mem_cons_of_mem _ hd))

theorem skipWs_cons {c : Nat} (h : isWs c = false) (s : Str) : skipWs (c :: s) = c :: s := by
  rw [skipWs, List.dropWhile_cons, if_neg (by rw [h]; exact Bool.false_ne_true)]

theorem skipWs_ws {w : Str} (hw : Ws w) : skipWs w = [] := by
  have h := skipWs_append hw []
  rw [List.append_nil] at h
  rw [h]
  rfl

theorem skipWs_split (s : Str) : ∃ w, Ws w ∧ s = w ++ skipWs s := by
  refine ⟨s.takeWhile isWs, ?_, (List.takeWhile_append_dropWhile).symm⟩
  intro c hc
  exact (List.all_eq_true.mp (List.all_takeWhile (p := isWs) (l := s))) c hc

/-! ### Strings -/

theorem scanUnits_sound (s : Str) : ∀ us r, scanUnits s = some (us, r) →
    ∃ b, UnitsText us b ∧ s = b ++ 34 :: r := by
  induction s using scanUnits.induct with
  | case1 => intro us r h; simp only [scanUnits, reduceCtorEq] at h
  | case2 r =>
      intro us r' h
      simp only [scanUnits, Option.some.injEq, Prod.mk.injEq] at h
      rcases h with ⟨rfl, rfl⟩
      exact ⟨[], rfl, rfl⟩
  | case3 a b c d r ih =>
      intro us r' h
      simp only [scanUnits, Option.bind_eq_bind, Option.bind_eq_some_iff, Option.pure_def,
        Option.some.injEq, Prod.mk.injEq] at h
      rcases h with ⟨n, hn, ⟨us', r''⟩, hr, rfl, rfl⟩
      rcases ih us' r'' hr with ⟨t, ht, heq⟩
      exact ⟨92 :: 117 :: a :: b :: c :: d :: t,
        ⟨_, t, rfl, UnitText.hex a b c d n hn, ht⟩, by rw [heq]; rfl⟩
  | case4 e r hne ih =>
      intro us r' h
      rw [scanUnits] at h
      · simp only [Option.bind_eq_bind, Option.bind_eq_some_iff, Option.pure_def,
          Option.some.injEq, Prod.mk.injEq] at h
        rcases h with ⟨n, hn, ⟨us', r''⟩, hr, rfl, rfl⟩
        rcases ih us' r'' hr with ⟨t, ht, heq⟩
        exact ⟨92 :: e :: t, ⟨_, t, rfl, UnitText.simple e n hn, ht⟩, by rw [heq]; rfl⟩
      · exact hne
  | case5 c r h1 h2 h3 hbad =>
      intro us r' h
      rw [scanUnits] at h
      · rw [if_pos hbad] at h
        cases h
      all_goals assumption
  | case6 c r h1 h2 h3 hok ih =>
      intro us r' h
      rw [scanUnits] at h
      · simp only [if_neg hok, Option.bind_eq_bind, Option.bind_eq_some_iff, Option.pure_def,
          Option.some.injEq, Prod.mk.injEq] at h
        rcases h with ⟨⟨us', r''⟩, hr, rfl, rfl⟩
        rcases ih us' r'' hr with ⟨t, ht, heq⟩
        refine ⟨c :: t, ⟨[c], t, rfl, UnitText.char c ?_ ?_ ?_, ht⟩, by rw [heq]; rfl⟩
        · omega
        · exact fun hc => h1 hc
        · omega
      all_goals assumption

theorem scanUnits_char {c : Nat} (h : 32 ≤ c) (hq : c ≠ 34) (hb : c ≠ 92) (s : Str) :
    scanUnits (c :: s) = (scanUnits s).map fun p => (.plain c :: p.1, p.2) := by
  rw [scanUnits]
  · rw [if_neg (by omega)]
    cases scanUnits s <;> rfl
  · exact fun hc => hq hc
  · exact fun a b d e r hc => absurd hc hb
  · exact fun e r hc => absurd hc hb

theorem scanUnits_simple {e c : Nat} (h : simpleEscape e = some c) (s : Str) :
    scanUnits (92 :: e :: s) = (scanUnits s).map fun p => (.plain c :: p.1, p.2) := by
  rw [scanUnits]
  · rw [h]
    cases scanUnits s <;> rfl
  · rintro a b d f r rfl
    simp only [simpleEscape, Nat.reduceEqDiff, if_false, reduceCtorEq] at h

theorem scanUnits_hex {a b c d n : Nat} (h : hex4 a b c d = some n) (s : Str) :
    scanUnits (92 :: 117 :: a :: b :: c :: d :: s)
      = (scanUnits s).map fun p => (.escape n :: p.1, p.2) := by
  rw [scanUnits, h]
  cases scanUnits s <;> rfl

theorem scanUnits_complete (us : List StrUnit) (b r : Str) (h : UnitsText us b) :
    scanUnits (b ++ 34 :: r) = some (us, r) := by
  induction us generalizing b with
  | nil =>
      simp only [UnitsText] at h
      rw [h, List.nil_append, scanUnits]
  | cons u us ih =>
      simp only [UnitsText] at h
      rcases h with ⟨a, t, rfl, hu, ht⟩
      have hrest := ih t ht
      cases hu with
      | char c h32 hq hb =>
          rw [List.append_assoc, List.singleton_append, scanUnits_char h32 hq hb, hrest]
          rfl
      | simple e c he =>
          rw [List.append_assoc, List.cons_append, List.singleton_append, scanUnits_simple he,
            hrest]
          rfl
      | hex a b c d n hn =>
          rw [List.append_assoc]
          simp only [List.cons_append, List.nil_append]
          rw [scanUnits_hex hn, hrest]
          rfl

/-- String literals are read exactly. -/
theorem scanString_iff (s t r : Str) :
    scanString t = some (s, r) ↔ ∃ a, StringText s (34 :: a) ∧ t = a ++ r := by
  constructor
  · intro h
    simp only [scanString, Option.map_eq_some_iff] at h
    rcases h with ⟨⟨us, r'⟩, hu, heq⟩
    simp only [Prod.mk.injEq] at heq
    rcases heq with ⟨rfl, rfl⟩
    rcases scanUnits_sound t us r' hu with ⟨b, hb, heq⟩
    refine ⟨b ++ [34], ⟨us, b, hb, rfl, rfl⟩, ?_⟩
    rw [heq, List.append_assoc, List.singleton_append]
  · rintro ⟨a, ⟨us, b, hb, hs, heq⟩, rfl⟩
    rw [List.cons.injEq] at heq
    rw [heq.2, scanString, List.append_assoc, List.singleton_append,
      scanUnits_complete us b r hb, Option.map_some, hs]

/-! ### Numbers -/

theorem digits_takeWhile (s : Str) : Digits (s.takeWhile isDigit) := by
  intro c hc
  exact (List.all_eq_true.mp (List.all_takeWhile (p := isDigit) (l := s))) c hc

/-- A run of digits is taken whole when no digit follows. -/
theorem takeWhile_digits {ds r : Str} (hd : Digits ds)
    (hr : ∀ c t, r = c :: t → isDigit c = false) :
    (ds ++ r).takeWhile isDigit = ds ∧ (ds ++ r).dropWhile isDigit = r := by
  induction ds with
  | nil =>
      cases r with
      | nil => exact ⟨rfl, rfl⟩
      | cons c t =>
          have hc : ¬ isDigit c = true := by rw [hr c t rfl]; exact Bool.false_ne_true
          rw [List.nil_append, List.takeWhile_cons, List.dropWhile_cons, if_neg hc, if_neg hc]
          exact ⟨rfl, rfl⟩
  | cons d ds ih =>
      have hd0 := hd d List.mem_cons_self
      have hrest := ih (fun c hc => hd c (List.mem_cons_of_mem _ hc))
      rw [List.cons_append, List.takeWhile_cons, List.dropWhile_cons, if_pos hd0, if_pos hd0,
        hrest.1, hrest.2]
      exact ⟨rfl, rfl⟩

theorem scanInt_sound {s int r : Str} (h : scanInt s = some (int, r)) :
    IntText int ∧ s = int ++ r := by
  cases s with
  | nil => simp only [scanInt, reduceCtorEq] at h
  | cons c t =>
      rw [scanInt] at h
      by_cases hz : c = 48
      · rw [if_pos hz, Option.some.injEq, Prod.mk.injEq] at h
        rcases h with ⟨rfl, rfl⟩
        exact ⟨Or.inl rfl, by rw [hz]; rfl⟩
      · by_cases hd : isDigit c = true
        · rw [if_neg hz, if_pos hd, Option.some.injEq, Prod.mk.injEq] at h
          rcases h with ⟨rfl, rfl⟩
          refine ⟨Or.inr ⟨c, _, rfl, hd, hz, digits_takeWhile t⟩, ?_⟩
          rw [List.cons_append, List.takeWhile_append_dropWhile]
        · rw [if_neg hz, if_neg hd] at h
          cases h

theorem scanInt_complete {int r : Str} (h : IntText int)
    (hr : ∀ c t, r = c :: t → isDigit c = false) : scanInt (int ++ r) = some (int, r) := by
  rcases h with rfl | ⟨c, ds, rfl, hc, hz, hds⟩
  · rw [List.singleton_append, scanInt, if_pos rfl]
  · have hrun := takeWhile_digits hds hr
    rw [List.cons_append, scanInt, if_neg hz, if_pos hc, hrun.1, hrun.2]

theorem scanFrac_sound {s f r : Str} (h : scanFrac s = some (f, r)) :
    FracText (some f) (46 :: f) ∧ s = 46 :: f ++ r := by
  rcases s with _ | ⟨p, _ | ⟨c, t⟩⟩
  · simp only [scanFrac, reduceCtorEq] at h
  · unfold scanFrac at h
    split at h
    · next heq => simp only [List.cons.injEq, reduceCtorEq, and_false] at heq
    · cases h
  · by_cases hp : p = 46
    · subst hp
      rw [scanFrac] at h
      by_cases hd : isDigit c = true
      · rw [if_pos hd, Option.some.injEq, Prod.mk.injEq] at h
        rcases h with ⟨rfl, rfl⟩
        refine ⟨⟨List.cons_ne_nil _ _, ?_, rfl⟩, ?_⟩
        · intro d hmem
          rcases List.mem_cons.mp hmem with rfl | hmem
          · exact hd
          · exact digits_takeWhile t d hmem
        · simp only [List.cons_append, List.takeWhile_append_dropWhile]
      · rw [if_neg hd] at h
        cases h
    · unfold scanFrac at h
      split at h
      · next heq =>
          simp only [List.cons.injEq] at heq
          exact absurd heq.1 hp
      · cases h

theorem scanFrac_none {r : Str} (hr : Follow r) : scanFrac r = none := by
  unfold scanFrac
  split
  · next c t => exact absurd rfl (hr 46 (c :: t) rfl).2.1
  · rfl

theorem scanFrac_complete {f r : Str} (h : FracText (some f) (46 :: f))
    (hr : ∀ c t, r = c :: t → isDigit c = false) : scanFrac (46 :: f ++ r) = some (f, r) := by
  rcases h with ⟨hne, hds, _⟩
  rcases f with _ | ⟨c, ds⟩
  · exact absurd rfl hne
  have htail : Digits ds := fun d hd => hds d (List.mem_cons_of_mem _ hd)
  have hrun := takeWhile_digits htail hr
  simp only [List.cons_append, scanFrac, if_pos (hds c List.mem_cons_self), hrun.1, hrun.2]

theorem scanExp_none {r : Str} (hr : Follow r) : scanExp r = none := by
  unfold scanExp
  split
  · next e c t =>
      have h := hr e (c :: t) rfl
      rw [if_neg (fun hc => hc.elim h.2.2.1 h.2.2.2)]
  · rfl

theorem scanExp_sound {s : Str} {x : Bool × Str} {r : Str} (h : scanExp s = some (x, r)) :
    ∃ a, ExpText (some x) a ∧ s = a ++ r := by
  rcases s with _ | ⟨e, _ | ⟨c, t⟩⟩
  · simp only [scanExp, reduceCtorEq] at h
  · simp only [scanExp, reduceCtorEq] at h
  · simp only [scanExp] at h
    by_cases he : e = 101 ∨ e = 69
    · rw [if_pos he] at h
      by_cases hc : isDigit c = true
      · rw [if_pos hc, Option.some.injEq, Prod.mk.injEq] at h
        rcases h with ⟨rfl, rfl⟩
        refine ⟨e :: c :: t.takeWhile isDigit, ⟨List.cons_ne_nil _ _, ?_, e, he, Or.inl ⟨rfl, rfl⟩⟩,
          ?_⟩
        · intro d hmem
          rcases List.mem_cons.mp hmem with rfl | hmem
          · exact hc
          · exact digits_takeWhile t d hmem
        · simp only [List.cons_append, List.takeWhile_append_dropWhile]
      · rw [if_neg hc] at h
        rcases t with _ | ⟨d, t⟩
        · cases h
        · simp only at h
          by_cases hs : (c = 43 ∨ c = 45) ∧ isDigit d = true
          · rw [if_pos hs, Option.some.injEq, Prod.mk.injEq] at h
            rcases h with ⟨rfl, rfl⟩
            have hds : Digits (d :: t.takeWhile isDigit) := by
              intro g hmem
              rcases List.mem_cons.mp hmem with rfl | hmem
              · exact hs.2
              · exact digits_takeWhile t g hmem
            refine ⟨e :: c :: d :: t.takeWhile isDigit, ⟨List.cons_ne_nil _ _, hds, e, he, ?_⟩, ?_⟩
            · rcases hs.1 with rfl | rfl
              · exact Or.inr (Or.inl ⟨rfl, rfl⟩)
              · exact Or.inr (Or.inr ⟨rfl, rfl⟩)
            · simp only [List.cons_append, List.takeWhile_append_dropWhile]
          · rw [if_neg hs] at h
            cases h
    · rw [if_neg he] at h
      cases h

theorem scanExp_complete {x : Bool × Str} {a r : Str} (h : ExpText (some x) a)
    (hr : ∀ c t, r = c :: t → isDigit c = false) : scanExp (a ++ r) = some (x, r) := by
  rcases x with ⟨neg, ds⟩
  rcases h with ⟨hne, hds, e, he, h⟩
  rcases ds with _ | ⟨c, ds⟩
  · exact absurd rfl hne
  have htail : Digits ds := fun d hd => hds d (List.mem_cons_of_mem _ hd)
  have hrun := takeWhile_digits htail hr
  have hc := hds c List.mem_cons_self
  rcases h with ⟨rfl, rfl⟩ | ⟨rfl, rfl⟩ | ⟨rfl, rfl⟩
  · simp only [List.cons_append, scanExp, if_pos he, if_pos hc, hrun.1, hrun.2]
  · have hs : ¬ isDigit 43 = true := by decide
    simp only [List.cons_append, scanExp, if_pos he, if_neg hs, hc, true_or, and_self, if_true,
      hrun.1, hrun.2]
    rfl
  · have hs : ¬ isDigit 45 = true := by decide
    simp only [List.cons_append, scanExp, if_pos he, if_neg hs, hc, or_true, and_self, if_true,
      hrun.1, hrun.2]
    rfl

theorem scanSign_sound {s r : Str} {neg : Bool} (h : scanSign s = (neg, r)) :
    s = (if neg then [45] else []) ++ r := by
  unfold scanSign at h
  split at h
  · simp only [Prod.mk.injEq] at h
    rcases h with ⟨rfl, rfl⟩
    rfl
  · simp only [Prod.mk.injEq] at h
    rcases h with ⟨rfl, rfl⟩
    rfl

theorem scanFrac_optional {s : Str} {f : Option Str} {r : Str}
    (h : scanOptional scanFrac s = (f, r)) : ∃ a, FracText f a ∧ s = a ++ r := by
  unfold scanOptional at h
  cases hs : scanFrac s with
  | none =>
      simp only [hs, Prod.mk.injEq] at h
      rcases h with ⟨rfl, rfl⟩
      exact ⟨[], rfl, rfl⟩
  | some p =>
      simp only [hs, Prod.mk.injEq] at h
      rcases h with ⟨rfl, rfl⟩
      exact ⟨_, scanFrac_sound hs⟩

theorem scanExp_optional {s : Str} {x : Option (Bool × Str)} {r : Str}
    (h : scanOptional scanExp s = (x, r)) : ∃ a, ExpText x a ∧ s = a ++ r := by
  unfold scanOptional at h
  cases hs : scanExp s with
  | none =>
      simp only [hs, Prod.mk.injEq] at h
      rcases h with ⟨rfl, rfl⟩
      exact ⟨[], rfl, rfl⟩
  | some p =>
      simp only [hs, Prod.mk.injEq] at h
      rcases h with ⟨rfl, rfl⟩
      exact scanExp_sound hs

theorem scanNumber_sound {s r : Str} {j : Json} (h : scanNumber s = some (j, r)) :
    ∃ a, NumberText j a ∧ s = a ++ r := by
  rcases hneg : scanSign s with ⟨neg, s0⟩
  simp only [scanNumber, hneg, Option.bind_eq_bind, Option.bind_eq_some_iff, Option.pure_def,
    Option.some.injEq, Prod.mk.injEq] at h
  rcases h with ⟨⟨int, s1⟩, hint, j', hj, rfl, rfl⟩
  rcases hf : scanOptional scanFrac s1 with ⟨frac, s2⟩
  rcases hx : scanOptional scanExp s2 with ⟨exp, s3⟩
  rcases scanInt_sound hint with ⟨hi, rfl⟩
  rcases scanFrac_optional hf with ⟨f, hft, rfl⟩
  rcases scanExp_optional hx with ⟨x, hxt, rfl⟩
  simp only [hf, hx] at hj ⊢
  refine ⟨(if neg then [45] else []) ++ int ++ f ++ x,
    ⟨neg, int, frac, f, exp, x, hi, hft, hxt, rfl, hj⟩, ?_⟩
  rw [scanSign_sound hneg]
  simp only [List.append_assoc]

theorem intText_head {t : Str} (h : IntText t) : ∃ c r, t = c :: r ∧ isDigit c = true := by
  rcases h with rfl | ⟨c, r, rfl, hc, _⟩
  · exact ⟨48, [], rfl, by decide⟩
  · exact ⟨c, r, rfl, hc⟩

theorem isDigit_ne {c d : Nat} (h : isDigit c = true) (hd : isDigit d = false) : c ≠ d := by
  rintro rfl
  rw [h] at hd
  cases hd

/-- An exponent begins with something a run of digits stops at. -/
theorem expText_follow {e : Option (Bool × Str)} {a r : Str} (h : ExpText e a) (hr : Follow r) :
    ∀ c t, a ++ r = c :: t → isDigit c = false ∧ c ≠ 46 := by
  intro c t heq
  cases e with
  | none =>
      simp only [ExpText] at h
      rw [h, List.nil_append] at heq
      exact ⟨(hr c t heq).1, (hr c t heq).2.1⟩
  | some x =>
      rcases h with ⟨_, _, e, he, h⟩
      have hc : e = c := by
        rcases h with ⟨_, rfl⟩ | ⟨_, rfl⟩ | ⟨_, rfl⟩ <;> exact (List.cons.inj heq).1
      rcases he with rfl | rfl <;> subst hc <;> decide

theorem fracText_follow {f : Option Str} {a r : Str} (h : FracText f a)
    (hr : ∀ c t, r = c :: t → isDigit c = false ∧ c ≠ 46) :
    ∀ c t, a ++ r = c :: t → isDigit c = false := by
  intro c t heq
  cases f with
  | none =>
      simp only [FracText] at h
      rw [h, List.nil_append] at heq
      exact (hr c t heq).1
  | some ds =>
      rcases h with ⟨_, _, rfl⟩
      rw [List.cons_append, List.cons.injEq] at heq
      rw [← heq.1]
      decide

theorem scanSign_complete {neg : Bool} {t : Str} (h : ∀ c r, t = c :: r → c ≠ 45) :
    scanSign ((if neg then [45] else []) ++ t) = (neg, t) := by
  cases neg with
  | true => rfl
  | false =>
      simp only [Bool.false_eq_true, if_false, List.nil_append]
      unfold scanSign
      split
      · next r => exact absurd rfl (h 45 r rfl)
      · rfl

theorem scanOptional_some {A : Type} {scan : Str → Option (A × Str)} {s r : Str} {a : A}
    (h : scan s = some (a, r)) : scanOptional scan s = (some a, r) := by
  unfold scanOptional
  rw [h]

theorem scanOptional_none {A : Type} {scan : Str → Option (A × Str)} {s : Str}
    (h : scan s = none) : scanOptional scan s = (none, s) := by
  unfold scanOptional
  rw [h]

theorem scanNumber_complete {j : Json} {a r : Str} (h : NumberText j a) (hr : Follow r) :
    scanNumber (a ++ r) = some (j, r) := by
  rcases h with ⟨neg, int, frac, f, exp, x, hi, hf, hx, rfl, hj⟩
  have hx0 := expText_follow hx hr
  have hf0 := fracText_follow hf hx0
  have hint := scanInt_complete hi hf0
  have hfrac : scanOptional scanFrac (f ++ (x ++ r)) = (frac, x ++ r) := by
    cases frac with
    | none =>
        simp only [FracText] at hf
        rw [hf, List.nil_append]
        refine scanOptional_none ?_
        unfold scanFrac
        split
        · next c t heq => exact absurd rfl (hx0 46 (c :: t) heq).2
        · rfl
    | some ds =>
        have h46 : f = 46 :: ds := hf.2.2
        subst h46
        exact scanOptional_some (scanFrac_complete hf (fun c t heq => (hx0 c t heq).1))
  have hexp : scanOptional scanExp (x ++ r) = (exp, r) := by
    cases exp with
    | none =>
        simp only [ExpText] at hx
        rw [hx, List.nil_append]
        exact scanOptional_none (scanExp_none hr)
    | some e => exact scanOptional_some (scanExp_complete hx (fun c t heq => (hr c t heq).1))
  have hsign : scanSign ((if neg then [45] else []) ++ (int ++ (f ++ (x ++ r))))
      = (neg, int ++ (f ++ (x ++ r))) := by
    refine scanSign_complete ?_
    intro c t heq
    rcases intText_head hi with ⟨d, u, rfl, hd⟩
    rw [List.cons_append, List.cons.injEq] at heq
    rw [← heq.1]
    exact isDigit_ne hd (by decide)
  simp only [List.append_assoc]
  simp only [scanNumber, hsign, hint, Option.bind_eq_bind, Option.bind_some, hfrac, hexp, hj,
    Option.pure_def]

/-! ### Words -/

theorem dropWord_iff (w s r : Str) : dropWord w s = some r ↔ s = w ++ r := by
  induction w generalizing s with
  | nil => simp only [dropWord, Option.some.injEq, List.nil_append]
  | cons c w ih =>
      cases s with
      | nil => simp only [dropWord, reduceCtorEq, List.cons_append]
      | cons d s =>
          by_cases hdc : d = c
          · subst hdc
            simp only [dropWord, if_true, ih, List.cons_append, List.cons.injEq, true_and]
          · rw [dropWord, if_neg hdc]
            simp only [reduceCtorEq, List.cons_append, List.cons.injEq, hdc, false_and]

theorem scanWord_sound {constants : Bool} {s r : Str} {j : Json}
    (h : scanWord constants s = some (j, r)) : ∃ w, (w, j) ∈ words constants ∧ s = w ++ r := by
  rcases List.exists_of_findSome?_eq_some h with ⟨⟨w, k⟩, hmem, hw⟩
  simp only [Option.map_eq_some_iff, dropWord_iff, Prod.mk.injEq] at hw
  rcases hw with ⟨t, hs, rfl, rfl⟩
  exact ⟨w, hmem, hs⟩

/-- No two of the words begin with the same character. -/
theorem words_head (constants : Bool) : ∀ p ∈ words constants, ∀ q ∈ words constants,
    p.1.head? = q.1.head? → p = q := by
  cases constants <;> decide +kernel

theorem words_ne_nil (constants : Bool) : ∀ p ∈ words constants, p.1 ≠ [] := by
  cases constants <;> decide +kernel

theorem scanWord_complete {constants : Bool} {w : Str} {j : Json}
    (h : (w, j) ∈ words constants) (r : Str) : scanWord constants (w ++ r) = some (j, r) := by
  have hsome : ∃ p, scanWord constants (w ++ r) = some p := by
    rw [← Option.isSome_iff_exists, scanWord, List.findSome?_isSome_iff]
    exact ⟨_, h, by rw [(dropWord_iff w (w ++ r) r).mpr rfl]; rfl⟩
  rcases hsome with ⟨⟨k, t⟩, hk⟩
  rcases scanWord_sound hk with ⟨v, hv, heq⟩
  have hhead : w.head? = v.head? := by
    have hw := words_ne_nil constants _ h
    have hv := words_ne_nil constants _ hv
    rw [← List.head?_append_of_ne_nil w hw, heq, List.head?_append_of_ne_nil v hv]
  have hsame := words_head constants _ h _ hv hhead
  simp only [Prod.mk.injEq] at hsame
  rcases hsame with ⟨rfl, rfl⟩
  rw [hk, List.append_cancel_left heq]

/-- A text that begins like a number is not a word. -/
theorem scanWord_number {constants : Bool} {neg : Bool} {c : Nat} (hc : isDigit c = true)
    (r : Str) : scanWord constants ((if neg then [45] else []) ++ c :: r) = none := by
  rw [Option.eq_none_iff_forall_ne_some]
  rintro ⟨j, t⟩ h
  rcases scanWord_sound h with ⟨w, hw, heq⟩
  have hbad : ∀ p ∈ words constants, ∃ d e u, p.1 = d :: e :: u ∧ isDigit d = false ∧
      (d = 45 → isDigit e = false) := by
    intro p hp
    have hall : ∀ p ∈ words constants, isDigit (p.1.headD 48) = false ∧
        2 ≤ p.1.length ∧ (p.1.headD 0 = 45 → isDigit (p.1.tail.headD 48) = false) := by
      cases constants <;> decide +kernel
    have h := hall p hp
    rcases p with ⟨_ | ⟨d, _ | ⟨e, u⟩⟩, k⟩
    · exact absurd h.2.1 (by simp)
    · exact absurd h.2.1 (by simp)
    · exact ⟨d, e, u, rfl, h.1, h.2.2⟩
  rcases hbad _ hw with ⟨d, e, u, rfl, hd, he⟩
  cases neg with
  | false =>
      simp only [Bool.false_eq_true, if_false, List.nil_append, List.cons_append,
        List.cons.injEq] at heq
      exact isDigit_ne hc hd heq.1
  | true =>
      simp only [if_true, List.cons_append, List.nil_append, List.cons.injEq] at heq
      exact isDigit_ne hc (he heq.1.symm) heq.2.1

end Py
