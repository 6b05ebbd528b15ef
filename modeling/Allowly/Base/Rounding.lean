import Allowly.Base.Float
import Mathlib.Algebra.Order.Field.Rat
import Mathlib.Algebra.Order.Field.Basic
import Mathlib.Algebra.Order.Field.Power
import Mathlib.Tactic.Positivity
import Mathlib.Tactic.Linarith
import Mathlib.Tactic.FieldSimp
import Mathlib.Tactic.Ring
import Mathlib.Tactic.NormNum

/-!
# What Rounding Does

The float nearest to a quotient is a mantissa and an exponent: the exponent fits the size of
the quotient, and the mantissa is the nearest integer, the even one if there are two.
Whether the float is at most some integer can then be told from the quotient. It is so for
all quotients up to the integer, and for those above it that are rounded down to it.

## Main definitions

* `Float64.value`: The number a finite float is.
* `Rounds`: The nearest integer, the even one if there are two.

## Theorems

* `dyadicLe_iff`: Comparing exact values is comparing numbers.
* `ofRatio_spec`: Mantissa and exponent of the nearest float.
* `ofInt_value`: Integers below the precision are exact.
* `leInt_ofRatio`: Which quotients are rounded to at most 300.
* `sub_leInt`: The same for differences.
-/

namespace Py

/-- The number `m * 2 ^ e`. -/
def dyadic (v : Int × Int) : ℚ := v.1 * (2 : ℚ) ^ v.2

/-- The number a finite float is. -/
def Float64.value (x : Float64) : Option ℚ := x.num.map dyadic

theorem dyadic_scale (m e k : Int) (h : k ≤ e) :
    dyadic (m, e) = ((m * 2 ^ (e - k).toNat : Int) : ℚ) * (2 : ℚ) ^ k := by
  have hpow : ((2 : ℚ) ^ (e - k).toNat) * (2 : ℚ) ^ k = (2 : ℚ) ^ e := by
    rw [← zpow_natCast, ← zpow_add₀ (by norm_num)]
    congr 1
    omega
  rw [dyadic, ← hpow]
  push_cast
  ring

/-- Comparing exact values is comparing numbers. -/
theorem dyadicLe_iff (x y : Int × Int) : dyadicLe x y = true ↔ dyadic x ≤ dyadic y := by
  rcases x with ⟨a, e⟩
  rcases y with ⟨b, f⟩
  have hx := dyadic_scale a e (min e f) (min_le_left _ _)
  have hy := dyadic_scale b f (min e f) (min_le_right _ _)
  have hpos : (0 : ℚ) < (2 : ℚ) ^ (min e f) := by positivity
  rw [hx, hy, mul_le_mul_iff_left₀ hpos, Int.cast_le]
  simp only [dyadicLe, decide_eq_true_eq]

/-- The nearest integer, the even one if there are two. -/
def Rounds (x : ℚ) (m : Nat) : Prop :=
  |x - m| ≤ 1 / 2 ∧ (|x - m| = 1 / 2 → Even m)

/-- Rounding a quotient of naturals. -/
theorem rounds_div (n : Nat) {d : Nat} (hd : 0 < d) :
    Rounds ((n : ℚ) / d)
      (if 2 * (n % d) < d then n / d else if d < 2 * (n % d) then n / d + 1
        else n / d + n / d % 2) := by
  have hpos : (0 : ℚ) < d := by exact_mod_cast hd
  have hn : (n : ℚ) = d * (n / d : Nat) + (n % d : Nat) := by exact_mod_cast (Nat.div_add_mod n d).symm
  obtain ⟨t, ht⟩ : ∃ t : ℚ, t = ((n % d : Nat) : ℚ) / d := ⟨_, rfl⟩
  have hx : (n : ℚ) / d = (n / d : Nat) + t := by
    rw [ht, hn, add_div, mul_div_cancel_left₀ _ (ne_of_gt hpos)]
  have htd : t * d = (n % d : Nat) := by rw [ht, div_mul_cancel₀ _ (ne_of_gt hpos)]
  have hnonneg : 0 ≤ t := by rw [ht]; positivity
  have hlt : t < 1 := by
    rw [ht, div_lt_one hpos]
    exact_mod_cast Nat.mod_lt n hd
  rw [hx, Rounds]
  by_cases hlow : 2 * (n % d) < d
  · have hhalf : t < 1 / 2 := by
      have hcast : (2 : ℚ) * (n % d : Nat) < d := by exact_mod_cast hlow
      rw [← htd] at hcast
      nlinarith
    rw [if_pos hlow, add_sub_cancel_left, abs_of_nonneg hnonneg]
    exact ⟨le_of_lt hhalf, fun h => absurd h (ne_of_lt hhalf)⟩
  rw [if_neg hlow]
  by_cases hhigh : d < 2 * (n % d)
  · have hhalf : 1 / 2 < t := by
      have hcast : (d : ℚ) < 2 * (n % d : Nat) := by exact_mod_cast hhigh
      rw [← htd] at hcast
      nlinarith
    rw [if_pos hhigh]
    push_cast
    rw [show ((n / d : Nat) : ℚ) + t - ((n / d : Nat) + 1) = -(1 - t) by ring, abs_neg,
      abs_of_nonneg (by linarith)]
    exact ⟨by linarith, fun h => by linarith⟩
  · -- Halfway between two integers, of which the even one is taken.
    have hhalf : t = 1 / 2 := by
      have heq : 2 * (n % d) = d := by omega
      have hcast : (2 : ℚ) * (n % d : Nat) = d := by exact_mod_cast heq
      rw [← htd] at hcast
      have hone : (2 * t) * d = 1 * d := by linarith
      have htwo := mul_right_cancel₀ (ne_of_gt hpos) hone
      linarith
    rw [if_neg hhigh, hhalf]
    rcases Nat.mod_two_eq_zero_or_one (n / d) with hz | ho
    · rw [hz, Nat.add_zero, add_sub_cancel_left]
      exact ⟨by norm_num, fun _ => Nat.even_iff.mpr hz⟩
    · rw [ho]
      push_cast
      rw [show ((n / d : Nat) : ℚ) + 1 / 2 - ((n / d : Nat) + 1) = -(1 / 2) by ring, abs_neg]
      exact ⟨by norm_num, fun _ => Nat.even_iff.mpr (by omega)⟩

theorem Rounds.lower {x : ℚ} {m : Nat} (h : Rounds x m) : x - 1 / 2 ≤ m := by
  have := (abs_le.mp h.1).2
  linarith

theorem Rounds.upper {x : ℚ} {m : Nat} (h : Rounds x m) : (m : ℚ) ≤ x + 1 / 2 := by
  have := (abs_le.mp h.1).1
  linarith

/-- What is rounded to at most an even number: up to half a unit above it. -/
theorem Rounds.le_even {x : ℚ} {m k : Nat} (h : Rounds x m) (hk : Even k) :
    m ≤ k ↔ x ≤ k + 1 / 2 := by
  constructor
  · intro hm
    have hcast : (m : ℚ) ≤ k := by exact_mod_cast hm
    have hlow := h.lower
    linarith
  · intro hx
    by_contra hm
    have hcast : (k : ℚ) + 1 ≤ m := by exact_mod_cast Nat.lt_of_not_le hm
    have hlow := h.upper
    -- Only the odd number next to it is left, and that is not taken at half a unit.
    have hmk : (m : ℚ) = k + 1 := by linarith
    have hnat : m = k + 1 := by exact_mod_cast hmk
    have htie : |x - m| = 1 / 2 := by
      rw [hmk, show x - (k + 1) = -(k + 1 - x) by ring, abs_neg, abs_of_nonneg (by linarith)]
      linarith
    have heven := h.2 htie
    rw [hnat, Nat.even_add_one] at heven
    exact heven hk

/-- A quotient lies between the powers of two its binary logarithms give. -/
theorem quotient_bounds {n d : Nat} (hn : 0 < n) (hd : 0 < d) :
    (2 : ℚ) ^ ((Nat.log2 n : Int) - Nat.log2 d - 1) ≤ (n : ℚ) / d ∧
      (n : ℚ) / d < (2 : ℚ) ^ ((Nat.log2 n : Int) - Nat.log2 d + 1) := by
  have hdq : (0 : ℚ) < d := by exact_mod_cast hd
  have hnlow : (2 : ℚ) ^ (Nat.log2 n : Int) ≤ n := by
    exact_mod_cast Nat.log2_self_le (Nat.ne_of_gt hn)
  have hnhigh : (n : ℚ) < (2 : ℚ) ^ ((Nat.log2 n : Int) + 1) := by
    exact_mod_cast Nat.lt_log2_self
  have hdlow : (2 : ℚ) ^ (Nat.log2 d : Int) ≤ d := by
    exact_mod_cast Nat.log2_self_le (Nat.ne_of_gt hd)
  have hdhigh : (d : ℚ) < (2 : ℚ) ^ ((Nat.log2 d : Int) + 1) := by
    exact_mod_cast Nat.lt_log2_self
  have htwo : (2 : ℚ) ≠ 0 := by norm_num
  constructor
  · rw [le_div_iff₀ hdq]
    calc (2 : ℚ) ^ ((Nat.log2 n : Int) - Nat.log2 d - 1) * d
        ≤ (2 : ℚ) ^ ((Nat.log2 n : Int) - Nat.log2 d - 1) * (2 : ℚ) ^ ((Nat.log2 d : Int) + 1) :=
          mul_le_mul_of_nonneg_left (le_of_lt hdhigh) (by positivity)
      _ = (2 : ℚ) ^ (Nat.log2 n : Int) := by
          rw [← zpow_add₀ htwo]
          congr 1
          omega
      _ ≤ n := hnlow
  · rw [div_lt_iff₀ hdq]
    calc (n : ℚ) < (2 : ℚ) ^ ((Nat.log2 n : Int) + 1) := hnhigh
      _ = (2 : ℚ) ^ ((Nat.log2 n : Int) - Nat.log2 d + 1) * (2 : ℚ) ^ (Nat.log2 d : Int) := by
          rw [← zpow_add₀ htwo]
          congr 1
          omega
      _ ≤ (2 : ℚ) ^ ((Nat.log2 n : Int) - Nat.log2 d + 1) * d :=
          mul_le_mul_of_nonneg_left hdlow (by positivity)

/-- Scaling a quotient by a power of two, in either direction. -/
theorem scaled_quotient (n d : Nat) (k : Int) :
    ((n * 2 ^ (-k).toNat : Nat) : ℚ) / ((d * 2 ^ k.toNat : Nat) : ℚ) = (n : ℚ) / d * (2 : ℚ) ^ (-k) := by
  have hpow : (2 : ℚ) ^ (-k) = (2 : ℚ) ^ (-k).toNat / (2 : ℚ) ^ k.toNat := by
    rw [← zpow_natCast, ← zpow_natCast, ← zpow_sub₀ (by norm_num)]
    congr 1
    omega
  push_cast
  rw [hpow, div_mul_div_comm]

theorem atLeast_iff {n d : Nat} (hd : 0 < d) (l : Int) :
    d * 2 ^ l.toNat ≤ n * 2 ^ (-l).toNat ↔ (2 : ℚ) ^ l ≤ (n : ℚ) / d := by
  have hdq : (0 : ℚ) < d := by exact_mod_cast hd
  have hpos : (0 : ℚ) < ((d * 2 ^ l.toNat : Nat) : ℚ) := by exact_mod_cast Nat.mul_pos hd (by positivity)
  have hscaled := scaled_quotient n d l
  have hone : (1 : ℚ) = (2 : ℚ) ^ l * (2 : ℚ) ^ (-l) := by
    rw [← zpow_add₀ (by norm_num), add_neg_cancel, zpow_zero]
  have hz : (0 : ℚ) < (2 : ℚ) ^ (-l) := by positivity
  rw [← mul_le_mul_iff_left₀ hz, ← hone, ← hscaled, le_div_iff₀ hpos, one_mul]
  exact Nat.cast_le.symm

/-- Mantissa and exponent of the float nearest to a quotient. -/
theorem ofRatio_spec (neg : Bool) {n d : Nat} (hn : 0 < n) (hd : 0 < d) :
    ∃ (e : Int) (m : Nat), -1074 ≤ e ∧ (n : ℚ) / d < (2 : ℚ) ^ (e + 53) ∧
      (e = -1074 ∨ (2 : ℚ) ^ (e + 52) ≤ (n : ℚ) / d) ∧
      Rounds ((n : ℚ) / d * (2 : ℚ) ^ (-e)) m ∧
      Float64.ofRatio neg n d =
        if m = 2 ^ 53 then (if e + 1 > 971 then .inf neg else .finite neg (2 ^ 52) (e + 1))
        else if e > 971 then .inf neg
        else .finite neg m e := by
  obtain ⟨l, hl⟩ : ∃ l : Int, l = (Nat.log2 n : Int) - Nat.log2 d := ⟨_, rfl⟩
  obtain ⟨e, he⟩ : ∃ e : Int, e = max (-1074)
      (if d * 2 ^ l.toNat ≤ n * 2 ^ (-l).toNat then l - 52 else l - 53) := ⟨_, rfl⟩
  rcases quotient_bounds hn hd with ⟨hlow, hhigh⟩
  rw [← hl] at hlow hhigh
  have hmono {i j : Int} (hij : i ≤ j) : (2 : ℚ) ^ i ≤ (2 : ℚ) ^ j :=
    zpow_le_zpow_right₀ (by norm_num) hij
  have hd' : 0 < d * 2 ^ e.toNat := Nat.mul_pos hd (by positivity)
  have hrounds := rounds_div (n * 2 ^ (-e).toNat) hd'
  rw [scaled_quotient] at hrounds
  refine ⟨e, _, ?_, ?_, ?_, hrounds, ?_⟩
  · rw [he]
    exact le_max_left _ _
  · by_cases hat : d * 2 ^ l.toNat ≤ n * 2 ^ (-l).toNat
    · rw [if_pos hat] at he
      exact lt_of_lt_of_le hhigh (hmono (by omega))
    · rw [if_neg hat] at he
      have hlt := not_le.mp (mt (atLeast_iff hd l).mpr hat)
      exact lt_of_lt_of_le hlt (hmono (by omega))
  · by_cases hat : d * 2 ^ l.toNat ≤ n * 2 ^ (-l).toNat
    · rw [if_pos hat] at he
      rcases max_choice (-1074) (l - 52) with h | h
      · exact Or.inl (he.trans h)
      · refine Or.inr (le_trans (hmono ?_) ((atLeast_iff hd l).mp hat))
        omega
    · rw [if_neg hat] at he
      rcases max_choice (-1074) (l - 53) with h | h
      · exact Or.inl (he.trans h)
      · exact Or.inr (le_trans (hmono (by omega)) hlow)
  · simp only [Float64.ofRatio, if_neg (Nat.ne_of_gt hn), ← hl, ← he]

theorem leInt_finite (m : Nat) (e n : Int) :
    (Float64.finite false m e).leInt n = true ↔ (m : ℚ) * (2 : ℚ) ^ e ≤ n := by
  have hle := dyadicLe_iff ((m : Int), e) (n, 0)
  simp only [dyadic, zpow_zero, mul_one, Int.cast_natCast] at hle
  exact hle

/-- Which quotients are rounded to at most 300. -/
theorem leInt_ofRatio (neg : Bool) (n : Nat) {d : Nat} (hd : 0 < d) :
    (Float64.ofRatio neg n d).abs.leInt 300 = true ↔ (n : ℚ) / d ≤ 300 + 1 / 2 ^ 45 := by
  rcases Nat.eq_zero_or_pos n with rfl | hn
  · refine iff_of_true ?_ ?_
    · rw [Float64.ofRatio, if_pos rfl, Float64.zero, Float64.abs, leInt_finite]
      norm_num
    · rw [Nat.cast_zero, zero_div]
      positivity
  rcases ofRatio_spec neg hn hd with ⟨e, m, hmin, hhigh, hlow, hrounds, heq⟩
  have hmono {i j : Int} (hij : i ≤ j) : (2 : ℚ) ^ i ≤ (2 : ℚ) ^ j :=
    zpow_le_zpow_right₀ (by norm_num) hij
  have hpos : (0 : ℚ) < (2 : ℚ) ^ e := by positivity
  have hcancel : (2 : ℚ) ^ (-e) * (2 : ℚ) ^ e = 1 := by
    rw [← zpow_add₀ (by norm_num), neg_add_cancel, zpow_zero]
  -- However the result is written, it is the mantissa at the exponent, or an infinity.
  have hresult : (Float64.ofRatio neg n d).abs.leInt 300 = true ↔
      (m : ℚ) * (2 : ℚ) ^ e ≤ 300 ∧ (m = 2 ^ 53 → e + 1 ≤ 971) ∧ (m ≠ 2 ^ 53 → e ≤ 971) := by
    rw [heq]
    by_cases hm : m = 2 ^ 53
    · have hwritten : ((2 ^ 52 : Nat) : ℚ) * (2 : ℚ) ^ (e + 1) = (m : ℚ) * (2 : ℚ) ^ e := by
        rw [hm, zpow_add₀ (by norm_num), zpow_one]
        push_cast
        ring
      rw [if_pos hm]
      by_cases hbig : e + 1 > 971
      · rw [if_pos hbig]
        refine iff_of_false (by simp only [Float64.abs, Float64.leInt, Bool.false_eq_true,
          not_false_eq_true]) fun h => ?_
        have := h.2.1 hm
        omega
      · rw [if_neg hbig, Float64.abs, leInt_finite, hwritten]
        refine ⟨fun h => ⟨h, fun _ => by omega, fun hne => absurd hm hne⟩, fun h => h.1⟩
    · rw [if_neg hm]
      by_cases hbig : e > 971
      · rw [if_pos hbig]
        refine iff_of_false (by simp only [Float64.abs, Float64.leInt, Bool.false_eq_true,
          not_false_eq_true]) fun h => ?_
        have := h.2.2 hm
        omega
      · rw [if_neg hbig, Float64.abs, leInt_finite]
        refine ⟨fun h => ⟨h, fun he => absurd he hm, fun _ => by omega⟩, fun h => h.1⟩
  rw [hresult]
  rcases lt_trichotomy e (-44) with hlt | rfl | hgt
  · -- Below 256 both hold.
    have hsmall : (n : ℚ) / d < 256 := by
      refine lt_of_lt_of_le hhigh (le_trans (hmono (show e + 53 ≤ 8 by omega)) ?_)
      norm_num
    have hm : (m : ℚ) * (2 : ℚ) ^ e ≤ 300 := by
      have hunit : (2 : ℚ) ^ e ≤ 1 := by
        have h := hmono (show e ≤ 0 by omega)
        rwa [zpow_zero] at h
      have hupper := mul_le_mul_of_nonneg_right hrounds.upper (le_of_lt hpos)
      rw [add_mul, mul_assoc, hcancel, mul_one] at hupper
      linarith
    have hbound : (n : ℚ) / d ≤ 300 + 1 / 2 ^ 45 := by
      have htiny : (0 : ℚ) < 1 / 2 ^ 45 := by positivity
      linarith
    exact iff_of_true ⟨hm, fun _ => by omega, fun _ => by omega⟩ hbound
  · -- Between 256 and 512 a unit is 2 to the power of minus 44.
    have hunit : (2 : ℚ) ^ (-(-44) : Int) = 17592186044416 := by norm_num
    have hinv : (2 : ℚ) ^ (-44 : Int) = 1 / 17592186044416 := by norm_num
    have heven := hrounds.le_even (k := 300 * 17592186044416) ⟨150 * 17592186044416, by norm_num⟩
    rw [hunit] at heven
    push_cast at heven
    have hleft : (m : ℚ) * (2 : ℚ) ^ (-44 : Int) ≤ 300 ↔ m ≤ 300 * 17592186044416 := by
      rw [hinv, mul_one_div, div_le_iff₀ (by norm_num)]
      exact_mod_cast Iff.rfl
    have hright : (n : ℚ) / d * 17592186044416 ≤ 5277655813324800 + 1 / 2 ↔
        (n : ℚ) / d ≤ 300 + 1 / 2 ^ 45 := by
      constructor
      · intro h
        norm_num at h ⊢
        linarith
      · intro h
        norm_num at h ⊢
        linarith
    rw [hleft, heven, hright]
    exact ⟨fun h => h.1, fun h => ⟨h, fun _ => by omega, fun _ => by omega⟩⟩
  · -- From 512 on neither holds.
    have hlarge : (512 : ℚ) ≤ (n : ℚ) / d := by
      rcases hlow with hmin' | hlow
      · omega
      · refine le_trans ?_ hlow
        refine le_trans ?_ (hmono (show (9 : Int) ≤ e + 52 by omega))
        norm_num
    have hm : ¬ (m : ℚ) * (2 : ℚ) ^ e ≤ 300 := by
      intro hle
      have hlower := mul_le_mul_of_nonneg_right hrounds.lower (le_of_lt hpos)
      rw [sub_mul, mul_assoc, hcancel, mul_one] at hlower
      rcases hlow with hmin' | hlow
      · omega
      · -- Half a unit is small next to what has 53 digits.
        have hhalf : (2 : ℚ) ^ e ≤ (2 : ℚ) ^ (e + 52) / 2 ^ 52 := by
          rw [zpow_add₀ (by norm_num)]
          norm_num
        have hquot : (2 : ℚ) ^ e ≤ (n : ℚ) / d / 2 ^ 52 :=
          le_trans hhalf (div_le_div_of_nonneg_right hlow (by positivity))
        norm_num at hquot hlower
        linarith
    have hbound : ¬ (n : ℚ) / d ≤ 300 + 1 / 2 ^ 45 := by
      intro hle
      norm_num at hle
      linarith
    exact iff_of_false (fun h => hm h.1) hbound

/-- Integers below the precision are exact. -/
theorem ofInt_value {n : Nat} (h : n < 2 ^ 53) :
    (Float64.ofInt n).value = some (n : ℚ) := by
  rcases Nat.eq_zero_or_pos n with rfl | hn
  · have hzero : Float64.ofInt (0 : Nat) = .zero false := by decide
    rw [hzero]
    simp only [Float64.value, Float64.zero, Float64.num, dyadic, Option.map_some, Bool.false_eq_true,
      if_false, Nat.cast_zero, Int.cast_zero]
    norm_num
  have hratio : Float64.ofInt n = Float64.ofRatio false n 1 := by
    rw [Float64.ofInt, Float64.ofDyadic]
    simp only [Int.natAbs_natCast, Int.toNat_zero, pow_zero, mul_one, neg_zero]
    rw [decide_eq_false (by omega)]
  rcases ofRatio_spec false hn (Nat.one_pos) with ⟨e, m, hmin, hhigh, hlow, hrounds, heq⟩
  rw [Nat.cast_one, div_one] at hhigh hlow hrounds
  have hmono {i j : Int} (hij : i < j) : (2 : ℚ) ^ i < (2 : ℚ) ^ j :=
    zpow_lt_zpow_right₀ (by norm_num) hij
  have hone : (1 : ℚ) ≤ n := by exact_mod_cast hn
  have hlt : (n : ℚ) < (2 : ℚ) ^ (53 : Int) := by exact_mod_cast h
  -- The exponent is not positive, so the quotient scaled by it is an integer.
  have he : e ≤ 0 := by
    by_contra hpos
    rcases hlow with hmin' | hlow
    · omega
    · have h53 : (2 : ℚ) ^ (53 : Int) ≤ (2 : ℚ) ^ (e + 52) :=
        zpow_le_zpow_right₀ (by norm_num) (by omega)
      linarith
  have hscaled : (n : ℚ) * (2 : ℚ) ^ (-e) = ((n * 2 ^ (-e).toNat : Nat) : ℚ) := by
    push_cast
    rw [← zpow_natCast, Int.toNat_of_nonneg (by omega)]
  rw [hscaled] at hrounds
  have hm : m = n * 2 ^ (-e).toNat := by
    have hlower := hrounds.lower
    have hupper := hrounds.upper
    have h1 : n * 2 ^ (-e).toNat < m + 1 := by
      have : ((n * 2 ^ (-e).toNat : Nat) : ℚ) < ((m + 1 : Nat) : ℚ) := by
        push_cast at hlower ⊢
        linarith
      exact_mod_cast this
    have h2 : m < n * 2 ^ (-e).toNat + 1 := by
      have : (m : ℚ) < ((n * 2 ^ (-e).toNat + 1 : Nat) : ℚ) := by
        push_cast at hupper ⊢
        linarith
      exact_mod_cast this
    omega
  have hvalue : (m : ℚ) * (2 : ℚ) ^ e = n := by
    rw [hm, ← hscaled, mul_assoc, ← zpow_add₀ (by norm_num), neg_add_cancel, zpow_zero, mul_one]
  rw [hratio, heq]
  by_cases hm53 : m = 2 ^ 53
  · rw [if_pos hm53, if_neg (by omega)]
    have hwritten : ((2 ^ 52 : Nat) : ℚ) * (2 : ℚ) ^ (e + 1) = (m : ℚ) * (2 : ℚ) ^ e := by
      rw [hm53, zpow_add₀ (by norm_num), zpow_one]
      push_cast
      ring
    refine congrArg some ?_
    simp only [dyadic, Bool.false_eq_true, if_false, Int.cast_natCast]
    exact hwritten.trans hvalue
  · rw [if_neg hm53, if_neg (by omega)]
    refine congrArg some ?_
    simp only [dyadic, Bool.false_eq_true, if_false, Int.cast_natCast]
    exact hvalue

/-- Rounding the difference of two numbers, both of which are floats. -/
theorem sub_leInt {x y : Float64} {p q : ℚ} (hx : x.value = some p) (hy : y.value = some q) :
    (x.sub y).abs.leInt 300 = true ↔ |p - q| ≤ 300 + 1 / 2 ^ 45 := by
  rcases Option.map_eq_some_iff.mp hx with ⟨⟨a, e⟩, ha, rfl⟩
  rcases Option.map_eq_some_iff.mp hy with ⟨⟨b, f⟩, hb, rfl⟩
  obtain ⟨k, hk⟩ : ∃ k : Int, k = min e f := ⟨_, rfl⟩
  obtain ⟨c, hc⟩ : ∃ c : Int, c = a * 2 ^ (e - k).toNat - b * 2 ^ (f - k).toNat := ⟨_, rfl⟩
  have hsub : x.sub y = Float64.ofRatio (decide (c < 0)) (c.natAbs * 2 ^ k.toNat) (2 ^ (-k).toNat) := by
    simp only [Float64.sub, ha, hb, ← hk, ← hc]
    rfl
  have hdiff : dyadic (a, e) - dyadic (b, f) = (c : ℚ) * (2 : ℚ) ^ k := by
    rw [dyadic_scale a e k (by omega), dyadic_scale b f k (by omega), hc]
    push_cast
    ring
  have hratio : ((c.natAbs * 2 ^ k.toNat : Nat) : ℚ) / ((2 ^ (-k).toNat : Nat) : ℚ) =
      |dyadic (a, e) - dyadic (b, f)| := by
    have h := scaled_quotient c.natAbs 1 (-k)
    rw [neg_neg, one_mul, Nat.cast_one, div_one] at h
    rw [h, hdiff, abs_mul, abs_of_pos (show (0 : ℚ) < (2 : ℚ) ^ k by positivity)]
    congr 1
    rw [← Int.cast_abs, Int.abs_eq_natAbs, Int.cast_natCast]
  rw [hsub, leInt_ofRatio _ _ (by positivity), hratio]

end Py
