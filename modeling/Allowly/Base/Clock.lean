import Allowly.Base.Rounding

/-!
# A Clock that Shows Floats

`time.time()` shows a float, and a number of seconds that is added to it is rounded twice:
when it is turned into a float, and when the sum is. The sum may come out early or late, but
never so late that a reading which is before it could have been after the exact sum.

## Main definitions

* `Reading`: What the clock shows.
* `Float64.add`, `Float64.lt`: Adding and comparing floats.

## Theorems

* `rounded_le`: A float that is at least some number is at least what it is rounded to.
* `lt_of_lt_ofDyadic`: A reading before a rounded number is before the number.
* `lt_of_lt_add`: The same for a reading with seconds added to it.
-/

namespace Py

namespace Float64

def neg : Float64 → Float64
  | .finite s m e => .finite (!s) m e
  | .inf s => .inf (!s)
  | .nan => .nan

/-- The rounded sum of two finite floats. -/
def add (x y : Float64) : Float64 := x.sub y.neg

/-- The comparison `x < y` of a finite float. -/
def lt (x y : Float64) : Bool :=
  match x.num, y with
  | some _, .inf s => !s
  | some a, .finite s m e => !dyadicLe (if s then -(m : Int) else m, e) a
  | _, _ => false

end Float64

/-- What the clock shows: a float that is not negative. -/
structure Reading where
  mant : Nat
  exp : Int
  mant_lt : mant < 2 ^ 53
  exp_ge : -1074 ≤ exp
  exp_le : exp ≤ 971
  deriving DecidableEq

namespace Reading

def float (t : Reading) : Float64 := .finite false t.mant t.exp

def value (t : Reading) : ℚ := t.mant * (2 : ℚ) ^ t.exp

theorem float_value (t : Reading) : t.float.value = some t.value := rfl

theorem value_nonneg (t : Reading) : 0 ≤ t.value := by
  unfold value
  positivity

end Reading

theorem value_neg {x : Float64} {p : ℚ} (h : x.value = some p) : x.neg.value = some (-p) := by
  cases x with
  | finite s m e =>
      cases h
      refine congrArg some ?_
      cases s with
      | false => simp [dyadic]
      | true => simp [dyadic]
  | inf s => cases h
  | nan => cases h

/-- A sum is the rounded exact sum. -/
theorem add_eq {x y : Float64} {p q : ℚ} (hx : x.value = some p) (hy : y.value = some q) :
    ∃ m e : Int, x.add y = Float64.ofDyadic m e ∧ dyadic (m, e) = p + q := by
  rcases Option.map_eq_some_iff.mp hx with ⟨⟨a, e⟩, ha, hp⟩
  rcases Option.map_eq_some_iff.mp (value_neg hy) with ⟨⟨b, f⟩, hb, hq⟩
  refine ⟨a * 2 ^ (e - min e f).toNat - b * 2 ^ (f - min e f).toNat, min e f, ?_, ?_⟩
  · simp only [Float64.add, Float64.sub, ha, hb]
  · have hsum : p + q = dyadic (a, e) - dyadic (b, f) := by
      rw [hp, hq]
      ring
    rw [hsum, dyadic_scale a e _ (min_le_left e f), dyadic_scale b f _ (min_le_right e f), dyadic]
    push_cast
    ring

/-- A float that is at least some number is at least what the number is rounded to. -/
theorem rounded_le {q : ℚ} {e f : Int} {m k : Nat}
    (hlow : e = -1074 ∨ (2 : ℚ) ^ (e + 52) ≤ q) (hrounds : Rounds (q * (2 : ℚ) ^ (-e)) m)
    (hk : k < 2 ^ 53) (hf : -1074 ≤ f) (hle : q ≤ k * (2 : ℚ) ^ f) :
    (m : ℚ) * (2 : ℚ) ^ e ≤ k * (2 : ℚ) ^ f := by
  have hpos : (0 : ℚ) < (2 : ℚ) ^ e := by positivity
  have hback : (2 : ℚ) ^ (-e) * (2 : ℚ) ^ e = 1 := by
    rw [← zpow_add₀ (by norm_num), neg_add_cancel, zpow_zero]
  by_cases hef : e ≤ f
  · -- In units of `2 ^ e` the float is an integer.
    obtain ⟨n, hn⟩ : ∃ n : Nat, n = k * 2 ^ (f - e).toNat := ⟨_, rfl⟩
    have hscale : (k : ℚ) * (2 : ℚ) ^ f = (n : ℚ) * (2 : ℚ) ^ e := by
      have h := dyadic_scale k f e hef
      simp only [dyadic] at h
      rw [hn]
      exact_mod_cast h
    have hunits : q * (2 : ℚ) ^ (-e) ≤ n := by
      rw [← mul_le_mul_iff_left₀ hpos, mul_assoc, hback, mul_one, ← hscale]
      exact hle
    have hupper := hrounds.upper
    have hlt : m < n + 1 := by
      have hcast : (m : ℚ) < ((n + 1 : Nat) : ℚ) := by
        push_cast
        linarith
      exact_mod_cast hcast
    rw [hscale, mul_le_mul_iff_left₀ hpos]
    exact_mod_cast Nat.lt_succ_iff.mp hlt
  · -- A float of a smaller unit is below the number.
    exfalso
    rcases hlow with hmin | hlow
    · omega
    have hfloat : (k : ℚ) * (2 : ℚ) ^ f < (2 : ℚ) ^ (53 : Int) * (2 : ℚ) ^ f := by
      have hcast : (k : ℚ) < (2 : ℚ) ^ (53 : Int) := by exact_mod_cast hk
      have hposf : (0 : ℚ) < (2 : ℚ) ^ f := by positivity
      rw [mul_lt_mul_iff_left₀ hposf]
      exact hcast
    have hunit : (2 : ℚ) ^ (53 : Int) * (2 : ℚ) ^ f ≤ (2 : ℚ) ^ (e + 52) := by
      rw [← zpow_add₀ (by norm_num)]
      exact zpow_le_zpow_right₀ (by norm_num) (by omega)
    linarith

theorem lt_finite (t : Reading) (m : Nat) (e : Int) :
    t.float.lt (.finite false m e) = true ↔ t.value < m * (2 : ℚ) ^ e := by
  have h := dyadicLe_iff ((m : Int), e) ((t.mant : Int), t.exp)
  simp only [dyadic, Int.cast_natCast] at h
  simp only [Float64.lt, Reading.float, Float64.num, Bool.false_eq_true, if_false, Bool.not_eq_true',
    ← not_iff_not (a := _ = false), Bool.not_eq_false, not_lt]
  exact h

theorem not_lt_neg (t : Reading) (m : Nat) (e : Int) : t.float.lt (.finite true m e) = false := by
  have h := dyadicLe_iff (-(m : Int), e) ((t.mant : Int), t.exp)
  have hle : dyadic (-(m : Int), e) ≤ dyadic ((t.mant : Int), t.exp) := by
    have hneg : dyadic (-(m : Int), e) ≤ 0 := by
      have hpos : 0 ≤ (m : ℚ) * (2 : ℚ) ^ e := by positivity
      simp only [dyadic, Int.cast_neg, Int.cast_natCast, neg_mul]
      linarith
    have hnonneg := t.value_nonneg
    simp only [dyadic, Int.cast_natCast] at hneg ⊢
    exact le_trans hneg hnonneg
  simp only [Float64.lt, Reading.float, Float64.num, if_true, Bool.not_eq_false',
    Bool.false_eq_true, if_false]
  exact h.mpr hle

/-- What is rounded from below zero is not after a reading. -/
theorem not_lt_ofRatio_neg (t : Reading) (n : Nat) {d : Nat} (hd : 0 < d) :
    t.float.lt (.ofRatio true n d) = false := by
  rcases Nat.eq_zero_or_pos n with rfl | hn
  · exact not_lt_neg t _ _
  rcases ofRatio_spec true hn hd with ⟨e, m, _, _, _, _, heq⟩
  rw [heq]
  split
  · split
    · rfl
    · exact not_lt_neg t _ _
  · split
    · rfl
    · exact not_lt_neg t _ _

theorem Reading.value_lt (t : Reading) : t.value < (2 : ℚ) ^ (1024 : Int) := by
  have hmant : (t.mant : ℚ) < (2 : ℚ) ^ (53 : Int) := by exact_mod_cast t.mant_lt
  have hexp : (2 : ℚ) ^ t.exp ≤ (2 : ℚ) ^ (971 : Int) :=
    zpow_le_zpow_right₀ (by norm_num) t.exp_le
  have hpos : (0 : ℚ) < (2 : ℚ) ^ t.exp := by positivity
  calc t.value < (2 : ℚ) ^ (53 : Int) * (2 : ℚ) ^ t.exp := by
        rw [Reading.value, mul_lt_mul_iff_left₀ hpos]
        exact hmant
    _ ≤ (2 : ℚ) ^ (53 : Int) * (2 : ℚ) ^ (971 : Int) := by
        rw [mul_le_mul_iff_right₀ (by positivity)]
        exact hexp
    _ = (2 : ℚ) ^ (1024 : Int) := by
        rw [← zpow_add₀ (by norm_num)]
        rfl

/-- A reading before a rounded quotient is before the quotient. -/
theorem lt_of_lt_ofRatio {t : Reading} {n d : Nat} (hd : 0 < d)
    (h : t.float.lt (.ofRatio false n d) = true) : t.value < (n : ℚ) / d := by
  rcases Nat.eq_zero_or_pos n with rfl | hn
  · have hzero : t.value < (0 : Nat) * (2 : ℚ) ^ (-1074 : Int) := by
      rw [← lt_finite]
      exact h
    rw [Nat.cast_zero, zero_mul] at hzero
    exact absurd t.value_nonneg (not_le.mpr hzero)
  rcases ofRatio_spec false hn hd with ⟨e, m, hmin, hhigh, hlow, hrounds, heq⟩
  by_contra hle
  rw [not_lt] at hle
  have hround : (m : ℚ) * (2 : ℚ) ^ e ≤ t.value :=
    rounded_le hlow hrounds t.mant_lt t.exp_ge hle
  have hmax := t.value_lt
  rw [heq] at h
  by_cases hm : m = 2 ^ 53
  · have hwritten : ((2 ^ 52 : Nat) : ℚ) * (2 : ℚ) ^ (e + 1) = (m : ℚ) * (2 : ℚ) ^ e := by
      rw [hm, zpow_add₀ (by norm_num), zpow_one]
      push_cast
      ring
    by_cases he : e + 1 > 971
    · have htop : (2 : ℚ) ^ (1024 : Int) ≤ (m : ℚ) * (2 : ℚ) ^ e := by
        have hpow : ((2 ^ 53 : Nat) : ℚ) = (2 : ℚ) ^ (53 : Int) := by norm_num
        rw [hm, hpow, ← zpow_add₀ (by norm_num)]
        exact zpow_le_zpow_right₀ (by norm_num) (by omega)
      linarith
    · rw [if_pos hm, if_neg he, lt_finite, hwritten] at h
      linarith
  · by_cases he : e > 971
    · have htop : (2 : ℚ) ^ (1024 : Int) ≤ (2 : ℚ) ^ (e + 52) :=
        zpow_le_zpow_right₀ (by norm_num) (by omega)
      have hlow := hlow.resolve_left (by omega)
      linarith
    · rw [if_neg hm, if_neg he, lt_finite] at h
      linarith

/-- A reading before a rounded number is before the number. -/
theorem lt_of_lt_ofDyadic {t : Reading} {m e : Int} (h : t.float.lt (.ofDyadic m e) = true) :
    t.value < dyadic (m, e) := by
  have hd : 0 < 2 ^ (-e).toNat := by positivity
  rw [Float64.ofDyadic] at h
  by_cases hm : m < 0
  · rw [decide_eq_true hm, not_lt_ofRatio_neg t _ hd] at h
    cases h
  · rw [decide_eq_false hm] at h
    have hlt := lt_of_lt_ofRatio hd h
    have hscaled := scaled_quotient m.natAbs 1 (-e)
    rw [neg_neg, one_mul, Nat.cast_one, div_one] at hscaled
    rw [hscaled] at hlt
    have habs : (m.natAbs : ℚ) = m := by
      rw [Nat.cast_natAbs, abs_of_nonneg (not_lt.mp hm)]
    rw [habs] at hlt
    exact hlt

/-- A reading before the time at which seconds after another one end is before their sum. -/
theorem lt_of_lt_add {t start : Reading} {n : Int} {seconds : ℚ}
    (hn : (Float64.ofInt n).value = some seconds)
    (h : t.float.lt (start.float.add (.ofInt n)) = true) : t.value < start.value + seconds := by
  rcases add_eq start.float_value hn with ⟨m, e, hadd, hsum⟩
  rw [hadd] at h
  rw [← hsum]
  exact lt_of_lt_ofDyadic h

end Py
