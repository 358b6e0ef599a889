import Mathlib.Analysis.Complex.Exponential
import Mathlib.Tactic.Linarith
import Mathlib.Tactic.Positivity
import Mathlib.Tactic.Ring

/-! Growth by compounding in steps of any length. A factor expanded to the third order in a rate
whose powers are rounded stays below the exponential, and values that grow by such factors, with
a rounding in each step, stay below one exponential over all the steps. -/

namespace Growth

open Real

variable {q ε p₂ p₃ : ℝ} {n m : ℕ}

/-- The expansion of a compounded factor in the powers of its rate. -/
noncomputable def expansion (q p₂ p₃ : ℝ) (n : ℕ) : ℝ :=
  1 + n * q + n.choose 2 * p₂ + n.choose 3 * p₃

theorem expansion_le_pow (hq : 0 ≤ q) (n : ℕ) : expansion q (q ^ 2) (q ^ 3) n ≤ (1 + q) ^ n := by
  induction n with
  | zero => simp [expansion]
  | succ n ih =>
    have hpairs : ((n + 1).choose 2 : ℝ) = n + n.choose 2 := by
      rw [Nat.choose_succ_succ, Nat.choose_one_right, Nat.cast_add]
    have htriples : ((n + 1).choose 3 : ℝ) = n.choose 2 + n.choose 3 := by
      rw [Nat.choose_succ_succ, Nat.cast_add]
    have hrest : 0 ≤ n.choose 3 * q ^ 4 := by positivity
    calc expansion q (q ^ 2) (q ^ 3) (n + 1)
        = expansion q (q ^ 2) (q ^ 3) n * (1 + q) - n.choose 3 * q ^ 4 := by
          simp only [expansion, hpairs, htriples, Nat.cast_succ]
          ring
      _ ≤ expansion q (q ^ 2) (q ^ 3) n * (1 + q) := by linarith
      _ ≤ (1 + q) ^ n * (1 + q) := mul_le_mul_of_nonneg_right ih (by linarith)
      _ = (1 + q) ^ (n + 1) := (pow_succ _ _).symm

theorem pow_le_exp (hq : 0 ≤ q) (n : ℕ) : (1 + q) ^ n ≤ exp (n * q) := by
  rw [exp_nat_mul]
  exact pow_le_pow_left₀ (by linarith) (by linarith [add_one_le_exp q]) n

/-- The pairs and the triples of some steps are at most a sixth of the cube. -/
theorem pairs_triples_le (n : ℕ) : 6 * (n.choose 2 + n.choose 3) ≤ n ^ 3 := by
  have hchoose := Nat.descFactorial_eq_factorial_mul_choose (n + 1) 3
  rw [Nat.choose_succ_succ, show Nat.factorial 3 = 6 from rfl] at hchoose
  rw [← hchoose]
  cases n with
  | zero => simp
  | succ n =>
    simp only [Nat.descFactorial_succ, Nat.descFactorial_zero]
    have hsquare : n * (n + 2) ≤ (n + 1) * (n + 1) := by ring_nf; omega
    calc (n + 1 + 1 - 2) * ((n + 1 + 1 - 1) * ((n + 1 + 1 - 0) * 1))
        = n * (n + 2) * (n + 1) := by simp; ring
      _ ≤ (n + 1) * (n + 1) * (n + 1) := Nat.mul_le_mul_right _ hsquare
      _ = (n + 1) ^ 3 := by ring

/-- What the rounding of the powers adds is paid by a little more growth. -/
theorem expansion_le_exp (hq : 0 ≤ q) (hε : 0 ≤ ε) (h₂ : p₂ ≤ q ^ 2 + ε) (h₃ : p₃ ≤ p₂ * q + ε)
    (n : ℕ) : expansion q p₂ p₃ n ≤ exp (n * q + ε / 6 * n ^ 3) := by
  have hexact := (expansion_le_pow hq n).trans (pow_le_exp hq n)
  have hone : 1 ≤ exp (n * q) := one_le_exp (by positivity)
  have hlinear : 1 + n * q ≤ exp (n * q) := by linarith [add_one_le_exp (n * q)]
  have hcount : (6 : ℝ) * (n.choose 2 + n.choose 3) ≤ n ^ 3 := by
    exact_mod_cast pairs_triples_le n
  have htriples : (n.choose 3 : ℝ) ≤ n.choose 2 * n := by
    have h := Nat.choose_succ_right_eq n 2
    have hle : n.choose 3 ≤ n.choose 2 * n := by
      calc n.choose 3 ≤ n.choose 3 * (2 + 1) := Nat.le_mul_of_pos_right _ (by omega)
        _ = n.choose 2 * (n - 2) := h
        _ ≤ n.choose 2 * n := Nat.mul_le_mul_left _ (Nat.sub_le _ _)
    exact_mod_cast hle
  set pairs : ℝ := ((n.choose 2 : ℕ) : ℝ)
  set triples : ℝ := ((n.choose 3 : ℕ) : ℝ)
  have hpairs : 0 ≤ pairs := Nat.cast_nonneg _
  have htriples' : 0 ≤ triples := Nat.cast_nonneg _
  have hsecond : pairs * p₂ ≤ pairs * q ^ 2 + ε * pairs := by
    linarith [mul_le_mul_of_nonneg_left h₂ hpairs]
  have hthird : triples * p₃ ≤ triples * q ^ 3 + ε * (triples * q) + ε * triples := by
    have hp₂ := mul_le_mul_of_nonneg_right h₂ hq
    have hp₃ : p₃ ≤ q ^ 3 + ε * q + ε := by linarith [h₃, hp₂, pow_succ q 2]
    linarith [mul_le_mul_of_nonneg_left hp₃ htriples']
  have hrounded : pairs + triples * q ≤ pairs * exp (n * q) := by
    have hcover : triples * q ≤ pairs * n * q := mul_le_mul_of_nonneg_right htriples hq
    have hpaid := mul_le_mul_of_nonneg_left hlinear hpairs
    linarith
  have htotal : expansion q p₂ p₃ n ≤ exp (n * q) * (1 + ε * (pairs + triples)) := by
    have herror := mul_le_mul_of_nonneg_left hrounded hε
    have hlast := mul_le_mul_of_nonneg_left hone (mul_nonneg hε htriples')
    rw [expansion] at hexact ⊢
    linarith
  have hsmall : 1 + ε * (pairs + triples) ≤ exp (ε / 6 * n ^ 3) := by
    have hcube := mul_le_mul_of_nonneg_left hcount hε
    linarith [add_one_le_exp (ε / 6 * (n : ℝ) ^ 3)]
  rw [exp_add]
  exact htotal.trans (mul_le_mul_of_nonneg_left hsmall (exp_pos _).le)

/-- Over `n` units of time a value grows at most at a rate, but for one unit of the value in each
unit of time, and an error in the exponent. -/
def Within (rate error : ℝ) (n : ℕ) (v v' : ℝ) : Prop :=
  v' ≤ (v + n) * exp (rate * n + error * n ^ 3)

namespace Within

variable {rate error f v v₁ v' : ℝ}

theorem of_le (hrate : 0 ≤ rate) (herror : 0 ≤ error) (hv : 0 ≤ v) (h : v' ≤ v) (n : ℕ) :
    Within rate error n v v' := by
  have hexp : 1 ≤ exp (rate * n + error * n ^ 3) := one_le_exp (by positivity)
  have hn : (0 : ℝ) ≤ n := Nat.cast_nonneg n
  calc v' ≤ (v + n) * 1 := by linarith
    _ ≤ (v + n) * exp (rate * n + error * n ^ 3) :=
      mul_le_mul_of_nonneg_left hexp (by linarith)

theorem of_factor (hv : 0 ≤ v) (hn : n ≠ 0) (hf : f ≤ exp (rate * n + error * n ^ 3))
    (hrate : 0 ≤ rate) (herror : 0 ≤ error) (h : v' ≤ f * v + 1) : Within rate error n v v' := by
  have hexp : 1 ≤ exp (rate * n + error * n ^ 3) := one_le_exp (by positivity)
  have hone : (1 : ℝ) ≤ n := by exact_mod_cast Nat.one_le_iff_ne_zero.mpr hn
  have hgrown := mul_le_mul_of_nonneg_right hf hv
  have hrounded : 1 ≤ n * exp (rate * n + error * n ^ 3) := one_le_mul_of_one_le_of_one_le hone hexp
  rw [Within, add_mul]
  linarith

theorem trans (hrate : 0 ≤ rate) (herror : 0 ≤ error) (hv : 0 ≤ v)
    (h₁ : Within rate error n v v₁) (h₂ : Within rate error m v₁ v') :
    Within rate error (n + m) v v' := by
  have hn : (0 : ℝ) ≤ n := Nat.cast_nonneg n
  have hm : (0 : ℝ) ≤ m := Nat.cast_nonneg m
  have hexp : 1 ≤ exp (rate * n + error * n ^ 3) := one_le_exp (by positivity)
  have hcubes : (n : ℝ) ^ 3 + m ^ 3 ≤ (n + m) ^ 3 := by
    have : 0 ≤ 3 * (n * m * ((n : ℝ) + m)) := by positivity
    linarith [show ((n : ℝ) + m) ^ 3 = n ^ 3 + m ^ 3 + 3 * (n * m * (n + m)) by ring]
  have hexponent : rate * n + error * n ^ 3 + (rate * m + error * m ^ 3) ≤
      rate * ↑(n + m) + error * ↑(n + m) ^ 3 := by
    have herrors := mul_le_mul_of_nonneg_left hcubes herror
    push_cast
    linarith
  have hfirst : v₁ + m ≤ (v + n + m) * exp (rate * n + error * n ^ 3) := by
    have hunits := mul_le_mul_of_nonneg_left hexp hm
    rw [Within] at h₁
    linarith
  calc v' ≤ (v₁ + m) * exp (rate * m + error * m ^ 3) := h₂
    _ ≤ (v + n + m) * exp (rate * n + error * n ^ 3) * exp (rate * m + error * m ^ 3) :=
      mul_le_mul_of_nonneg_right hfirst (exp_pos _).le
    _ = (v + ↑(n + m)) * exp (rate * n + error * n ^ 3 + (rate * m + error * m ^ 3)) := by
      rw [mul_assoc, ← exp_add]
      push_cast
      ring
    _ ≤ (v + ↑(n + m)) * exp (rate * ↑(n + m) + error * ↑(n + m) ^ 3) :=
      mul_le_mul_of_nonneg_left (exp_le_exp_of_le hexponent) (by positivity)

end Within

end Growth
