import Mathlib.Data.Nat.Choose.Vandermonde
import Moola.Math

/-! Interest compounded over one long step against two short ones. The factor is a
binomial sum up to the third order, so two steps multiply to at least the long one but for
the rounding of the two powers of the rate, which counts once for each pair and each triple
of seconds that lies across the two steps. -/

namespace Moola

open Guard WadRayMath

namespace MathUtils

theorem pairs_eq (n : ℕ) : n * (n - 1) = 2 * n.choose 2 := by
  have h := Nat.descFactorial_eq_factorial_mul_choose n 2
  rwa [Nat.descFactorial_succ, Nat.descFactorial_one, mul_comm, Nat.factorial_two] at h

theorem triples_eq (n : ℕ) : n * (n - 1) * (n - 2) = 6 * n.choose 3 := by
  have h := Nat.descFactorial_eq_factorial_mul_choose n 3
  have hfactorial : Nat.factorial 3 = 6 := rfl
  rw [Nat.descFactorial_succ, Nat.descFactorial_succ, Nat.descFactorial_one, hfactorial] at h
  rw [← h]
  ring

theorem compoundedExcess_eq (rate n : ℕ) : compoundedExcess rate n =
    rate / secondsPerYear * n +
      n.choose 2 * rayProduct (rate / secondsPerYear) (rate / secondsPerYear) +
      n.choose 3 * rayProduct (rayProduct (rate / secondsPerYear) (rate / secondsPerYear))
        (rate / secondsPerYear) := by
  rw [compoundedExcess, triples_eq, pairs_eq, mul_assoc 2, mul_assoc 6,
    Nat.mul_div_cancel_left _ (by norm_num), Nat.mul_div_cancel_left _ (by norm_num)]

theorem choose_two_add (n m : ℕ) :
    (n + m).choose 2 = n.choose 2 + m.choose 2 + n * m := by
  rw [Nat.add_choose_eq]
  simp [Finset.Nat.antidiagonal_succ]
  omega

theorem choose_three_add (n m : ℕ) : (n + m).choose 3 =
    n.choose 3 + m.choose 3 + (n.choose 2 * m + n * m.choose 2) := by
  rw [Nat.add_choose_eq]
  simp [Finset.Nat.antidiagonal_succ]
  omega

theorem triples_across (n m : ℕ) :
    2 * (n.choose 2 * m + n * m.choose 2) + 2 * (n * m) = n * m * (n + m) := by
  have hsquare (k : ℕ) : 2 * k.choose 2 + k = k * k := by
    rw [← pairs_eq]
    cases k with
    | zero => rfl
    | succ k => simp; ring
  calc 2 * (n.choose 2 * m + n * m.choose 2) + 2 * (n * m)
      = m * (2 * n.choose 2 + n) + n * (2 * m.choose 2 + m) := by ring
    _ = n * m * (n + m) := by rw [hsquare, hsquare]; ring

/-- The factor of one long step against the product of two short ones, scaled up by a ray:
each pair across the steps costs half a unit, and so does each triple. -/
theorem compounded_product_le (rate n m : ℕ) :
    4 * ray * (ray + compoundedExcess rate (n + m)) ≤
      4 * ((ray + compoundedExcess rate n) * (ray + compoundedExcess rate m)) +
        ray * (n * m * (n + m)) := by
  simp only [compoundedExcess_eq, choose_two_add, choose_three_add]
  have hacross := triples_across n m
  set r := rate / secondsPerYear
  set p₂ := rayProduct r r with hp₂
  set p₃ := rayProduct p₂ r with hp₃
  have hsquare : 2 * (ray * p₂) ≤ 2 * (r * r) + ray := HalfUp.twice_lower _ _
  have hcube : 2 * (ray * p₃) ≤ 2 * (p₂ * r) + ray := HalfUp.twice_lower _ _
  generalize n.choose 2 = pairs at *
  generalize m.choose 2 = pairs' at *
  generalize n.choose 3 = triples at *
  generalize m.choose 3 = triples' at *
  -- what both sides have in common: the steps on their own
  set apart := ray + r * (n + m) + (pairs + pairs') * p₂ + (triples + triples') * p₃
  have hlong : ray + (r * (n + m) + (pairs + pairs' + n * m) * p₂ +
      (triples + triples' + (pairs * m + n * pairs')) * p₃) =
      apart + n * m * p₂ + (pairs * m + n * pairs') * p₃ := by ring
  have hshort : (ray + (r * n + pairs * p₂ + triples * p₃)) *
      (ray + (r * m + pairs' * p₂ + triples' * p₃)) =
      ray * apart + n * m * (r * r) + (pairs * m + n * pairs') * (p₂ * r) +
        (r * n * (triples' * p₃) + pairs * p₂ * (pairs' * p₂ + triples' * p₃) +
          triples * p₃ * (r * m + pairs' * p₂ + triples' * p₃)) := by ring
  have hpairs := Nat.mul_le_mul_left (2 * (n * m)) hsquare
  have htriples := Nat.mul_le_mul_left (2 * (pairs * m + n * pairs')) hcube
  rw [hlong, hshort, ← hacross]
  calc 4 * ray * (apart + n * m * p₂ + (pairs * m + n * pairs') * p₃)
      = 4 * (ray * apart) + 2 * (n * m) * (2 * (ray * p₂)) +
          2 * (pairs * m + n * pairs') * (2 * (ray * p₃)) := by ring
    _ ≤ 4 * (ray * apart) + 2 * (n * m) * (2 * (r * r) + ray) +
          2 * (pairs * m + n * pairs') * (2 * (p₂ * r) + ray) := by omega
    _ = 4 * (ray * apart + n * m * (r * r) + (pairs * m + n * pairs') * (p₂ * r)) +
          ray * (2 * (pairs * m + n * pairs') + 2 * (n * m)) := by ring
    _ ≤ _ := Nat.add_le_add_right (Nat.mul_le_mul_left 4 (Nat.le_add_right _ _)) _

variable {rate t n m long short short' product : ℕ}

theorem compounded_le_product
    (hlong : calculateCompoundedInterest rate t (t + (n + m)) = .ok long)
    (hshort : calculateCompoundedInterest rate t (t + n) = .ok short)
    (hshort' : calculateCompoundedInterest rate t (t + m) = .ok short')
    (hproduct : rayMul short short' = .ok product) :
    long ≤ product + 1 + n * m * (n + m) / 4 := by
  obtain ⟨-, rfl⟩ := calculateCompoundedInterest_ok hlong
  obtain ⟨-, rfl⟩ := calculateCompoundedInterest_ok hshort
  obtain ⟨-, rfl⟩ := calculateCompoundedInterest_ok hshort'
  obtain ⟨-, rfl⟩ := rayMul_ok.mp hproduct
  simp only [Nat.add_sub_cancel_left]
  have hsteps := compounded_product_le rate n m
  have hround : 2 * ((ray + compoundedExcess rate n) * (ray + compoundedExcess rate m)) ≤
      2 * (ray * rayProduct (ray + compoundedExcess rate n) (ray + compoundedExcess rate m)) +
        ray := HalfUp.twice_upper _ ray_pos
  generalize rayProduct (ray + compoundedExcess rate n) (ray + compoundedExcess rate m) = product
    at hround ⊢
  generalize n * m * (n + m) = across at hsteps ⊢
  have hscaled : ray * (4 * (ray + compoundedExcess rate (n + m))) ≤
      ray * (4 * product + 2 + across) := by
    calc ray * (4 * (ray + compoundedExcess rate (n + m)))
        = 4 * ray * (ray + compoundedExcess rate (n + m)) := by ring
      _ ≤ 4 * ((ray + compoundedExcess rate n) * (ray + compoundedExcess rate m)) +
          ray * across := hsteps
      _ ≤ 2 * (2 * (ray * product) + ray) + ray * across := by omega
      _ = ray * (4 * product + 2 + across) := by ring
  have hunits := Nat.le_of_mul_le_mul_left hscaled ray_pos
  omega

theorem compounded_mono (hle : n ≤ m)
    (hshort : calculateCompoundedInterest rate t (t + n) = .ok short)
    (hlong : calculateCompoundedInterest rate t (t + m) = .ok long) : short ≤ long := by
  obtain ⟨-, rfl⟩ := calculateCompoundedInterest_ok hshort
  obtain ⟨-, rfl⟩ := calculateCompoundedInterest_ok hlong
  simp only [Nat.add_sub_cancel_left]
  exact Nat.add_le_add_left (compoundedExcess_mono rate hle) ray

theorem ray_le_compounded (h : calculateCompoundedInterest rate t (t + n) = .ok short) :
    ray ≤ short := by
  obtain ⟨-, rfl⟩ := calculateCompoundedInterest_ok h
  exact Nat.le_add_right _ _

/-- Updating once after `n + m` seconds charges hardly more than updating after `n` and again
after `m`; and the factor never falls, nor is it below one. -/
theorem compounding_in_steps (rate t : ℕ) :
    (∀ n m long short short' product,
      calculateCompoundedInterest rate t (t + (n + m)) = .ok long →
      calculateCompoundedInterest rate t (t + n) = .ok short →
      calculateCompoundedInterest rate t (t + m) = .ok short' →
      rayMul short short' = .ok product → long ≤ product + 1 + n * m * (n + m) / 4) ∧
    (∀ n m short long, n ≤ m → calculateCompoundedInterest rate t (t + n) = .ok short →
      calculateCompoundedInterest rate t (t + m) = .ok long → short ≤ long) ∧
    ∀ n factor, calculateCompoundedInterest rate t (t + n) = .ok factor → ray ≤ factor :=
  ⟨fun _ _ _ _ _ _ => compounded_le_product, fun _ _ _ _ => compounded_mono,
    fun _ _ => ray_le_compounded⟩

/-- Two seconds and then three at a rate of one ray a second, where the bound is not used up. -/
theorem compounding_in_steps_sample : ∃ long product,
    calculateCompoundedInterest (secondsPerYear * ray) 40 (40 + (2 + 3)) = .ok long ∧
    long ≤ product + 1 + 2 * 3 * (2 + 3) / 4 := by
  have hlong : calculateCompoundedInterest (secondsPerYear * ray) 40 (40 + (2 + 3)) =
      .ok (26 * ray) := by decide +kernel
  have hshort : calculateCompoundedInterest (secondsPerYear * ray) 40 (40 + 2) =
      .ok (4 * ray) := by decide +kernel
  have hshort' : calculateCompoundedInterest (secondsPerYear * ray) 40 (40 + 3) =
      .ok (8 * ray) := by decide +kernel
  have hproduct : rayMul (4 * ray) (8 * ray) = .ok (32 * ray) := by decide +kernel
  exact ⟨_, _, hlong, (compounding_in_steps _ 40).1 2 3 _ _ _ _ hlong hshort hshort' hproduct⟩

end MathUtils

end Moola
