import Mathlib.Algebra.Group.Action.Defs
import Mathlib.Algebra.Order.AbsoluteValue.Basic
import Mathlib.Algebra.Order.BigOperators.Ring.Finset
import Mathlib.Algebra.Order.Field.Rat
import Mathlib.Data.Nat.Cast.Order.Field
import Mathlib.Tactic.FieldSimp
import Mathlib.Tactic.Linarith
import Mathlib.Tactic.LinearCombination
import Mathlib.Tactic.Positivity
import Mathlib.Tactic.Ring

/-! Division of natural numbers rounded half up, as fixed-point libraries use it.
The integer sandwich `lower`/`upper` is the only fact read off the definition;
everything else, the rational error bound included, goes through it. -/

open scoped BigOperators

namespace HalfUp

/-- `n / d` rounded to the nearest integer, ties upwards. -/
def div (n d : ℕ) : ℕ := (n + d / 2) / d

theorem lower (n d : ℕ) : d * div n d ≤ n + d / 2 := Nat.mul_div_le _ _

theorem upper (n : ℕ) {d : ℕ} (hd : 0 < d) : n + d / 2 < d * (div n d + 1) :=
  Nat.lt_mul_div_succ _ hd

theorem eq_iff {n d q : ℕ} (hd : 0 < d) :
    div n d = q ↔ d * q ≤ n + d / 2 ∧ n + d / 2 < d * (q + 1) := by
  rw [div, Nat.div_eq_iff hd, mul_comm q d, mul_add, mul_one]
  omega

theorem twice_lower (n d : ℕ) : 2 * (d * div n d) ≤ 2 * n + d := by
  have := lower n d
  omega

theorem twice_upper (n : ℕ) {d : ℕ} (hd : 0 < d) : 2 * n ≤ 2 * (d * div n d) + d := by
  have h := upper n hd
  rw [mul_add, mul_one] at h
  omega

theorem mono {n m : ℕ} (d : ℕ) (h : n ≤ m) : div n d ≤ div m d :=
  Nat.div_le_div_right (Nat.add_le_add_right h _)

theorem le_div_iff {n d q : ℕ} (hd : 0 < d) : q ≤ div n d ↔ 2 * (d * q) ≤ 2 * n + d := by
  rw [div, Nat.le_div_iff_mul_le hd, mul_comm q]
  omega

theorem mono_of_cross {n d n' d' : ℕ} (hd : 0 < d) (hd' : 0 < d') (h : n * d' ≤ n' * d) :
    div n d ≤ div n' d' := by
  rw [le_div_iff hd']
  have hlower : 2 * (d * div n d) ≤ 2 * n + d := twice_lower n d
  refine Nat.le_of_mul_le_mul_left ?_ hd
  calc d * (2 * (d' * div n d)) = 2 * (d * div n d) * d' := by ring
    _ ≤ (2 * n + d) * d' := Nat.mul_le_mul_right _ hlower
    _ = 2 * (n * d') + d * d' := by ring
    _ ≤ 2 * (n' * d) + d * d' := by omega
    _ = d * (2 * n' + d') := by ring

theorem lt_of_add_le {n m d : ℕ} (hd : 0 < d) (h : n + d ≤ m) : div n d < div m d := by
  calc div n d < (n + d / 2) / d + 1 := Nat.lt_succ_self _
    _ = (n + d / 2 + d) / d := (Nat.add_div_right _ hd).symm
    _ ≤ div m d := Nat.div_le_div_right (by omega)

@[simp] theorem div_zero_right (n : ℕ) : div n 0 = 0 := Nat.div_zero _

@[simp] theorem zero_div (d : ℕ) : div 0 d = 0 := by
  rcases Nat.eq_zero_or_pos d with rfl | hd
  · rfl
  · exact Nat.div_eq_of_lt (by omega)

theorem mul_div_self (q : ℕ) {d : ℕ} (hd : 0 < d) : div (q * d) d = q := by
  rw [eq_iff hd, mul_add, mul_comm q d]
  omega

theorem eq_zero_iff {n d : ℕ} (hd : 0 < d) : div n d = 0 ↔ 2 * n < d := by
  rw [eq_iff hd]
  omega

theorem le_of_le_mul {n d q : ℕ} (hd : 0 < d) (h : n ≤ q * d) : div n d ≤ q := by
  rw [← mul_div_self q hd]
  exact mono d h

theorem le_of_mul_le {n d q : ℕ} (hd : 0 < d) (h : q * d ≤ n) : q ≤ div n d := by
  rw [← mul_div_self q hd]
  exact mono d h

theorem abs_sub_le (n : ℕ) {d : ℕ} (hd : 0 < d) :
    |((div n d : ℕ) : ℚ) - n / d| ≤ 1 / 2 := by
  have hl : (2 * (d * div n d) : ℚ) ≤ 2 * n + d := by exact_mod_cast twice_lower n d
  have hu : (2 * n : ℚ) ≤ 2 * (d * div n d) + d := by exact_mod_cast twice_upper n hd
  have hd' : (0 : ℚ) < d := by exact_mod_cast hd
  have hq : (n : ℚ) / d * d = n := div_mul_cancel₀ _ hd'.ne'
  rw [abs_le]
  constructor <;> nlinarith

/-- The integer nearest to `n / d`, ties going up. -/
def Nearest (n d q : ℕ) : Prop := d * q ≤ n + d / 2 ∧ n + d / 2 < d * (q + 1)

theorem Nearest.pos {n d q : ℕ} (h : Nearest n d q) : 0 < d := by
  rw [Nat.pos_iff_ne_zero]
  rintro rfl
  simpa using h.2

theorem nearest_iff {n d q : ℕ} (hd : 0 < d) : Nearest n d q ↔ div n d = q :=
  (eq_iff hd).symm

/-- The integer `s` survives a conversion by `l / r` and back: the distance of
`s * l` from the nearest multiple of `r` is at most half of `l`, ties of the first
rounding going up and of the second one down. -/
def RoundTrips (r s l : ℕ) : Prop :=
  if 2 * (s * l % r) < r then 2 * (s * l % r) ≤ l else 2 * (r - s * l % r) < l

instance (r s l : ℕ) : Decidable (RoundTrips r s l) := by unfold RoundTrips; infer_instance

theorem div_eq_floor {n d : ℕ} (hd : 0 < d) (h : 2 * (n % d) < d) : div n d = n / d := by
  rw [eq_iff hd, mul_add d, mul_one]
  have := Nat.div_add_mod n d
  omega

theorem div_eq_ceil {n d : ℕ} (hd : 0 < d) (h : ¬ 2 * (n % d) < d) : div n d = n / d + 1 := by
  simp only [eq_iff hd, mul_add, mul_one]
  have := Nat.div_add_mod n d
  have := Nat.mod_lt n hd
  omega

theorem round_trip_iff {r l : ℕ} (s : ℕ) (hr : 0 < r) (hl : 0 < l) :
    div (div (s * l) r * r) l = s ↔ RoundTrips r s l := by
  have hm := Nat.div_add_mod (s * l) r
  have hlt := Nat.mod_lt (s * l) hr
  rw [eq_iff hl, RoundTrips, mul_add, mul_comm l s]
  split_ifs with h
  · rw [div_eq_floor hr h, mul_comm (s * l / r) r]
    omega
  · rw [div_eq_ceil hr h, add_mul, mul_comm (s * l / r) r]
    omega

theorem nearest_iff_roundTrips {r l : ℕ} (s : ℕ) (hr : 0 < r) (hl : 0 < l) :
    Nearest (div (s * l) r * r) l s ↔ RoundTrips r s l :=
  (nearest_iff hl).trans (round_trip_iff s hr hl)

/-- How much less than `a` goes off what `s` units are worth at `l / r`, when the units that `a`
is nearest to are taken away: what they are worth less than `a`, added to what the rounding of
the worth has left over. -/
def shortfall (r l s a : ℕ) : ℤ := ((s * l + r / 2 : ℕ) % r + a * r - div (a * r) l * l : ℤ) / r

theorem div_eq_div_sub_add {r l s a : ℕ} (hr : 0 < r) (hle : div (a * r) l ≤ s) :
    (div (s * l) r : ℤ) = div ((s - div (a * r) l) * l) r + a - shortfall r l s a := by
  unfold shortfall
  generalize div (a * r) l = q at *
  obtain ⟨t, rfl⟩ := Nat.exists_eq_add_of_le' hle
  have hr' : (r : ℤ) ≠ 0 := by exact_mod_cast hr.ne'
  rw [Nat.add_sub_cancel, div, div]
  have hsplit := Int.emod_add_mul_ediv (((t + q) * l + r / 2 : ℕ) : ℤ) r
  push_cast at hsplit ⊢
  generalize (((t : ℤ) + q) * l + r / 2) / r = x at *
  generalize (((t : ℤ) + q) * l + r / 2) % r = y at *
  have hafter : ((t : ℤ) * l + r / 2) / r = (y - q * l) / r + x := by
    rw [← Int.add_mul_ediv_left _ _ hr']
    congr 1
    linear_combination -hsplit
  have hless : (y + a * r - q * l) / r = (y - q * l) / r + a := by
    rw [← Int.add_mul_ediv_left _ _ hr']
    congr 1
    ring
  rw [hafter, hless]
  ring

theorem shortfall_zero {r : ℕ} (l s : ℕ) (hr : 0 < r) : shortfall r l s 0 = 0 := by
  have hlt : ((s * l + r / 2 : ℕ) % r : ℤ) < r := Int.emod_lt_of_pos _ (by exact_mod_cast hr)
  have hnonneg : (0 : ℤ) ≤ (s * l + r / 2 : ℕ) % r := Int.emod_nonneg _ (by omega)
  rw [shortfall, Nat.zero_mul, zero_div, Nat.cast_zero, zero_mul, zero_mul, add_zero, sub_zero]
  exact Int.ediv_eq_zero_of_lt hnonneg hlt

theorem shortfall_self {r : ℕ} (s a : ℕ) (hr : 0 < r) : shortfall r r s a = 0 := by
  have hlt : ((s * r + r / 2 : ℕ) % r : ℤ) < r := Int.emod_lt_of_pos _ (by exact_mod_cast hr)
  have hnonneg : (0 : ℤ) ≤ (s * r + r / 2 : ℕ) % r := Int.emod_nonneg _ (by omega)
  rw [shortfall, mul_div_self a hr, add_sub_cancel_right]
  exact Int.ediv_eq_zero_of_lt hnonneg hlt

/-- Scaling up first leaves room for both roundings. -/
theorem roundTrips_of_le {r l : ℕ} (s : ℕ) (hr : 0 < r) (h : r ≤ l) : RoundTrips r s l := by
  have hlt := Nat.mod_lt (s * l) hr
  rw [RoundTrips]
  split_ifs with hc
  · omega
  · rcases h.lt_or_eq with h | rfl
    · omega
    · simp at hc
      omega

/-- A quantity within half a unit of `q` units, split in two of which each is rounded on
its own: the parts make up `q` units just when they are rounded in opposite directions
or not at all. -/
theorem div_add_div_sub_eq_iff {n x q d : ℕ} (hd : 0 < d) (hx : x ≤ n)
    (hlower : 2 * (q * d) ≤ 2 * n + d) (hupper : 2 * n < 2 * (q * d) + d) :
    div x d + div (n - x) d = q ↔
      (d ≤ 2 * (x % d) ↔ d + 2 * n < 2 * (x % d) + 2 * (q * d)) := by
  have hx' := Nat.div_add_mod x d
  have hlt := Nat.mod_lt x hd
  have hle : x / d ≤ q := by
    by_contra hgt
    have hmul : d * (q + 1) ≤ d * (x / d) := Nat.mul_le_mul_left d (by omega)
    rw [mul_add, mul_comm d q] at hmul
    omega
  obtain ⟨t, rfl⟩ := Nat.exists_eq_add_of_le hle
  have hsplit : (x / d + t) * d = d * (x / d) + d * t := by ring
  rw [hsplit] at hlower hupper ⊢
  -- the remaining part is `t` units, or one less if `x` was rounded down too far
  have hrest : div (n - x) d = if d + 2 * n < 2 * (x % d) + 2 * (d * (x / d) + d * t)
      then t - 1 else t := by
    rw [eq_iff hd]
    split
    case isTrue h =>
      obtain ⟨t', rfl⟩ : ∃ t', t = t' + 1 := by
        refine ⟨t - 1, ?_⟩
        rcases Nat.eq_zero_or_pos t with rfl | hpos
        · rw [mul_zero] at h
          omega
        · omega
      simp only [Nat.add_sub_cancel, mul_add, mul_one] at *
      omega
    case isFalse h =>
      simp only [mul_add, mul_one]
      omega
  have hpos : d + 2 * n < 2 * (x % d) + 2 * (d * (x / d) + d * t) → 0 < t := by
    intro h
    rcases Nat.eq_zero_or_pos t with rfl | hpos
    · rw [mul_zero] at h
      omega
    · exact hpos
  rw [hrest]
  by_cases hround : 2 * (x % d) < d
  · rw [div_eq_floor hd hround]
    split_ifs with h
    · have := hpos h
      simp only [h, iff_true]
      omega
    · simp only [h, iff_false, true_iff, not_le]
      omega
  · rw [div_eq_ceil hd hround]
    split_ifs with h
    · have := hpos h
      simp only [h, iff_true]
      omega
    · simp only [h, iff_false, not_le]
      omega

/-- Parts that are rounded one by one add up to the rounded whole, but for half a unit each. -/
theorem abs_sum_div_sub_le {α : Type*} (parts : Finset α) (f : α → ℕ) {d : ℕ} (hd : 0 < d) :
    2 * |∑ a ∈ parts, (div (f a) d : ℤ) - div (∑ a ∈ parts, f a) d| ≤ parts.card + 1 := by
  have hlower : 2 * (d * ∑ a ∈ parts, div (f a) d) ≤ 2 * ∑ a ∈ parts, f a + parts.card * d := by
    calc 2 * (d * ∑ a ∈ parts, div (f a) d)
        = ∑ a ∈ parts, 2 * (d * div (f a) d) := by simp only [Finset.mul_sum]
      _ ≤ ∑ a ∈ parts, (2 * f a + d) := Finset.sum_le_sum fun a _ => twice_lower (f a) d
      _ = 2 * ∑ a ∈ parts, f a + parts.card * d := by
        rw [Finset.sum_add_distrib, Finset.mul_sum, Finset.sum_const, smul_eq_mul]
  have hupper : 2 * ∑ a ∈ parts, f a ≤ 2 * (d * ∑ a ∈ parts, div (f a) d) + parts.card * d := by
    calc 2 * ∑ a ∈ parts, f a
        = ∑ a ∈ parts, 2 * f a := Finset.mul_sum _ _ _
      _ ≤ ∑ a ∈ parts, (2 * (d * div (f a) d) + d) :=
        Finset.sum_le_sum fun a _ => twice_upper (f a) hd
      _ = 2 * (d * ∑ a ∈ parts, div (f a) d) + parts.card * d := by
        rw [Finset.sum_add_distrib, Finset.sum_const, smul_eq_mul]
        simp only [Finset.mul_sum]
  have hwholeLower := twice_lower (∑ a ∈ parts, f a) d
  have hwholeUpper := twice_upper (∑ a ∈ parts, f a) hd
  set shares := ∑ a ∈ parts, div (f a) d
  set whole := div (∑ a ∈ parts, f a) d
  have habove : d * (2 * shares) ≤ d * (2 * whole + (parts.card + 1)) := by
    linarith
  have hbelow : d * (2 * whole) ≤ d * (2 * shares + (parts.card + 1)) := by
    linarith
  have habove' := Nat.le_of_mul_le_mul_left habove hd
  have hbelow' := Nat.le_of_mul_le_mul_left hbelow hd
  have hcast : ∑ a ∈ parts, (div (f a) d : ℤ) = shares := (Nat.cast_sum _ _).symm
  rw [hcast]
  rcases abs_cases ((shares : ℤ) - whole) with ⟨he, -⟩ | ⟨he, -⟩
  · rw [he]
    omega
  · rw [he]
    omega

end HalfUp
