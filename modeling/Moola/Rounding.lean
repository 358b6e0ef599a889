import Moola.Math

/-! The rounding errors of the ray operations, over the rationals. Each operation is
its exact value and an error of at most one half; the balance sheet theorems add up
such errors. -/

namespace Moola

namespace WadRayMath

theorem ray_pos_rat : (0 : ℚ) < ray := by exact_mod_cast ray_pos

theorem abs_rayProduct_sub (a b : ℕ) : |(rayProduct a b : ℚ) - a * b / ray| ≤ 1 / 2 := by
  have h := HalfUp.abs_sub_le (a * b) ray_pos
  rwa [Nat.cast_mul] at h

theorem abs_rayQuotient_sub (a : ℕ) {index : ℕ} (hi : 0 < index) :
    |(rayQuotient a index : ℚ) - a * ray / index| ≤ 1 / 2 := by
  have h := HalfUp.abs_sub_le (a * ray) hi
  rwa [Nat.cast_mul] at h

theorem abs_rayQuotient_mul_sub (a : ℕ) {index : ℕ} (hi : 0 < index) :
    |(rayQuotient a index : ℚ) * index / ray - a| ≤ index / (2 * ray) := by
  have hI : (0 : ℚ) < index := by exact_mod_cast hi
  have hR := ray_pos_rat
  have h := abs_rayQuotient_sub a hi
  have hscale : (rayQuotient a index : ℚ) * index / ray - a =
      ((rayQuotient a index : ℚ) - a * ray / index) * (index / ray) := by
    field_simp
  rw [hscale, abs_mul, abs_of_pos (div_pos hI hR)]
  calc |(rayQuotient a index : ℚ) - a * ray / index| * (index / ray)
      ≤ 1 / 2 * (index / ray) := mul_le_mul_of_nonneg_right h (div_pos hI hR).le
    _ = index / (2 * ray) := by ring

theorem abs_percentProduct_sub (v p : ℕ) :
    |(PercentageMath.percentProduct v p : ℚ) - v * p / 10000| ≤ 1 / 2 := by
  have h := HalfUp.abs_sub_le (v * p) PercentageMath.percentageFactor_pos
  rwa [Nat.cast_mul] at h

theorem abs_share_le {x e : ℚ} (h0 : 0 ≤ x) (h1 : x ≤ 1) (he : |e| ≤ 1 / 2) :
    |x * e| ≤ 1 / 2 := by
  rw [abs_mul, abs_of_nonneg h0]
  calc x * |e| ≤ 1 * |e| := mul_le_mul_of_nonneg_right h1 (abs_nonneg e)
    _ ≤ 1 / 2 := by rwa [one_mul]

/-- Writing a loss down on the index takes from a holder of `s` scaled units his share of
it, up to two units: four roundings of at most one half, each damped by a share of at
most one. -/
theorem share_write_down_error {s index total loss ratio : ℕ} (hs : s ≤ ray)
    (hb : rayProduct s index ≤ ray) (hpos : total ≠ 0)
    (hratio : ratio = rayQuotient (loss * wadRayRatio) (total * wadRayRatio))
    (hle : ratio ≤ ray) :
    |(rayProduct s (rayProduct (ray - ratio) index) : ℚ) -
      rayProduct s index * (total - loss) / total| ≤ 2 := by
  have hR := ray_pos_rat
  have hW : (0 : ℚ) < wadRayRatio := by exact_mod_cast wadRayRatio_pos
  have e₀ := abs_rayProduct_sub s index
  have e₁ := abs_rayProduct_sub s (rayProduct (ray - ratio) index)
  have e₂ := abs_rayProduct_sub (ray - ratio) index
  have e₃ := abs_rayQuotient_sub (loss * wadRayRatio)
    (Nat.pos_of_ne_zero (mul_ne_zero hpos wadRayRatio_pos.ne'))
  rw [← hratio] at e₃
  rw [Nat.cast_sub hle] at e₂
  generalize rayProduct s (rayProduct (ray - ratio) index) = b' at *
  generalize rayProduct (ray - ratio) index = index' at *
  generalize rayProduct s index = b at *
  have hTpos : (0 : ℚ) < total := by exact_mod_cast Nat.pos_of_ne_zero hpos
  have hbR : (b : ℚ) / ray ≤ 1 := (div_le_one hR).mpr (by exact_mod_cast hb)
  have hsR : (s : ℚ) / ray ≤ 1 := (div_le_one hR).mpr (by exact_mod_cast hs)
  have hqR : (ratio : ℚ) / ray ≤ 1 := (div_le_one hR).mpr (by exact_mod_cast hle)
  have hq0 : (0 : ℚ) ≤ ratio / ray := by positivity
  push_cast at e₃
  rw [show (loss : ℚ) * wadRayRatio * ray / (total * wadRayRatio) = loss * ray / total by
    field_simp] at e₃
  have a₀ := abs_le.mp (abs_share_le (sub_nonneg.mpr hqR) (by linarith) e₀)
  have a₁ := abs_le.mp e₁
  have a₂ := abs_le.mp (abs_share_le (by positivity) hsR e₂)
  have a₃ := abs_le.mp (abs_share_le (by positivity) hbR e₃)
  have hsum : (b' : ℚ) - b * (total - loss) / total =
      s / ray * (index' - (ray - ratio) * index / ray) + (b' - s * index' / ray) -
      b / ray * (ratio - loss * ray / total) - (1 - ratio / ray) * (b - s * index / ray) := by
    field_simp
    ring
  rw [hsum, abs_le]
  constructor <;> linarith

/-- Over any unit `R`: a supply `b` of `s` scaled units, written up by a premium of at most
itself through four rounded operations. -/
theorem abs_write_up_lt {R b b' s index index' ratio premium : ℚ} (hR : 0 < R) (hs0 : 0 ≤ s)
    (hs : s ≤ R) (hb0 : 0 < b) (hb : b ≤ 3 * R) (hq0 : 0 ≤ ratio) (hq : ratio ≤ R)
    (e₀ : |b - s * index / R| ≤ 1 / 2) (e₁ : |b' - s * index' / R| ≤ 1 / 2)
    (e₂ : |index' - (ratio + R) * index / R| ≤ 1 / 2)
    (e₃ : |ratio - premium * R / b| ≤ 1 / 2) : |b' - b - premium| < 4 := by
  have hbR : b / (3 * R) ≤ 1 := (div_le_one (by positivity)).mpr hb
  have hsR : s / R ≤ 1 := (div_le_one hR).mpr hs
  have hqR : ratio / R ≤ 1 := (div_le_one hR).mpr hq
  have hq0R : 0 ≤ ratio / R := div_nonneg hq0 hR.le
  have hmean : (1 + ratio / R) / 2 ≤ 1 := by linarith
  have a₀ := abs_le.mp (abs_share_le (by positivity) hmean e₀)
  have a₁ := abs_le.mp e₁
  have a₂ := abs_le.mp (abs_share_le (by positivity) hsR e₂)
  have a₃ := abs_le.mp (abs_share_le (by positivity) hbR e₃)
  have hsum : b' - b - premium =
      s / R * (index' - (ratio + R) * index / R) + (b' - s * index' / R) +
      3 * (b / (3 * R) * (ratio - premium * R / b)) -
      2 * ((1 + ratio / R) / 2 * (b - s * index / R)) := by
    field_simp
    ring
  rw [hsum, abs_lt]
  constructor <;> linarith

theorem abs_premium_ratio_sub {premium total ratio : ℕ} (hpos : total ≠ 0)
    (hratio : ratio = rayQuotient (premium * wadRayRatio) (total * wadRayRatio)) :
    |(ratio : ℚ) - premium * ray / total| ≤ 1 / 2 := by
  have hW : (0 : ℚ) < wadRayRatio := by exact_mod_cast wadRayRatio_pos
  have herror := abs_rayQuotient_sub (premium * wadRayRatio)
    (Nat.pos_of_ne_zero (mul_ne_zero hpos wadRayRatio_pos.ne'))
  rwa [← hratio, Nat.cast_mul, Nat.cast_mul,
    show (premium : ℚ) * wadRayRatio * ray / (total * wadRayRatio) = premium * ray / total by
      field_simp] at herror

theorem premium_write_up_error {s index premium ratio factor b index' b' : ℕ} (hs : s ≤ ray)
    (hb : b = rayProduct s index) (hindex' : index' = rayProduct factor index)
    (hb' : b' = rayProduct s index') (hT : b ≤ 3 * ray) (hpos : b ≠ 0) (hpremium : premium ≤ b)
    (hratio : ratio = rayQuotient (premium * wadRayRatio) (b * wadRayRatio))
    (hfactor : factor = ratio + ray) : |(b' : ℤ) - b - premium| ≤ 3 := by
  have hle : ratio ≤ ray := by
    rw [hratio]
    exact rayQuotient_le_ray (Nat.pos_of_ne_zero (mul_ne_zero hpos wadRayRatio_pos.ne'))
      (Nat.mul_le_mul_right _ hpremium)
  have e₀ := hb ▸ abs_rayProduct_sub s index
  have e₁ := hb' ▸ abs_rayProduct_sub s index'
  have e₂ := hindex' ▸ abs_rayProduct_sub factor index
  have e₃ := abs_premium_ratio_sub hpos hratio
  rw [hfactor, Nat.cast_add] at e₂
  have hT' : (b : ℚ) ≤ 3 * ray := by exact_mod_cast hT
  have hlt := abs_write_up_lt ray_pos_rat (Nat.cast_nonneg s) (Nat.cast_le.mpr hs)
    (Nat.cast_pos.mpr (Nat.pos_of_ne_zero hpos)) hT' (Nat.cast_nonneg ratio)
    (Nat.cast_le.mpr hle) e₀ e₁ e₂ e₃
  have hlt' : |(b' : ℤ) - b - premium| < 3 + 1 := by exact_mod_cast hlt
  exact Int.le_of_lt_add_one hlt'

end WadRayMath

end Moola
