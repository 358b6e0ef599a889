import Moola.BalanceSheet
import Moola.Rates
import Moola.Rounding

/-! What an accrual credits to the suppliers and the treasury against what it charges the
borrowers. The suppliers accrue linearly at a rate that was rounded three times, the
borrowers by the rounded powers of a rate per second, and the treasury takes its share of
the second amount. The growth of either side is bounded by the exact one first, over
indexes in units of a ray; the rate of the suppliers then ties the two together. -/

namespace Moola

open Guard WadRayMath PercentageMath

namespace AccrualBalance

/-! The two sides. `ε` is one unit in rays, the indexes before and after are `a` and `b`,
and an amount of `s` scaled units shows as `s` times the index, rounded. -/

section Growth

variable {ε s a b : ℚ}

/-- The supply grows by at most its linear interest, the share that is minted, and the
roundings: half of what the interest adds to a rounded supply is in the new index. -/
theorem supply_growth_le {T₀ T₁ m share factor growth : ℚ} (hs : 0 ≤ s) (ha : 1 ≤ a)
    (hgrowth : 0 ≤ growth) (hfactor : 0 ≤ factor) (hlower : 1 + growth - ε ≤ factor)
    (hupper : factor ≤ 1 + growth) (e₀ : |T₀ - s * a| ≤ 1 / 2) (e₁ : |T₁ - (s + m) * b| ≤ 1 / 2)
    (eb : |b - factor * a| ≤ ε / 2) (em : |m * b - share| ≤ b / 2) :
    T₁ - T₀ ≤ T₀ * growth + s * ε / 2 + share + b + 1 / 2 + 3 * ε / 4 := by
  obtain ⟨e₀l, e₀u⟩ := abs_le.mp e₀
  obtain ⟨-, e₁u⟩ := abs_le.mp e₁
  obtain ⟨ebl, ebu⟩ := abs_le.mp eb
  obtain ⟨-, emu⟩ := abs_le.mp em
  have hsa : 0 ≤ s * a := mul_nonneg hs (by linarith)
  have hshown : s * b ≤ s * a * (1 + growth) + s * ε / 2 := by
    calc s * b ≤ s * (factor * a + ε / 2) := mul_le_mul_of_nonneg_left (by linarith) hs
      _ = s * a * factor + s * ε / 2 := by ring
      _ ≤ s * a * (1 + growth) + s * ε / 2 := by
        have := mul_le_mul_of_nonneg_left hupper hsa
        linarith
  have hrounded : s * a * (1 + growth) ≤ (T₀ + 1 / 2) * (1 + growth) :=
    mul_le_mul_of_nonneg_right (by linarith) (by linarith)
  have hindex : growth / 2 ≤ b / 2 - 1 / 2 + 3 * ε / 4 := by
    have := mul_le_mul_of_nonneg_left ha hfactor
    linarith
  linarith

theorem debt_growth_ge {V₀ V₁ excess growth : ℚ} (hs : 0 ≤ s) (ha : 1 ≤ a)
    (hgrowth : 0 ≤ growth) (hexcess : growth ≤ excess) (e₀ : |V₀ - s * a| ≤ 1 / 2)
    (e₁ : |V₁ - s * b| ≤ 1 / 2) (eb : |b - (1 + excess) * a| ≤ ε / 2) :
    V₀ * growth ≤ V₁ - V₀ + b / 2 + s * ε / 2 + 1 / 2 + ε / 4 := by
  obtain ⟨e₀l, e₀u⟩ := abs_le.mp e₀
  obtain ⟨e₁l, -⟩ := abs_le.mp e₁
  obtain ⟨ebl, -⟩ := abs_le.mp eb
  have hsa : 0 ≤ s * a := mul_nonneg hs (by linarith)
  have hshown : s * a + s * a * excess - s * ε / 2 ≤ s * b := by
    calc s * a + s * a * excess - s * ε / 2 = s * ((1 + excess) * a - ε / 2) := by ring
      _ ≤ s * b := mul_le_mul_of_nonneg_left (by linarith) hs
  have hfirst : s * a * growth ≤ s * a * excess := mul_le_mul_of_nonneg_left hexcess hsa
  have hrounded : (V₀ - 1 / 2) * growth ≤ s * a * growth :=
    mul_le_mul_of_nonneg_right (by linarith) hgrowth
  have hindex : growth / 2 ≤ b / 2 - 1 / 2 + ε / 4 := by
    have := mul_le_mul_of_nonneg_left ha (show (0 : ℚ) ≤ 1 + excess by linarith)
    linarith
  linarith

end Growth

section Rate

variable {cash debt rate factor : ℕ}

def overallRate (debt rate : ℕ) : ℕ :=
  rayQuotient (rayProduct (debt * wadRayRatio) rate) (debt * wadRayRatio)

theorem overallRate_mul_le (rate : ℕ) (hdebt : debt ≠ 0) :
    (overallRate debt rate : ℚ) * debt ≤ rate * debt + 10 ^ 18 / 2 + debt / 2 := by
  have hpos : 0 < debt * wadRayRatio :=
    Nat.mul_pos (Nat.pos_of_ne_zero hdebt) wadRayRatio_pos
  have hD : (0 : ℚ) < debt := by exact_mod_cast Nat.pos_of_ne_zero hdebt
  have hweighted := (abs_le.mp (abs_rayProduct_sub (debt * wadRayRatio) rate)).2
  have hquotient := (abs_le.mp
    (abs_rayQuotient_sub (rayProduct (debt * wadRayRatio) rate) hpos)).2
  rw [← overallRate] at hquotient
  generalize (overallRate debt rate : ℚ) = overall at *
  generalize (rayProduct (debt * wadRayRatio) rate : ℚ) = weighted at *
  have hW : ((debt * wadRayRatio : ℕ) : ℚ) = debt * 10 ^ 9 := by push_cast [wadRayRatio]; rfl
  have hR : (ray : ℚ) = 10 ^ 27 := by push_cast [ray]; rfl
  rw [hW, hR] at hweighted hquotient
  rw [show weighted * (10 : ℚ) ^ 27 / (debt * 10 ^ 9) = weighted * 10 ^ 18 / debt by
    rw [div_eq_div_iff (by positivity) hD.ne']
    ring] at hquotient
  have hscaled : weighted * 10 ^ 18 / debt * debt = weighted * 10 ^ 18 :=
    div_mul_cancel₀ _ hD.ne'
  have hmul := mul_le_mul_of_nonneg_right hquotient hD.le
  rw [sub_mul, hscaled] at hmul
  have hproduct : debt * (10 : ℚ) ^ 9 * rate / 10 ^ 27 * 10 ^ 18 = rate * debt := by ring
  linarith

theorem overallRate_le (hdebt : debt ≠ 0) (hrate : rate ≤ 10 ^ 30) :
    (overallRate debt rate : ℚ) ≤ 1001 * ray := by
  have hD : (1 : ℚ) ≤ debt := by exact_mod_cast Nat.one_le_iff_ne_zero.mpr hdebt
  have hr : (rate : ℚ) ≤ 10 ^ 30 := by exact_mod_cast hrate
  have hR : (ray : ℚ) = 10 ^ 27 := by push_cast [ray]; rfl
  have hmul := overallRate_mul_le rate hdebt
  have hbound : (overallRate debt rate : ℚ) * debt ≤ 1001 * ray * debt := by
    calc (overallRate debt rate : ℚ) * debt ≤ rate * debt + 10 ^ 18 / 2 + debt / 2 := hmul
      _ ≤ 10 ^ 30 * debt + 10 ^ 18 * debt := by
        have := mul_le_mul_of_nonneg_right hr (by linarith : (0 : ℚ) ≤ debt)
        linarith
      _ ≤ 1001 * ray * debt := by
        rw [hR]
        linarith
  exact le_of_mul_le_mul_right hbound (by linarith)

/-- The overall rate at the utilisation, on all of the cash and the debt, is what the borrowers
pay on the debt, but for the roundings. -/
theorem grossRate_mul_le (cash : ℕ) (hdebt : debt ≠ 0) (hrate : rate ≤ 10 ^ 30) :
    (rayProduct (overallRate debt rate) (rayQuotient debt (cash + debt)) : ℚ) * (cash + debt) ≤
      rate * debt + 10 ^ 18 / 2 + 502 * (cash + debt) := by
  have hD : (1 : ℚ) ≤ debt := by exact_mod_cast Nat.one_le_iff_ne_zero.mpr hdebt
  have hA : (0 : ℚ) ≤ cash := Nat.cast_nonneg cash
  have hN : (0 : ℚ) < cash + debt := by linarith
  have hR := ray_pos_rat
  have eU := (abs_le.mp (abs_rayQuotient_sub debt (Nat.pos_of_ne_zero
    (show cash + debt ≠ 0 by omega)))).2
  have eg := (abs_le.mp (abs_rayProduct_sub (overallRate debt rate)
    (rayQuotient debt (cash + debt)))).2
  have ho := overallRate_mul_le rate hdebt
  have ho1 := overallRate_le hdebt hrate
  have ho0 : (0 : ℚ) ≤ overallRate debt rate := Nat.cast_nonneg _
  push_cast at eU
  generalize (rayProduct (overallRate debt rate) (rayQuotient debt (cash + debt)) : ℚ) = gross at *
  generalize (rayQuotient debt (cash + debt) : ℚ) = utilization at *
  generalize (overallRate debt rate : ℚ) = overall at *
  generalize hwhole : (cash : ℚ) + debt = whole at *
  have hused : utilization * whole ≤ debt * ray + whole / 2 := by
    have hmul := mul_le_mul_of_nonneg_right eU hN.le
    rw [sub_mul, div_mul_cancel₀ _ hN.ne'] at hmul
    linarith
  have hgross : gross * whole ≤ overall * debt + overall / ray * whole / 2 + whole / 2 := by
    calc gross * whole ≤ (overall * utilization / ray + 1 / 2) * whole :=
          mul_le_mul_of_nonneg_right (by linarith) hN.le
      _ = overall / ray * (utilization * whole) + whole / 2 := by ring
      _ ≤ overall / ray * (debt * ray + whole / 2) + whole / 2 := by
        have := mul_le_mul_of_nonneg_left hused (div_nonneg ho0 hR.le)
        linarith
      _ = overall * debt + overall / ray * whole / 2 + whole / 2 := by
        field_simp
  have hrounding : overall / ray * whole ≤ 1001 * whole :=
    mul_le_mul_of_nonneg_right ((div_le_iff₀ hR).mpr ho1) hN.le
  linarith

def liquidityRate (cash debt rate factor : ℕ) : ℕ :=
  percentProduct (rayProduct (overallRate debt rate) (rayQuotient debt (cash + debt)))
    (percentageFactor - factor)

/-- What the suppliers earn on all of the cash and the debt is their share of what the
borrowers pay on the debt, but for the roundings. -/
theorem liquidityRate_mul_le (cash : ℕ) (hdebt : debt ≠ 0) (hrate : rate ≤ 10 ^ 30)
    (hfactor : factor ≤ 10000) :
    (liquidityRate cash debt rate factor : ℚ) * (cash + debt) ≤
      (1 - factor / 10000) * (rate * debt + 10 ^ 18 / 2) + 503 * (cash + debt) := by
  have hwhole0 : (0 : ℚ) ≤ cash + debt := by positivity
  have hshare : (0 : ℚ) ≤ 1 - factor / 10000 := by
    have : (factor : ℚ) ≤ 10000 := by exact_mod_cast hfactor
    linarith
  have hshare1 : (1 : ℚ) - factor / 10000 ≤ 1 := by
    have : (0 : ℚ) ≤ factor := Nat.cast_nonneg factor
    linarith
  have eL := (abs_le.mp (abs_percentProduct_sub (rayProduct (overallRate debt rate)
    (rayQuotient debt (cash + debt))) (percentageFactor - factor))).2
  rw [← liquidityRate, Nat.cast_sub (show factor ≤ percentageFactor from hfactor)] at eL
  push_cast [percentageFactor] at eL
  have hpaid := grossRate_mul_le cash hdebt hrate
  generalize (liquidityRate cash debt rate factor : ℚ) = liquidity at *
  generalize (rayProduct (overallRate debt rate) (rayQuotient debt (cash + debt)) : ℚ) = gross at *
  generalize (cash : ℚ) + debt = whole at *
  calc liquidity * whole ≤ (gross * (10000 - factor) / 10000 + 1 / 2) * whole :=
        mul_le_mul_of_nonneg_right (by linarith) hwhole0
    _ = (1 - factor / 10000) * (gross * whole) + whole / 2 := by ring
    _ ≤ (1 - factor / 10000) * (rate * debt + 10 ^ 18 / 2 + 502 * whole) + whole / 2 := by
      have := mul_le_mul_of_nonneg_left hpaid hshare
      linarith
    _ ≤ (1 - factor / 10000) * (rate * debt + 10 ^ 18 / 2) + 503 * whole := by
      have := mul_le_mul_of_nonneg_right hshare1 (show 0 ≤ 502 * whole by linarith)
      linarith

end Rate

/-- The suppliers' rate carries the growth of the debt over to the growth of the supply. Over
`dt` seconds at a rate `L` the interest on one unit is `L * dt * ε` over the seconds of a year. -/
theorem growth_within {ε T₀ T₁ V₀ V₁ sa sv bl bv share whole L r dt growth φ : ℚ}
    (hε : ε * 10 ^ 27 = 1) (hdt : 0 ≤ dt) (hL : 0 ≤ L) (hφ0 : 0 ≤ φ) (hφ1 : φ ≤ 1) (hV : 0 ≤ V₀)
    (hsa : 0 ≤ sa) (hsv : 0 ≤ sv) (hbv : 0 ≤ bv) (hT : T₀ ≤ whole) (hVw : V₀ ≤ whole)
    (hsupply : T₁ - T₀ ≤ T₀ * (L * (dt * ε / 31536000)) + sa * ε / 2 + share + bl + 1 / 2 +
      3 * ε / 4)
    (hdebt : V₀ * growth ≤ V₁ - V₀ + bv / 2 + sv * ε / 2 + 1 / 2 + ε / 4)
    (hgrowth : r * (dt * ε / 31536000) ≤ growth + dt * ε)
    (hrate : L * whole ≤ (1 - φ) * (r * V₀ + 10 ^ 18 / 2) + 503 * whole)
    (hshare : share ≤ φ * (V₁ - V₀) + 1 / 2) :
    T₁ - T₀ ≤ V₁ - V₀ + (3 + dt / (6 * 10 ^ 16)) + (bl + bv) +
      2 * (whole + sa + sv) * (dt + 1) * ε := by
  have hε0 : 0 < ε := by linarith
  have hdε : 0 ≤ dt * ε := mul_nonneg hdt hε0.le
  have hτ : 0 ≤ dt * ε / 31536000 := by linarith
  have hw : 0 ≤ whole := hV.trans hVw
  -- all of the cash and the debt earn at least what the supply does
  have hearned : T₀ * (L * (dt * ε / 31536000)) ≤
      (1 - φ) * (r * V₀ * (dt * ε / 31536000)) +
        (1 - φ) * (10 ^ 18 / 2 * (dt * ε / 31536000)) + 503 * whole * (dt * ε / 31536000) := by
    calc T₀ * (L * (dt * ε / 31536000)) ≤ whole * (L * (dt * ε / 31536000)) :=
          mul_le_mul_of_nonneg_right hT (mul_nonneg hL hτ)
      _ = L * whole * (dt * ε / 31536000) := by ring
      _ ≤ ((1 - φ) * (r * V₀ + 10 ^ 18 / 2) + 503 * whole) * (dt * ε / 31536000) :=
        mul_le_mul_of_nonneg_right hrate hτ
      _ = _ := by ring
  have hcharged : r * V₀ * (dt * ε / 31536000) ≤
      V₁ - V₀ + (bv / 2 + sv * ε / 2 + 1 / 2 + ε / 4 + V₀ * (dt * ε)) := by
    calc r * V₀ * (dt * ε / 31536000) = V₀ * (r * (dt * ε / 31536000)) := by ring
      _ ≤ V₀ * (growth + dt * ε) := mul_le_mul_of_nonneg_left hgrowth hV
      _ = V₀ * growth + V₀ * (dt * ε) := by ring
      _ ≤ _ := by linarith
  have hslack : 0 ≤ bv / 2 + sv * ε / 2 + 1 / 2 + ε / 4 + V₀ * (dt * ε) := by positivity
  have hpart : (1 - φ) * (r * V₀ * (dt * ε / 31536000)) ≤
      (1 - φ) * (V₁ - V₀) + (bv / 2 + sv * ε / 2 + 1 / 2 + ε / 4 + V₀ * (dt * ε)) := by
    have hscaled := mul_le_mul_of_nonneg_left hcharged (show 0 ≤ 1 - φ by linarith)
    have hwhole := mul_le_mul_of_nonneg_right (show 1 - φ ≤ 1 by linarith) hslack
    rw [mul_add] at hscaled
    linarith
  have hflat : (1 - φ) * (10 ^ 18 / 2 * (dt * ε / 31536000)) ≤ dt / (6 * 10 ^ 16) := by
    have hvalue : ε = 1 / 10 ^ 27 := by linarith
    calc (1 - φ) * (10 ^ 18 / 2 * (dt * ε / 31536000))
        ≤ 1 * (10 ^ 18 / 2 * (dt * ε / 31536000)) :=
          mul_le_mul_of_nonneg_right (by linarith) (by linarith)
      _ ≤ dt / (6 * 10 ^ 16) := by
        rw [hvalue]
        linarith
  have hlate : 503 * whole * (dt * ε / 31536000) + V₀ * (dt * ε) ≤ 2 * (whole * (dt * ε)) := by
    have hless := mul_le_mul_of_nonneg_right hVw hdε
    have hyear : 503 * whole * (dt * ε / 31536000) ≤ whole * (dt * ε) := by
      have := mul_nonneg hw hdε
      linarith
    linarith
  have hterms : 2 * (whole * (dt * ε)) + sa * ε / 2 + sv * ε / 2 ≤
      2 * (whole + sa + sv) * (dt + 1) * ε := by
    have h₁ := mul_nonneg hw hε0.le
    have h₂ := mul_nonneg hsa hε0.le
    have h₃ := mul_nonneg hsv hε0.le
    have h₄ := mul_nonneg hsa hdε
    have h₅ := mul_nonneg hsv hdε
    linarith
  linarith

end AccrualBalance

namespace ReserveLogic

variable {env : Env} {asset : Address} {cash now : ℕ} {r r' : Reserve} {rates : InterestRates}

theorem stableSupply_zero {now n : ℕ} (hstable : r.stableDebtToken.principalSupply = 0)
    {avgRate : ℕ} (h : StableDebtToken.calcTotalSupply now r.stableDebtToken avgRate = .ok n) :
    n = 0 := by
  rw [StableDebtToken.calcTotalSupply, if_pos hstable] at h
  exact (pure_ok.mp h).symm

theorem utilizationRate_ok {debt utilization : ℕ}
    (h : DefaultReserveInterestRateStrategy.utilizationRate cash debt = .ok utilization) :
    utilization = rayQuotient debt (cash + debt) := by
  unfold DefaultReserveInterestRateStrategy.utilizationRate at h
  split at h
  case isTrue hzero => simp [← pure_ok.mp h, hzero, rayQuotient]
  case isFalse hne =>
    simp only [bind_ok, SafeMath.add_ok, rayDiv_ok] at h
    obtain ⟨_, ⟨-, rfl⟩, -, -, rfl⟩ := h
    rfl

theorem getOverallBorrowRate_variable {debt rate avgRate overall : ℕ}
    (h : DefaultReserveInterestRateStrategy.getOverallBorrowRate 0 debt rate avgRate =
      .ok overall) : overall = AccrualBalance.overallRate debt rate := by
  simp only [DefaultReserveInterestRateStrategy.getOverallBorrowRate, bind_ok, SafeMath.add_ok,
    Nat.zero_add] at h
  obtain ⟨_, ⟨-, rfl⟩, h⟩ := h
  split at h
  case isTrue hzero =>
    rw [← pure_ok.mp h, AccrualBalance.overallRate, hzero, Nat.zero_mul, rayQuotient,
      HalfUp.div_zero_right]
  case isFalse hne =>
    simp only [bind_ok, SafeMath.add_ok, wadToRay_ok, rayMul_ok, rayDiv_ok] at h
    obtain ⟨_, ⟨-, rfl⟩, _, ⟨-, rfl⟩, _, ⟨-, rfl⟩, _, ⟨-, rfl⟩, _, ⟨-, rfl⟩, _, ⟨-, rfl⟩, -, -,
      rfl⟩ := h
    rw [AccrualBalance.overallRate, Nat.zero_mul, rayProduct_zero_left, Nat.add_zero]

theorem calculateInterestRates_variable {s : DefaultReserveInterestRateStrategy}
    {market debt avgRate factor : ℕ}
    (h : s.calculateInterestRates market cash 0 debt avgRate factor = .ok rates) :
    factor ≤ percentageFactor ∧ rates.liquidityRate =
      AccrualBalance.liquidityRate cash debt rates.variableBorrowRate factor := by
  simp only [DefaultReserveInterestRateStrategy.calculateInterestRates, bind_ok, SafeMath.add_ok,
    SafeMath.sub_ok, rayMul_ok, percentMul_ok, pure_ok, Nat.zero_add] at h
  obtain ⟨_, ⟨-, rfl⟩, utilization, hutilization, ⟨stable, rate⟩, -, overall, hoverall, _,
    ⟨-, rfl⟩, _, ⟨hfactor, rfl⟩, _, ⟨-, rfl⟩, rfl⟩ := h
  refine ⟨hfactor, ?_⟩
  rw [AccrualBalance.liquidityRate, ← utilizationRate_ok hutilization,
    ← getOverallBorrowRate_variable hoverall]

theorem ratesAt_variable (hstable : r.stableDebtToken.principalSupply = 0)
    (h : ratesAt env asset r cash = .ok rates) :
    r.data.configuration.getReserveFactor ≤ percentageFactor ∧
      rates.liquidityRate = AccrualBalance.liquidityRate cash r.variableDebt
        rates.variableBorrowRate r.data.configuration.getReserveFactor := by
  simp only [ratesAt, StableDebtToken.getTotalSupplyAndAvgRate, bind_ok, exists_unit, require_ok,
    pure_ok, rayMul_ok, VariableDebtToken.scaledTotalSupply_ok] at h
  obtain ⟨_, ⟨-, total, htotal, rfl⟩, _, ⟨-, rfl⟩, _, ⟨-, rfl⟩, h⟩ := h
  obtain rfl := stableSupply_zero hstable htotal
  split at h
  case h_1 => cases h
  case h_2 => exact calculateInterestRates_variable h

theorem mintToTreasury_variable {scaled previousV newL newV timestamp : ℕ}
    (hstable : r.stableDebtToken.principalSupply = 0)
    (h : mintToTreasury now r scaled previousV newL newV timestamp = .ok r') :
    r' = r.withALedger (r.aToken.ledger.credit r.aToken.treasury (rayQuotient
      (percentProduct (rayProduct scaled newV - rayProduct scaled previousV)
        r.data.configuration.getReserveFactor) newL)) := by
  obtain ⟨minted, rfl, -, ⟨hfactor, rfl⟩ | ⟨-, share, hshare, rfl⟩⟩ := mintToTreasury_ok h
  · rw [hfactor, percentProduct, Nat.mul_zero, HalfUp.zero_div, rayQuotient, Nat.zero_mul,
      HalfUp.zero_div]
  · obtain ⟨supply, c, hsupply, -, rfl⟩ := treasuryShare_ok hshare
    simp only [StableDebtToken.getSupplyData, bind_ok, exists_unit, pure_ok] at hsupply
    obtain ⟨-, total, htotal, rfl⟩ := hsupply
    rw [stableSupply_zero hstable htotal, hstable, rayProduct_zero_left, Nat.add_zero,
      Nat.sub_zero]

theorem updateState_variable (hstable : r.stableDebtToken.principalSupply = 0)
    (h : updateState now r = .ok r') :
    r'.data.liquidityIndex =
        accruedLiquidityIndex r.data (now - r.data.lastUpdateTimestamp) ∧
      r'.data.variableBorrowIndex = accruedVariableBorrowIndex r.data
        r.variableDebtToken.ledger.totalSupply (now - r.data.lastUpdateTimestamp) ∧
      r'.variableDebtToken = r.variableDebtToken ∧
      r'.aToken.ledger.totalSupply = r.aToken.ledger.totalSupply +
        rayQuotient (percentProduct (r'.variableDebt - r.variableDebt)
          r.data.configuration.getReserveFactor) r'.data.liquidityIndex := by
  simp only [updateState, updateStateFrom, bind_ok, VariableDebtToken.scaledTotalSupply_ok] at h
  obtain ⟨_, ⟨-, rfl⟩, d, hd, h⟩ := h
  obtain ⟨-, hd⟩ := updateIndexes_ok hd
  have hr := mintToTreasury_variable (r := r.withData d) hstable h
  have hconfiguration : d.configuration = r.data.configuration := by rw [hd]; rfl
  rw [hr]
  refine ⟨?_, ?_, rfl, ?_⟩
  · rw [Reserve.withALedger_data, Reserve.withData_data, hd,
      ReserveData.withIndexes_liquidityIndex]
  · rw [Reserve.withALedger_data, Reserve.withData_data, hd,
      ReserveData.withIndexes_variableBorrowIndex]
  · rw [Reserve.withALedger_aToken_ledger, Ledger.credit_totalSupply, ← hconfiguration]
    rfl

end ReserveLogic

namespace AccrualBalance

theorem shown_error (scaled index : ℕ) :
    |(rayProduct scaled index : ℚ) - scaled * (index / ray)| ≤ 1 / 2 := by
  rw [← mul_div_assoc]
  exact abs_rayProduct_sub scaled index

theorem index_error (factor index : ℕ) :
    |(rayProduct factor index : ℚ) / ray - factor / ray * (index / ray)| ≤ 1 / ray / 2 := by
  have hR := ray_pos_rat
  have h := abs_rayProduct_sub factor index
  have hscale : (rayProduct factor index : ℚ) / ray - factor / ray * (index / ray) =
      ((rayProduct factor index : ℚ) - factor * index / ray) / ray := by ring
  rw [hscale, abs_div, abs_of_pos hR, div_right_comm]
  exact div_le_div_of_nonneg_right h hR.le

theorem minted_error (share : ℕ) {index : ℕ} (hindex : 0 < index) :
    |(rayQuotient share index : ℚ) * (index / ray) - share| ≤ index / ray / 2 := by
  have h := abs_rayQuotient_mul_sub share hindex
  rwa [mul_div_assoc, div_mul_eq_div_div_swap] at h

theorem linearFactor_bounds (rate dt : ℕ) :
    1 + (rate : ℚ) * (dt * (1 / ray) / 31536000) - 1 / ray ≤
        MathUtils.linearFactor rate dt / ray ∧
      (MathUtils.linearFactor rate dt : ℚ) / ray ≤
        1 + (rate : ℚ) * (dt * (1 / ray) / 31536000) := by
  have hR := ray_pos_rat
  have hlower : rate * dt < 31536000 * (rate * dt / 31536000 + 1) :=
    Nat.lt_mul_div_succ _ (by norm_num)
  have hupper : 31536000 * (rate * dt / 31536000) ≤ rate * dt := Nat.mul_div_le _ _
  have hvalue : MathUtils.linearFactor rate dt = rate * dt / 31536000 + ray := rfl
  rw [hvalue, Nat.cast_add, add_div, div_self hR.ne']
  generalize rate * dt / 31536000 = interest at *
  have hlower' : (rate : ℚ) * dt < 31536000 * (interest + 1) := by exact_mod_cast hlower
  have hupper' : 31536000 * (interest : ℚ) ≤ rate * dt := by exact_mod_cast hupper
  have hinterest : (rate : ℚ) * (dt * (1 / ray) / 31536000) = rate * dt / 31536000 / ray := by ring
  rw [hinterest]
  constructor
  · have hdiv : (rate : ℚ) * dt / 31536000 / ray ≤ (interest + 1) / ray :=
      div_le_div_of_nonneg_right (by linarith) hR.le
    rw [add_div] at hdiv
    linarith
  · have hdiv : (interest : ℚ) / ray ≤ rate * dt / 31536000 / ray :=
      div_le_div_of_nonneg_right (by linarith) hR.le
    linarith

theorem compoundedExcess_bounds (rate dt : ℕ) :
    ((rate / 31536000 : ℕ) * dt : ℚ) / ray ≤ MathUtils.compoundedExcess rate dt / ray ∧
      (rate : ℚ) * (dt * (1 / ray) / 31536000) ≤
        ((rate / 31536000 : ℕ) * dt : ℚ) / ray + dt * (1 / ray) := by
  have hR := ray_pos_rat
  have hfirst : rate / 31536000 * dt ≤ MathUtils.compoundedExcess rate dt := by
    have := MathUtils.compoundedExcess_growth rate (Nat.zero_le dt)
    rwa [MathUtils.compoundedExcess_zero, Nat.zero_add, Nat.sub_zero] at this
  have hrate : rate < 31536000 * (rate / 31536000 + 1) := Nat.lt_mul_div_succ _ (by norm_num)
  generalize rate / 31536000 = perSecond at *
  have hfirst' : (perSecond * dt : ℚ) ≤ MathUtils.compoundedExcess rate dt := by
    exact_mod_cast hfirst
  have hrate' : (rate : ℚ) ≤ 31536000 * (perSecond + 1) := by exact_mod_cast hrate.le
  refine ⟨div_le_div_of_nonneg_right hfirst' hR.le, ?_⟩
  have hdt : (0 : ℚ) ≤ dt * (1 / ray) / 31536000 := by positivity
  calc (rate : ℚ) * (dt * (1 / ray) / 31536000)
      ≤ 31536000 * (perSecond + 1) * (dt * (1 / ray) / 31536000) :=
        mul_le_mul_of_nonneg_right hrate' hdt
    _ = (perSecond * dt : ℚ) / ray + dt * (1 / ray) := by ring

end AccrualBalance

namespace Reserve

variable {env : Env} {asset : Address} {cash now : ℕ} {r r' : Reserve}

/-- A reserve without stable debt whose rates are those of the strategy for an available
liquidity and the variable debt, which together back its supply. -/
structure RatesSetAt (env : Env) (asset : Address) (cash : ℕ) (r : Reserve) : Prop where
  rates : ReserveLogic.ratesAt env asset r cash = .ok (ReserveLogic.storedRates r)
  noStableDebt : r.stableDebtToken.principalSupply = 0
  variableRate_le : r.data.currentVariableBorrowRate ≤ 10 ^ 30
  liquidityIndex : ray ≤ r.data.liquidityIndex
  variableBorrowIndex : ray ≤ r.data.variableBorrowIndex
  supplied_le : r.supplied ≤ cash + r.variableDebt

/-- The supply has grown by no more than the debt, but for some units, the new indexes in rays,
and two ray units of each amount for every second. -/
def AccruesWithin (units : ℚ) (cash dt : ℕ) (r r' : Reserve) : Prop :=
  (r'.supplied : ℚ) - r.supplied ≤ (r'.variableDebt : ℚ) - r.variableDebt + units +
    ((r'.data.liquidityIndex : ℚ) + r'.data.variableBorrowIndex) / ray +
    2 * (cash + r.variableDebt + r.aToken.ledger.totalSupply +
      r.variableDebtToken.ledger.totalSupply) * (dt + 1) / ray

theorem ratesSet_of_updateInterestRates {added taken : ℕ}
    (h : ReserveLogic.updateInterestRates env asset added taken r = .ok r') :
    ReserveLogic.ratesAt env asset r' (r.cash + added - taken) =
      .ok (ReserveLogic.storedRates r') := by
  obtain ⟨rates, hrates, -, rfl⟩ := ReserveLogic.updateInterestRates_rates h
  rw [ReserveLogic.ratesAt_withRates, hrates]
  rfl

theorem accruesWithin_idle {units : ℚ} (hunits : 0 ≤ units)
    (hstable : r.stableDebtToken.principalSupply = 0) (hidle : r.data.currentLiquidityRate = 0)
    (h : ReserveLogic.updateState now r = .ok r') :
    AccruesWithin units cash (now - r.data.lastUpdateTimestamp) r r' := by
  obtain ⟨hL, hV, htoken, hsupply⟩ := ReserveLogic.updateState_variable hstable h
  rw [ReserveLogic.accruedLiquidityIndex, if_pos hidle] at hL
  rw [ReserveLogic.accruedVariableBorrowIndex, if_pos (.inl hidle)] at hV
  have hdebt : r'.variableDebt = r.variableDebt := by rw [variableDebt, htoken, hV, variableDebt]
  rw [hdebt, Nat.sub_self, percentProduct, Nat.zero_mul, HalfUp.zero_div, rayQuotient,
    Nat.zero_mul, HalfUp.zero_div, Nat.add_zero] at hsupply
  have hsupplied : r'.supplied = r.supplied := by rw [supplied, hsupply, hL, supplied]
  rw [AccruesWithin, hsupplied, hdebt, sub_self, sub_self, zero_add]
  have hR := ray_pos_rat
  positivity

theorem supplied_growth_le {rate dt share : ℕ} (hray : ray ≤ r.data.liquidityIndex)
    (hL : r'.data.liquidityIndex =
      rayProduct (MathUtils.linearFactor rate dt) r.data.liquidityIndex)
    (hsupply : r'.aToken.ledger.totalSupply =
      r.aToken.ledger.totalSupply + rayQuotient share r'.data.liquidityIndex) :
    (r'.supplied : ℚ) - r.supplied ≤ r.supplied * (rate * (dt * (1 / ray) / 31536000)) +
      r.aToken.ledger.totalSupply * (1 / ray) / 2 + share + r'.data.liquidityIndex / ray + 1 / 2 +
      3 * (1 / ray) / 4 := by
  have hindex : 0 < r'.data.liquidityIndex := by
    rw [hL]
    exact ray_pos.trans_le
      (hray.trans (le_rayProduct_left (MathUtils.ray_le_linearFactor _ _)))
  have ha : (1 : ℚ) ≤ (r.data.liquidityIndex : ℚ) / ray :=
    (one_le_div ray_pos_rat).mpr (by exact_mod_cast hray)
  have hsupplied := AccrualBalance.shown_error r'.aToken.ledger.totalSupply r'.data.liquidityIndex
  rw [← supplied, hsupply, Nat.cast_add] at hsupplied
  obtain ⟨hlower, hupper⟩ := AccrualBalance.linearFactor_bounds rate dt
  have hgrowth := AccrualBalance.supply_growth_le (Nat.cast_nonneg _) ha (by positivity)
    (by positivity) hlower hupper (AccrualBalance.shown_error _ _) hsupplied
    (hL ▸ AccrualBalance.index_error _ _) (AccrualBalance.minted_error _ hindex)
  rwa [← supplied] at hgrowth

theorem variableDebt_growth_ge {rate dt : ℕ} (hray : ray ≤ r.data.variableBorrowIndex)
    (hV : r'.data.variableBorrowIndex =
      rayProduct (ray + MathUtils.compoundedExcess rate dt) r.data.variableBorrowIndex)
    (htoken : r'.variableDebtToken = r.variableDebtToken) :
    (r.variableDebt : ℚ) * (((rate / 31536000 : ℕ) * dt : ℚ) / ray) ≤
      r'.variableDebt - r.variableDebt + r'.data.variableBorrowIndex / ray / 2 +
        r.variableDebtToken.ledger.totalSupply * (1 / ray) / 2 + 1 / 2 + 1 / ray / 4 := by
  have hv : (1 : ℚ) ≤ (r.data.variableBorrowIndex : ℚ) / ray :=
    (one_le_div ray_pos_rat).mpr (by exact_mod_cast hray)
  have hshown := AccrualBalance.shown_error r.variableDebtToken.ledger.totalSupply
    r'.data.variableBorrowIndex
  rw [← htoken, ← variableDebt, htoken] at hshown
  have hindex := AccrualBalance.index_error (ray + MathUtils.compoundedExcess rate dt)
    r.data.variableBorrowIndex
  rw [← hV, Nat.cast_add, add_div, div_self ray_pos_rat.ne'] at hindex
  have hgrowth := AccrualBalance.debt_growth_ge (Nat.cast_nonneg _) hv (by positivity)
    (AccrualBalance.compoundedExcess_bounds rate dt).1 (AccrualBalance.shown_error _ _) hshown
    hindex
  rwa [← variableDebt] at hgrowth

theorem RatesSetAt.variableDebt_ne_zero (hset : r.RatesSetAt env asset cash)
    (hincome : r.data.currentLiquidityRate ≠ 0) : r.variableDebt ≠ 0 := by
  have hrate : r.data.currentLiquidityRate = _ :=
    (ReserveLogic.ratesAt_variable hset.noStableDebt hset.rates).2
  intro hzero
  rw [hrate, hzero] at hincome
  exact hincome (by simp [AccrualBalance.liquidityRate, AccrualBalance.overallRate, rayQuotient,
    percentProduct])

theorem RatesSetAt.accruesWithin_of_income (hset : r.RatesSetAt env asset cash)
    (hincome : r.data.currentLiquidityRate ≠ 0) (h : ReserveLogic.updateState now r = .ok r') :
    AccruesWithin (3 + (now - r.data.lastUpdateTimestamp : ℕ) / (6 * 10 ^ 16)) cash
      (now - r.data.lastUpdateTimestamp) r r' := by
  have hR := ray_pos_rat
  obtain ⟨hfactor, hrate⟩ := ReserveLogic.ratesAt_variable hset.noStableDebt hset.rates
  change r.data.currentLiquidityRate = AccrualBalance.liquidityRate cash r.variableDebt
    r.data.currentVariableBorrowRate _ at hrate
  have hdebt := hset.variableDebt_ne_zero hincome
  have hscaled : r.variableDebtToken.ledger.totalSupply ≠ 0 := by
    intro hzero
    exact hdebt (by rw [variableDebt, hzero, rayProduct_zero_left])
  obtain ⟨hL, hV, htoken, hsupply⟩ := ReserveLogic.updateState_variable hset.noStableDebt h
  rw [ReserveLogic.accruedLiquidityIndex, if_neg hincome] at hL
  rw [ReserveLogic.accruedVariableBorrowIndex, if_neg (by simp [hincome, hscaled])] at hV
  have hgrows : r.variableDebt ≤ r'.variableDebt := by
    rw [variableDebt, variableDebt, htoken, hV]
    exact rayProduct_mono le_rfl (le_rayProduct_left (Nat.le_add_right _ _))
  generalize now - r.data.lastUpdateTimestamp = dt at *
  have hsupplyGrowth := supplied_growth_le hset.liquidityIndex hL hsupply
  have hdebtGrowth := variableDebt_growth_ge hset.variableBorrowIndex hV htoken
  have hgrowth := (AccrualBalance.compoundedExcess_bounds r.data.currentVariableBorrowRate dt).2
  -- the rate of the suppliers ties the two together
  have hearned := AccrualBalance.liquidityRate_mul_le cash hdebt hset.variableRate_le hfactor
  rw [← hrate] at hearned
  have hshare := (abs_le.mp (abs_percentProduct_sub (r'.variableDebt - r.variableDebt)
    r.data.configuration.getReserveFactor)).2
  rw [Nat.cast_sub hgrows] at hshare
  have hunit : (1 / ray : ℚ) * 10 ^ 27 = 1 := by norm_num [ray]
  have hφ : (r.data.configuration.getReserveFactor : ℚ) / 10000 ≤ 1 := by
    have : (r.data.configuration.getReserveFactor : ℚ) ≤ 10000 := by exact_mod_cast hfactor
    linarith
  have hwithin := AccrualBalance.growth_within hunit (Nat.cast_nonneg dt) (Nat.cast_nonneg _)
    (by positivity) hφ (Nat.cast_nonneg _) (Nat.cast_nonneg _) (Nat.cast_nonneg _)
    (div_nonneg (Nat.cast_nonneg _) hR.le) (by exact_mod_cast hset.supplied_le)
    (le_add_of_nonneg_left (Nat.cast_nonneg cash)) hsupplyGrowth hdebtGrowth hgrowth hearned
    (by linarith)
  rw [AccruesWithin]
  refine hwithin.trans (le_of_eq ?_)
  ring

theorem AccruesWithin.mono {units units' : ℚ} {dt : ℕ} (hle : units ≤ units')
    (h : AccruesWithin units cash dt r r') : AccruesWithin units' cash dt r r' := by
  unfold AccruesWithin at h ⊢
  linarith

/-- An accrual credits no more than it charges, within the roundings. Of the units, the part
that grows with the time is the rounding of the overall rate, half a unit of a ray on each
unit of debt; it needs billions of years to matter. -/
theorem accrual_covered (hset : r.RatesSetAt env asset cash)
    (h : ReserveLogic.updateState now r = .ok r') :
    AccruesWithin (max 10 (3 + (now - r.data.lastUpdateTimestamp : ℕ) / (6 * 10 ^ 16))) cash
      (now - r.data.lastUpdateTimestamp) r r' := by
  by_cases hidle : r.data.currentLiquidityRate = 0
  · exact accruesWithin_idle (le_max_of_le_left (by norm_num)) hset.noStableDebt hidle h
  · exact (hset.accruesWithin_of_income hidle h).mono (le_max_right _ _)

def slowStrategy : DefaultReserveInterestRateStrategy :=
  { sampleStrategy with baseVariableBorrowRate := 5 * 10 ^ 11 }

def slowEnv : Env := { sampleEnv 0 with strategy := fun _ => some slowStrategy }

def lentReserve : Reserve where
  data := ⟨⟨0#256⟩, ray, ray, 0, 0, 0, 0, 101, 102, 103, 104, 0⟩
  aToken := ⟨Ledger.empty.credit 11 (10 ^ 6), fun _ _ => 0, 12⟩
  stableDebtToken := ⟨fun _ => 0, 0, 0, fun _ => 0, fun _ => 0, 0, fun _ _ => 0⟩
  variableDebtToken := ⟨Ledger.empty.credit 13 (10 ^ 6), fun _ _ => 0⟩
  underlying := ⟨Ledger.empty, fun _ _ => 0⟩

set_option synthInstance.maxSize 256 in
theorem lentReserve_accrues : (do
    let r ← ReserveLogic.updateInterestRates slowEnv 1 0 0 lentReserve
    let r' ← ReserveLogic.updateState (10 ^ 18) r
    return (r.supplied, r.variableDebt, r'.supplied, r'.variableDebt, r'.data.liquidityIndex,
      r'.data.variableBorrowIndex, r.data.currentVariableBorrowRate)) =
    .ok (1000000, 1000000, 1000032, 1000016, 1000031709791983764586504312,
      1000015854000000000000000000, 500000000000) := by
  decide +kernel

theorem lentReserve_ratesSet {r : Reserve}
    (h : ReserveLogic.updateInterestRates slowEnv 1 0 0 lentReserve = .ok r)
    (hsupplied : r.supplied = 1000000) (hdebt : r.variableDebt = 1000000)
    (hrate : r.data.currentVariableBorrowRate = 500000000000) : r.RatesSetAt slowEnv 1 0 := by
  have hrates := ratesSet_of_updateInterestRates h
  obtain ⟨rates, rfl⟩ := ReserveLogic.updateInterestRates_ok h
  exact ⟨hrates, rfl, by rw [hrate]; norm_num, le_refl ray, le_refl ray, by omega⟩

theorem lentReserve_state : ∃ r r', r.RatesSetAt slowEnv 1 0 ∧
    r.data.lastUpdateTimestamp = 0 ∧ ReserveLogic.updateState (10 ^ 18) r = .ok r' ∧
    r.supplied = 1000000 ∧ r.variableDebt = 1000000 ∧ r'.supplied = 1000032 ∧
    r'.variableDebt = 1000016 ∧ r'.data.liquidityIndex = 1000031709791983764586504312 ∧
    r'.data.variableBorrowIndex = 1000015854000000000000000000 ∧
    r.aToken.ledger.totalSupply = 1000000 ∧ r.variableDebtToken.ledger.totalSupply = 1000000 := by
  obtain ⟨r, hr, hrest⟩ := bind_ok.mp lentReserve_accrues
  obtain ⟨r', hr', hrest⟩ := bind_ok.mp hrest
  simp only [pure_ok, Prod.mk.injEq] at hrest
  obtain ⟨hsupplied, hdebt, hsupplied', hdebt', hL, hV, hrate⟩ := hrest
  have hset := lentReserve_ratesSet hr hsupplied hdebt hrate
  obtain ⟨rates, rfl⟩ := ReserveLogic.updateInterestRates_ok hr
  exact ⟨_, r', hset, rfl, hr', hsupplied, hdebt, hsupplied', hdebt', hL, hV, rfl, rfl⟩

/-- The overall rate of a unit of debt rounds from half of it to a whole, so after long enough
the suppliers have earned twice what the borrowers were charged. -/
theorem supply_outgrows_debt : ¬ ∀ (env : Env) (asset : Address) (cash now : ℕ) (r r' : Reserve),
    r.RatesSetAt env asset cash → ReserveLogic.updateState now r = .ok r' →
    AccruesWithin 10 cash (now - r.data.lastUpdateTimestamp) r r' := by
  intro hbounded
  obtain ⟨r, r', hset, hlast, h, hsupplied, hdebt, hsupplied', hdebt', hL, hV, hscaled,
    hscaledDebt⟩ := lentReserve_state
  have hwithin := hbounded slowEnv 1 0 (10 ^ 18) r r' hset h
  rw [AccruesWithin, hlast, hsupplied, hdebt, hsupplied', hdebt', hL, hV, hscaled,
    hscaledDebt] at hwithin
  norm_num [ray] at hwithin

theorem accrual_covered_slow : ∃ r r', r.RatesSetAt slowEnv 1 0 ∧
    ReserveLogic.updateState (10 ^ 18) r = .ok r' ∧
    AccruesWithin (max 10 (3 + ((10 ^ 18 - r.data.lastUpdateTimestamp : ℕ) : ℚ) / (6 * 10 ^ 16))) 0
      (10 ^ 18 - r.data.lastUpdateTimestamp) r r' := by
  obtain ⟨r, r', hset, -, h, -⟩ := lentReserve_state
  exact ⟨r, r', hset, h, accrual_covered hset h⟩

end Reserve

end Moola
