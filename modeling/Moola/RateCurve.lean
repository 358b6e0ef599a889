import Moola.Machine

/-! The borrow rates over the utilisation of a reserve. Each side of the optimal
utilisation is monotone on its own. At the optimal one the stable rate meets its other
side exactly, and the variable rate, which is multiplied before it is divided, up to a
rounding that grows as the optimal utilisation shrinks. -/

namespace Moola

open Guard WadRayMath

namespace DefaultReserveInterestRateStrategy

variable {s : DefaultReserveInterestRateStrategy} {market available available' debt debt'
  utilization utilization' stable stable' variableRate variableRate' : ℕ}

theorem utilizationRate_mono (havailable : available' ≤ available) (hdebt : debt ≤ debt')
    (h : utilizationRate available debt = .ok utilization)
    (h' : utilizationRate available' debt' = .ok utilization') : utilization ≤ utilization' := by
  unfold utilizationRate at h h'
  split at h
  case isTrue =>
    have hzero : 0 = utilization := pure_ok.mp h
    omega
  case isFalse hne =>
    rw [if_neg (by omega)] at h'
    simp only [bind_ok, SafeMath.add_ok, rayDiv_ok] at h h'
    obtain ⟨_, ⟨-, rfl⟩, -, -, rfl⟩ := h
    obtain ⟨_, ⟨-, rfl⟩, -, -, rfl⟩ := h'
    refine HalfUp.mono_of_cross (by omega) (by omega) ?_
    have hcross : debt * available' ≤ debt' * available := Nat.mul_le_mul hdebt havailable
    calc debt * ray * (available' + debt') = ray * (debt * available' + debt * debt') := by ring
      _ ≤ ray * (debt' * available + debt * debt') :=
        Nat.mul_le_mul_left ray (Nat.add_le_add_right hcross _)
      _ = debt' * ray * (available + debt) := by ring

/-- A slope taken at the optimal utilisation, multiplied first and divided then. -/
theorem slope_at_optimal_le {slope optimal : ℕ} (hpos : 0 < optimal)
    (hle : utilization ≤ optimal) : rayQuotient (rayProduct utilization slope) optimal ≤
      slope + 1 + ray / (2 * optimal) := by
  have hproduct : 2 * (ray * rayProduct utilization slope) ≤ 2 * (utilization * slope) + ray :=
    HalfUp.twice_lower _ _
  have hquotient : 2 * (optimal * rayQuotient (rayProduct utilization slope) optimal) ≤
      2 * (rayProduct utilization slope * ray) + optimal := HalfUp.twice_lower _ _
  have hslope : utilization * slope ≤ optimal * slope := Nat.mul_le_mul_right _ hle
  have hray : ray < 2 * optimal * (ray / (2 * optimal) + 1) :=
    Nat.lt_mul_div_succ _ (by omega)
  have htarget : 2 * optimal * (slope + 1 + ray / (2 * optimal) + 1) =
      2 * (optimal * slope) + 2 * optimal * (ray / (2 * optimal) + 1) + 2 * optimal := by ring
  refine Nat.lt_succ_iff.mp (Nat.lt_of_mul_lt_mul_left (a := 2 * optimal) ?_)
  rw [mul_comm ray] at hproduct
  rw [Nat.succ_eq_add_one, htarget, mul_assoc]
  omega

theorem borrowRates_ok (h : s.borrowRates market utilization = .ok (stable, variableRate)) :
    s.optimalUtilizationRate < utilization ∧
        stable = market + s.stableRateSlope1 + rayProduct s.stableRateSlope2
          (rayQuotient (utilization - s.optimalUtilizationRate) s.excessUtilizationRate) ∧
        variableRate = s.baseVariableBorrowRate + s.variableRateSlope1 +
          rayProduct s.variableRateSlope2
            (rayQuotient (utilization - s.optimalUtilizationRate) s.excessUtilizationRate) ∨
      utilization ≤ s.optimalUtilizationRate ∧ 0 < s.optimalUtilizationRate ∧
        stable = market + rayProduct s.stableRateSlope1
          (rayQuotient utilization s.optimalUtilizationRate) ∧
        variableRate = s.baseVariableBorrowRate +
          rayQuotient (rayProduct utilization s.variableRateSlope1) s.optimalUtilizationRate := by
  unfold borrowRates at h
  split at h
  case isTrue hgt =>
    simp only [bind_ok, SafeMath.sub_ok, SafeMath.add_ok, rayDiv_ok, rayMul_ok, pure_ok,
      Prod.mk.injEq] at h
    obtain ⟨_, ⟨-, rfl⟩, _, ⟨-, -, rfl⟩, _, ⟨-, rfl⟩, _, ⟨-, rfl⟩, _, ⟨-, rfl⟩, _, ⟨-, rfl⟩,
      _, ⟨-, rfl⟩, _, ⟨-, rfl⟩, rfl, rfl⟩ := h
    exact .inl ⟨hgt, rfl, rfl⟩
  case isFalse hle =>
    simp only [bind_ok, SafeMath.add_ok, rayDiv_ok, rayMul_ok, pure_ok, Prod.mk.injEq] at h
    obtain ⟨_, ⟨hne, -, rfl⟩, _, ⟨-, rfl⟩, _, ⟨-, rfl⟩, _, ⟨-, rfl⟩, _, ⟨-, -, rfl⟩,
      _, ⟨-, rfl⟩, rfl, rfl⟩ := h
    exact .inr ⟨by omega, by omega, rfl, rfl⟩

/-- Both rates rise with the utilisation, the variable one up to its rounding at the
optimal utilisation. -/
theorem borrowRates_rise (hle : utilization ≤ utilization')
    (h : s.borrowRates market utilization = .ok (stable, variableRate))
    (h' : s.borrowRates market utilization' = .ok (stable', variableRate')) :
    stable ≤ stable' ∧
      variableRate ≤ variableRate' + 1 + ray / (2 * s.optimalUtilizationRate) := by
  rcases borrowRates_ok h with ⟨habove, hstable, hvariable⟩ | ⟨hbelow, hpos, hstable, hvariable⟩
  · rcases borrowRates_ok h' with ⟨-, hstable', hvariable'⟩ | ⟨hbelow', -⟩
    · have hratio := rayQuotient_mono s.excessUtilizationRate
        (Nat.sub_le_sub_right hle s.optimalUtilizationRate)
      have hstablePart := rayProduct_mono (le_refl s.stableRateSlope2) hratio
      have hvariablePart := rayProduct_mono (le_refl s.variableRateSlope2) hratio
      exact ⟨by omega, Nat.le_add_right_of_le (by omega)⟩
    · omega
  · rcases borrowRates_ok h' with ⟨-, hstable', hvariable'⟩ | ⟨-, -, hstable', hvariable'⟩
    · -- across the optimal utilisation the first slope is used up
      have hstablePart : rayProduct s.stableRateSlope1
          (rayQuotient utilization s.optimalUtilizationRate) ≤ s.stableRateSlope1 := by
        calc rayProduct s.stableRateSlope1 (rayQuotient utilization s.optimalUtilizationRate)
            ≤ rayProduct s.stableRateSlope1 ray :=
              rayProduct_mono le_rfl (rayQuotient_le_ray hpos hbelow)
          _ = s.stableRateSlope1 := rayProduct_ray_right _
      have hvariablePart : rayQuotient (rayProduct utilization s.variableRateSlope1)
          s.optimalUtilizationRate ≤
            s.variableRateSlope1 + 1 + ray / (2 * s.optimalUtilizationRate) :=
        slope_at_optimal_le hpos hbelow
      omega
    · have hstablePart := rayProduct_mono (le_refl s.stableRateSlope1)
        (rayQuotient_mono s.optimalUtilizationRate hle)
      have hvariablePart := rayQuotient_mono s.optimalUtilizationRate
        (rayProduct_mono hle (le_refl s.variableRateSlope1))
      exact ⟨by omega, Nat.le_add_right_of_le (by omega)⟩

theorem calculateInterestRates_ok {cash stableDebt variableDebt avgRate factor : ℕ}
    {rates : InterestRates} (h : s.calculateInterestRates market cash stableDebt variableDebt
      avgRate factor = .ok rates) :
    ∃ utilization, utilizationRate cash (stableDebt + variableDebt) = .ok utilization ∧
      s.borrowRates market utilization =
        .ok (rates.stableBorrowRate, rates.variableBorrowRate) := by
  simp only [calculateInterestRates, bind_ok, SafeMath.add_ok, pure_ok] at h
  obtain ⟨_, ⟨-, rfl⟩, utilization, hutilization, pair, hpair, _, -, _, -, _, -, _, -, rfl⟩ := h
  exact ⟨utilization, hutilization, hpair⟩

/-- What the strategy answers at less cash and more debt, however the debt is split and
whatever the average stable rates and the reserve factors are. -/
theorem calculateInterestRates_rise {cash cash' stableDebt stableDebt' variableDebt variableDebt'
    avgRate avgRate' factor factor' : ℕ} {rates rates' : InterestRates} (hcash : cash' ≤ cash)
    (hdebt : stableDebt + variableDebt ≤ stableDebt' + variableDebt')
    (h : s.calculateInterestRates market cash stableDebt variableDebt avgRate factor = .ok rates)
    (h' : s.calculateInterestRates market cash' stableDebt' variableDebt' avgRate' factor' =
      .ok rates') :
    rates.stableBorrowRate ≤ rates'.stableBorrowRate ∧
      rates.variableBorrowRate ≤
        rates'.variableBorrowRate + 1 + ray / (2 * s.optimalUtilizationRate) := by
  obtain ⟨utilization, hutilization, hrates⟩ := calculateInterestRates_ok h
  obtain ⟨utilization', hutilization', hrates'⟩ := calculateInterestRates_ok h'
  have hrise := utilizationRate_mono hcash hdebt hutilization hutilization'
  exact borrowRates_rise hrise hrates hrates'

def slopedStrategy : DefaultReserveInterestRateStrategy :=
  { sampleStrategy with
    baseVariableBorrowRate := 10 ^ 25
    variableRateSlope1 := 4 * 10 ^ 25
    variableRateSlope2 := 10 ^ 27
    stableRateSlope1 := 2 * 10 ^ 25
    stableRateSlope2 := 10 ^ 27 }

theorem slopedStrategy_rates : (do
    let rates ← slopedStrategy.calculateInterestRates 0 60 40 0 0 0
    let rates' ← slopedStrategy.calculateInterestRates 0 10 30 60 ray 1000
    return (rates.stableBorrowRate, rates'.stableBorrowRate, rates.variableBorrowRate,
      rates'.variableBorrowRate)) =
    .ok (10 ^ 25, 52 * 10 ^ 25, 3 * 10 ^ 25, 55 * 10 ^ 25) := by
  decide +kernel

theorem calculateInterestRates_rise_sample : ∃ rates rates',
    slopedStrategy.calculateInterestRates 0 60 40 0 0 0 = .ok rates ∧
    slopedStrategy.calculateInterestRates 0 10 30 60 ray 1000 = .ok rates' ∧
    rates.stableBorrowRate ≤ rates'.stableBorrowRate ∧
    rates.variableBorrowRate ≤ rates'.variableBorrowRate + 1 + ray / (2 * (8 * 10 ^ 26)) := by
  obtain ⟨rates, hbelow, hrest⟩ := bind_ok.mp slopedStrategy_rates
  obtain ⟨rates', habove, -⟩ := bind_ok.mp hrest
  exact ⟨rates, rates', hbelow, habove,
    calculateInterestRates_rise (by norm_num) (by norm_num) hbelow habove⟩

end DefaultReserveInterestRateStrategy

end Moola
