import Moola.Seizure
import Moola.WithdrawalCheck

/-! What a liquidation seizes against what it repays. The manager converts the debt into
collateral with the bonus, or, when the balance does not suffice, the balance into debt
without it; each direction has its own roundings, and neither favours the liquidator by
more than two units of debt. -/

namespace Moola

open Guard WadRayMath PercentageMath

theorem tokenUnit_of_le {decimals : ℕ} (h : decimals ≤ 77) :
    tokenUnit decimals = 10 ^ decimals := by
  refine Nat.mod_eq_of_lt ?_
  calc 10 ^ decimals ≤ 10 ^ 77 := Nat.pow_le_pow_right (by norm_num) h
    _ < 2 ^ 256 := by norm_num

namespace CollateralManager

section Exchange

/-! The exchange between an amount of debt worth `debtUnit` each and an amount of
collateral worth `collateralUnit` each, at a factor in basis points. -/

variable {debtUnit collateralUnit debt collateral factor : ℕ}

theorem collateral_value_le (hunit : 0 < debtUnit) (hfactor : 10000 < factor)
    (h : collateral = percentProduct (debtUnit * debt) factor / collateralUnit) :
    collateral * collateralUnit * 10000 ≤ (debt + 2) * debtUnit * factor := by
  have hmul : collateral * collateralUnit ≤ percentProduct (debtUnit * debt) factor :=
    h ▸ Nat.div_mul_le_self _ _
  have hround := HalfUp.lower (debtUnit * debt * factor) percentageFactor
  have hfloor : 1 * 10000 ≤ debtUnit * factor := Nat.mul_le_mul hunit hfactor.le
  calc collateral * collateralUnit * 10000
      ≤ percentageFactor * percentProduct (debtUnit * debt) factor := by
        rw [mul_comm percentageFactor]
        exact Nat.mul_le_mul_right _ hmul
    _ ≤ debtUnit * debt * factor + percentageFactor / 2 := hround
    _ ≤ debtUnit * debt * factor + 2 * (debtUnit * factor) := by
        rw [percentageFactor]
        omega
    _ = (debt + 2) * debtUnit * factor := by ring

/-- Collateral converted to debt: the two roundings down lose less than two units. -/
theorem whole_value_le (hunit : 0 < debtUnit) (hfactor : 10000 < factor)
    (h : debt = HalfUp.div (collateral * collateralUnit / debtUnit * percentageFactor) factor) :
    collateral * collateralUnit * 10000 ≤ (debt + 2) * debtUnit * factor := by
  set quotient := collateral * collateralUnit / debtUnit with hquotient
  have hvalue : collateral * collateralUnit < debtUnit * (quotient + 1) :=
    Nat.lt_mul_div_succ _ hunit
  have hround : quotient * percentageFactor + factor / 2 < factor * (debt + 1) :=
    h ▸ HalfUp.upper _ (by omega)
  have hdebt : (quotient + 1) * 10000 ≤ (debt + 2) * factor := by
    rw [percentageFactor, mul_add, mul_one, mul_comm factor] at hround
    rw [add_mul, add_mul]
    omega
  calc collateral * collateralUnit * 10000
      ≤ debtUnit * (quotient + 1) * 10000 := Nat.mul_le_mul_right _ hvalue.le
    _ = debtUnit * ((quotient + 1) * 10000) := mul_assoc _ _ _
    _ ≤ debtUnit * ((debt + 2) * factor) := Nat.mul_le_mul_left _ hdebt
    _ = (debt + 2) * debtUnit * factor := by ring

theorem whole_debt_le {debtToCover : ℕ} (hunit : 0 < collateralUnit) (hfactor : 10000 < factor)
    (hshort : collateral < percentProduct (debtUnit * debtToCover) factor / collateralUnit) :
    HalfUp.div (collateral * collateralUnit / debtUnit * percentageFactor) factor ≤
      debtToCover := by
  refine HalfUp.le_of_le_mul (by omega) ?_
  set quotient := collateral * collateralUnit / debtUnit with hquotient
  have hback : quotient * debtUnit ≤ collateral * collateralUnit := Nat.div_mul_le_self _ _
  have hnext : (collateral + 1) * collateralUnit ≤
      percentProduct (debtUnit * debtToCover) factor := (Nat.le_div_iff_mul_le hunit).mp hshort
  have hround := HalfUp.lower (debtUnit * debtToCover * factor) percentageFactor
  by_contra hgt
  have hscaled : (debtToCover * factor + 1) * debtUnit ≤ quotient * percentageFactor * debtUnit :=
    Nat.mul_le_mul_right _ (Nat.not_le.mp hgt)
  have hswap : quotient * percentageFactor * debtUnit =
      percentageFactor * (quotient * debtUnit) := by ring
  have hcover : debtUnit * debtToCover * factor = debtToCover * factor * debtUnit := by ring
  rw [percentProduct] at hnext
  rw [hswap, add_mul, one_mul] at hscaled
  rw [add_mul, one_mul] at hnext
  rw [hcover] at hround hnext
  simp only [percentageFactor] at hscaled hround hnext
  omega

end Exchange

variable {env : Env} {w : World} {collateralAsset debtAsset : Address}
  {bonus debtToCover balance collateral debt : ℕ} {a : AvailableCollateral}

theorem availableCollateral_ok (h : availableCollateral env w collateralAsset debtAsset bonus
      debtToCover balance = .ok (collateral, debt)) :
    ∃ debtUnit collateralUnit,
      debtUnit = env.getAssetPrice debtAsset *
        tokenUnit (w.reserves collateralAsset).data.configuration.getDecimals ∧
      collateralUnit = env.getAssetPrice collateralAsset *
        tokenUnit (w.reserves debtAsset).data.configuration.getDecimals ∧ 0 < collateralUnit ∧
      (percentProduct (debtUnit * debtToCover) bonus / collateralUnit ≤ balance ∧
          collateral = percentProduct (debtUnit * debtToCover) bonus / collateralUnit ∧
          debt = debtToCover ∨
        balance < percentProduct (debtUnit * debtToCover) bonus / collateralUnit ∧
          collateral = balance ∧
          debt = HalfUp.div (balance * collateralUnit / debtUnit * percentageFactor) bonus) := by
  simp only [availableCollateral, bind_ok, SafeMath.mul_ok, SafeMath.div_ok, percentMul_ok] at h
  obtain ⟨_, ⟨-, rfl⟩, _, ⟨-, rfl⟩, _, ⟨-, rfl⟩, _, ⟨-, rfl⟩, _, ⟨hpos, rfl⟩, h⟩ := h
  refine ⟨_, _, rfl, rfl, hpos, ?_⟩
  rw [mul_right_comm] at h
  split at h
  case isTrue hshort =>
    simp only [bind_ok, SafeMath.mul_ok, SafeMath.div_ok, percentDiv_ok, pure_ok,
      Prod.mk.injEq] at h
    obtain ⟨_, ⟨-, rfl⟩, _, ⟨-, rfl⟩, _, ⟨-, rfl⟩, _, ⟨-, rfl⟩, _, ⟨-, -, rfl⟩, rfl, rfl⟩ := h
    refine .inr ⟨hshort, rfl, ?_⟩
    rw [mul_left_comm, mul_assoc, mul_left_comm]
  case isFalse henough =>
    simp only [pure_ok, Prod.mk.injEq] at h
    exact .inl ⟨Nat.not_lt.mp henough, h.1.symm, h.2.symm⟩

theorem availableCollateral_fails (hbonus : bonus ≠ 0)
    (hcollateral : 0 < env.getAssetPrice collateralAsset)
    (hdebt : 0 < env.getAssetPrice debtAsset) :
    FailsOnly Revert.IsOverflow
      (availableCollateral env w collateralAsset debtAsset bonus debtToCover balance) := by
  have hunit (asset : Address) : 0 < tokenUnit (w.reserves asset).data.configuration.getDecimals :=
    tokenUnit_pos (ReserveConfigurationMap.getDecimals_lt _)
  refine .bind SafeMath.mul_fails fun _ _ => .bind SafeMath.mul_fails fun _ _ => ?_
  refine .bind percentMul_fails fun _ _ => .bind SafeMath.mul_fails fun _ hdivisor => ?_
  refine .bind (SafeMath.div_fails ?_) fun _ _ => ?_
  · rw [← (SafeMath.mul_ok.mp hdivisor).2]
    exact Nat.mul_pos hcollateral (hunit debtAsset)
  · split
    case isFalse => exact .pure _
    case isTrue =>
      refine .bind SafeMath.mul_fails fun _ _ => .bind SafeMath.mul_fails fun _ _ => ?_
      refine .bind SafeMath.mul_fails fun _ hdivisor => .bind (SafeMath.div_fails ?_) fun _ _ => ?_
      · rw [← (SafeMath.mul_ok.mp hdivisor).2]
        exact Nat.mul_pos hdebt (hunit collateralAsset)
      · exact .bind (percentDiv_fails hbonus) fun _ _ => .pure _

theorem calculateAvailableCollateralToLiquidate_ok
    (h : calculateAvailableCollateralToLiquidate env w .lendingPoolCollateralManagerWithReserve
      collateralAsset debtAsset debtToCover balance = .ok a) :
    availableCollateral env w collateralAsset debtAsset
        ((w.reserves collateralAsset).data.configuration.getLiquidationBonus +
          liquidationReservePercent) debtToCover balance =
      .ok (a.collateralAmount, a.debtAmountNeeded) ∧
    a.collateralReserveAmount = treasuryPart a.collateralAmount
      (w.reserves collateralAsset).data.configuration.getLiquidationBonus := by
  simp only [calculateAvailableCollateralToLiquidate, bind_ok, pure_ok, SafeMath.add_ok,
    SafeMath.mul_ok, SafeMath.div_ok] at h
  obtain ⟨_, ⟨-, rfl⟩, pair, hpair, _, ⟨-, rfl⟩, _, ⟨-, rfl⟩, rfl⟩ := h
  exact ⟨hpair, rfl⟩

theorem rest_keeps_bonus (collateral bonus : ℕ) : collateral * bonus ≤
    (collateral - treasuryPart collateral bonus) * (bonus + liquidationReservePercent) := by
  have hpart : treasuryPart collateral bonus * (bonus + liquidationReservePercent) ≤
      collateral * liquidationReservePercent := Nat.div_mul_le_self _ _
  rw [Nat.sub_mul, mul_add collateral]
  omega

/-- The manager with reserve never seizes more than the balance, asks for more than the debt
to cover, or takes a value above the bonus and the part of the treasury. -/
theorem never_over_seizes (hcollateral : 0 < env.getAssetPrice collateralAsset)
    (hdebt : 0 < env.getAssetPrice debtAsset)
    (hcollateralDecimals : (w.reserves collateralAsset).data.configuration.getDecimals ≤ 77)
    (hdebtDecimals : (w.reserves debtAsset).data.configuration.getDecimals ≤ 77)
    (hbonus : 10000 < (w.reserves collateralAsset).data.configuration.getLiquidationBonus)
    (debtToCover balance : ℕ) :
    FailsOnly Revert.IsOverflow (calculateAvailableCollateralToLiquidate env w
      .lendingPoolCollateralManagerWithReserve collateralAsset debtAsset debtToCover balance) ∧
    ∀ a, calculateAvailableCollateralToLiquidate env w .lendingPoolCollateralManagerWithReserve
        collateralAsset debtAsset debtToCover balance = .ok a →
      a.collateralAmount ≤ balance ∧ a.debtAmountNeeded ≤ debtToCover ∧
      a.collateralReserveAmount ≤ a.collateralAmount ∧
      a.collateralAmount * env.getAssetPrice collateralAsset *
          10 ^ (w.reserves debtAsset).data.configuration.getDecimals * 10000 ≤
        (a.debtAmountNeeded + 2) * env.getAssetPrice debtAsset *
          10 ^ (w.reserves collateralAsset).data.configuration.getDecimals *
          ((w.reserves collateralAsset).data.configuration.getLiquidationBonus +
            liquidationReservePercent) ∧
      a.collateralAmount * (w.reserves collateralAsset).data.configuration.getLiquidationBonus ≤
        (a.collateralAmount - a.collateralReserveAmount) *
          ((w.reserves collateralAsset).data.configuration.getLiquidationBonus +
            liquidationReservePercent) := by
  have hfactor : 10000 < (w.reserves collateralAsset).data.configuration.getLiquidationBonus +
      liquidationReservePercent := by omega
  refine ⟨?_, ?_⟩
  · refine .bind SafeMath.add_fails fun _ hsum => ?_
    rw [← (SafeMath.add_ok.mp hsum).2]
    refine .bind (availableCollateral_fails (by omega) hcollateral hdebt) fun _ _ => ?_
    exact .bind SafeMath.mul_fails fun _ _ => .bind (SafeMath.div_fails (by omega)) fun _ _ =>
      .pure _
  · intro a h
    obtain ⟨havailable, hpart⟩ := calculateAvailableCollateralToLiquidate_ok h
    obtain ⟨debtUnit, collateralUnit, hdebtUnit, hcollateralUnit, hpos, hcase⟩ :=
      availableCollateral_ok havailable
    rw [tokenUnit_of_le hcollateralDecimals] at hdebtUnit
    rw [tokenUnit_of_le hdebtDecimals] at hcollateralUnit
    have hunit : 0 < debtUnit := hdebtUnit ▸ Nat.mul_pos hdebt (Nat.pow_pos (by norm_num))
    refine ⟨?_, ?_, hpart ▸ treasuryPart_le _ _, ?_, hpart ▸ rest_keeps_bonus _ _⟩
    · rcases hcase with ⟨hle, hcoll, -⟩ | ⟨-, hcoll, -⟩
      · exact hcoll ▸ hle
      · exact hcoll.le
    · rcases hcase with ⟨-, -, hneeded⟩ | ⟨hshort, -, hneeded⟩
      · exact hneeded.le
      · rw [hneeded]
        exact whole_debt_le hpos hfactor hshort
    · rw [mul_assoc a.collateralAmount, ← hcollateralUnit, mul_assoc (a.debtAmountNeeded + 2),
        ← hdebtUnit]
      rcases hcase with ⟨-, hcoll, hneeded⟩ | ⟨-, hcoll, hneeded⟩
      · rw [hneeded]
        exact collateral_value_le hunit hfactor hcoll
      · rw [hcoll]
        exact whole_value_le hunit hfactor hneeded

theorem short_collateral_seized : (do
    let w ← runAll sampleStart (sampleListing 40 1 9 ++ sampleListing 40 2 9)
    let a ← calculateAvailableCollateralToLiquidate (sampleEnv 40) w
      .lendingPoolCollateralManagerWithReserve 1 2 1000 501
    return ((w.reserves 1).data.configuration.getDecimals,
      (w.reserves 2).data.configuration.getDecimals,
      (w.reserves 1).data.configuration.getLiquidationBonus,
      a.collateralAmount, a.debtAmountNeeded, a.collateralReserveAmount)) =
    .ok (0, 0, 10500, 501, 468, 9) := by
  decide +kernel

theorem never_over_seizes_short : ∃ w a,
    calculateAvailableCollateralToLiquidate (sampleEnv 40) w
      .lendingPoolCollateralManagerWithReserve 1 2 1000 501 = .ok a ∧
    a.collateralAmount ≤ 501 ∧ a.debtAmountNeeded ≤ 1000 := by
  obtain ⟨w, -, hrest⟩ := bind_ok.mp short_collateral_seized
  obtain ⟨a, ha, hrest⟩ := bind_ok.mp hrest
  simp only [pure_ok, Prod.mk.injEq] at hrest
  obtain ⟨hdecimals₁, hdecimals₂, hbonus, -⟩ := hrest
  have hall := (never_over_seizes (by decide) (by decide) (hdecimals₁ ▸ by norm_num)
    (hdecimals₂ ▸ by norm_num) (hbonus ▸ by norm_num) 1000 501).2 a ha
  exact ⟨w, a, ha, hall.1, hall.2.1⟩

end CollateralManager

end Moola
