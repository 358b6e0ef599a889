import Moola.Machine

/-! LendingPoolConfigurator: what it accepts as the reserve factor and as the collateral
parameters of a reserve, against the arithmetic that has to live with them. -/

namespace Moola

open Guard WadRayMath PercentageMath

namespace LendingPoolConfigurator

variable (env : Env) (w : World)

def onlyPoolAdmin (sender : Address) : Tx Unit :=
  require (env.poolAdmin = sender) .callerNotPoolAdmin

def setReserveFactor (sender asset : Address) (reserveFactor : ℕ) : Tx World := do
  onlyPoolAdmin env sender
  let currentConfig ← (w.reserves asset).data.configuration.setReserveFactor reserveFactor
  LendingPool.setConfiguration env w env.lendingPoolConfigurator asset currentConfig.data

def checkNoLiquidity (r : Reserve) : Tx Unit :=
  require (r.cash = 0 ∧ r.data.currentLiquidityRate = 0) .lpcReserveLiquidityNot0

/-- The checks of `configureReserveAsCollateral`. A threshold of zero disables the asset. -/
def validateCollateral (r : Reserve) (ltv liquidationThreshold liquidationBonus : ℕ) : Tx Unit := do
  require (ltv ≤ liquidationThreshold) .lpcInvalidConfiguration
  if liquidationThreshold ≠ 0 then
    require (percentageFactor < liquidationBonus) .lpcInvalidConfiguration
    let product ← percentMul liquidationThreshold liquidationBonus
    require (product ≤ percentageFactor) .lpcInvalidConfiguration
  else
    require (liquidationBonus = 0) .lpcInvalidConfiguration
    checkNoLiquidity r

def configureReserveAsCollateral (sender asset : Address)
    (ltv liquidationThreshold liquidationBonus : ℕ) : Tx World := do
  onlyPoolAdmin env sender
  validateCollateral (w.reserves asset) ltv liquidationThreshold liquidationBonus
  let currentConfig ← (w.reserves asset).data.configuration.setLtv ltv
  let currentConfig ← currentConfig.setLiquidationThreshold liquidationThreshold
  let currentConfig ← currentConfig.setLiquidationBonus liquidationBonus
  LendingPool.setConfiguration env w env.lendingPoolConfigurator asset currentConfig.data

def freezeReserve (sender asset : Address) : Tx World := do
  onlyPoolAdmin env sender
  LendingPool.setConfiguration env w env.lendingPoolConfigurator asset
    ((w.reserves asset).data.configuration.setFrozen true).data

variable {env w} {w' : World} {sender asset : Address} {ltv threshold bonus factor : ℕ}

theorem setConfiguration_stored {configuration : BitVec 256}
    (h : LendingPool.setConfiguration env w sender asset configuration = .ok w') :
    (w'.reserves asset).data.configuration = ⟨configuration⟩ := by
  simp only [LendingPool.setConfiguration, bind_unit_ok, pure_ok] at h
  obtain ⟨-, rfl⟩ := h
  rw [World.setReserve_reserves_self, Reserve.withData_data]

theorem setReserveFactor_ok (h : setReserveFactor env w sender asset factor = .ok w') :
    factor ≤ 65535 ∧ (w'.reserves asset).data.configuration.getReserveFactor = factor := by
  simp only [setReserveFactor, bind_ok, exists_unit] at h
  obtain ⟨-, c, hc, h⟩ := h
  rw [setConfiguration_stored h]
  exact ReserveConfigurationMap.setReserveFactor_ok hc

theorem configureReserveAsCollateral_ok
    (h : configureReserveAsCollateral env w sender asset ltv threshold bonus = .ok w') :
    validateCollateral (w.reserves asset) ltv threshold bonus = .ok () ∧
      threshold ≤ 65535 ∧ bonus ≤ 65535 ∧
      (w'.reserves asset).data.configuration.getLiquidationThreshold = threshold ∧
      (w'.reserves asset).data.configuration.getLiquidationBonus = bonus := by
  simp only [configureReserveAsCollateral, bind_ok, exists_unit] at h
  obtain ⟨-, hvalid, c₁, -, c₂, h₂, c₃, h₃, h⟩ := h
  obtain ⟨hthreshold, hstored⟩ := ReserveConfigurationMap.setLiquidationThreshold_ok h₂
  obtain ⟨hbonus, hstoredBonus, hkept⟩ := ReserveConfigurationMap.setLiquidationBonus_ok h₃
  rw [setConfiguration_stored h]
  exact ⟨hvalid, hthreshold, hbonus, hkept.trans hstored, hstoredBonus⟩

end LendingPoolConfigurator

open LendingPoolConfigurator

variable {env : Env} {w w' : World} {sender asset : Address} {factor : ℕ}

/-- An accepted reserve factor stops the strategy exactly when it is above one hundred
percent; the arguments are small enough for the guards of additions and multiplications. -/
theorem accepted_reserve_factor_iff
    (h : setReserveFactor env w sender asset factor = .ok w')
    {s : DefaultReserveInterestRateStrategy} (hoptimal : 0 < s.optimalUtilizationRate)
    (hlt : s.optimalUtilizationRate < ray) {market cash stableDebt variableDebt avgRate : ℕ}
    (hsmall : ∀ e, s.calculateInterestRates market cash stableDebt variableDebt avgRate
      (w'.reserves asset).data.configuration.getReserveFactor = .error e → ¬e.IsOverflow) :
    (∃ rates, s.calculateInterestRates market cash stableDebt variableDebt avgRate
      (w'.reserves asset).data.configuration.getReserveFactor = .ok rates) ↔
      factor ≤ percentageFactor := by
  rw [(setReserveFactor_ok h).2] at hsmall ⊢
  constructor
  · rintro ⟨rates, hrates⟩
    exact DefaultReserveInterestRateStrategy.factor_le_of_calculateInterestRates hrates
  · intro hfactor
    exact (DefaultReserveInterestRateStrategy.calculateInterestRates_fails hoptimal hlt
      hfactor).exists_ok hsmall

theorem updateInterestRates_blocked {r : Reserve} {added taken : ℕ}
    (hfactor : percentageFactor < r.data.configuration.getReserveFactor) :
    ∃ e, ReserveLogic.updateInterestRates env asset added taken r = .error e := by
  rw [exists_error_iff]
  intro r' h
  simp only [ReserveLogic.updateInterestRates, bind_ok] at h
  obtain ⟨⟨stable, avg⟩, -, scaled, -, variableDebt, -, h⟩ := h
  split at h
  case h_1 => cases h
  case h_2 strategy hstrategy =>
    obtain ⟨rates, hrates, -⟩ := bind_ok.mp h
    obtain ⟨-, hcalc⟩ := DefaultReserveInterestRateStrategy.calculateInterestRatesAfter_ok hrates
    have hle := DefaultReserveInterestRateStrategy.factor_le_of_calculateInterestRates hcalc
    omega

theorem excessive_factor_accepted : (do
    let w ← runAll sampleStart (sampleListing 40 1 9)
    let w' ← setReserveFactor (sampleEnv 40) w 7 1 10001
    let blocked := (exec (sampleEnv 40) w' 11 (.deposit 1 100 11)).map fun _ => ()
    return ((w'.reserves 1).data.configuration.getReserveFactor, blocked)) =
    .ok (10001, .error .safeMathSubtractionOverflow) := by
  decide +kernel

theorem excessive_factor_state : ∃ w w', setReserveFactor (sampleEnv 40) w 7 1 10001 = .ok w' ∧
    (w'.reserves 1).data.configuration.getReserveFactor = 10001 ∧
    exec (sampleEnv 40) w' 11 (.deposit 1 100 11) = .error .safeMathSubtractionOverflow := by
  obtain ⟨w, -, hrest⟩ := bind_ok.mp excessive_factor_accepted
  obtain ⟨w', h, hrest⟩ := bind_ok.mp hrest
  simp only [pure_ok, Prod.mk.injEq] at hrest
  exact ⟨w, w', h, hrest.1, map_error.mp hrest.2⟩

theorem reserve_factor_bricks : ¬ ∀ (env : Env) (w w' : World) (sender asset : Address) (factor : ℕ)
    (s : DefaultReserveInterestRateStrategy)
    (market cash stableDebt variableDebt avgRate : ℕ),
    setReserveFactor env w sender asset factor = .ok w' → 0 < s.optimalUtilizationRate →
    s.optimalUtilizationRate < ray →
    (∀ e, s.calculateInterestRates market cash stableDebt variableDebt avgRate
      (w'.reserves asset).data.configuration.getReserveFactor = .error e → ¬e.IsOverflow) →
    ∃ rates, s.calculateInterestRates market cash stableDebt variableDebt avgRate
      (w'.reserves asset).data.configuration.getReserveFactor = .ok rates := by
  intro haccepted
  obtain ⟨w, w', h, hfactor, -⟩ := excessive_factor_state
  have hrates := haccepted (sampleEnv 40) w w' 7 1 10001 sampleStrategy 0 0 0 0 0 h (by decide)
    (by decide)
  rw [hfactor] at hrates
  have herror : sampleStrategy.calculateInterestRates 0 0 0 0 0 10001 =
      .error .safeMathSubtractionOverflow := by rfl
  obtain ⟨rates, hok⟩ := hrates fun e he => by
    rw [← Except.error.inj (herror.symm.trans he)]
    simp [Revert.IsOverflow]
  cases herror.symm.trans hok

theorem accepted_reserve_factor_iff_excessive : ∃ w',
    (∃ w, setReserveFactor (sampleEnv 40) w 7 1 10001 = .ok w') ∧
    ((∃ rates, sampleStrategy.calculateInterestRates 0 0 0 0 0
      (w'.reserves 1).data.configuration.getReserveFactor = .ok rates) ↔
      10001 ≤ percentageFactor) := by
  obtain ⟨w, w', h, hfactor, -⟩ := excessive_factor_state
  refine ⟨w', ⟨w, h⟩, accepted_reserve_factor_iff h (by decide) (by decide) ?_⟩
  intro e he
  rw [hfactor] at he
  have herror : sampleStrategy.calculateInterestRates 0 0 0 0 0 10001 =
      .error .safeMathSubtractionOverflow := by rfl
  rw [← Except.error.inj (herror.symm.trans he)]
  simp [Revert.IsOverflow]

namespace CollateralManager

/-- The value of the collateral that the manager with reserve demands for a debt. -/
def demandedValue (debtValue liquidationBonus : ℕ) : Tx ℕ := do
  let bonus ← SafeMath.add liquidationBonus liquidationReservePercent
  percentMul debtValue bonus

variable {threshold bonus : ℕ}

/-- At the threshold, a bonus whose product with it leaves room demands no more than there is. -/
theorem percentProduct_le_of_cover (hcover : threshold * bonus ≤ 10 ^ 8) {collateral debt : ℕ}
    (hlimit : debt * 10000 ≤ collateral * threshold) : percentProduct debt bonus ≤ collateral := by
  refine HalfUp.le_of_le_mul percentageFactor_pos ?_
  have hscaled : 10000 * (debt * bonus) ≤ 10000 * (collateral * percentageFactor) := by
    calc 10000 * (debt * bonus) = debt * 10000 * bonus := by ring
      _ ≤ collateral * threshold * bonus := Nat.mul_le_mul_right _ hlimit
      _ = collateral * (threshold * bonus) := by ring
      _ ≤ collateral * 10 ^ 8 := Nat.mul_le_mul_left _ hcover
      _ = 10000 * (collateral * percentageFactor) := by rw [percentageFactor]; ring
  exact Nat.le_of_mul_le_mul_left hscaled (by norm_num)

/-- The manager then covers the whole debt from the balance, at any prices and decimals. -/
theorem availableCollateral_covers {collateralAsset debtAsset : Address}
    {debtToCover balance collateral covered : ℕ} (hcover : threshold * bonus ≤ 10 ^ 8)
    (hlimit : env.getAssetPrice debtAsset * debtToCover *
        tokenUnit (w.reserves collateralAsset).data.configuration.getDecimals * 10000 ≤
      balance * (env.getAssetPrice collateralAsset *
        tokenUnit (w.reserves debtAsset).data.configuration.getDecimals) * threshold)
    (h : availableCollateral env w collateralAsset debtAsset bonus debtToCover balance =
      .ok (collateral, covered)) : covered = debtToCover ∧ collateral ≤ balance := by
  simp only [availableCollateral, bind_ok, SafeMath.mul_ok, SafeMath.div_ok, percentMul_ok] at h
  obtain ⟨_, ⟨-, rfl⟩, _, ⟨-, rfl⟩, _, ⟨-, rfl⟩, _, ⟨-, rfl⟩, _, ⟨-, rfl⟩, h⟩ := h
  have hle := Nat.div_le_of_le_mul ((percentProduct_le_of_cover hcover hlimit).trans
    (Nat.mul_comm _ _).le)
  rw [if_neg (Nat.not_lt.mpr hle), pure_ok, Prod.mk.injEq] at h
  exact ⟨h.2.symm, h.1 ▸ hle⟩

theorem percentProduct_gt_of_not_cover (hnot : 10 ^ 8 < threshold * bonus) :
    2 * 10 ^ 8 + 1 < percentProduct (20000 * threshold) bonus := by
  refine HalfUp.le_of_mul_le percentageFactor_pos ?_
  rw [percentageFactor, Nat.mul_assoc]
  omega

end CollateralManager

open CollateralManager in
/-- Accepted parameters leave enough collateral for every position at its threshold exactly
when threshold and bonus leave room for the share of the treasury. -/
theorem accepted_parameters_cover_iff {ltv threshold bonus : ℕ}
    (h : configureReserveAsCollateral env w sender asset ltv threshold bonus = .ok w') :
    (∀ collateral debt demanded,
      debt * 10000 ≤ collateral * (w'.reserves asset).data.configuration.getLiquidationThreshold →
      demandedValue debt (w'.reserves asset).data.configuration.getLiquidationBonus =
        .ok demanded → demanded ≤ collateral + 1) ↔
      threshold * (bonus + liquidationReservePercent) ≤ 10 ^ 8 := by
  obtain ⟨-, hle, hbonus, hthresholdStored, hbonusStored⟩ := configureReserveAsCollateral_ok h
  rw [hthresholdStored, hbonusStored]
  constructor
  · intro hall
    by_contra hnot
    have hgt := percentProduct_gt_of_not_cover (Nat.not_le.mp hnot)
    have hdemanded : demandedValue (20000 * threshold) bonus =
        .ok (percentProduct (20000 * threshold) (bonus + liquidationReservePercent)) := by
      simp only [demandedValue, bind_ok, SafeMath.add_ok, percentMul_ok]
      refine ⟨_, ⟨?_, rfl⟩, ?_, rfl⟩
      · rw [liquidationReservePercent, maxUint256]
        omega
      · calc 20000 * threshold * (bonus + liquidationReservePercent)
            ≤ 20000 * 65535 * (65535 + 200) :=
              Nat.mul_le_mul (Nat.mul_le_mul_left _ hle) (Nat.add_le_add_right hbonus _)
          _ ≤ maxUint256 - halfPercent := by norm_num [maxUint256, halfPercent, percentageFactor]
    have := hall (2 * 10 ^ 8) (20000 * threshold) _ (by omega) hdemanded
    omega
  · intro hcover collateral debt demanded hlimit hdemanded
    simp only [demandedValue, bind_ok, SafeMath.add_ok, percentMul_ok] at hdemanded
    obtain ⟨_, ⟨-, rfl⟩, -, rfl⟩ := hdemanded
    exact (percentProduct_le_of_cover hcover hlimit).trans (Nat.le_succ _)

open CollateralManager

theorem full_product_accepted : (do
    let w ← runAll sampleStart (sampleListing 40 1 9)
    let w' ← configureReserveAsCollateral (sampleEnv 40) w 7 1 8000 8000 12500
    let config := (w'.reserves 1).data.configuration
    return (config.getLiquidationThreshold, config.getLiquidationBonus)) =
    .ok (8000, 12500) := by
  decide +kernel

theorem full_product_state : ∃ w w',
    configureReserveAsCollateral (sampleEnv 40) w 7 1 8000 8000 12500 = .ok w' ∧
    (w'.reserves 1).data.configuration.getLiquidationThreshold = 8000 ∧
    (w'.reserves 1).data.configuration.getLiquidationBonus = 12500 := by
  obtain ⟨w, -, hrest⟩ := bind_ok.mp full_product_accepted
  obtain ⟨w', h, hrest⟩ := bind_ok.mp hrest
  simp only [pure_ok, Prod.mk.injEq] at hrest
  exact ⟨w, w', h, hrest⟩

theorem treasury_share_not_covered : ¬ ∀ (env : Env) (w w' : World) (sender asset : Address)
    (ltv threshold bonus collateral debt demanded : ℕ), threshold ≠ 0 →
    configureReserveAsCollateral env w sender asset ltv threshold bonus = .ok w' →
    debt * 10000 ≤ collateral * (w'.reserves asset).data.configuration.getLiquidationThreshold →
    demandedValue debt (w'.reserves asset).data.configuration.getLiquidationBonus =
      .ok demanded → demanded ≤ collateral + 1 := by
  intro hcovered
  obtain ⟨w, w', h, hthreshold, hbonus⟩ := full_product_state
  have hdemanded : demandedValue 8000 12500 = .ok 10160 := by rfl
  have hle := hcovered (sampleEnv 40) w w' 7 1 8000 8000 12500 10000 8000 10160 (by norm_num) h
    (by rw [hthreshold]) (by rw [hbonus, hdemanded])
  omega

theorem accepted_parameters_cover_iff_full : ∃ w w',
    configureReserveAsCollateral (sampleEnv 40) w 7 1 8000 8000 12500 = .ok w' ∧
    ((∀ collateral debt demanded, debt * 10000 ≤
        collateral * (w'.reserves 1).data.configuration.getLiquidationThreshold →
      demandedValue debt (w'.reserves 1).data.configuration.getLiquidationBonus =
        .ok demanded → demanded ≤ collateral + 1) ↔
      8000 * (12500 + liquidationReservePercent) ≤ 10 ^ 8) := by
  obtain ⟨w, w', h, -, -⟩ := full_product_state
  exact ⟨w, w', h, accepted_parameters_cover_iff h⟩

end Moola
