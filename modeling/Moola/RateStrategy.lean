import Moola.Types

/-! DefaultReserveInterestRateStrategy: the rates of a reserve from its cash, its
debts and the average stable rate. -/

namespace Moola

open Guard WadRayMath

namespace DefaultReserveInterestRateStrategy

def getMaxVariableBorrowRate (s : DefaultReserveInterestRateStrategy) : Tx ℕ := do
  let sum ← SafeMath.add s.baseVariableBorrowRate s.variableRateSlope1
  SafeMath.add sum s.variableRateSlope2

def getOverallBorrowRate (totalStableDebt totalVariableDebt currentVariableBorrowRate
    currentAverageStableBorrowRate : ℕ) : Tx ℕ := do
  let totalDebt ← SafeMath.add totalStableDebt totalVariableDebt
  if totalDebt = 0 then return 0
  else
    let variableInRay ← wadToRay totalVariableDebt
    let weightedVariableRate ← rayMul variableInRay currentVariableBorrowRate
    let stableInRay ← wadToRay totalStableDebt
    let weightedStableRate ← rayMul stableInRay currentAverageStableBorrowRate
    let sum ← SafeMath.add weightedVariableRate weightedStableRate
    let totalInRay ← wadToRay totalDebt
    rayDiv sum totalInRay

def utilizationRate (availableLiquidity totalDebt : ℕ) : Tx ℕ := do
  if totalDebt = 0 then return 0
  else
    let total ← SafeMath.add availableLiquidity totalDebt
    rayDiv totalDebt total

def borrowRates (s : DefaultReserveInterestRateStrategy) (marketBorrowRate utilization : ℕ) :
    Tx (ℕ × ℕ) := do
  if utilization > s.optimalUtilizationRate then
    let excess ← SafeMath.sub utilization s.optimalUtilizationRate
    let excessUtilizationRateRatio ← rayDiv excess s.excessUtilizationRate
    let stable ← SafeMath.add marketBorrowRate s.stableRateSlope1
    let stableExcess ← rayMul s.stableRateSlope2 excessUtilizationRateRatio
    let stable ← SafeMath.add stable stableExcess
    let variableRate ← SafeMath.add s.baseVariableBorrowRate s.variableRateSlope1
    let variableExcess ← rayMul s.variableRateSlope2 excessUtilizationRateRatio
    let variableRate ← SafeMath.add variableRate variableExcess
    return (stable, variableRate)
  else
    let ratio ← rayDiv utilization s.optimalUtilizationRate
    let stablePart ← rayMul s.stableRateSlope1 ratio
    let stable ← SafeMath.add marketBorrowRate stablePart
    let product ← rayMul utilization s.variableRateSlope1
    let variablePart ← rayDiv product s.optimalUtilizationRate
    let variableRate ← SafeMath.add s.baseVariableBorrowRate variablePart
    return (stable, variableRate)

/-- The overload on the liquidity that is available after the operation. -/
def calculateInterestRates (s : DefaultReserveInterestRateStrategy)
    (marketBorrowRate availableLiquidity totalStableDebt totalVariableDebt averageStableBorrowRate
      reserveFactor : ℕ) : Tx InterestRates := do
  let totalDebt ← SafeMath.add totalStableDebt totalVariableDebt
  let utilization ← utilizationRate availableLiquidity totalDebt
  let (stable, variableRate) ← borrowRates s marketBorrowRate utilization
  let overall ← getOverallBorrowRate totalStableDebt totalVariableDebt variableRate
    averageStableBorrowRate
  let gross ← rayMul overall utilization
  let share ← SafeMath.sub PercentageMath.percentageFactor reserveFactor
  let liquidityRate ← PercentageMath.percentMul gross share
  return ⟨liquidityRate, stable, variableRate⟩

/-- The overload on the cash of the aToken, adjusted by what the operation moves. -/
def calculateInterestRatesAfter (s : DefaultReserveInterestRateStrategy)
    (marketBorrowRate cash liquidityAdded liquidityTaken totalStableDebt totalVariableDebt
      averageStableBorrowRate reserveFactor : ℕ) : Tx InterestRates := do
  let withAdded ← SafeMath.add cash liquidityAdded
  let availableLiquidity ← SafeMath.sub withAdded liquidityTaken
  calculateInterestRates s marketBorrowRate availableLiquidity totalStableDebt totalVariableDebt
    averageStableBorrowRate reserveFactor

variable {s : DefaultReserveInterestRateStrategy}
  {market cash added taken stableDebt variableDebt avgRate factor : ℕ} {rates : InterestRates}

theorem calculateInterestRatesAfter_ok (h : calculateInterestRatesAfter s market cash added taken
    stableDebt variableDebt avgRate factor = .ok rates) :
    taken ≤ cash + added ∧ calculateInterestRates s market (cash + added - taken) stableDebt
      variableDebt avgRate factor = .ok rates := by
  simp only [calculateInterestRatesAfter, bind_ok, SafeMath.add_ok, SafeMath.sub_ok] at h
  obtain ⟨_, ⟨-, rfl⟩, _, ⟨hle, rfl⟩, h⟩ := h
  exact ⟨hle, h⟩

theorem getOverallBorrowRate_fails {rate : ℕ} : FailsOnly Revert.IsOverflow
    (getOverallBorrowRate stableDebt variableDebt rate avgRate) := by
  refine .bind SafeMath.add_fails fun total htotal => ?_
  split
  case isTrue => exact .pure 0
  case isFalse hne =>
    refine .bind wadToRay_fails fun _ _ => .bind rayMul_fails fun _ _ => ?_
    refine .bind wadToRay_fails fun _ _ => .bind rayMul_fails fun _ _ => ?_
    refine .bind SafeMath.add_fails fun _ _ => .bind wadToRay_fails fun inRay hinRay => ?_
    obtain ⟨-, rfl⟩ := wadToRay_ok.mp hinRay
    exact rayDiv_fails (Nat.mul_ne_zero hne wadRayRatio_pos.ne')

theorem utilizationRate_fails {available total : ℕ} :
    FailsOnly Revert.IsOverflow (utilizationRate available total) := by
  unfold utilizationRate
  split
  case isTrue => exact .pure 0
  case isFalse hne =>
    refine .bind SafeMath.add_fails fun sum hsum => ?_
    obtain ⟨-, rfl⟩ := SafeMath.add_ok.mp hsum
    exact rayDiv_fails (by omega)

theorem borrowRates_fails (hoptimal : 0 < s.optimalUtilizationRate)
    (hlt : s.optimalUtilizationRate < ray) {utilization : ℕ} :
    FailsOnly Revert.IsOverflow (s.borrowRates market utilization) := by
  unfold borrowRates
  split
  case isTrue hgt =>
    have hexcess : s.excessUtilizationRate ≠ 0 := by
      have := s.constructed
      omega
    refine .bind (SafeMath.sub_fails hgt.le) fun _ _ => .bind (rayDiv_fails hexcess) fun _ _ => ?_
    refine .bind SafeMath.add_fails fun _ _ => .bind rayMul_fails fun _ _ => ?_
    refine .bind SafeMath.add_fails fun _ _ => .bind SafeMath.add_fails fun _ _ => ?_
    exact .bind rayMul_fails fun _ _ => .bind SafeMath.add_fails fun _ _ => .pure _
  case isFalse =>
    refine .bind (rayDiv_fails hoptimal.ne') fun _ _ => .bind rayMul_fails fun _ _ => ?_
    refine .bind SafeMath.add_fails fun _ _ => .bind rayMul_fails fun _ _ => ?_
    exact .bind (rayDiv_fails hoptimal.ne') fun _ _ => .bind SafeMath.add_fails fun _ _ => .pure _

/-- Up to a reserve factor of one hundred percent only an overflow stops the strategy. -/
theorem calculateInterestRates_fails (hoptimal : 0 < s.optimalUtilizationRate)
    (hlt : s.optimalUtilizationRate < ray) (hfactor : factor ≤ PercentageMath.percentageFactor) :
    FailsOnly Revert.IsOverflow
      (s.calculateInterestRates market cash stableDebt variableDebt avgRate factor) := by
  refine .bind SafeMath.add_fails fun _ _ => .bind utilizationRate_fails fun _ _ => ?_
  refine .bind (borrowRates_fails hoptimal hlt) fun _ _ => ?_
  refine .bind getOverallBorrowRate_fails fun _ _ => .bind rayMul_fails fun _ _ => ?_
  refine .bind (SafeMath.sub_fails hfactor) fun _ _ => ?_
  exact .bind PercentageMath.percentMul_fails fun _ _ => .pure _

theorem factor_le_of_calculateInterestRates (h : s.calculateInterestRates market cash stableDebt
    variableDebt avgRate factor = .ok rates) : factor ≤ PercentageMath.percentageFactor := by
  simp only [calculateInterestRates, bind_ok, SafeMath.sub_ok] at h
  obtain ⟨_, -, _, -, _, -, _, -, _, -, _, ⟨hle, -⟩, -⟩ := h
  exact hle

end DefaultReserveInterestRateStrategy

end Moola
