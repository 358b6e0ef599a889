import Moola.Types

/-! The indexes of a reserve as its tokens read them: `getNormalizedIncome` and
`getNormalizedDebt` of ReserveLogic, and of ReserveLogicNoInterest, which the pool
for the loss write-off is compiled with. -/

namespace Moola

open Guard WadRayMath

namespace ReserveLogic

def getNormalizedIncome (reserve : ReserveData) (now : ℕ) : Tx ℕ :=
  if reserve.lastUpdateTimestamp = uint40 now then .ok reserve.liquidityIndex
  else do
    let interest ← MathUtils.calculateLinearInterest reserve.currentLiquidityRate
      reserve.lastUpdateTimestamp now
    rayMul interest reserve.liquidityIndex

def getNormalizedDebt (reserve : ReserveData) (now : ℕ) : Tx ℕ :=
  if reserve.lastUpdateTimestamp = uint40 now then .ok reserve.variableBorrowIndex
  else do
    let interest ← MathUtils.calculateCompoundedInterest reserve.currentVariableBorrowRate
      reserve.lastUpdateTimestamp now
    rayMul interest reserve.variableBorrowIndex

end ReserveLogic

namespace ReserveLogicNoInterest

def getNormalizedIncome (reserve : ReserveData) (_now : ℕ) : Tx ℕ := .ok reserve.liquidityIndex

def getNormalizedDebt (reserve : ReserveData) (_now : ℕ) : Tx ℕ := .ok reserve.variableBorrowIndex

end ReserveLogicNoInterest

namespace LendingPool

def getReserveNormalizedIncome (impl : PoolImpl) (reserve : ReserveData) (now : ℕ) : Tx ℕ :=
  match impl with
  | .withUpdateLiquidityIndex => ReserveLogicNoInterest.getNormalizedIncome reserve now
  | _ => ReserveLogic.getNormalizedIncome reserve now

def getReserveNormalizedVariableDebt (impl : PoolImpl) (reserve : ReserveData) (now : ℕ) :
    Tx ℕ :=
  match impl with
  | .withUpdateLiquidityIndex => ReserveLogicNoInterest.getNormalizedDebt reserve now
  | _ => ReserveLogic.getNormalizedDebt reserve now

variable {impl : PoolImpl} {reserve : ReserveData} {now : ℕ}

theorem getReserveNormalizedIncome_fresh (h : reserve.lastUpdateTimestamp = uint40 now) :
    getReserveNormalizedIncome impl reserve now = .ok reserve.liquidityIndex := by
  cases impl <;> simp [getReserveNormalizedIncome, ReserveLogic.getNormalizedIncome,
    ReserveLogicNoInterest.getNormalizedIncome, h]

theorem getReserveNormalizedVariableDebt_fresh (h : reserve.lastUpdateTimestamp = uint40 now) :
    getReserveNormalizedVariableDebt impl reserve now = .ok reserve.variableBorrowIndex := by
  cases impl <;> simp [getReserveNormalizedVariableDebt, ReserveLogic.getNormalizedDebt,
    ReserveLogicNoInterest.getNormalizedDebt, h]

theorem getReserveNormalizedIncome_fails (h : reserve.lastUpdateTimestamp ≤ now) :
    FailsOnly Revert.IsOverflow (getReserveNormalizedIncome impl reserve now) := by
  have haccrues : FailsOnly Revert.IsOverflow (ReserveLogic.getNormalizedIncome reserve now) := by
    unfold ReserveLogic.getNormalizedIncome
    split
    case isTrue => exact .ok _
    case isFalse =>
      exact .bind (MathUtils.calculateLinearInterest_fails h) fun _ _ => rayMul_fails
  cases impl
  case withUpdateLiquidityIndex => exact .ok _
  all_goals exact haccrues

theorem getReserveNormalizedVariableDebt_fails (h : reserve.lastUpdateTimestamp ≤ now) :
    FailsOnly Revert.IsOverflow (getReserveNormalizedVariableDebt impl reserve now) := by
  have haccrues : FailsOnly Revert.IsOverflow (ReserveLogic.getNormalizedDebt reserve now) := by
    unfold ReserveLogic.getNormalizedDebt
    split
    case isTrue => exact .ok _
    case isFalse =>
      exact .bind (MathUtils.calculateCompoundedInterest_fails h) fun _ _ => rayMul_fails
  cases impl
  case withUpdateLiquidityIndex => exact .ok _
  all_goals exact haccrues

end LendingPool

end Moola
