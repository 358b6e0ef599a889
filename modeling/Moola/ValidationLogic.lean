import Moola.GenericLogic

/-! ValidationLogic: the checks at the head of every operation of the pool. -/

namespace Moola

open Guard WadRayMath PercentageMath

def getUserCurrentDebt (env : Env) (w : World) (user : Address) (r : Reserve) : Tx (ℕ × ℕ) := do
  let stableDebt ← StableDebtToken.balanceOf env.timestamp r user
  let variableDebt ← VariableDebtToken.balanceOf w.impl env.timestamp r user
  return (stableDebt, variableDebt)

namespace ValidationLogic

def rebalanceUpLiquidityRateThreshold : ℕ := 4000

def rebalanceUpUsageRatioThreshold : ℕ := 95 * 10 ^ 25

variable (env : Env) (w : World)

def validateDeposit (r : Reserve) (amount : ℕ) : Tx Unit := do
  require (amount ≠ 0) .vlInvalidAmount
  require (r.data.configuration.getActive = true) .vlNoActiveReserve
  require (r.data.configuration.getFrozen = false) .vlReserveFrozen

def validateWithdraw (asset sender : Address) (amount userBalance : ℕ) : Tx Unit := do
  require (amount ≠ 0) .vlInvalidAmount
  require (amount ≤ userBalance) .vlNotEnoughAvailableUserBalance
  require ((w.reserves asset).data.configuration.getActive = true) .vlNoActiveReserve
  let allowed ← GenericLogic.balanceDecreaseAllowed env w asset sender amount
  require (allowed = true) .vlTransferNotAllowed

/-- A reserve that backs the loan with its own currency: used as collateral, with a
nonzero ltv, and with a balance of at least the loan. -/
def requireOtherCollateral (r : Reserve) (user : Address) (amount : ℕ) : Tx Unit := do
  let collateral ← (w.usersConfig user).isUsingAsCollateral r.data.id
  if collateral = false ∨ r.data.configuration.getLtv = 0 then return ()
  else
    let balance ← AToken.balanceOf w.impl env.timestamp r user
    require (balance < amount) .vlCollateralSameAsBorrowingCurrency

def validateStableBorrow (r : Reserve) (user : Address) (amount : ℕ) : Tx Unit := do
  require (r.data.configuration.getStableRateBorrowingEnabled = true) .vlStableBorrowingNotEnabled
  requireOtherCollateral env w r user amount
  let maxLoanSizeStable ← percentMul r.cash World.maxStableRateBorrowSizePercent
  require (amount ≤ maxLoanSizeStable) .vlAmountBiggerThanMaxLoanSizeStable

/-- The collateral check of `validateBorrow` for a loan of value `x`. -/
def checkCollateral (totalCollateralInETH totalDebtInETH ltv x : ℕ) : Tx Unit := do
  let borrowed ← SafeMath.add totalDebtInETH x
  let amountOfCollateralNeededETH ← percentDiv borrowed ltv
  require (amountOfCollateralNeededETH ≤ totalCollateralInETH) .vlCollateralCannotCoverNewBorrow

def validateBorrow (asset user : Address) (amount amountInETH interestRateMode : ℕ) :
    Tx Unit := do
  let r := w.reserves asset
  require (r.data.configuration.getActive = true) .vlNoActiveReserve
  require (r.data.configuration.getFrozen = false) .vlReserveFrozen
  require (amount ≠ 0) .vlInvalidAmount
  require (r.data.configuration.getBorrowingEnabled = true) .vlBorrowingNotEnabled
  require (interestRateMode = 2 ∨ interestRateMode = 1) .vlInvalidInterestRateModeSelected
  let data ← GenericLogic.calculateUserAccountData env w user
  require (0 < data.totalCollateralInETH) .vlCollateralBalanceIs0
  require (GenericLogic.healthFactorLiquidationThreshold < data.healthFactor)
    .vlHealthFactorLowerThanLiquidationThreshold
  checkCollateral data.totalCollateralInETH data.totalDebtInETH data.avgLtv amountInETH
  if interestRateMode = 1 then validateStableBorrow env w r user amount
  else return ()

def validateRepay (r : Reserve) (sender : Address) (amountSent : ℕ) (rateMode : InterestRateMode)
    (onBehalfOf : Address) (stableDebt variableDebt : ℕ) : Tx Unit := do
  require (r.data.configuration.getActive = true) .vlNoActiveReserve
  require (0 < amountSent) .vlInvalidAmount
  require (0 < stableDebt ∧ rateMode = .stable ∨ 0 < variableDebt ∧ rateMode = .variable)
    .vlNoDebtOfSelectedType
  require (amountSent ≠ maxUint256 ∨ sender = onBehalfOf) .vlNoExplicitAmountToRepayOnBehalf

def validateSwapRateMode (r : Reserve) (sender : Address) (stableDebt variableDebt : ℕ)
    (currentRateMode : InterestRateMode) : Tx Unit := do
  require (r.data.configuration.getActive = true) .vlNoActiveReserve
  require (r.data.configuration.getFrozen = false) .vlReserveFrozen
  match currentRateMode with
  | .stable => require (0 < stableDebt) .vlNoStableRateLoanInReserve
  | .variable =>
    require (0 < variableDebt) .vlNoVariableRateLoanInReserve
    require (r.data.configuration.getStableRateBorrowingEnabled = true)
      .vlStableBorrowingNotEnabled
    let debt ← SafeMath.add stableDebt variableDebt
    requireOtherCollateral env w r sender debt
  | .none => .error .vlInvalidInterestRateModeSelected

def usageRatio (totalDebt availableLiquidity : ℕ) : Tx ℕ := do
  if totalDebt = 0 then return 0
  else
    let total ← SafeMath.add availableLiquidity totalDebt
    rayDiv totalDebt total

def validateRebalanceStableBorrowRate (r : Reserve) : Tx Unit := do
  require (r.data.configuration.getActive = true) .vlNoActiveReserve
  let stableSupply ← StableDebtToken.totalSupply env.timestamp r
  let variableSupply ← VariableDebtToken.totalSupply w.impl env.timestamp r
  let sum ← SafeMath.add stableSupply variableSupply
  let totalDebt ← wadToRay sum
  let availableLiquidity ← wadToRay r.cash
  let usage ← usageRatio totalDebt availableLiquidity
  match env.strategy r.data.interestRateStrategyAddress with
  | none => .error .notAContract
  | some strategy =>
    let maxVariableBorrowRate ← strategy.getMaxVariableBorrowRate
    require (rebalanceUpUsageRatioThreshold ≤ usage)
      .lpInterestRateRebalanceConditionsNotMet
    let threshold ← percentMul maxVariableBorrowRate rebalanceUpLiquidityRateThreshold
    require (r.data.currentLiquidityRate ≤ threshold) .lpInterestRateRebalanceConditionsNotMet

def validateSetUseReserveAsCollateral (asset sender : Address) (useAsCollateral : Bool) :
    Tx Unit := do
  let underlyingBalance ← AToken.balanceOf w.impl env.timestamp (w.reserves asset) sender
  require (0 < underlyingBalance) .vlUnderlyingBalanceNotGreaterThan0
  if useAsCollateral = true then return ()
  else
    let allowed ← GenericLogic.balanceDecreaseAllowed env w asset sender underlyingBalance
    require (allowed = true) .vlDepositAlreadyInUse

def isCollateralEnabled (collateralReserve : Reserve) (user : Address) : Tx Bool :=
  if collateralReserve.data.configuration.getLiquidationThreshold > 0 then
    (w.usersConfig user).isUsingAsCollateral collateralReserve.data.id
  else .ok false

/-- The error code that `validateLiquidationCall` returns, if it returns one. -/
def validateLiquidationCall (collateralReserve principalReserve : Reserve) (user : Address)
    (userHealthFactor userStableDebt userVariableDebt : ℕ) : Tx (Option Revert) := do
  if collateralReserve.data.configuration.getActive = false ∨
      principalReserve.data.configuration.getActive = false then
    return some .vlNoActiveReserve
  else if GenericLogic.healthFactorLiquidationThreshold ≤ userHealthFactor then
    return some .lpcmHealthFactorNotBelowThreshold
  else
    let collateral ← isCollateralEnabled w collateralReserve user
    if collateral = false then return some .lpcmCollateralCannotBeLiquidated
    else if userStableDebt = 0 ∧ userVariableDebt = 0 then
      return some .lpcmSpecifiedCurrencyNotBorrowedByUser
    else return none

def validateTransfer (user : Address) : Tx Unit := do
  let data ← GenericLogic.calculateUserAccountData env w user
  require (GenericLogic.healthFactorLiquidationThreshold ≤ data.healthFactor)
    .vlTransferNotAllowed

end ValidationLogic

end Moola
