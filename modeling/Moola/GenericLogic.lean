import Moola.ReserveLogic

/-! GenericLogic: what a user owns and owes over all listed reserves, at the prices
of the oracle, and whether a collateral balance may shrink. -/

namespace Moola

open Guard WadRayMath PercentageMath

/-- `10**decimals`, which the language computes without an overflow check. -/
def tokenUnit (decimals : ℕ) : ℕ := 10 ^ decimals % 2 ^ 256

namespace GenericLogic

def healthFactorLiquidationThreshold : ℕ := 10 ^ 18

def valueOf (price amount decimals : ℕ) : Tx ℕ := do
  let product ← SafeMath.mul price amount
  SafeMath.div product (tokenUnit decimals)

structure AccountTotals where
  totalCollateralInETH : ℕ
  totalDebtInETH : ℕ
  avgLtv : ℕ
  avgLiquidationThreshold : ℕ

structure AccountData where
  totalCollateralInETH : ℕ
  totalDebtInETH : ℕ
  avgLtv : ℕ
  avgLiquidationThreshold : ℕ
  healthFactor : ℕ

def calculateHealthFactorFromBalances (totalCollateralInETH totalDebtInETH
    liquidationThreshold : ℕ) : Tx ℕ := do
  if totalDebtInETH = 0 then return maxUint256
  else
    let adjusted ← percentMul totalCollateralInETH liquidationThreshold
    wadDiv adjusted totalDebtInETH

variable (env : Env) (w : World)

def addCollateral (r : Reserve) (price : ℕ) (user : Address) (vars : AccountTotals) :
    Tx AccountTotals := do
  let compoundedLiquidityBalance ← AToken.balanceOf w.impl env.timestamp r user
  let liquidityBalanceETH ←
    valueOf price compoundedLiquidityBalance r.data.configuration.getDecimals
  let totalCollateralInETH ← SafeMath.add vars.totalCollateralInETH liquidityBalanceETH
  let ltvPart ← SafeMath.mul liquidityBalanceETH r.data.configuration.getLtv
  let avgLtv ← SafeMath.add vars.avgLtv ltvPart
  let thresholdPart ←
    SafeMath.mul liquidityBalanceETH r.data.configuration.getLiquidationThreshold
  let avgLiquidationThreshold ← SafeMath.add vars.avgLiquidationThreshold thresholdPart
  return { vars with totalCollateralInETH, avgLtv, avgLiquidationThreshold }

def addDebt (r : Reserve) (price : ℕ) (user : Address) (vars : AccountTotals) :
    Tx AccountTotals := do
  let stable ← StableDebtToken.balanceOf env.timestamp r user
  let variableDebt ← VariableDebtToken.balanceOf w.impl env.timestamp r user
  let compoundedBorrowBalance ← SafeMath.add stable variableDebt
  let debtETH ← valueOf price compoundedBorrowBalance r.data.configuration.getDecimals
  let totalDebtInETH ← SafeMath.add vars.totalDebtInETH debtETH
  return { vars with totalDebtInETH }

/-- One iteration of the loop of `calculateUserAccountData`. -/
def accountStep (user : Address) (i : ℕ) (vars : AccountTotals) : Tx AccountTotals := do
  let userConfig := w.usersConfig user
  let used ← userConfig.isUsingAsCollateralOrBorrowing i
  if used = false then return vars
  else
    let currentReserveAddress := w.reservesList i
    let r := w.reserves currentReserveAddress
    let price := env.getAssetPrice currentReserveAddress
    let collateral ← userConfig.isUsingAsCollateral i
    let vars ← applyIf (r.data.configuration.getLiquidationThreshold ≠ 0 ∧ collateral = true)
      (addCollateral env w r price user) vars
    let borrowing ← userConfig.isBorrowing i
    applyIf (borrowing = true) (addDebt env w r price user) vars

def accountTotals (user : Address) : ℕ → Tx AccountTotals
  | 0 => .ok ⟨0, 0, 0, 0⟩
  | n + 1 => do
    let vars ← accountTotals user n
    accountStep env w user n vars

def calculateUserAccountData (user : Address) : Tx AccountData := do
  if (w.usersConfig user).isEmpty then return ⟨0, 0, 0, 0, maxUint256⟩
  else
    let vars ← accountTotals env w user w.reservesCount
    let avgLtv := vars.avgLtv / vars.totalCollateralInETH
    let avgLiquidationThreshold := vars.avgLiquidationThreshold / vars.totalCollateralInETH
    let healthFactor ← calculateHealthFactorFromBalances vars.totalCollateralInETH
      vars.totalDebtInETH avgLiquidationThreshold
    return ⟨vars.totalCollateralInETH, vars.totalDebtInETH, avgLtv, avgLiquidationThreshold,
      healthFactor⟩

def healthFactorAfterDecrease (data : AccountData) (amountToDecreaseInETH
    liquidationThreshold : ℕ) : Tx Bool := do
  let collateralBalanceAfterDecrease ←
    SafeMath.sub data.totalCollateralInETH amountToDecreaseInETH
  if collateralBalanceAfterDecrease = 0 then return false
  else
    let weighted ← SafeMath.mul data.totalCollateralInETH data.avgLiquidationThreshold
    let removed ← SafeMath.mul amountToDecreaseInETH liquidationThreshold
    let rest ← SafeMath.sub weighted removed
    let liquidationThresholdAfterDecrease ← SafeMath.div rest collateralBalanceAfterDecrease
    let healthFactor ← calculateHealthFactorFromBalances collateralBalanceAfterDecrease
      data.totalDebtInETH liquidationThresholdAfterDecrease
    return decide (healthFactorLiquidationThreshold ≤ healthFactor)

def balanceDecreaseAllowed (asset user : Address) (amount : ℕ) : Tx Bool := do
  let userConfig := w.usersConfig user
  let r := w.reserves asset
  if userConfig.isBorrowingAny = false then return true
  else
    let collateral ← userConfig.isUsingAsCollateral r.data.id
    let liquidationThreshold := r.data.configuration.getLiquidationThreshold
    if collateral = false ∨ liquidationThreshold = 0 then return true
    else
      let data ← calculateUserAccountData env w user
      if data.totalDebtInETH = 0 then return true
      else
        let amountToDecreaseInETH ←
          valueOf (env.getAssetPrice asset) amount r.data.configuration.getDecimals
        healthFactorAfterDecrease data amountToDecreaseInETH liquidationThreshold

def calculateAvailableBorrowsETH (totalCollateralInETH totalDebtInETH ltv : ℕ) : Tx ℕ := do
  let availableBorrowsETH ← percentMul totalCollateralInETH ltv
  if availableBorrowsETH < totalDebtInETH then return 0
  else SafeMath.sub availableBorrowsETH totalDebtInETH

variable {env w} {user : Address} {price amount decimals v : ℕ}

@[simp] theorem valueOf_ok : valueOf price amount decimals = .ok v ↔
    price * amount ≤ maxUint256 ∧ 0 < tokenUnit decimals ∧
      price * amount / tokenUnit decimals = v := by
  simp only [valueOf, bind_ok, SafeMath.mul_ok, SafeMath.div_ok]
  constructor
  · rintro ⟨_, ⟨hmax, rfl⟩, hpos, rfl⟩
    exact ⟨hmax, hpos, rfl⟩
  · rintro ⟨hmax, hpos, rfl⟩
    exact ⟨_, ⟨hmax, rfl⟩, hpos, rfl⟩

end GenericLogic

end Moola
