import Moola.LendingPool

/-! The two collateral managers that the pool delegates a liquidation to. The one
with reserve sends a part of the collateral to the treasury and clears the
collateral flag before it moves anything. Both are compiled with ReserveLogic. -/

namespace Moola

open Guard WadRayMath PercentageMath

namespace CollateralManager

def liquidationCloseFactorPercent : ℕ := 5000

def liquidationReservePercent : ℕ := 200

variable (env : Env) (w : World)

/-- `_calculateAvailableCollateralToLiquidate` up to the treasury part: the collateral
and the debt it covers, at a given bonus. -/
def availableCollateral (collateralAsset debtAsset : Address)
    (bonus debtToCover userCollateralBalance : ℕ) : Tx (ℕ × ℕ) := do
  let collateralPrice := env.getAssetPrice collateralAsset
  let debtAssetPrice := env.getAssetPrice debtAsset
  let collateralUnit := tokenUnit (w.reserves collateralAsset).data.configuration.getDecimals
  let debtUnit := tokenUnit (w.reserves debtAsset).data.configuration.getDecimals
  let debtValue ← SafeMath.mul debtAssetPrice debtToCover
  let scaledValue ← SafeMath.mul debtValue collateralUnit
  let withBonus ← percentMul scaledValue bonus
  let divisor ← SafeMath.mul collateralPrice debtUnit
  let maxAmountCollateralToLiquidate ← SafeMath.div withBonus divisor
  if maxAmountCollateralToLiquidate > userCollateralBalance then
    let value ← SafeMath.mul collateralPrice userCollateralBalance
    let scaledValue ← SafeMath.mul value debtUnit
    let divisor ← SafeMath.mul debtAssetPrice collateralUnit
    let quotient ← SafeMath.div scaledValue divisor
    let debtAmountNeeded ← percentDiv quotient bonus
    return (userCollateralBalance, debtAmountNeeded)
  else return (maxAmountCollateralToLiquidate, debtToCover)

structure AvailableCollateral where
  collateralAmount : ℕ
  debtAmountNeeded : ℕ
  collateralReserveAmount : ℕ

def calculateAvailableCollateralToLiquidate (manager : CollateralManager)
    (collateralAsset debtAsset : Address) (debtToCover userCollateralBalance : ℕ) :
    Tx AvailableCollateral := do
  let liquidationBonus :=
    (w.reserves collateralAsset).data.configuration.getLiquidationBonus
  match manager with
  | .lendingPoolCollateralManager =>
    let (collateral, debt) ← availableCollateral env w collateralAsset debtAsset
      liquidationBonus debtToCover userCollateralBalance
    return ⟨collateral, debt, 0⟩
  | .lendingPoolCollateralManagerWithReserve =>
    let bonus ← SafeMath.add liquidationBonus liquidationReservePercent
    let (collateral, debt) ← availableCollateral env w collateralAsset debtAsset bonus
      debtToCover userCollateralBalance
    let product ← SafeMath.mul collateral liquidationReservePercent
    let collateralReserveAmount ← SafeMath.div product bonus
    return ⟨collateral, debt, collateralReserveAmount⟩

/-- What a liquidation has decided before it changes any state. -/
structure Liquidation where
  userVariableDebt : ℕ
  actualDebtToLiquidate : ℕ
  userCollateralBalance : ℕ
  maxCollateralToLiquidate : ℕ
  collateralReserveAmount : ℕ

def liquidationAmounts (manager : CollateralManager) (collateralAsset debtAsset user : Address)
    (debtToCover userStableDebt userVariableDebt : ℕ) : Tx Liquidation := do
  let userCollateralBalance ←
    AToken.balanceOf w.impl env.timestamp (w.reserves collateralAsset) user
  let totalDebt ← SafeMath.add userStableDebt userVariableDebt
  let maxLiquidatableDebt ← percentMul totalDebt liquidationCloseFactorPercent
  let debtToLiquidate := if debtToCover > maxLiquidatableDebt then maxLiquidatableDebt
    else debtToCover
  let available ← calculateAvailableCollateralToLiquidate env w manager collateralAsset debtAsset
    debtToLiquidate userCollateralBalance
  let actualDebtToLiquidate := if available.debtAmountNeeded < debtToLiquidate
    then available.debtAmountNeeded else debtToLiquidate
  return ⟨userVariableDebt, actualDebtToLiquidate, userCollateralBalance,
    available.collateralAmount, available.collateralReserveAmount⟩

/-- The checks of a liquidation: an error code that the manager returns, or the amounts. -/
def validated (manager : CollateralManager) (collateralAsset debtAsset user : Address)
    (debtToCover : ℕ) (receiveAToken : Bool) : Tx (Except Revert Liquidation) := do
  let data ← GenericLogic.calculateUserAccountData env w user
  let (userStableDebt, userVariableDebt) ← getUserCurrentDebt env w user (w.reserves debtAsset)
  let code ← ValidationLogic.validateLiquidationCall w (w.reserves collateralAsset)
    (w.reserves debtAsset) user data.healthFactor userStableDebt userVariableDebt
  match code with
  | some code => return .error code
  | none =>
    let l ← liquidationAmounts env w manager collateralAsset debtAsset user debtToCover
      userStableDebt userVariableDebt
    let needed ← SafeMath.sub l.maxCollateralToLiquidate l.collateralReserveAmount
    if receiveAToken = false ∧ (w.reserves collateralAsset).cash < needed then
      return .error .lpcmNotEnoughLiquidityToLiquidate
    else return .ok l

def burnLiquidatedDebt (r : Reserve) (user : Address) (l : Liquidation) : Tx Reserve := do
  if l.userVariableDebt ≥ l.actualDebtToLiquidate then
    VariableDebtToken.burn r user l.actualDebtToLiquidate r.data.variableBorrowIndex
  else
    let r ← applyIf (l.userVariableDebt > 0)
      (fun r => VariableDebtToken.burn r user l.userVariableDebt r.data.variableBorrowIndex) r
    let rest ← SafeMath.sub l.actualDebtToLiquidate l.userVariableDebt
    StableDebtToken.burn env.timestamp r user rest

def liquidateDebt (debtAsset user : Address) (l : Liquidation) (r : Reserve) : Tx Reserve := do
  let r ← ReserveLogic.updateState env.timestamp r
  let r ← burnLiquidatedDebt env r user l
  ReserveLogic.updateInterestRates env debtAsset l.actualDebtToLiquidate 0 r

def seize (sender collateralAsset user : Address) (amount : ℕ) (receiveAToken : Bool) :
    Tx World := do
  if receiveAToken then
    let liquidatorPreviousATokenBalance ←
      AToken.balanceOf w.impl env.timestamp (w.reserves collateralAsset) sender
    let r ← AToken.transferOnLiquidation w.impl env.timestamp (w.reserves collateralAsset) user
      sender amount
    applyIf (liquidatorPreviousATokenBalance = 0)
      (fun w => LendingPool.setUsingAsCollateral w sender r.data.id true)
      (w.setReserve collateralAsset r)
  else
    let r ← ReserveLogic.updateState env.timestamp (w.reserves collateralAsset)
    let r ← ReserveLogic.updateInterestRates env collateralAsset 0 amount r
    let r ← AToken.burn r user sender amount r.data.liquidityIndex
    return w.setReserve collateralAsset r

def seizeForTreasury (collateralAsset user : Address) (amount : ℕ) : Tx World := do
  if amount > 0 then
    let r := w.reserves collateralAsset
    let r ← AToken.transferOnLiquidation w.impl env.timestamp r user r.aToken.treasury amount
    return w.setReserve collateralAsset r
  else return w

def clearSeizedCollateral (collateralAsset user : Address) (l : Liquidation) : Tx World :=
  applyIf (l.maxCollateralToLiquidate = l.userCollateralBalance)
    (fun w => LendingPool.setUsingAsCollateral w user (w.reserves collateralAsset).data.id false) w

def payDebt (sender debtAsset : Address) (amount : ℕ) : Tx World :=
  w.onReserve debtAsset fun r => do
    let underlying ← r.underlying.transferFrom w.self sender r.data.aTokenAddress amount
    return r.withUnderlying underlying

def liquidateCollateral (manager : CollateralManager) (sender collateralAsset user : Address)
    (l : Liquidation) (receiveAToken : Bool) : Tx World := do
  match manager with
  | .lendingPoolCollateralManager =>
    let w ← seize env w sender collateralAsset user l.maxCollateralToLiquidate receiveAToken
    clearSeizedCollateral w collateralAsset user l
  | .lendingPoolCollateralManagerWithReserve =>
    let w ← clearSeizedCollateral w collateralAsset user l
    let amount ← SafeMath.sub l.maxCollateralToLiquidate l.collateralReserveAmount
    let w ← seize env w sender collateralAsset user amount receiveAToken
    seizeForTreasury env w collateralAsset user l.collateralReserveAmount

/-- `liquidationCall` of the manager: an error code or the new state. -/
def liquidationCall (manager : CollateralManager) (sender collateralAsset debtAsset user : Address)
    (debtToCover : ℕ) (receiveAToken : Bool) : Tx (Except Revert World) := do
  let checked ← validated env w manager collateralAsset debtAsset user debtToCover receiveAToken
  match checked with
  | .error code => return .error code
  | .ok l =>
    let w ← w.onReserve debtAsset (liquidateDebt env debtAsset user l)
    let w ← liquidateCollateral env w manager sender collateralAsset user l receiveAToken
    let w ← payDebt w sender debtAsset l.actualDebtToLiquidate
    return .ok w

variable {env w} {w' : World} {sender collateralAsset debtAsset user : Address} {amount : ℕ}
  {receiveAToken : Bool} {l : Liquidation} {r r' : Reserve} {manager : CollateralManager}

theorem liquidateDebt_ok (h : liquidateDebt env debtAsset user l r = .ok r') : ∃ r₁ r₂,
    ReserveLogic.updateState env.timestamp r = .ok r₁ ∧
    burnLiquidatedDebt env r₁ user l = .ok r₂ ∧
    ReserveLogic.updateInterestRates env debtAsset l.actualDebtToLiquidate 0 r₂ = .ok r' := by
  simp only [liquidateDebt, bind_ok] at h
  obtain ⟨r₁, h₁, r₂, h₂, h₃⟩ := h
  exact ⟨r₁, r₂, h₁, h₂, h₃⟩

theorem burnLiquidatedDebt_ok (h : burnLiquidatedDebt env r user l = .ok r') :
    l.actualDebtToLiquidate ≤ l.userVariableDebt ∧
        VariableDebtToken.burn r user l.actualDebtToLiquidate r.data.variableBorrowIndex =
          .ok r' ∨
      l.userVariableDebt < l.actualDebtToLiquidate ∧ ∃ r₁,
        applyIf (l.userVariableDebt > 0) (fun r => VariableDebtToken.burn r user
          l.userVariableDebt r.data.variableBorrowIndex) r = .ok r₁ ∧
        StableDebtToken.burn env.timestamp r₁ user
          (l.actualDebtToLiquidate - l.userVariableDebt) = .ok r' := by
  unfold burnLiquidatedDebt at h
  split at h
  case isTrue hle => exact .inl ⟨hle, h⟩
  case isFalse hlt =>
    simp only [bind_ok, SafeMath.sub_ok] at h
    obtain ⟨r₁, h₁, _, ⟨-, rfl⟩, h₂⟩ := h
    exact .inr ⟨by omega, r₁, h₁, h₂⟩

theorem seize_ok (h : seize env w sender collateralAsset user amount receiveAToken = .ok w') :
    receiveAToken = true ∧ (∃ balance r,
        AToken.transferOnLiquidation w.impl env.timestamp (w.reserves collateralAsset) user
          sender amount = .ok r ∧
        applyIf (balance = 0)
          (fun w => LendingPool.setUsingAsCollateral w sender r.data.id true)
          (w.setReserve collateralAsset r) = .ok w') ∨
      receiveAToken = false ∧ ∃ r₁ r₂ r₃,
        ReserveLogic.updateState env.timestamp (w.reserves collateralAsset) = .ok r₁ ∧
        ReserveLogic.updateInterestRates env collateralAsset 0 amount r₁ = .ok r₂ ∧
        AToken.burn r₂ user sender amount r₂.data.liquidityIndex = .ok r₃ ∧
        w' = w.setReserve collateralAsset r₃ := by
  unfold seize at h
  split at h
  case isTrue ht =>
    simp only [bind_ok] at h
    obtain ⟨balance, -, r, hr, h⟩ := h
    exact .inl ⟨ht, balance, r, hr, h⟩
  case isFalse hf =>
    simp only [bind_ok, pure_ok] at h
    obtain ⟨r₁, h₁, r₂, h₂, r₃, h₃, rfl⟩ := h
    exact .inr ⟨by simpa using hf, r₁, r₂, r₃, h₁, h₂, h₃, rfl⟩

theorem seizeForTreasury_ok (h : seizeForTreasury env w collateralAsset user amount = .ok w') :
    0 < amount ∧ (∃ r, AToken.transferOnLiquidation w.impl env.timestamp
        (w.reserves collateralAsset) user (w.reserves collateralAsset).aToken.treasury amount =
          .ok r ∧ w' = w.setReserve collateralAsset r) ∨
      amount = 0 ∧ w' = w := by
  unfold seizeForTreasury at h
  split at h
  case isTrue hpos =>
    simp only [bind_ok, pure_ok] at h
    obtain ⟨r, hr, rfl⟩ := h
    exact .inl ⟨hpos, r, hr, rfl⟩
  case isFalse hz => exact .inr ⟨by omega, (pure_ok.mp h).symm⟩

theorem payDebt_ok (h : payDebt w sender debtAsset amount = .ok w') : ∃ t,
    (w.reserves debtAsset).underlying.transferFrom w.self sender
      (w.reserves debtAsset).data.aTokenAddress amount = .ok t ∧
    w' = w.setReserve debtAsset ((w.reserves debtAsset).withUnderlying t) := by
  simp only [payDebt, World.onReserve_ok, bind_ok, pure_ok] at h
  obtain ⟨_, ⟨t, ht, rfl⟩, rfl⟩ := h
  exact ⟨t, ht, rfl⟩

/-- Either manager seizes, clears the flag of the user before or after that, and may send
a part to the treasury. -/
theorem liquidateCollateral_ok
    (h : liquidateCollateral env w manager sender collateralAsset user l receiveAToken = .ok w') :
    ∃ amount w₁ w₂ w₃,
      clearSeizedCollateral w collateralAsset user l = .ok w₁ ∧
        seize env w₁ sender collateralAsset user amount receiveAToken = .ok w₂ ∧
        seizeForTreasury env w₂ collateralAsset user l.collateralReserveAmount = .ok w' ∧
        l.collateralReserveAmount ≤ l.maxCollateralToLiquidate ∧
        amount = l.maxCollateralToLiquidate - l.collateralReserveAmount ∨
      w₁ = w ∧ amount = l.maxCollateralToLiquidate ∧
        seize env w₁ sender collateralAsset user amount receiveAToken = .ok w₃ ∧
        clearSeizedCollateral w₃ collateralAsset user l = .ok w' := by
  unfold liquidateCollateral at h
  cases manager
  case lendingPoolCollateralManager =>
    simp only [bind_ok] at h
    obtain ⟨w₃, h₁, h₂⟩ := h
    exact ⟨_, w, w, w₃, .inr ⟨rfl, rfl, h₁, h₂⟩⟩
  case lendingPoolCollateralManagerWithReserve =>
    simp only [bind_ok, SafeMath.sub_ok] at h
    obtain ⟨w₁, h₁, _, ⟨hle, rfl⟩, w₂, h₂, h₃⟩ := h
    exact ⟨_, w₁, w₂, w, .inl ⟨h₁, h₂, h₃, hle, rfl⟩⟩

theorem liquidationCall_ok {debtToCover : ℕ} (h : liquidationCall env w manager sender
    collateralAsset debtAsset user debtToCover receiveAToken = .ok (.ok w')) :
    ∃ l w₁ w₂,
      validated env w manager collateralAsset debtAsset user debtToCover receiveAToken =
        .ok (.ok l) ∧
      w.onReserve debtAsset (liquidateDebt env debtAsset user l) = .ok w₁ ∧
      liquidateCollateral env w₁ manager sender collateralAsset user l receiveAToken = .ok w₂ ∧
      payDebt w₂ sender debtAsset l.actualDebtToLiquidate = .ok w' := by
  unfold liquidationCall at h
  obtain ⟨checked, hchecked, h⟩ := bind_ok.mp h
  cases checked with
  | error code =>
    rw [pure_ok] at h
    cases h
  | ok l =>
    obtain ⟨w₁, h₁, h⟩ := bind_ok.mp h
    obtain ⟨w₂, h₂, h⟩ := bind_ok.mp h
    obtain ⟨w₃, h₃, h⟩ := bind_ok.mp h
    rw [pure_ok, Except.ok.injEq] at h
    exact ⟨l, w₁, w₂, hchecked, h₁, h₂, h ▸ h₃⟩

end CollateralManager

namespace LendingPool

/-- The call is delegated; a failure inside loses its reason, a returned code keeps it. -/
def liquidationCall (env : Env) (w : World) (sender collateralAsset debtAsset user : Address)
    (debtToCover : ℕ) (receiveAToken : Bool) : Tx World := do
  whenNotPaused w
  disabledDuringGracePeriod w
  match CollateralManager.liquidationCall env w env.collateralManager sender collateralAsset
    debtAsset user debtToCover receiveAToken with
  | .error _ => .error .lpLiquidationCallFailed
  | .ok (.error code) => .error code
  | .ok (.ok w) => .ok w

theorem liquidationCall_ok {env : Env} {w w' : World}
    {sender collateralAsset debtAsset user : Address} {debtToCover : ℕ} {receiveAToken : Bool}
    (h : liquidationCall env w sender collateralAsset debtAsset user debtToCover receiveAToken =
      .ok w') :
    CollateralManager.liquidationCall env w env.collateralManager sender collateralAsset debtAsset
      user debtToCover receiveAToken = .ok (.ok w') := by
  simp only [liquidationCall, bind_ok, exists_unit] at h
  obtain ⟨-, -, h⟩ := h
  split at h
  case h_1 => cases h
  case h_2 => cases h
  case h_3 he => rw [he, Except.ok.inj h]

end LendingPool

end Moola
