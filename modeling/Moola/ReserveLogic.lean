import Moola.RateStrategy
import Moola.StableDebt

/-! ReserveLogic: accrual of the indexes, the share of the treasury, and the rates
after an operation. The variant without interest differs in one argument. -/

namespace Moola

open Guard WadRayMath

namespace ReserveLogic

/-- The variable part of `_updateIndexes`. The liquidity rate might come from stable
loans only, so there must be variable debt before its index accrues. -/
def cumulateVariableBorrowIndex (reserve : ReserveData) (scaledVariableDebt timestamp now : ℕ) :
    Tx ReserveData := do
  if scaledVariableDebt ≠ 0 then
    let cumulatedVariableBorrowInterest ←
      MathUtils.calculateCompoundedInterest reserve.currentVariableBorrowRate timestamp now
    let newVariableBorrowIndex ←
      rayMul cumulatedVariableBorrowInterest reserve.variableBorrowIndex
    require (newVariableBorrowIndex ≤ maxUint128) .rlVariableBorrowIndexOverflow
    return { reserve with variableBorrowIndex := newVariableBorrowIndex }
  else return reserve

def cumulateIndexes (reserve : ReserveData) (scaledVariableDebt timestamp now : ℕ) :
    Tx ReserveData := do
  let cumulatedLiquidityInterest ←
    MathUtils.calculateLinearInterest reserve.currentLiquidityRate timestamp now
  let newLiquidityIndex ← rayMul cumulatedLiquidityInterest reserve.liquidityIndex
  require (newLiquidityIndex ≤ maxUint128) .rlLiquidityIndexOverflow
  cumulateVariableBorrowIndex { reserve with liquidityIndex := newLiquidityIndex }
    scaledVariableDebt timestamp now

/-- `_updateIndexes`; the caller passes the time from which interest accrues. -/
def updateIndexes (reserve : ReserveData) (scaledVariableDebt timestamp now : ℕ) :
    Tx ReserveData := do
  if reserve.currentLiquidityRate > 0 then
    let reserve ← cumulateIndexes reserve scaledVariableDebt timestamp now
    return { reserve with lastUpdateTimestamp := uint40 now }
  else return { reserve with lastUpdateTimestamp := uint40 now }

def treasuryShare (now : ℕ) (r : Reserve) (scaledVariableDebt previousVariableBorrowIndex
    newVariableBorrowIndex timestamp reserveFactor : ℕ) : Tx ℕ := do
  let stable ← StableDebtToken.getSupplyData now r
  let previousVariableDebt ← rayMul scaledVariableDebt previousVariableBorrowIndex
  let currentVariableDebt ← rayMul scaledVariableDebt newVariableBorrowIndex
  let cumulatedStableInterest ←
    MathUtils.calculateCompoundedInterest stable.avgRate stable.updatedTimestamp timestamp
  let previousStableDebt ← rayMul stable.principal cumulatedStableInterest
  let currentDebt ← SafeMath.add currentVariableDebt stable.total
  let accrued ← SafeMath.sub currentDebt previousVariableDebt
  let totalDebtAccrued ← SafeMath.sub accrued previousStableDebt
  PercentageMath.percentMul totalDebtAccrued reserveFactor

def mintToTreasury (now : ℕ) (r : Reserve) (scaledVariableDebt previousVariableBorrowIndex
    newLiquidityIndex newVariableBorrowIndex timestamp : ℕ) : Tx Reserve := do
  let reserveFactor := r.data.configuration.getReserveFactor
  if reserveFactor = 0 then return r
  else
    let amountToMint ← treasuryShare now r scaledVariableDebt previousVariableBorrowIndex
      newVariableBorrowIndex timestamp reserveFactor
    if amountToMint ≠ 0 then AToken.mintToTreasury r amountToMint newLiquidityIndex
    else return r

def updateStateFrom (accrueFrom now : ℕ) (r : Reserve) : Tx Reserve := do
  let scaledVariableDebt ← VariableDebtToken.scaledTotalSupply r
  let data ← updateIndexes r.data scaledVariableDebt accrueFrom now
  mintToTreasury now (r.withData data) scaledVariableDebt r.data.variableBorrowIndex
    data.liquidityIndex data.variableBorrowIndex r.data.lastUpdateTimestamp

def updateState (now : ℕ) (r : Reserve) : Tx Reserve :=
  updateStateFrom r.data.lastUpdateTimestamp now r

/-- The fixed income of flash loan premiums, spread over all depositors. -/
def cumulateToLiquidityIndex (r : Reserve) (totalLiquidity amount : ℕ) : Tx Reserve := do
  let amount ← wadToRay amount
  let totalLiquidity ← wadToRay totalLiquidity
  let amountToLiquidityRatio ← rayDiv amount totalLiquidity
  let result ← SafeMath.add amountToLiquidityRatio ray
  let result ← rayMul result r.data.liquidityIndex
  require (result ≤ maxUint128) .rlLiquidityIndexOverflow
  return r.withData { r.data with liquidityIndex := result }

def updateInterestRates (env : Env) (asset : Address) (liquidityAdded liquidityTaken : ℕ)
    (r : Reserve) : Tx Reserve := do
  let (totalStableDebt, avgStableRate) ←
    StableDebtToken.getTotalSupplyAndAvgRate env.timestamp r
  let scaledVariableDebt ← VariableDebtToken.scaledTotalSupply r
  let totalVariableDebt ← rayMul scaledVariableDebt r.data.variableBorrowIndex
  match env.strategy r.data.interestRateStrategyAddress with
  | none => .error .notAContract
  | some strategy =>
    let rates ← strategy.calculateInterestRatesAfter (env.getMarketBorrowRate asset) r.cash
      liquidityAdded liquidityTaken totalStableDebt totalVariableDebt avgStableRate
      r.data.configuration.getReserveFactor
    require (rates.liquidityRate ≤ maxUint128) .rlLiquidityRateOverflow
    require (rates.stableBorrowRate ≤ maxUint128) .rlStableBorrowRateOverflow
    require (rates.variableBorrowRate ≤ maxUint128) .rlVariableBorrowRateOverflow
    return r.withData (r.data.withRates rates)

/-- The indexes after an accrual over `dt` seconds: nothing accrues at a liquidity rate
of zero, and the borrow index stands still without variable debt. -/
def accruedLiquidityIndex (d : ReserveData) (dt : ℕ) : ℕ :=
  if d.currentLiquidityRate = 0 then d.liquidityIndex
  else rayProduct (MathUtils.linearFactor d.currentLiquidityRate dt) d.liquidityIndex

def accruedVariableBorrowIndex (d : ReserveData) (scaledVariableDebt dt : ℕ) : ℕ :=
  if d.currentLiquidityRate = 0 ∨ scaledVariableDebt = 0 then d.variableBorrowIndex
  else rayProduct (ray + MathUtils.compoundedExcess d.currentVariableBorrowRate dt)
    d.variableBorrowIndex

variable {d d' : ReserveData} {r r' : Reserve} {accrueFrom now scaled previous total amount : ℕ}

@[simp] theorem accruedLiquidityIndex_zero (d : ReserveData) :
    accruedLiquidityIndex d 0 = d.liquidityIndex := by
  simp [accruedLiquidityIndex]

@[simp] theorem accruedVariableBorrowIndex_zero (d : ReserveData) (scaled : ℕ) :
    accruedVariableBorrowIndex d scaled 0 = d.variableBorrowIndex := by
  simp [accruedVariableBorrowIndex]

theorem le_accruedLiquidityIndex (d : ReserveData) (dt : ℕ) :
    d.liquidityIndex ≤ accruedLiquidityIndex d dt := by
  unfold accruedLiquidityIndex
  split
  case isTrue => rfl
  case isFalse => exact le_rayProduct_left (MathUtils.ray_le_linearFactor _ _)

theorem le_accruedVariableBorrowIndex (d : ReserveData) (scaled dt : ℕ) :
    d.variableBorrowIndex ≤ accruedVariableBorrowIndex d scaled dt := by
  unfold accruedVariableBorrowIndex
  split
  case isTrue => rfl
  case isFalse => exact le_rayProduct_left (Nat.le_add_right _ _)

theorem cumulateVariableBorrowIndex_ok
    (h : cumulateVariableBorrowIndex d scaled accrueFrom now = .ok d')
    (hrate : d.currentLiquidityRate ≠ 0) :
    d' = { d with
      variableBorrowIndex := accruedVariableBorrowIndex d scaled (now - accrueFrom) } := by
  unfold cumulateVariableBorrowIndex at h
  split at h
  case isFalse hs =>
    rw [pure_ok] at h
    simp [← h, accruedVariableBorrowIndex, not_not.mp hs]
  case isTrue hs =>
    simp only [bind_ok, exists_unit, require_ok, rayMul_ok, pure_ok] at h
    obtain ⟨c, hc, V, ⟨-, rfl⟩, -, rfl⟩ := h
    obtain ⟨-, rfl⟩ := MathUtils.calculateCompoundedInterest_ok hc
    simp [accruedVariableBorrowIndex, hrate, hs]

theorem updateIndexes_ok (h : updateIndexes d scaled accrueFrom now = .ok d') :
    (d.currentLiquidityRate ≠ 0 → accrueFrom ≤ now) ∧
    d' = d.withIndexes (accruedLiquidityIndex d (now - accrueFrom))
      (accruedVariableBorrowIndex d scaled (now - accrueFrom)) (uint40 now) := by
  unfold updateIndexes at h
  split at h
  case isFalse h0 =>
    have hrate : d.currentLiquidityRate = 0 := by omega
    rw [pure_ok] at h
    refine ⟨fun h => absurd hrate h, ?_⟩
    simp [← h, ReserveData.withIndexes, accruedLiquidityIndex, accruedVariableBorrowIndex, hrate]
  case isTrue h0 =>
    have hrate : d.currentLiquidityRate ≠ 0 := by omega
    simp only [cumulateIndexes, bind_ok, exists_unit, require_ok, rayMul_ok, pure_ok] at h
    obtain ⟨d₁, ⟨f, hf, L, ⟨-, rfl⟩, -, hv⟩, rfl⟩ := h
    obtain ⟨hle, rfl⟩ := MathUtils.calculateLinearInterest_ok hf
    have hd₁ := cumulateVariableBorrowIndex_ok hv hrate
    refine ⟨fun _ => hle, ?_⟩
    simp [hd₁, ReserveData.withIndexes, accruedLiquidityIndex, accruedVariableBorrowIndex, hrate]

theorem treasuryShare_ok {s previousV newV timestamp factor share : ℕ}
    (h : treasuryShare now r s previousV newV timestamp factor = .ok share) :
    ∃ stable c, StableDebtToken.getSupplyData now r = .ok stable ∧
      MathUtils.calculateCompoundedInterest stable.avgRate stable.updatedTimestamp timestamp =
        .ok c ∧
      share = PercentageMath.percentProduct (rayProduct s newV + stable.total -
        rayProduct s previousV - rayProduct stable.principal c) factor := by
  simp only [treasuryShare, bind_ok, rayMul_ok, SafeMath.add_ok, SafeMath.sub_ok,
    PercentageMath.percentMul_ok] at h
  obtain ⟨stable, hs, _, ⟨-, rfl⟩, _, ⟨-, rfl⟩, c, hc, _, ⟨-, rfl⟩, _, ⟨-, rfl⟩, _, ⟨-, rfl⟩,
    _, ⟨-, rfl⟩, -, rfl⟩ := h
  exact ⟨stable, c, hs, hc, rfl⟩

theorem treasuryShare_fresh {s V factor share : ℕ}
    (h : treasuryShare now r s V V now factor = .ok share) : share = 0 := by
  obtain ⟨stable, c, hs, hc, rfl⟩ := treasuryShare_ok h
  have htotal : stable.total = rayProduct stable.principal c := by
    simp only [StableDebtToken.getSupplyData, bind_ok, exists_unit, pure_ok] at hs
    obtain ⟨-, total, ht, rfl⟩ := hs
    unfold StableDebtToken.calcTotalSupply at ht
    split at ht
    case isTrue h0 =>
      rw [pure_ok] at ht
      simp [← ht, h0]
    case isFalse h0 =>
      simp only [bind_ok, rayMul_ok] at ht
      obtain ⟨c', hc', -, rfl⟩ := ht
      rw [Except.ok.inj (hc'.symm.trans hc)]
  rw [htotal, show rayProduct s V + rayProduct stable.principal c - rayProduct s V -
    rayProduct stable.principal c = 0 by omega]
  simp [PercentageMath.percentProduct]

theorem mintToTreasury_ok {s previousV newL newV timestamp : ℕ}
    (h : mintToTreasury now r s previousV newL newV timestamp = .ok r') :
    ∃ minted, r' = r.withALedger (r.aToken.ledger.credit r.aToken.treasury minted) ∧
      (r.aToken.treasury = 0 → minted = 0) ∧
      (r.data.configuration.getReserveFactor = 0 ∧ minted = 0 ∨
        r.data.configuration.getReserveFactor ≠ 0 ∧ ∃ share,
          treasuryShare now r s previousV newV timestamp r.data.configuration.getReserveFactor =
            .ok share ∧ minted = rayQuotient share newL) := by
  simp only [mintToTreasury] at h
  split at h
  case isTrue h0 =>
    rw [pure_ok] at h
    exact ⟨0, by simp [← h, Reserve.withALedger], fun _ => rfl, .inl ⟨h0, rfl⟩⟩
  case isFalse h0 =>
    obtain ⟨share, hshare, h⟩ := bind_ok.mp h
    split at h
    case isFalse hz =>
      rw [pure_ok] at h
      refine ⟨0, by simp [← h, Reserve.withALedger], fun _ => rfl, .inr ⟨h0, share, hshare, ?_⟩⟩
      simp [not_not.mp hz, rayQuotient]
    case isTrue hz =>
      rcases AToken.mintToTreasury_ok h with ⟨h1, -⟩ | ⟨-, -, ht, rfl⟩
      · exact absurd h1 hz
      · exact ⟨_, rfl, fun h => absurd h ht, .inr ⟨h0, share, hshare, rfl⟩⟩

theorem updateStateFrom_ok (h : updateStateFrom accrueFrom now r = .ok r') :
    r.data.variableDebtTokenAddress ≠ 0 ∧
    (r.data.currentLiquidityRate ≠ 0 → accrueFrom ≤ now) ∧
    ∃ minted, r' = (r.withData (r.data.withIndexes (accruedLiquidityIndex r.data (now - accrueFrom))
        (accruedVariableBorrowIndex r.data r.variableDebtToken.ledger.totalSupply
          (now - accrueFrom)) (uint40 now))).withALedger
        (r.aToken.ledger.credit r.aToken.treasury minted) ∧
      (r.data.configuration.getReserveFactor = 0 → minted = 0) ∧
      (r.aToken.treasury = 0 → minted = 0) ∧
      (accrueFrom = now → r.data.lastUpdateTimestamp = now → minted = 0) := by
  simp only [updateStateFrom, bind_ok, VariableDebtToken.scaledTotalSupply_ok] at h
  obtain ⟨_, ⟨ha, rfl⟩, d, hd, h⟩ := h
  obtain ⟨hle, rfl⟩ := updateIndexes_ok hd
  obtain ⟨minted, rfl, hzero, hm⟩ := mintToTreasury_ok h
  refine ⟨ha, hle, minted, rfl, ?_, hzero, ?_⟩
  · rintro h0
    rcases hm with ⟨-, hm⟩ | ⟨hne, -⟩
    · exact hm
    · exact absurd h0 hne
  · rintro rfl hlast
    rcases hm with ⟨-, hm⟩ | ⟨-, share, hshare, rfl⟩
    · exact hm
    · simp only [ReserveData.withIndexes_variableBorrowIndex, Nat.sub_self,
        accruedVariableBorrowIndex_zero, hlast] at hshare
      rw [treasuryShare_fresh hshare]
      simp [rayQuotient]

theorem cumulateToLiquidityIndex_ok (h : cumulateToLiquidityIndex r total amount = .ok r') :
    total ≠ 0 ∧ ∃ ratio, ratio = rayQuotient (amount * wadRayRatio) (total * wadRayRatio) ∧
      r' = r.withData
        { r.data with liquidityIndex := rayProduct (ratio + ray) r.data.liquidityIndex } := by
  simp only [cumulateToLiquidityIndex, bind_ok, exists_unit, require_ok, rayMul_ok, rayDiv_ok,
    wadToRay_ok, SafeMath.add_ok, pure_ok] at h
  obtain ⟨_, ⟨-, rfl⟩, _, ⟨-, rfl⟩, _, ⟨hne, -, rfl⟩, _, ⟨-, rfl⟩, _, ⟨-, rfl⟩, -, rfl⟩ := h
  exact ⟨fun h0 => hne (by rw [h0, Nat.zero_mul]), _, rfl, rfl⟩

theorem updateInterestRates_ok {env : Env} {asset : Address} {added taken : ℕ}
    (h : updateInterestRates env asset added taken r = .ok r') :
    ∃ rates, r' = r.withData (r.data.withRates rates) := by
  simp only [updateInterestRates, bind_ok, rayMul_ok] at h
  obtain ⟨⟨stable, avg⟩, -, _, -, _, -, h⟩ := h
  split at h
  case h_1 => cases h
  case h_2 =>
    simp only [bind_ok, exists_unit, pure_ok] at h
    obtain ⟨rates, -, -, -, -, rfl⟩ := h
    exact ⟨rates, rfl⟩

end ReserveLogic

namespace ReserveLogicNoInterest

/-- Interest accrues from the current block only. -/
def updateState (now : ℕ) (r : Reserve) : Tx Reserve :=
  ReserveLogic.updateStateFrom (uint40 now) now r

end ReserveLogicNoInterest

namespace LendingPool

/-- `updateState` as the installed pool is compiled with it. -/
def updateState (impl : PoolImpl) (now : ℕ) (r : Reserve) : Tx Reserve :=
  match impl with
  | .withUpdateLiquidityIndex => ReserveLogicNoInterest.updateState now r
  | _ => ReserveLogic.updateState now r

theorem updateState_eq (impl : PoolImpl) (now : ℕ) (r : Reserve) : ∃ accrueFrom,
    (accrueFrom = r.data.lastUpdateTimestamp ∨ accrueFrom = uint40 now) ∧
      updateState impl now r = ReserveLogic.updateStateFrom accrueFrom now r := by
  cases impl
  case withUpdateLiquidityIndex => exact ⟨_, .inr rfl, rfl⟩
  all_goals exact ⟨_, .inl rfl, rfl⟩

end LendingPool

end Moola
