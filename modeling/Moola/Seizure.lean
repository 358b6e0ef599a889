import Moola.CollateralManager
import Moola.Machine

/-! The seizure of a whole collateral by the manager with reserve. It moves the aTokens of
the user in two parts, one to the liquidator and one to the treasury, and each is
converted to scaled units on its own. The parts add up to the scaled balance exactly when
the two conversions do not round the same way. -/

namespace Moola

open Guard WadRayMath

namespace CollateralManager

variable (impl : PoolImpl) (now : ℕ)

def moveToLiquidator (sender user : Address) (amount : ℕ) (receiveAToken : Bool) (r : Reserve) :
    Tx Reserve :=
  if receiveAToken = true then AToken.transferOnLiquidation impl now r user sender amount
  else AToken.burn r user sender amount r.data.liquidityIndex

def moveToTreasury (user : Address) (amount : ℕ) (r : Reserve) : Tx Reserve :=
  if 0 < amount then AToken.transferOnLiquidation impl now r user r.aToken.treasury amount
  else .ok r

/-- The movements of aTokens in `liquidationCall` of the manager with reserve, on the
collateral reserve as it is when they start. -/
def aTokenMovements (sender user : Address) (l : Liquidation) (receiveAToken : Bool)
    (r : Reserve) : Tx Reserve := do
  let amount ← SafeMath.sub l.maxCollateralToLiquidate l.collateralReserveAmount
  let r ← moveToLiquidator impl now sender user amount receiveAToken r
  moveToTreasury impl now user l.collateralReserveAmount r

variable {impl now} {env : Env} {w w' : World} {r r' : Reserve} {l : Liquidation}
  {sender user collateralAsset debtAsset : Address} {amount L : ℕ} {receiveAToken : Bool}
  {e : Revert} {manager : CollateralManager}

/-- The collateral side of the manager is these movements, on the reserve as it stands
or, when the underlying is sent, on the reserve after its update. -/
theorem liquidateCollateral_movements (h : liquidateCollateral env w
    .lendingPoolCollateralManagerWithReserve sender collateralAsset user l receiveAToken = .ok w') :
    ∃ r, aTokenMovements w.impl env.timestamp sender user l receiveAToken r =
        .ok (w'.reserves collateralAsset) ∧
      (receiveAToken = true → r = w.reserves collateralAsset) ∧
      (receiveAToken = false → ∃ r₁,
        ReserveLogic.updateState env.timestamp (w.reserves collateralAsset) = .ok r₁ ∧
        ReserveLogic.updateInterestRates env collateralAsset 0
          (l.maxCollateralToLiquidate - l.collateralReserveAmount) r₁ = .ok r) := by
  simp only [liquidateCollateral, bind_ok, SafeMath.sub_ok] at h
  obtain ⟨w₁, hclear, amount, ⟨hle, rfl⟩, w₂, hseize, htreasury⟩ := h
  have hflags := (LendingPool.applyIf_setUsingAsCollateral_ok hclear).1
  have hpart : ∀ r, w₂.reserves collateralAsset = r → w₂.impl = w.impl →
      moveToTreasury w.impl env.timestamp user l.collateralReserveAmount r =
        .ok (w'.reserves collateralAsset) := by
    intro r hr himpl
    unfold moveToTreasury
    rcases seizeForTreasury_ok htreasury with ⟨hpos, r₁, h₁, rfl⟩ | ⟨hzero, rfl⟩
    · rw [hr, himpl] at h₁
      rw [if_pos hpos, h₁, World.setReserve_reserves_self]
    · rw [if_neg (by omega), hr]
  simp only [aTokenMovements, bind_ok, SafeMath.sub_ok]
  rcases seize_ok hseize with ⟨rfl, balance, r, hr, hflag⟩ | ⟨rfl, r₁, r₂, r₃, h₁, h₂, h₃, rfl⟩
  · have hflags₂ := (LendingPool.applyIf_setUsingAsCollateral_ok hflag).1
    rw [hflags.reserves, hflags.impl] at hr
    refine ⟨_, ⟨_, ⟨hle, rfl⟩, r, hr, hpart r ?_ ?_⟩, fun _ => rfl,
      fun hfalse => absurd hfalse (by decide)⟩
    · rw [hflags₂.reserves, World.setReserve_reserves_self]
    · rw [hflags₂.impl, World.setReserve_impl, hflags.impl]
  · rw [hflags.reserves] at h₁
    refine ⟨r₂, ⟨_, ⟨hle, rfl⟩, r₃, h₃, hpart r₃ ?_ ?_⟩,
      fun htrue => absurd htrue (by decide), fun _ => ⟨r₁, h₁, h₂⟩⟩
    · rw [World.setReserve_reserves_self]
    · rw [World.setReserve_impl, hflags.impl]

/-- The reverts that say that the scaled balance does not suffice. -/
def Insufficient (e : Revert) : Prop :=
  e = .burnAmountExceedsBalance ∨ e = .transferAmountExceedsBalance

theorem transferOnLiquidation_units {recipient : Address}
    (hview : LendingPool.getReserveNormalizedIncome impl r.data now = .ok L)
    (h : AToken.transferOnLiquidation impl now r user recipient amount = .ok r') :
    rayQuotient amount L ≤ r.aToken.ledger.balances user ∧ r'.data = r.data ∧
      r'.aToken.treasury = r.aToken.treasury ∧
      r'.aToken.ledger.balances user = r.aToken.ledger.balances user - rayQuotient amount L +
        if user = recipient then rayQuotient amount L else 0 := by
  obtain ⟨-, -, -, index, hindex, -, hs, rfl⟩ := AToken.transferOnLiquidation_ok h
  obtain rfl := Except.ok.inj (hview.symm.trans hindex)
  refine ⟨hs, rfl, rfl, ?_⟩
  simp [Ledger.move_balances]

theorem transferOnLiquidation_insufficient {recipient : Address} (he : Insufficient e)
    (hview : LendingPool.getReserveNormalizedIncome impl r.data now = .ok L)
    (h : AToken.transferOnLiquidation impl now r user recipient amount = .error e) :
    r.aToken.ledger.balances user < rayQuotient amount L := by
  by_contra hle
  rw [not_lt] at hle
  refine absurd he ?_
  rw [Insufficient]
  simp only [AToken.transferOnLiquidation, AToken.move, hview, ok_bind, bind_error, exists_unit,
    require_error, require_ok, pure, Except.pure, reduceCtorEq, and_false, exists_false,
    or_false] at h
  rcases h with ⟨-, rfl⟩ | ⟨-, h | ⟨_, -, h | ⟨_, -, h | ⟨s, hs, h⟩⟩⟩⟩
  · simp
  · rw [rayMul_error h]
    simp
  · rw [rayMul_error h]
    simp
  · rcases rayDiv_error h with ⟨-, rfl⟩ | rfl <;> simp
  · obtain ⟨-, -, rfl⟩ := rayDiv_ok.mp hs
    simp only [IncentivizedERC20.transfer, dif_pos hle, bind_unit_error, require_error, pure,
      Except.pure, reduceCtorEq, and_false, or_false] at h
    rcases h with ⟨-, rfl⟩ | ⟨-, ⟨-, rfl⟩ | ⟨-, -, rfl⟩⟩ <;> simp

theorem burn_insufficient {receiver : Address} (he : Insufficient e)
    (h : AToken.burn r user receiver amount L = .error e) :
    r.aToken.ledger.balances user < rayQuotient amount L := by
  by_contra hle
  rw [not_lt] at hle
  refine absurd he ?_
  rw [Insufficient]
  simp only [AToken.burn, bind_error, exists_unit, require_error, require_ok, pure,
    Except.pure, reduceCtorEq, and_false, exists_false, or_false] at h
  rcases h with ⟨-, rfl⟩ | ⟨-, h | ⟨s, hs, ⟨-, rfl⟩ | ⟨-, h | ⟨l, -, h⟩⟩⟩⟩
  · simp
  · rcases rayDiv_error h with ⟨-, rfl⟩ | rfl <;> simp
  · simp
  · obtain ⟨-, -, rfl⟩ := rayDiv_ok.mp hs
    simp only [IncentivizedERC20.burn, dif_pos hle, bind_unit_error, require_error, reduceCtorEq,
      and_false, or_false] at h
    rcases h with ⟨-, rfl⟩ | ⟨-, -, rfl⟩ <;> simp
  · rw [ERC20.transfer_error h]
    simp

theorem moveToLiquidator_units
    (hview : LendingPool.getReserveNormalizedIncome impl r.data now = .ok L)
    (hstored : receiveAToken = false → r.data.liquidityIndex = L)
    (h : moveToLiquidator impl now sender user amount receiveAToken r = .ok r') :
    rayQuotient amount L ≤ r.aToken.ledger.balances user ∧ r'.data = r.data ∧
      r'.aToken.treasury = r.aToken.treasury ∧
      r'.aToken.ledger.balances user = r.aToken.ledger.balances user - rayQuotient amount L +
        if receiveAToken = true ∧ user = sender then rayQuotient amount L else 0 := by
  unfold moveToLiquidator at h
  cases receiveAToken with
  | true => simpa using transferOnLiquidation_units hview h
  | false =>
    obtain ⟨-, -, -, hs, _, rfl⟩ := AToken.burn_ok h
    simp only [hstored rfl] at hs ⊢
    exact ⟨hs, rfl, rfl, by simp⟩

theorem moveToLiquidator_insufficient (he : Insufficient e)
    (hview : LendingPool.getReserveNormalizedIncome impl r.data now = .ok L)
    (hstored : receiveAToken = false → r.data.liquidityIndex = L)
    (h : moveToLiquidator impl now sender user amount receiveAToken r = .error e) :
    r.aToken.ledger.balances user < rayQuotient amount L := by
  unfold moveToLiquidator at h
  cases receiveAToken with
  | true => exact transferOnLiquidation_insufficient he hview h
  | false =>
    have hshort := burn_insufficient he h
    rwa [hstored rfl] at hshort

theorem moveToTreasury_units
    (hview : LendingPool.getReserveNormalizedIncome impl r.data now = .ok L)
    (h : moveToTreasury impl now user amount r = .ok r') :
    rayQuotient amount L ≤ r.aToken.ledger.balances user ∧
      r'.aToken.ledger.balances user = r.aToken.ledger.balances user - rayQuotient amount L +
        if user = r.aToken.treasury then rayQuotient amount L else 0 := by
  unfold moveToTreasury at h
  split at h
  case isTrue =>
    obtain ⟨hle, -, -, hbalance⟩ := transferOnLiquidation_units hview h
    exact ⟨hle, hbalance⟩
  case isFalse hzero =>
    obtain rfl : amount = 0 := by omega
    rw [← Except.ok.inj h]
    simp [rayQuotient]

theorem moveToTreasury_insufficient (he : Insufficient e)
    (hview : LendingPool.getReserveNormalizedIncome impl r.data now = .ok L)
    (h : moveToTreasury impl now user amount r = .error e) :
    r.aToken.ledger.balances user < rayQuotient amount L := by
  unfold moveToTreasury at h
  split at h
  case isTrue => exact transferOnLiquidation_insufficient he hview h
  case isFalse => cases h

theorem validated_ok {debtToCover : ℕ} (h : validated env w manager collateralAsset debtAsset user
    debtToCover receiveAToken = .ok (.ok l)) : ∃ stableDebt variableDebt,
    liquidationAmounts env w manager collateralAsset debtAsset user debtToCover stableDebt
      variableDebt = .ok l := by
  unfold validated at h
  obtain ⟨data, -, h⟩ := bind_ok.mp h
  obtain ⟨⟨stableDebt, variableDebt⟩, -, h⟩ := bind_ok.mp h
  obtain ⟨code, -, h⟩ := bind_ok.mp h
  cases code with
  | some code => cases pure_ok.mp h
  | none =>
    obtain ⟨l', hl, h⟩ := bind_ok.mp h
    obtain ⟨needed, -, h⟩ := bind_ok.mp h
    split at h
    case isTrue => cases pure_ok.mp h
    case isFalse =>
      obtain rfl := Except.ok.inj (pure_ok.mp h)
      exact ⟨stableDebt, variableDebt, hl⟩

def treasuryPart (collateral liquidationBonus : ℕ) : ℕ :=
  collateral * liquidationReservePercent / (liquidationBonus + liquidationReservePercent)

theorem treasuryPart_le (collateral bonus : ℕ) : treasuryPart collateral bonus ≤ collateral := by
  refine Nat.div_le_of_le_mul ?_
  rw [mul_comm]
  exact Nat.mul_le_mul_right _ (Nat.le_add_left _ _)

/-- The two parts of the balance of `s` scaled units do not round the same way: the part
of the treasury goes up just when the rest goes down. -/
def PartsRoundApart (s L part : ℕ) : Prop :=
  L ≤ 2 * (part * ray % L) ↔
    L + 2 * (rayProduct s L * ray) < 2 * (part * ray % L) + 2 * (s * L)

theorem parts_eq_iff {s part : ℕ} (hL : ray ≤ L) (hpart : part ≤ rayProduct s L) :
    rayQuotient part L + rayQuotient (rayProduct s L - part) L = s ↔ PartsRoundApart s L part := by
  have hlower := HalfUp.twice_upper (s * L) ray_pos
  have hupper := HalfUp.twice_lower (s * L) ray
  rw [mul_comm ray] at hlower hupper
  rw [rayQuotient, rayQuotient, Nat.sub_mul, PartsRoundApart]
  refine HalfUp.div_add_div_sub_eq_iff (ray_pos.trans_le hL) (Nat.mul_le_mul_right ray hpart) ?_ ?_
  · rw [rayProduct]
    omega
  · rcases hL.lt_or_eq with hlt | rfl
    · rw [rayProduct]
      omega
    · rw [rayProduct_ray_right]
      have := ray_pos
      omega

theorem rest_le {s part : ℕ} (hL : ray ≤ L) : rayQuotient (rayProduct s L - part) L ≤ s := by
  calc rayQuotient (rayProduct s L - part) L
      ≤ rayQuotient (rayProduct s L) L :=
        HalfUp.mono L (Nat.mul_le_mul_right ray (Nat.sub_le _ _))
    _ = s := rayQuotient_rayProduct s hL

theorem liquidationAmounts_part {debtToCover stableDebt variableDebt : ℕ}
    (h : liquidationAmounts env w .lendingPoolCollateralManagerWithReserve collateralAsset
      debtAsset user debtToCover stableDebt variableDebt = .ok l) :
    l.collateralReserveAmount = treasuryPart l.maxCollateralToLiquidate
      (w.reserves collateralAsset).data.configuration.getLiquidationBonus := by
  simp only [liquidationAmounts, calculateAvailableCollateralToLiquidate, bind_ok, pure_ok,
    SafeMath.add_ok, SafeMath.mul_ok, SafeMath.div_ok] at h
  obtain ⟨balance, -, total, -, maxDebt, -, available,
    ⟨_, ⟨-, rfl⟩, pair, -, _, ⟨-, rfl⟩, _, ⟨-, rfl⟩, rfl⟩, rfl⟩ := h
  rfl

/-- A liquidation that takes a whole collateral, and is stopped by nothing but a scaled
balance that does not suffice, empties the collateral if and only if its two parts do
not round the same way. A liquidator who takes aTokens from himself, or a user who is the
treasury, gets a part back, which must then be nothing. -/
theorem whole_collateral_consumed_iff {debtToCover stableDebt variableDebt : ℕ}
    (hamounts : liquidationAmounts env w .lendingPoolCollateralManagerWithReserve collateralAsset
      debtAsset user debtToCover stableDebt variableDebt = .ok l)
    (hwhole : l.maxCollateralToLiquidate = l.userCollateralBalance)
    (hview : LendingPool.getReserveNormalizedIncome impl r.data now = .ok L) (hL : ray ≤ L)
    (hstored : receiveAToken = false → r.data.liquidityIndex = L)
    (hbalance : l.userCollateralBalance = rayProduct (r.aToken.ledger.balances user) L)
    (hother : ∀ e, aTokenMovements impl now sender user l receiveAToken r = .error e →
      Insufficient e) :
    (∃ r', aTokenMovements impl now sender user l receiveAToken r = .ok r' ∧
      r'.aToken.ledger.balances user = 0) ↔
    if receiveAToken = true ∧ user = sender then
      rayQuotient (treasuryPart l.userCollateralBalance
        (w.reserves collateralAsset).data.configuration.getLiquidationBonus) L =
          r.aToken.ledger.balances user ∧
        (user = r.aToken.treasury → r.aToken.ledger.balances user = 0)
    else
      PartsRoundApart (r.aToken.ledger.balances user) L (treasuryPart l.userCollateralBalance
        (w.reserves collateralAsset).data.configuration.getLiquidationBonus) ∧
        (user = r.aToken.treasury → rayQuotient (treasuryPart l.userCollateralBalance
          (w.reserves collateralAsset).data.configuration.getLiquidationBonus) L = 0) := by
  have hpart := liquidationAmounts_part hamounts
  rw [hwhole] at hpart
  have hle : l.collateralReserveAmount ≤ l.userCollateralBalance := hpart ▸ treasuryPart_le _ _
  rw [← hpart, ← parts_eq_iff hL (hbalance ▸ hle)]
  have hrest : rayQuotient (rayProduct (r.aToken.ledger.balances user) L -
      l.collateralReserveAmount) L ≤ r.aToken.ledger.balances user := rest_le hL
  have hrun : aTokenMovements impl now sender user l receiveAToken r = (do
      let r ← moveToLiquidator impl now sender user
        (l.userCollateralBalance - l.collateralReserveAmount) receiveAToken r
      moveToTreasury impl now user l.collateralReserveAmount r) := by
    rw [aTokenMovements, SafeMath.sub, hwhole, require_pos _ hle]
    rfl
  rw [hrun] at hother ⊢
  rw [← hbalance] at hrest ⊢
  cases hfirst : moveToLiquidator impl now sender user
      (l.userCollateralBalance - l.collateralReserveAmount) receiveAToken r with
  | error e =>
    -- the liquidator's part alone never exceeds the balance
    have hshort :=
      moveToLiquidator_insufficient (hother e (by rw [hfirst]; rfl)) hview hstored hfirst
    omega
  | ok r₁ =>
    obtain ⟨hle₁, hdata, htreasury, hbalance₁⟩ := moveToLiquidator_units hview hstored hfirst
    have hview₁ : LendingPool.getReserveNormalizedIncome impl r₁.data now = .ok L := hdata ▸ hview
    simp only [hfirst, ok_bind] at hother ⊢
    cases hsecond : moveToTreasury impl now user l.collateralReserveAmount r₁ with
    | error e =>
      have hshort := moveToTreasury_insufficient (hother e hsecond) hview₁ hsecond
      simp only [reduceCtorEq, false_and, exists_false, false_iff]
      split_ifs at hbalance₁ ⊢ <;> omega
    | ok r' =>
      obtain ⟨hle₂, hbalance₂⟩ := moveToTreasury_units hview₁ hsecond
      rw [htreasury] at hbalance₂
      simp only [Except.ok.injEq, exists_eq_left']
      generalize rayQuotient l.collateralReserveAmount L = toTreasury at *
      generalize rayQuotient (l.userCollateralBalance - l.collateralReserveAmount) L = toUser at *
      by_cases ht : user = r.aToken.treasury
      · rw [if_pos ht] at hbalance₂
        simp only [imp_iff_right ht]
        split_ifs at hbalance₁ ⊢ <;> omega
      · rw [if_neg ht] at hbalance₂
        simp only [ht, false_implies, and_true]
        split_ifs at hbalance₁ ⊢ <;> omega

def doublingEnv (timestamp debtPrice : ℕ) : Env :=
  { sampleEnv timestamp with
    getAssetPrice := fun asset => if asset = 2 then debtPrice else 1
    strategy := fun _ => some { sampleStrategy with baseVariableBorrowRate := ray } }

def doublingRun : List Transaction :=
  sampleListing 0 1 9 ++ sampleListing 0 2 9 ++
    [⟨doublingEnv 0 1, 12, .deposit 1 30 12⟩, ⟨doublingEnv 0 1, 13, .deposit 2 1000 13⟩,
      ⟨doublingEnv 0 1, 13, .borrow 1 30 2 13⟩, ⟨doublingEnv 0 1, 12, .borrow 2 20 2 12⟩]

set_option synthInstance.maxSize 256 in
/-- A year later the index is two rays and the debt asset is worth ten times as much. Of
the sixty units of collateral 59 convert to thirty scaled units and one to one. -/
theorem doublingRun_blocked : (do
    let w ← runAll sampleStart doublingRun
    let year := MathUtils.secondsPerYear
    let env := doublingEnv year 10
    let view ← LendingPool.getReserveNormalizedIncome w.impl (w.reserves 1).data year
    let checked ← validated env w .lendingPoolCollateralManagerWithReserve 1 2 12 1000 true
    let l ← checked
    return (view, (w.reserves 1).aToken.ledger.balances 12, l.maxCollateralToLiquidate,
      l.userCollateralBalance, (LendingPool.liquidationCall env w 11 1 2 12 1000 true).isOk,
      (aTokenMovements w.impl year 11 12 l true (w.reserves 1)).map fun _ => ())) =
    .ok (2 * ray, 30, 60, 60, false, .error .transferAmountExceedsBalance) := by
  decide +kernel

theorem doublingRun_state : ∃ w l, Reachable ⟨w, MathUtils.secondsPerYear, []⟩ ∧
    LendingPool.getReserveNormalizedIncome w.impl (w.reserves 1).data MathUtils.secondsPerYear =
      .ok (2 * ray) ∧
    validated (doublingEnv MathUtils.secondsPerYear 10) w .lendingPoolCollateralManagerWithReserve
      1 2 12 1000 true = .ok (.ok l) ∧
    l.maxCollateralToLiquidate = l.userCollateralBalance ∧
    l.userCollateralBalance = rayProduct ((w.reserves 1).aToken.ledger.balances 12) (2 * ray) ∧
    aTokenMovements w.impl MathUtils.secondsPerYear 11 12 l true (w.reserves 1) =
      .error .transferAmountExceedsBalance ∧
    (LendingPool.liquidationCall (doublingEnv MathUtils.secondsPerYear 10) w 11 1 2 12 1000
      true).isOk = false := by
  obtain ⟨w, hrun, hrest⟩ := bind_ok.mp doublingRun_blocked
  obtain ⟨view, hview, hrest⟩ := bind_ok.mp hrest
  obtain ⟨checked, hl, hrest⟩ := bind_ok.mp hrest
  obtain ⟨l, hchecked, hobserved⟩ := bind_ok.mp hrest
  rw [hchecked] at hl
  simp only [pure_ok, Prod.mk.injEq] at hobserved
  obtain ⟨rfl, hbalance, hmax, hwhole, hcall, hmoves⟩ := hobserved
  have htick : Reachable ⟨w, MathUtils.secondsPerYear, []⟩ :=
    .step (.sample (by decide) hrun) (.tick _ (Nat.zero_le _) rfl)
  refine ⟨w, l, htick, hview, hl, hmax.trans hwhole.symm, ?_, map_error.mp hmoves, hcall⟩
  rw [hwhole, hbalance]
  decide

/-- A liquidation of the whole collateral that does not go through. -/
theorem whole_collateral_blocked : ¬ ∀ (m : Machine) (env : Env) (sender user collateralAsset
    debtAsset : Address) (debtToCover L : ℕ) (l : Liquidation),
    Reachable m → env.timestamp = m.time →
    LendingPool.getReserveNormalizedIncome m.world.impl (m.world.reserves collateralAsset).data
      m.time = .ok L → ray ≤ L →
    validated env m.world .lendingPoolCollateralManagerWithReserve collateralAsset debtAsset user
      debtToCover true = .ok (.ok l) →
    l.maxCollateralToLiquidate = l.userCollateralBalance →
    l.userCollateralBalance =
      rayProduct ((m.world.reserves collateralAsset).aToken.ledger.balances user) L →
    ∃ r', aTokenMovements m.world.impl m.time sender user l true
        (m.world.reserves collateralAsset) = .ok r' ∧ r'.aToken.ledger.balances user = 0 := by
  intro hconsumed
  obtain ⟨w, l, hreach, hview, hl, hwhole, hbalance, hmoves, -⟩ := doublingRun_state
  obtain ⟨r', hr', -⟩ := hconsumed _ (doublingEnv MathUtils.secondsPerYear 10) 11 12 1 2 1000
    (2 * ray) l hreach rfl hview (by decide) hl hwhole hbalance
  cases hmoves.symm.trans hr'

theorem whole_collateral_consumed_iff_doubling : ∃ (w : World) (l : Liquidation),
    (∃ r', aTokenMovements w.impl MathUtils.secondsPerYear 11 12 l true (w.reserves 1) = .ok r' ∧
      r'.aToken.ledger.balances 12 = 0) ↔
    PartsRoundApart ((w.reserves 1).aToken.ledger.balances 12) (2 * ray)
        (treasuryPart l.userCollateralBalance
          (w.reserves 1).data.configuration.getLiquidationBonus) ∧
      (12 = (w.reserves 1).aToken.treasury → rayQuotient (treasuryPart l.userCollateralBalance
        (w.reserves 1).data.configuration.getLiquidationBonus) (2 * ray) = 0) := by
  obtain ⟨w, l, -, hview, hchecked, hwhole, hbalance, hmoves, -⟩ := doublingRun_state
  obtain ⟨stableDebt, variableDebt, hl⟩ := validated_ok hchecked
  have hother : ∀ e, aTokenMovements w.impl MathUtils.secondsPerYear 11 12 l true
      (w.reserves 1) = .error e → Insufficient e := by
    intro e he
    exact .inr (Except.error.inj (he.symm.trans hmoves))
  have h := @whole_collateral_consumed_iff w.impl MathUtils.secondsPerYear _ w (w.reserves 1) l
    11 12 1 2 (2 * ray) true 1000 stableDebt variableDebt hl hwhole hview (by decide) nofun hbalance
    hother
  rw [if_neg (by decide)] at h
  exact ⟨w, l, h⟩

end CollateralManager

end Moola
