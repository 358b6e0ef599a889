import Moola.Evolution

/-! Leaving the pool: a withdrawal of the whole balance converts the scaled balance to the
underlying and back, each time half up. It empties the account exactly when the balance
survives both conversions. -/

namespace Moola

open Guard WadRayMath

theorem ReserveLogic.updateInterestRates_taken_le {env : Env} {asset : Address}
    {added taken : ℕ} {r r' : Reserve}
    (h : updateInterestRates env asset added taken r = .ok r') : taken ≤ r.cash + added := by
  simp only [updateInterestRates, bind_ok, rayMul_ok] at h
  obtain ⟨⟨stable, avg⟩, -, _, -, _, -, h⟩ := h
  split at h
  case h_1 => cases h
  case h_2 =>
    obtain ⟨rates, hrates, -⟩ := bind_ok.mp h
    exact (DefaultReserveInterestRateStrategy.calculateInterestRatesAfter_ok hrates).1

namespace LendingPool

theorem liquidityIndex_of_updateState {impl : PoolImpl} {now index : ℕ} {r r' : Reserve}
    (hnow : now < 2 ^ 40) (hview : getReserveNormalizedIncome impl r.data now = .ok index)
    (h : updateState impl now r = .ok r') : r'.data.liquidityIndex = index := by
  have haccrual : ∀ start, ReserveLogic.updateStateFrom start now r = .ok r' →
      r'.data.liquidityIndex = ReserveLogic.accruedLiquidityIndex r.data (now - start) := by
    intro start h
    obtain ⟨-, -, minted, rfl, -⟩ := ReserveLogic.updateStateFrom_ok h
    rfl
  have hstored : ReserveLogic.updateState now r = .ok r' →
      ReserveLogic.getNormalizedIncome r.data now = .ok index → r'.data.liquidityIndex = index := by
    intro h hview
    rw [haccrual _ h]
    unfold ReserveLogic.getNormalizedIncome at hview
    split at hview
    case isTrue hfresh =>
      rw [hfresh, uint40_of_lt hnow, Nat.sub_self, ReserveLogic.accruedLiquidityIndex_zero]
      exact Except.ok.inj hview
    case isFalse =>
      obtain ⟨f, hf, hview⟩ := bind_ok.mp hview
      obtain ⟨-, rfl⟩ := MathUtils.calculateLinearInterest_ok hf
      obtain ⟨-, rfl⟩ := rayMul_ok.mp hview
      unfold ReserveLogic.accruedLiquidityIndex
      split
      case isTrue hrate => rw [hrate, MathUtils.linearFactor_zero_left, rayProduct_ray_left]
      case isFalse => rfl
  cases impl
  case withUpdateLiquidityIndex =>
    have hindex : r.data.liquidityIndex = index := Except.ok.inj hview
    rw [haccrual _ h, uint40_of_lt hnow, Nat.sub_self, ReserveLogic.accruedLiquidityIndex_zero,
      hindex]
  case lendingPool => exact hstored h hview
  case withGracePeriod => exact hstored h hview

end LendingPool

namespace AToken

variable {r r' : Reserve} {user receiver : Address} {amount index : ℕ}

theorem burn_converts (h : burn r user receiver amount index = .ok r') :
    receiver ≠ 0 ∧ amount * ray ≤ maxUint256 - index / 2 := by
  simp only [burn, bind_ok, exists_unit, rayDiv_ok, ERC20.transfer_ok] at h
  obtain ⟨-, _, ⟨-, hmax, -⟩, -, _, -, _, ⟨-, hreceiver, -⟩, -⟩ := h
  exact ⟨hreceiver, hmax⟩

theorem burn_of (hreceiver : receiver ≠ 0) (ha : r.data.aTokenAddress ≠ 0) (hu : user ≠ 0)
    (hi : index ≠ 0) (hmax : amount * ray ≤ maxUint256 - index / 2)
    (hq : rayQuotient amount index ≠ 0)
    (hs : rayQuotient amount index ≤ r.aToken.ledger.balances user) (hn : amount ≤ r.cash) :
    ∃ r', burn r user receiver amount index = .ok r' ∧
      r'.aToken.ledger = r.aToken.ledger.debit user (rayQuotient amount index) hs := by
  have hledger := IncentivizedERC20.burn_ok.mpr ⟨hu, hs, rfl⟩
  have hmove : ∃ t, r.underlying.transfer r.data.aTokenAddress receiver amount = .ok t :=
    ⟨_, ERC20.transfer_ok.mpr ⟨ha, hreceiver, hn, rfl⟩⟩
  obtain ⟨t, ht⟩ := hmove
  refine ⟨(r.withALedger
    (r.aToken.ledger.debit user (rayQuotient amount index) hs)).withUnderlying t, ?_, rfl⟩
  simp only [burn, bind_ok, exists_unit, require_ok, rayDiv_ok, pure_ok]
  exact ⟨ha, _, ⟨hi, hmax, rfl⟩, hq, _, hledger, t, ht, rfl⟩

end AToken

namespace LendingPool

variable {env : Env} {w : World} {user asset receiver : Address} {b : Withdrawal}

/-- The withdrawal goes through, burns the scaled balance that the user had before it, and
leaves nothing. -/
def ExitsCompletely (env : Env) (w : World) (user asset receiver : Address) (b : Withdrawal) :
    Prop :=
  ∃ w' hs, withdraw env w user asset maxUint256 receiver = .ok (w', b.amountToWithdraw) ∧
    (w'.reserves asset).aToken.ledger = b.reserve.aToken.ledger.debit user
      ((w.reserves asset).aToken.ledger.balances user) hs ∧
    (w'.reserves asset).aToken.ledger.balances user = 0

/-- The scaled balance of the user survives the conversions: at the index that the update of the
block stores, it is the nearest to the balance that was shown. -/
def BalanceSurvives (env : Env) (w : World) (user asset : Address) : Prop :=
  ∃ shown r, getReserveNormalizedIncome w.impl (w.reserves asset).data env.timestamp = .ok shown ∧
    updateState w.impl env.timestamp (w.reserves asset) = .ok r ∧
    HalfUp.Nearest (rayProduct ((w.reserves asset).aToken.ledger.balances user) shown * ray)
      r.data.liquidityIndex ((w.reserves asset).aToken.ledger.balances user) ∧
    rayProduct ((w.reserves asset).aToken.ledger.balances user) shown * ray ≤
      maxUint256 - r.data.liquidityIndex / 2

def BalanceRoundTrips (env : Env) (w : World) (user asset : Address) : Prop :=
  ∃ index, getReserveNormalizedIncome w.impl (w.reserves asset).data env.timestamp = .ok index ∧
    HalfUp.RoundTrips ray ((w.reserves asset).aToken.ledger.balances user) index ∧
    rayProduct ((w.reserves asset).aToken.ledger.balances user) index * ray ≤
      maxUint256 - index / 2

/-- The update of the block credits the user with nothing; only the treasury has to ask. -/
def NotCredited (env : Env) (w : World) (user asset : Address) : Prop :=
  user = (w.reserves asset).aToken.treasury →
    ∀ r, updateState w.impl env.timestamp (w.reserves asset) = .ok r →
      r.aToken.ledger.balances user = (w.reserves asset).aToken.ledger.balances user

/-- The state in which a withdrawal of everything burns: its index and its ledger are those
after the update, the balance was shown at the index of the view, and the cash suffices. -/
theorem beforeBurn_everything (h : beforeBurn env w user asset maxUint256 = .ok b) :
    ∃ shown r₁,
      getReserveNormalizedIncome w.impl (w.reserves asset).data env.timestamp = .ok shown ∧
      b.amountToWithdraw = rayProduct ((w.reserves asset).aToken.ledger.balances user) shown ∧
      b.amountToWithdraw ≠ 0 ∧ b.amountToWithdraw ≤ b.reserve.cash ∧
      updateState w.impl env.timestamp (w.reserves asset) = .ok r₁ ∧
      b.reserve.aToken.ledger = r₁.aToken.ledger ∧
      b.reserve.data.aTokenAddress ≠ 0 ∧
      b.reserve.data.liquidityIndex = r₁.data.liquidityIndex := by
  obtain ⟨balance, r₁, hbalance, hamount, hvalid, h₁, h₂, -⟩ := beforeBurn_ok h
  obtain ⟨ha, shown, hshown, -, rfl⟩ := AToken.balanceOf_ok.mp hbalance
  rw [if_pos rfl] at hamount
  have htaken := ReserveLogic.updateInterestRates_taken_le h₂
  have hevolves : Reserve.Evolves env.timestamp _ _ := Reserve.updateState_evolves h₁
  obtain ⟨rates, hr⟩ := ReserveLogic.updateInterestRates_ok h₂
  simp only [ValidationLogic.validateWithdraw, bind_ok, exists_unit, require_ok] at hvalid
  refine ⟨shown, r₁, hshown, hamount, hvalid.1, ?_, h₁, ?_, ?_, ?_⟩
  · simpa [hr, Reserve.cash] using htaken
  · rw [hr]
    rfl
  · rw [hr]
    exact hevolves.aTokenAddress ▸ ha
  · rw [hr]
    rfl

theorem updateState_balance {impl : PoolImpl} {now : ℕ} {r r' : Reserve}
    (h : updateState impl now r = .ok r') (hu : user ≠ r.aToken.treasury) :
    r'.aToken.ledger.balances user = r.aToken.ledger.balances user := by
  obtain ⟨start, -, he⟩ := updateState_eq impl now r
  rw [he] at h
  obtain ⟨-, -, minted, rfl, -⟩ := ReserveLogic.updateStateFrom_ok h
  simp [hu]

theorem balanceSurvives_iff (hnow : env.timestamp < 2 ^ 40)
    (h : beforeBurn env w user asset maxUint256 = .ok b) :
    BalanceSurvives env w user asset ↔ BalanceRoundTrips env w user asset := by
  obtain ⟨index, r₁, hindex, hamount, hne, -, h₁, -⟩ := beforeBurn_everything h
  have hstored : r₁.data.liquidityIndex = index := liquidityIndex_of_updateState hnow hindex h₁
  have hpos : 0 < index := by
    rw [Nat.pos_iff_ne_zero]
    rintro rfl
    exact hne (by rw [hamount]; simp [rayProduct])
  have hround := HalfUp.nearest_iff_roundTrips
    ((w.reserves asset).aToken.ledger.balances user) ray_pos hpos
  constructor
  · rintro ⟨shown, r, hshown, hr, hnearest, hmax⟩
    obtain rfl := Except.ok.inj (hindex.symm.trans hshown)
    obtain rfl := Except.ok.inj (h₁.symm.trans hr)
    rw [hstored] at hnearest hmax
    exact ⟨index, hindex, hround.mp hnearest, hmax⟩
  · rintro ⟨shown, hshown, hsurvives, hmax⟩
    obtain rfl := Except.ok.inj (hindex.symm.trans hshown)
    refine ⟨index, r₁, hindex, h₁, ?_, ?_⟩
    · rw [hstored]
      exact hround.mpr hsurvives
    · rw [hstored]
      exact hmax

/-- A depositor leaves completely, to an address that the underlying token sends to, if and only
if the scaled balance survives both conversions and nothing is credited to the depositor on the
way. -/
theorem exits_completely_iff {m : Machine} (hm : Reachable m)
    (h : beforeBurn env m.world user asset maxUint256 = .ok b) :
    ExitsCompletely env m.world user asset receiver b ↔ receiver ≠ 0 ∧
      BalanceSurvives env m.world user asset ∧ NotCredited env m.world user asset := by
  obtain ⟨shown, r₁, hshown, hamount, hne, hcash, h₁, hledger, ha, hL⟩ := beforeBurn_everything h
  constructor
  · rintro ⟨w', hs, hw, hburned, hempty⟩
    obtain ⟨b', r, hb', -, hr, rfl⟩ := withdraw_ok hw
    obtain rfl : b = b' := Except.ok.inj (h.symm.trans hb')
    rw [hL] at hr
    obtain ⟨hreceiver, hmax⟩ := AToken.burn_converts hr
    obtain ⟨-, hindex, -, hq, _, hr⟩ := AToken.burn_ok hr
    have hdebit : b.reserve.aToken.ledger.debit user
        (rayQuotient b.amountToWithdraw r₁.data.liquidityIndex) hq =
        b.reserve.aToken.ledger.debit user _ hs := by
      rw [← hburned, hr, World.setReserve_reserves_self]
      rfl
    have hsame := congrArg (fun l => l.balances user) hdebit
    rw [hburned] at hempty
    simp only [Ledger.debit_balances, if_true] at hsame hempty
    refine ⟨hreceiver, ⟨shown, r₁, hshown, h₁, ?_, hamount ▸ hmax⟩, ?_⟩
    · rw [← hamount, HalfUp.nearest_iff (Nat.pos_of_ne_zero hindex)]
      change rayQuotient _ _ = _
      omega
    · intro _ r₂ h₂
      rw [← Except.ok.inj (h₁.symm.trans h₂), ← hledger]
      omega
  · rintro ⟨hreceiver, ⟨shown', r₁', hshown', h₁', hnearest, hmax⟩, hcredit⟩
    obtain rfl : shown = shown' := Except.ok.inj (hshown.symm.trans hshown')
    obtain rfl : r₁ = r₁' := Except.ok.inj (h₁.symm.trans h₁')
    have hpos : r₁.data.liquidityIndex ≠ 0 := Nat.ne_of_gt hnearest.pos
    have hs : rayQuotient b.amountToWithdraw r₁.data.liquidityIndex =
        (m.world.reserves asset).aToken.ledger.balances user := by
      rw [hamount]
      exact (HalfUp.nearest_iff hnearest.pos).mp hnearest
    have hbalance : b.reserve.aToken.ledger.balances user =
        (m.world.reserves asset).aToken.ledger.balances user := by
      rw [hledger]
      by_cases hu : user = (m.world.reserves asset).aToken.treasury
      · exact hcredit hu r₁ h₁
      · exact updateState_balance h₁ hu
    have hpositive : (m.world.reserves asset).aToken.ledger.balances user ≠ 0 := by
      intro h0
      exact hne (by rw [hamount, h0, rayProduct_zero_left])
    have huser : user ≠ 0 := by
      rintro rfl
      exact hpositive (hm.wellFormed.noZeroHolder asset)
    have hle : rayQuotient b.amountToWithdraw r₁.data.liquidityIndex ≤
        b.reserve.aToken.ledger.balances user := by
      rw [hs, hbalance]
    have hconverts : b.amountToWithdraw * ray ≤ maxUint256 - r₁.data.liquidityIndex / 2 := by
      rw [hamount]
      exact hmax
    have hunits : rayQuotient b.amountToWithdraw r₁.data.liquidityIndex ≠ 0 := by
      rw [hs]
      exact hpositive
    obtain ⟨r, hr, hrl⟩ := AToken.burn_of hreceiver ha huser hpos hconverts hunits hle hcash
    have hexact := hle
    rw [hs] at hexact
    refine ⟨b.world.setReserve asset r, hexact, ?_, ?_, ?_⟩
    · simp only [withdraw, h, ok_bind, hL, hr]
      rfl
    · rw [World.setReserve_reserves_self, hrl]
      simp only [hs]
    · rw [World.setReserve_reserves_self, hrl, Ledger.debit_balances, if_pos rfl, hs, hbalance,
        Nat.sub_self]

/-- Who leaves completely, at any block time and at those that the pool can store. -/
theorem withdraw_everything_iff {m : Machine} (hm : Reachable m) (htime : env.timestamp = m.time)
    (h : beforeBurn env m.world user asset maxUint256 = .ok b) :
    (ExitsCompletely env m.world user asset receiver b ↔ receiver ≠ 0 ∧
      BalanceSurvives env m.world user asset ∧ NotCredited env m.world user asset) ∧
    (m.time < 2 ^ 40 →
      (BalanceSurvives env m.world user asset ↔ BalanceRoundTrips env m.world user asset)) :=
  ⟨exits_completely_iff hm h, fun hfits => balanceSurvives_iff (htime ▸ hfits) h⟩

def lossRun : List Transaction :=
  sampleListing 40 1 9 ++
    [⟨sampleEnv 40, 11, .deposit 1 9 11⟩, ⟨sampleEnv 40, 12, .deposit 1 1 12⟩,
      ⟨sampleEnv 40, 7, .setLendingPoolImpl .withUpdateLiquidityIndex⟩,
      ⟨sampleEnv 40, 7, .updateLiquidtyIndexForLoss 1 5⟩]

/-- The index is half a ray. The balance of one scaled unit shows as one unit, for which
the withdrawal wants to burn two. -/
theorem lossRun_blocked : (do
    let w ← runAll sampleStart lossRun
    let b ← beforeBurn (sampleEnv 40) w 12 1 maxUint256
    return ((w.reserves 1).data.liquidityIndex, (w.usersConfig 12).isBorrowingAny,
      (w.reserves 1).aToken.ledger.balances 12, b.amountToWithdraw,
      (withdraw (sampleEnv 40) w 12 1 maxUint256 12).isOk)) =
    .ok (ray / 2, false, 1, 1, false) := by
  decide +kernel

theorem lossRun_state : ∃ w b, Reachable ⟨w, 40, []⟩ ∧
    beforeBurn (sampleEnv 40) w 12 1 maxUint256 = .ok b ∧
    (w.usersConfig 12).isBorrowingAny = false ∧ b.amountToWithdraw = 1 ∧
    (withdraw (sampleEnv 40) w 12 1 maxUint256 12).isOk = false := by
  obtain ⟨w, hrun, hrest⟩ := bind_ok.mp lossRun_blocked
  obtain ⟨b, hb, hrest⟩ := bind_ok.mp hrest
  simp only [pure_ok, Prod.mk.injEq] at hrest
  obtain ⟨-, hdebt, -, hamount, hfails⟩ := hrest
  exact ⟨w, b, .sample (by decide) hrun, hb, hdebt, hamount, hfails⟩

/-- A depositor without loans who cannot leave. -/
theorem withdraw_everything_blocked : ¬ ∀ (m : Machine) (env : Env) (user asset receiver : Address)
    (b : Withdrawal), Reachable m → env.timestamp = m.time → receiver ≠ 0 →
    (m.world.usersConfig user).isBorrowingAny = false →
    beforeBurn env m.world user asset maxUint256 = .ok b → 0 < b.amountToWithdraw →
    ExitsCompletely env m.world user asset receiver b := by
  intro hexits
  obtain ⟨w, b, hreach, hb, hdebt, hamount, hfails⟩ := lossRun_state
  obtain ⟨w', -, hw, -⟩ := hexits _ (sampleEnv 40) 12 1 12 b hreach rfl (by decide) hdebt hb
    (by omega)
  rw [hw] at hfails
  cases hfails

theorem withdraw_everything_iff_loss : ∃ w b, Reachable ⟨w, 40, []⟩ ∧
    beforeBurn (sampleEnv 40) w 12 1 maxUint256 = .ok b ∧
    (ExitsCompletely (sampleEnv 40) w 12 1 12 b ↔ (12 : Address) ≠ 0 ∧
      BalanceSurvives (sampleEnv 40) w 12 1 ∧ NotCredited (sampleEnv 40) w 12 1) ∧
    (BalanceSurvives (sampleEnv 40) w 12 1 ↔ BalanceRoundTrips (sampleEnv 40) w 12 1) := by
  obtain ⟨w, b, hreach, hb, -⟩ := lossRun_state
  obtain ⟨hexits, hsurvives⟩ := withdraw_everything_iff hreach rfl hb
  exact ⟨w, b, hreach, hb, hexits, hsurvives (show 40 < 2 ^ 40 by norm_num)⟩

end LendingPool

end Moola
