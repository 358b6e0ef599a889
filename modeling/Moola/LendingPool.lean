import Moola.ValidationLogic

/-! The pool: LendingPool and its two replacements. LendingPoolWithUpdateLiquidityIndex
adds the loss write-off and accrues no interest; LendingPoolWithGracePeriod disables
what carries its modifier. The liquidation is in a module of its own. -/

namespace Moola

open Guard WadRayMath

namespace LendingPool

variable (env : Env) (w : World)

def whenNotPaused : Tx Unit := require (w.paused = false) .lpIsPaused

def disabledDuringGracePeriod : Tx Unit := require (w.impl ≠ .withGracePeriod) .gracePeriod

/-- The functions that only LendingPoolWithUpdateLiquidityIndex has, behind its guard. -/
def onlyLendingPoolAdmin (sender : Address) : Tx Unit := do
  require (w.impl = .withUpdateLiquidityIndex) .noSuchFunction
  require (env.poolAdmin = sender) .callerNotPoolAdmin

def onlyLendingPoolConfigurator (sender : Address) : Tx Unit :=
  require (env.lendingPoolConfigurator = sender) .lpCallerNotLendingPoolConfigurator

def setUsingAsCollateral (user : Address) (reserveId : ℕ) (value : Bool) : Tx World :=
  w.onUserConfig user fun c => c.setUsingAsCollateral reserveId value

def setBorrowing (user : Address) (reserveId : ℕ) (value : Bool) : Tx World :=
  w.onUserConfig user fun c => c.setBorrowing reserveId value

variable {w} in
theorem setUsingAsCollateral_ok {user : Address} {i : ℕ} {value : Bool} {w' : World} :
    setUsingAsCollateral w user i value = .ok w' ↔
      i < 128 ∧ w.setUserConfig user ((w.usersConfig user).writeBit (i * 2 + 1) value) = w' := by
  simp [setUsingAsCollateral]

variable {w} in
theorem setBorrowing_ok {user : Address} {i : ℕ} {value : Bool} {w' : World} :
    setBorrowing w user i value = .ok w' ↔
      i < 128 ∧ w.setUserConfig user ((w.usersConfig user).writeBit (i * 2) value) = w' := by
  simp [setBorrowing]

structure OnlyFlags (w w' : World) : Prop where
  reserves : w'.reserves = w.reserves
  reservesList : w'.reservesList = w.reservesList
  reservesCount : w'.reservesCount = w.reservesCount
  impl : w'.impl = w.impl
  self : w'.self = w.self

theorem OnlyFlags.refl (w : World) : OnlyFlags w w := ⟨rfl, rfl, rfl, rfl, rfl⟩

theorem OnlyFlags.trans {w w₁ w₂ : World} (h₁ : OnlyFlags w w₁) (h₂ : OnlyFlags w₁ w₂) :
    OnlyFlags w w₂ :=
  ⟨h₂.reserves.trans h₁.reserves, h₂.reservesList.trans h₁.reservesList,
    h₂.reservesCount.trans h₁.reservesCount, h₂.impl.trans h₁.impl, h₂.self.trans h₁.self⟩

variable {w} in
theorem applyIf_setUsingAsCollateral_ok {p : Prop} [Decidable p] {user : Address} {i : ℕ}
    {value : Bool} {w' : World}
    (h : applyIf p (fun w => setUsingAsCollateral w user i value) w = .ok w') :
    OnlyFlags w w' ∧
      ∀ u j, (w'.usersConfig u).borrowing j = (w.usersConfig u).borrowing j := by
  rcases applyIf_ok.mp h with ⟨-, h⟩ | ⟨-, rfl⟩
  · obtain ⟨hi, rfl⟩ := setUsingAsCollateral_ok.mp h
    refine ⟨⟨rfl, rfl, rfl, rfl, rfl⟩, ?_⟩
    intro u j
    rw [World.setUserConfig_usersConfig]
    split
    case isTrue hu =>
      rw [UserConfigurationMap.borrowing_writeCollateral _ _ hi, hu]
    case isFalse => rfl
  · exact ⟨OnlyFlags.refl w, fun _ _ => rfl⟩

variable {w} in
theorem applyIf_setBorrowing_ok {p : Prop} [Decidable p] {user : Address} {i : ℕ}
    {value : Bool} {w' : World}
    (h : applyIf p (fun w => setBorrowing w user i value) w = .ok w') :
    OnlyFlags w w' ∧ ∀ u j, (w'.usersConfig u).borrowing j =
      if p ∧ u = user ∧ j = i then value else (w.usersConfig u).borrowing j := by
  rcases applyIf_ok.mp h with ⟨hp, h⟩ | ⟨hp, rfl⟩
  · obtain ⟨hi, rfl⟩ := setBorrowing_ok.mp h
    refine ⟨⟨rfl, rfl, rfl, rfl, rfl⟩, ?_⟩
    intro u j
    rw [World.setUserConfig_usersConfig]
    by_cases hu : u = user
    · rw [if_pos hu, UserConfigurationMap.borrowing_writeBorrowing _ _ hi, hu]
      simp [hp]
    · simp [hu]
  · exact ⟨OnlyFlags.refl w, fun u j => by simp [hp]⟩

variable {w} in
theorem applyIf_setUsingAsCollateral_collateral {p : Prop} [Decidable p] {user : Address} {i : ℕ}
    {value : Bool} {w' : World}
    (h : applyIf p (fun w => setUsingAsCollateral w user i value) w = .ok w') (u : Address)
    (j : ℕ) : (w'.usersConfig u).collateral j =
      if p ∧ u = user ∧ j = i then value else (w.usersConfig u).collateral j := by
  rcases applyIf_ok.mp h with ⟨hp, h⟩ | ⟨hp, rfl⟩
  · obtain ⟨hi, rfl⟩ := setUsingAsCollateral_ok.mp h
    rw [World.setUserConfig_usersConfig]
    by_cases hu : u = user
    · rw [if_pos hu, UserConfigurationMap.collateral_writeCollateral _ _ hi, hu]
      simp [hp]
    · simp [hu]
  · simp [hp]

variable {w} in
theorem applyIf_setBorrowing_collateral {p : Prop} [Decidable p] {user : Address} {i : ℕ}
    {value : Bool} {w' : World}
    (h : applyIf p (fun w => setBorrowing w user i value) w = .ok w') (u : Address) (j : ℕ) :
    (w'.usersConfig u).collateral j = (w.usersConfig u).collateral j := by
  rcases applyIf_ok.mp h with ⟨-, h⟩ | ⟨-, rfl⟩
  · obtain ⟨hi, rfl⟩ := setBorrowing_ok.mp h
    rw [World.setUserConfig_usersConfig]
    split
    case isTrue hu => rw [UserConfigurationMap.collateral_writeBorrowing _ _ hi, hu]
    case isFalse => rfl
  · rfl

def deposit (sender asset : Address) (amount : ℕ) (onBehalfOf : Address) : Tx World := do
  whenNotPaused w
  ValidationLogic.validateDeposit (w.reserves asset) amount
  let r ← updateState w.impl env.timestamp (w.reserves asset)
  let r ← ReserveLogic.updateInterestRates env asset amount 0 r
  let underlying ← r.underlying.transferFrom w.self sender r.data.aTokenAddress amount
  let (r, isFirstDeposit) ←
    AToken.mint (r.withUnderlying underlying) onBehalfOf amount r.data.liquidityIndex
  applyIf (isFirstDeposit = true) (fun w => setUsingAsCollateral w onBehalfOf r.data.id true)
    (w.setReserve asset r)

/-- The state in which `withdraw` calls `burn`, and the amount it burns. -/
structure Withdrawal where
  world : World
  reserve : Reserve
  amountToWithdraw : ℕ

/-- Everything that `withdraw` does before it burns aTokens. -/
def beforeBurn (sender asset : Address) (amount : ℕ) : Tx Withdrawal := do
  whenNotPaused w
  disabledDuringGracePeriod w
  let userBalance ← AToken.balanceOf w.impl env.timestamp (w.reserves asset) sender
  let amountToWithdraw := if amount = maxUint256 then userBalance else amount
  ValidationLogic.validateWithdraw env w asset sender amountToWithdraw userBalance
  let r ← updateState w.impl env.timestamp (w.reserves asset)
  let r ← ReserveLogic.updateInterestRates env asset 0 amountToWithdraw r
  let w ← applyIf (amountToWithdraw = userBalance)
    (fun w => setUsingAsCollateral w sender r.data.id false) w
  return ⟨w, r, amountToWithdraw⟩

def withdraw (sender asset : Address) (amount : ℕ) (receiver : Address) : Tx (World × ℕ) := do
  let b ← beforeBurn env w sender asset amount
  let r ← AToken.burn b.reserve sender receiver b.amountToWithdraw b.reserve.data.liquidityIndex
  return (b.world.setReserve asset r, b.amountToWithdraw)

def mintDebt (r : Reserve) (mode : InterestRateMode) (user onBehalfOf : Address) (amount : ℕ) :
    Tx (Reserve × Bool) :=
  if mode = .stable then
    StableDebtToken.mint env.timestamp r user onBehalfOf amount r.data.currentStableBorrowRate
  else VariableDebtToken.mint r user onBehalfOf amount r.data.variableBorrowIndex

def burnDebt (r : Reserve) (mode : InterestRateMode) (user : Address) (amount : ℕ) : Tx Reserve :=
  if mode = .stable then StableDebtToken.burn env.timestamp r user amount
  else VariableDebtToken.burn r user amount r.data.variableBorrowIndex

def executeBorrow (user asset onBehalfOf : Address) (amount interestRateMode : ℕ)
    (releaseUnderlying : Bool) : Tx World := do
  let amountInETH ← GenericLogic.valueOf (env.getAssetPrice asset) amount
    (w.reserves asset).data.configuration.getDecimals
  ValidationLogic.validateBorrow env w asset onBehalfOf amount amountInETH interestRateMode
  let r ← updateState w.impl env.timestamp (w.reserves asset)
  let mode ← InterestRateMode.ofUint interestRateMode
  let (r, isFirstBorrowing) ← mintDebt env r mode user onBehalfOf amount
  let w ← applyIf (isFirstBorrowing = true)
    (fun w => setBorrowing w onBehalfOf r.data.id true) w
  let r ← ReserveLogic.updateInterestRates env asset 0 (if releaseUnderlying then amount else 0) r
  let r ← applyIf (releaseUnderlying = true)
    (fun r => AToken.transferUnderlyingTo r user amount) r
  return w.setReserve asset r

def borrow (sender asset : Address) (amount interestRateMode : ℕ) (onBehalfOf : Address) :
    Tx World := do
  whenNotPaused w
  disabledDuringGracePeriod w
  executeBorrow env w sender asset onBehalfOf amount interestRateMode true

/-- The state in which `repay` pulls the underlying, and the amount it pulls. -/
structure Payback where
  world : World
  reserve : Reserve
  paybackAmount : ℕ

/-- What `repay` and `writeOff` share: everything but the token transfer. -/
def payback (sender asset : Address) (amount rateMode : ℕ) (onBehalfOf : Address) :
    Tx Payback := do
  let (stableDebt, variableDebt) ← getUserCurrentDebt env w onBehalfOf (w.reserves asset)
  let mode ← InterestRateMode.ofUint rateMode
  ValidationLogic.validateRepay (w.reserves asset) sender amount mode onBehalfOf stableDebt
    variableDebt
  let debt := if mode = .stable then stableDebt else variableDebt
  let paybackAmount := if amount < debt then amount else debt
  let r ← updateState w.impl env.timestamp (w.reserves asset)
  let r ← burnDebt env r mode onBehalfOf paybackAmount
  let r ← ReserveLogic.updateInterestRates env asset paybackAmount 0 r
  let sum ← SafeMath.add stableDebt variableDebt
  let rest ← SafeMath.sub sum paybackAmount
  let w ← applyIf (rest = 0) (fun w => setBorrowing w onBehalfOf r.data.id false) w
  return ⟨w, r, paybackAmount⟩

def repay (sender asset : Address) (amount rateMode : ℕ) (onBehalfOf : Address) :
    Tx (World × ℕ) := do
  whenNotPaused w
  let p ← payback env w sender asset amount rateMode onBehalfOf
  let underlying ← p.reserve.underlying.transferFrom w.self sender p.reserve.data.aTokenAddress
    p.paybackAmount
  return (p.world.setReserve asset (p.reserve.withUnderlying underlying), p.paybackAmount)

/-- Same as `repay`, for the pool admin and without the token transfer. -/
def writeOff (sender asset : Address) (amount rateMode : ℕ) (onBehalfOf : Address) :
    Tx (World × ℕ) := do
  onlyLendingPoolAdmin env w sender
  let p ← payback env w sender asset amount rateMode onBehalfOf
  return (p.world.setReserve asset p.reserve, p.paybackAmount)

def swapDebt (r : Reserve) (mode : InterestRateMode) (user : Address)
    (stableDebt variableDebt : ℕ) : Tx (Reserve × Bool) := do
  if mode = .stable then
    let r ← burnDebt env r .stable user stableDebt
    mintDebt env r .variable user user stableDebt
  else
    let r ← burnDebt env r .variable user variableDebt
    mintDebt env r .stable user user variableDebt

def swapBorrowRateMode (sender asset : Address) (rateMode : ℕ) : Tx World := do
  whenNotPaused w
  disabledDuringGracePeriod w
  let (stableDebt, variableDebt) ← getUserCurrentDebt env w sender (w.reserves asset)
  let mode ← InterestRateMode.ofUint rateMode
  ValidationLogic.validateSwapRateMode env w (w.reserves asset) sender stableDebt variableDebt mode
  let r ← updateState w.impl env.timestamp (w.reserves asset)
  let (r, _) ← swapDebt env r mode sender stableDebt variableDebt
  let r ← ReserveLogic.updateInterestRates env asset 0 0 r
  return w.setReserve asset r

def rebalanceStableBorrowRate (asset user : Address) : Tx World := do
  whenNotPaused w
  disabledDuringGracePeriod w
  let stableDebt ← StableDebtToken.balanceOf env.timestamp (w.reserves asset) user
  ValidationLogic.validateRebalanceStableBorrowRate env w (w.reserves asset)
  let r ← updateState w.impl env.timestamp (w.reserves asset)
  let r ← burnDebt env r .stable user stableDebt
  let (r, _) ← mintDebt env r .stable user user stableDebt
  let r ← ReserveLogic.updateInterestRates env asset 0 0 r
  return w.setReserve asset r

/-- The one function besides deposit and repay that the grace period leaves enabled. -/
def setUserUseReserveAsCollateral (sender asset : Address) (useAsCollateral : Bool) :
    Tx World := do
  whenNotPaused w
  ValidationLogic.validateSetUseReserveAsCollateral env w asset sender useAsCollateral
  setUsingAsCollateral w sender (w.reserves asset).data.id useAsCollateral

structure FlashLoan where
  receiverAddress : Address
  assets : List Address
  amounts : List ℕ
  modes : List ℕ
  onBehalfOf : Address

def takeOne (receiver asset : Address) (amount : ℕ) : Tx (World × ℕ) := do
  let product ← SafeMath.mul amount World.flashLoanPremiumTotal
  let premium ← SafeMath.div product 10000
  let r ← AToken.transferUnderlyingTo (w.reserves asset) receiver amount
  return (w.setReserve asset r, premium)

def takeAll (receiver : Address) : World → List Address → List ℕ → Tx (World × List ℕ)
  | w, asset :: assets, amount :: amounts => do
    let (w, premium) ← takeOne w receiver asset amount
    let (w, premiums) ← takeAll receiver w assets amounts
    return (w, premium :: premiums)
  | w, _, _ => .ok (w, [])

def flashLoanTake (loan : FlashLoan) : Tx (World × List ℕ) := do
  whenNotPaused w
  disabledDuringGracePeriod w
  require (loan.assets.length = loan.amounts.length) .vlInconsistentFlashloanParams
  takeAll loan.receiverAddress w loan.assets loan.amounts

/-- The receiver returns the amount and the premium. -/
def returnOne (receiver asset : Address) (amountPlusPremium premium : ℕ) : Tx World := do
  let r ← updateState w.impl env.timestamp (w.reserves asset)
  let totalLiquidity ← AToken.totalSupply w.impl env.timestamp r
  let r ← ReserveLogic.cumulateToLiquidityIndex r totalLiquidity premium
  let r ← ReserveLogic.updateInterestRates env asset amountPlusPremium 0 r
  let underlying ←
    r.underlying.transferFrom w.self receiver r.data.aTokenAddress amountPlusPremium
  return w.setReserve asset (r.withUnderlying underlying)

def settleOne (sender : Address) (loan : FlashLoan) (asset : Address)
    (amount premium mode : ℕ) : Tx World := do
  let amountPlusPremium ← SafeMath.add amount premium
  let interestRateMode ← InterestRateMode.ofUint mode
  if interestRateMode = .none then
    returnOne env w loan.receiverAddress asset amountPlusPremium premium
  else executeBorrow env w sender asset loan.onBehalfOf amount mode false

def settleAll (sender : Address) (loan : FlashLoan) :
    World → List Address → List ℕ → List ℕ → List ℕ → Tx World
  | w, [], _, _, _ => .ok w
  | w, asset :: assets, amount :: amounts, premium :: premiums, mode :: modes => do
    let w ← settleOne env w sender loan asset amount premium mode
    settleAll sender loan w assets amounts premiums modes
  | _, _, _, _, _ => .error .indexOutOfRange

def flashLoanSettle (sender : Address) (loan : FlashLoan) (premiums : List ℕ) : Tx World :=
  settleAll env sender loan w loan.assets loan.amounts premiums loan.modes

/-- Called by an aToken, after it moved the scaled balances. -/
def finalizeTransfer (asset sender recipient : Address) (amount : ℕ)
    (before : AToken.BalancesBefore) : Tx World := do
  whenNotPaused w
  disabledDuringGracePeriod w
  ValidationLogic.validateTransfer env w sender
  let reserveId := (w.reserves asset).data.id
  if sender ≠ recipient then
    let rest ← SafeMath.sub before.fromBalanceBefore amount
    let w ← applyIf (rest = 0) (fun w => setUsingAsCollateral w sender reserveId false) w
    applyIf (before.toBalanceBefore = 0 ∧ amount ≠ 0)
      (fun w => setUsingAsCollateral w recipient reserveId true) w
  else return w

structure Proxies where
  aToken : Address
  stableDebtToken : Address
  variableDebtToken : Address
  treasury : Address
  aToken_ne_zero : aToken ≠ 0
  stableDebtToken_ne_zero : stableDebtToken ≠ 0
  variableDebtToken_ne_zero : variableDebtToken ≠ 0

def initializedReserve (r : Reserve) (p : Proxies) (interestRateStrategyAddress : Address) :
    Reserve where
  data := { r.data with
    liquidityIndex := ray
    variableBorrowIndex := ray
    aTokenAddress := p.aToken
    stableDebtTokenAddress := p.stableDebtToken
    variableDebtTokenAddress := p.variableDebtToken
    interestRateStrategyAddress := interestRateStrategyAddress }
  aToken := ⟨Ledger.empty, fun _ _ => 0, p.treasury⟩
  stableDebtToken := ⟨fun _ => 0, 0, 0, fun _ => 0, fun _ => 0, 0, fun _ _ => 0⟩
  variableDebtToken := ⟨Ledger.empty, fun _ _ => 0⟩
  underlying := r.underlying

def addReserveToList (asset : Address) : Tx World := do
  let reservesCount := w.reservesCount
  require (reservesCount < World.maxNumberOfReserves) .lpNoMoreReservesAllowed
  let reserveAlreadyAdded := (w.reserves asset).data.id ≠ 0 ∨ w.reservesList 0 = asset
  if reserveAlreadyAdded then return w
  else
    let r := w.reserves asset
    let w := w.setReserve asset (r.withData { r.data with id := uint8 reservesCount })
    return { w with
      reservesList := write w.reservesList reservesCount asset
      reservesCount := reservesCount + 1 }

def initReserve (sender asset : Address) (p : Proxies) (strategy : Address) : Tx World := do
  onlyLendingPoolConfigurator env sender
  require (env.isContract asset = true) .lpNotContract
  require ((w.reserves asset).data.aTokenAddress = 0) .rlReserveAlreadyInitialized
  addReserveToList (w.setReserve asset (initializedReserve (w.reserves asset) p strategy)) asset

def setReserveInterestRateStrategyAddress (sender asset rateStrategyAddress : Address) :
    Tx World := do
  onlyLendingPoolConfigurator env sender
  let r := w.reserves asset
  return w.setReserve asset
    (r.withData { r.data with interestRateStrategyAddress := rateStrategyAddress })

def setConfiguration (sender asset : Address) (configuration : BitVec 256) : Tx World := do
  onlyLendingPoolConfigurator env sender
  let r := w.reserves asset
  return w.setReserve asset (r.withData { r.data with configuration := ⟨configuration⟩ })

def setPause (sender : Address) (val : Bool) : Tx World := do
  onlyLendingPoolConfigurator env sender
  return { w with paused := val }

def updateLiquidtyIndexForLoss (sender asset : Address) (amount : ℕ) : Tx World := do
  onlyLendingPoolAdmin env w sender
  let r := w.reserves asset
  let totalLiquidity ← AToken.totalSupply w.impl env.timestamp r
  let amountInRay ← wadToRay amount
  let totalLiquidityInRay ← wadToRay totalLiquidity
  let amountToLiquidityRatio ← rayDiv amountInRay totalLiquidityInRay
  let result ← SafeMath.sub ray amountToLiquidityRatio
  let result ← rayMul result r.data.liquidityIndex
  require (result ≤ maxUint128) .rlLiquidityIndexOverflow
  return w.setReserve asset (r.withData { r.data with liquidityIndex := result })

variable {env w} {w' : World} {sender asset onBehalfOf user receiver : Address}
  {amount rateMode premium : ℕ} {r r' : Reserve} {mode : InterestRateMode} {first release : Bool}

theorem deposit_ok (h : deposit env w sender asset amount onBehalfOf = .ok w') :
    ∃ r₁ r₂ t r₃ first,
      updateState w.impl env.timestamp (w.reserves asset) = .ok r₁ ∧
      ReserveLogic.updateInterestRates env asset amount 0 r₁ = .ok r₂ ∧
      r₂.underlying.transferFrom w.self sender r₂.data.aTokenAddress amount = .ok t ∧
      AToken.mint (r₂.withUnderlying t) onBehalfOf amount r₂.data.liquidityIndex =
        .ok (r₃, first) ∧
      applyIf (first = true) (fun w => setUsingAsCollateral w onBehalfOf r₃.data.id true)
        (w.setReserve asset r₃) = .ok w' := by
  simp only [deposit, bind_ok, exists_unit] at h
  obtain ⟨-, -, r₁, h₁, r₂, h₂, t, ht, ⟨r₃, first⟩, h₃, h₄⟩ := h
  exact ⟨r₁, r₂, t, r₃, first, h₁, h₂, ht, h₃, h₄⟩

theorem beforeBurn_ok {b : Withdrawal} (h : beforeBurn env w sender asset amount = .ok b) :
    ∃ balance r₁,
      AToken.balanceOf w.impl env.timestamp (w.reserves asset) sender = .ok balance ∧
      b.amountToWithdraw = (if amount = maxUint256 then balance else amount) ∧
      ValidationLogic.validateWithdraw env w asset sender b.amountToWithdraw balance = .ok () ∧
      updateState w.impl env.timestamp (w.reserves asset) = .ok r₁ ∧
      ReserveLogic.updateInterestRates env asset 0 b.amountToWithdraw r₁ = .ok b.reserve ∧
      applyIf (b.amountToWithdraw = balance)
        (fun w => setUsingAsCollateral w sender b.reserve.data.id false) w = .ok b.world := by
  simp only [beforeBurn, bind_ok, exists_unit, pure_ok] at h
  obtain ⟨-, -, balance, hb, hv, r₁, h₁, r₂, h₂, w₁, hw, rfl⟩ := h
  exact ⟨balance, r₁, hb, rfl, hv, h₁, h₂, hw⟩

theorem withdraw_ok {n : ℕ} (h : withdraw env w sender asset amount receiver = .ok (w', n)) :
    ∃ b r, beforeBurn env w sender asset amount = .ok b ∧ n = b.amountToWithdraw ∧
      AToken.burn b.reserve sender receiver b.amountToWithdraw b.reserve.data.liquidityIndex =
        .ok r ∧ w' = b.world.setReserve asset r := by
  simp only [withdraw, bind_ok, pure_ok, Prod.mk.injEq] at h
  obtain ⟨b, hb, r, hr, rfl, rfl⟩ := h
  exact ⟨b, r, hb, rfl, hr, rfl⟩

theorem executeBorrow_ok
    (h : executeBorrow env w user asset onBehalfOf amount rateMode release = .ok w') :
    ∃ value r₁ r₂ r₃ r₄ first mode w₁,
      GenericLogic.valueOf (env.getAssetPrice asset) amount
        (w.reserves asset).data.configuration.getDecimals = .ok value ∧
      ValidationLogic.validateBorrow env w asset onBehalfOf amount value rateMode = .ok () ∧
      updateState w.impl env.timestamp (w.reserves asset) = .ok r₁ ∧
      InterestRateMode.ofUint rateMode = .ok mode ∧
      mintDebt env r₁ mode user onBehalfOf amount = .ok (r₂, first) ∧
      applyIf (first = true) (fun w => setBorrowing w onBehalfOf r₂.data.id true) w = .ok w₁ ∧
      ReserveLogic.updateInterestRates env asset 0 (if release then amount else 0) r₂ = .ok r₃ ∧
      applyIf (release = true) (fun r => AToken.transferUnderlyingTo r user amount) r₃ =
        .ok r₄ ∧
      w' = w₁.setReserve asset r₄ := by
  simp only [executeBorrow, bind_ok, exists_unit, pure_ok] at h
  obtain ⟨value, hvalue, hvalid, r₁, h₁, mode, hmode, ⟨r₂, first⟩, h₂, w₁, hw, r₃, h₃, r₄, h₄,
    rfl⟩ := h
  exact ⟨value, r₁, r₂, r₃, r₄, first, mode, w₁, hvalue, hvalid, h₁, hmode, h₂, hw, h₃, h₄, rfl⟩

theorem borrow_ok (h : borrow env w sender asset amount rateMode onBehalfOf = .ok w') :
    executeBorrow env w sender asset onBehalfOf amount rateMode true = .ok w' := by
  simp only [borrow, bind_ok, exists_unit] at h
  exact h.2.2

theorem payback_ok {p : Payback}
    (h : payback env w sender asset amount rateMode onBehalfOf = .ok p) :
    ∃ stableDebt variableDebt mode r₁ r₂,
      StableDebtToken.balanceOf env.timestamp (w.reserves asset) onBehalfOf = .ok stableDebt ∧
      VariableDebtToken.balanceOf w.impl env.timestamp (w.reserves asset) onBehalfOf =
        .ok variableDebt ∧
      InterestRateMode.ofUint rateMode = .ok mode ∧
      ValidationLogic.validateRepay (w.reserves asset) sender amount mode onBehalfOf stableDebt
        variableDebt = .ok () ∧
      p.paybackAmount = min amount (if mode = .stable then stableDebt else variableDebt) ∧
      updateState w.impl env.timestamp (w.reserves asset) = .ok r₁ ∧
      burnDebt env r₁ mode onBehalfOf p.paybackAmount = .ok r₂ ∧
      ReserveLogic.updateInterestRates env asset p.paybackAmount 0 r₂ = .ok p.reserve ∧
      p.paybackAmount ≤ stableDebt + variableDebt ∧
      applyIf (stableDebt + variableDebt - p.paybackAmount = 0)
        (fun w => setBorrowing w onBehalfOf p.reserve.data.id false) w = .ok p.world := by
  simp only [payback, getUserCurrentDebt, bind_ok, exists_unit, pure_ok, SafeMath.add_ok,
    SafeMath.sub_ok] at h
  obtain ⟨_, ⟨stableDebt, hs, variableDebt, hv, rfl⟩, mode, hmode, hvalid, r₁, h₁, r₂, h₂, r₃, h₃,
    _, ⟨-, rfl⟩, _, ⟨hle, rfl⟩, w₁, hw, rfl⟩ := h
  refine ⟨stableDebt, variableDebt, mode, r₁, r₂, hs, hv, hmode, hvalid, ?_, h₁, h₂, h₃, hle, hw⟩
  simp only [min_def]
  split_ifs <;> omega

theorem repay_ok {n : ℕ} (h : repay env w sender asset amount rateMode onBehalfOf = .ok (w', n)) :
    ∃ p t, payback env w sender asset amount rateMode onBehalfOf = .ok p ∧ n = p.paybackAmount ∧
      p.reserve.underlying.transferFrom w.self sender p.reserve.data.aTokenAddress
        p.paybackAmount = .ok t ∧
      w' = p.world.setReserve asset (p.reserve.withUnderlying t) := by
  simp only [repay, bind_ok, exists_unit, pure_ok, Prod.mk.injEq] at h
  obtain ⟨-, p, hp, t, ht, rfl, rfl⟩ := h
  exact ⟨p, t, hp, rfl, ht, rfl⟩

theorem writeOff_ok {n : ℕ}
    (h : writeOff env w sender asset amount rateMode onBehalfOf = .ok (w', n)) :
    w.impl = .withUpdateLiquidityIndex ∧ ∃ p,
      payback env w sender asset amount rateMode onBehalfOf = .ok p ∧ n = p.paybackAmount ∧
      w' = p.world.setReserve asset p.reserve := by
  simp only [writeOff, onlyLendingPoolAdmin, bind_ok, exists_unit, require_ok, pure_ok,
    Prod.mk.injEq] at h
  obtain ⟨⟨himpl, -⟩, p, hp, rfl, rfl⟩ := h
  exact ⟨himpl, p, hp, rfl, rfl⟩

theorem swapBorrowRateMode_ok (h : swapBorrowRateMode env w sender asset rateMode = .ok w') :
    ∃ stableDebt variableDebt mode r₁ r₂ r₃ r₄ first,
      StableDebtToken.balanceOf env.timestamp (w.reserves asset) sender = .ok stableDebt ∧
      VariableDebtToken.balanceOf w.impl env.timestamp (w.reserves asset) sender =
        .ok variableDebt ∧
      ValidationLogic.validateSwapRateMode env w (w.reserves asset) sender stableDebt
        variableDebt mode = .ok () ∧
      updateState w.impl env.timestamp (w.reserves asset) = .ok r₁ ∧
      (mode = .stable ∧ burnDebt env r₁ .stable sender stableDebt = .ok r₂ ∧
          mintDebt env r₂ .variable sender sender stableDebt = .ok (r₃, first) ∨
        mode ≠ .stable ∧ burnDebt env r₁ .variable sender variableDebt = .ok r₂ ∧
          mintDebt env r₂ .stable sender sender variableDebt = .ok (r₃, first)) ∧
      ReserveLogic.updateInterestRates env asset 0 0 r₃ = .ok r₄ ∧ w' = w.setReserve asset r₄ := by
  simp only [swapBorrowRateMode, getUserCurrentDebt, bind_ok, exists_unit, pure_ok] at h
  obtain ⟨-, -, _, ⟨stableDebt, hs, variableDebt, hv, rfl⟩, mode, -, hvalid, r₁, h₁,
    ⟨r₃, first⟩, h₃, r₄, h₄, rfl⟩ := h
  unfold swapDebt at h₃
  split at h₃
  case isTrue hmode =>
    obtain ⟨r₂, h₂, h₃⟩ := bind_ok.mp h₃
    exact ⟨stableDebt, variableDebt, mode, r₁, r₂, r₃, r₄, first, hs, hv, hvalid, h₁,
      .inl ⟨hmode, h₂, h₃⟩, h₄, rfl⟩
  case isFalse hmode =>
    obtain ⟨r₂, h₂, h₃⟩ := bind_ok.mp h₃
    exact ⟨stableDebt, variableDebt, mode, r₁, r₂, r₃, r₄, first, hs, hv, hvalid, h₁,
      .inr ⟨hmode, h₂, h₃⟩, h₄, rfl⟩

theorem rebalanceStableBorrowRate_ok (h : rebalanceStableBorrowRate env w asset user = .ok w') :
    ∃ stableDebt r₁ r₂ r₃ r₄ first,
      StableDebtToken.balanceOf env.timestamp (w.reserves asset) user = .ok stableDebt ∧
      updateState w.impl env.timestamp (w.reserves asset) = .ok r₁ ∧
      burnDebt env r₁ .stable user stableDebt = .ok r₂ ∧
      mintDebt env r₂ .stable user user stableDebt = .ok (r₃, first) ∧
      ReserveLogic.updateInterestRates env asset 0 0 r₃ = .ok r₄ ∧ w' = w.setReserve asset r₄ := by
  simp only [rebalanceStableBorrowRate, bind_ok, exists_unit, pure_ok] at h
  obtain ⟨-, -, stableDebt, hs, -, r₁, h₁, r₂, h₂, ⟨r₃, first⟩, h₃, r₄, h₄, rfl⟩ := h
  exact ⟨stableDebt, r₁, r₂, r₃, r₄, first, hs, h₁, h₂, h₃, h₄, rfl⟩

theorem setUserUseReserveAsCollateral_ok {use : Bool}
    (h : setUserUseReserveAsCollateral env w sender asset use = .ok w') :
    ValidationLogic.validateSetUseReserveAsCollateral env w asset sender use = .ok () ∧
      setUsingAsCollateral w sender (w.reserves asset).data.id use = .ok w' := by
  simp only [setUserUseReserveAsCollateral, bind_ok, exists_unit] at h
  exact h.2

theorem takeOne_ok (h : takeOne w receiver asset amount = .ok (w', premium)) :
    ∃ r, AToken.transferUnderlyingTo (w.reserves asset) receiver amount = .ok r ∧
      w' = w.setReserve asset r := by
  simp only [takeOne, bind_ok, pure_ok, Prod.mk.injEq] at h
  obtain ⟨_, -, _, -, r, hr, rfl, -⟩ := h
  exact ⟨r, hr, rfl⟩

theorem returnOne_ok {amountPlusPremium : ℕ}
    (h : returnOne env w receiver asset amountPlusPremium premium = .ok w') :
    ∃ r₁ total r₂ r₃ t,
      updateState w.impl env.timestamp (w.reserves asset) = .ok r₁ ∧
      AToken.totalSupply w.impl env.timestamp r₁ = .ok total ∧
      ReserveLogic.cumulateToLiquidityIndex r₁ total premium = .ok r₂ ∧
      ReserveLogic.updateInterestRates env asset amountPlusPremium 0 r₂ = .ok r₃ ∧
      r₃.underlying.transferFrom w.self receiver r₃.data.aTokenAddress amountPlusPremium =
        .ok t ∧
      w' = w.setReserve asset (r₃.withUnderlying t) := by
  simp only [returnOne, bind_ok, pure_ok] at h
  obtain ⟨r₁, h₁, total, ht, r₂, h₂, r₃, h₃, t, h₄, rfl⟩ := h
  exact ⟨r₁, total, r₂, r₃, t, h₁, ht, h₂, h₃, h₄, rfl⟩

theorem settleOne_ok {loan : FlashLoan} {m : ℕ}
    (h : settleOne env w sender loan asset amount premium m = .ok w') :
    returnOne env w loan.receiverAddress asset (amount + premium) premium = .ok w' ∨
      executeBorrow env w sender asset loan.onBehalfOf amount m false = .ok w' := by
  simp only [settleOne, bind_ok, SafeMath.add_ok] at h
  obtain ⟨_, ⟨-, rfl⟩, mode, -, h⟩ := h
  split at h
  case isTrue => exact .inl h
  case isFalse => exact .inr h

theorem finalizeTransfer_ok {recipient : Address} {before : AToken.BalancesBefore}
    (h : finalizeTransfer env w asset sender recipient amount before = .ok w') :
    ValidationLogic.validateTransfer env w sender = .ok () ∧
    (sender = recipient ∧ w' = w ∨ sender ≠ recipient ∧ ∃ w₁,
      amount ≤ before.fromBalanceBefore ∧
      applyIf (before.fromBalanceBefore - amount = 0)
        (fun w' => setUsingAsCollateral w' sender (w.reserves asset).data.id false) w = .ok w₁ ∧
      applyIf (before.toBalanceBefore = 0 ∧ amount ≠ 0)
        (fun w' => setUsingAsCollateral w' recipient (w.reserves asset).data.id true) w₁ =
          .ok w') := by
  simp only [finalizeTransfer, bind_ok, exists_unit] at h
  obtain ⟨-, -, hvalid, h⟩ := h
  refine ⟨hvalid, ?_⟩
  split at h
  case isTrue hne =>
    simp only [bind_ok, SafeMath.sub_ok] at h
    obtain ⟨_, ⟨hle, rfl⟩, w₁, h₁, h₂⟩ := h
    exact .inr ⟨hne, w₁, hle, h₁, h₂⟩
  case isFalse he => exact .inl ⟨not_not.mp he, (pure_ok.mp h).symm⟩

theorem updateLiquidtyIndexForLoss_ok
    (h : updateLiquidtyIndexForLoss env w sender asset amount = .ok w') :
    w.impl = .withUpdateLiquidityIndex ∧ ∃ total ratio,
      AToken.totalSupply w.impl env.timestamp (w.reserves asset) = .ok total ∧ total ≠ 0 ∧
      ratio = rayQuotient (amount * wadRayRatio) (total * wadRayRatio) ∧ ratio ≤ ray ∧
      w' = w.setReserve asset ((w.reserves asset).withData { (w.reserves asset).data with
        liquidityIndex := rayProduct (ray - ratio) (w.reserves asset).data.liquidityIndex }) := by
  simp only [updateLiquidtyIndexForLoss, onlyLendingPoolAdmin, bind_ok, exists_unit, require_ok,
    wadToRay_ok, rayDiv_ok, rayMul_ok, SafeMath.sub_ok, pure_ok] at h
  obtain ⟨⟨himpl, -⟩, total, ht, _, ⟨-, rfl⟩, _, ⟨-, rfl⟩, _, ⟨hne, -, rfl⟩, _, ⟨hle, rfl⟩, _,
    ⟨-, rfl⟩, -, rfl⟩ := h
  exact ⟨himpl, total, _, ht, fun h0 => hne (by rw [h0, Nat.zero_mul]), rfl, hle, rfl⟩

end LendingPool

namespace AToken

/-- `transfer` by the holder: the scaled move, then the validation by the pool. -/
def transfer (env : Env) (w : World) (sender asset recipient : Address) (amount : ℕ) :
    Tx World := do
  let (r, before) ← move w.impl env.timestamp (w.reserves asset) sender recipient amount
  LendingPool.finalizeTransfer env (w.setReserve asset r) asset sender recipient amount before

def approve (r : Reserve) (owner spender : Address) (amount : ℕ) : Tx Reserve := do
  require (r.data.aTokenAddress ≠ 0) .notAContract
  require (owner ≠ 0) .approveFromTheZeroAddress
  require (spender ≠ 0) .approveToTheZeroAddress
  return { r with aToken := { r.aToken with
    allowances := write₂ r.aToken.allowances owner spender amount } }

def transferFrom (env : Env) (w : World) (spender asset sender recipient : Address)
    (amount : ℕ) : Tx World := do
  let w ← transfer env w sender asset recipient amount
  let r := w.reserves asset
  let allowance ← SafeMath.sub (r.aToken.allowances sender spender) amount
    .transferAmountExceedsAllowance
  let r ← approve r sender spender allowance
  return w.setReserve asset r

variable {env : Env} {w w' : World} {spender sender asset recipient : Address} {amount : ℕ}

theorem transfer_ok (h : transfer env w sender asset recipient amount = .ok w') :
    ∃ r before, move w.impl env.timestamp (w.reserves asset) sender recipient amount =
        .ok (r, before) ∧
      LendingPool.finalizeTransfer env (w.setReserve asset r) asset sender recipient amount
        before = .ok w' := by
  simp only [transfer, bind_ok] at h
  obtain ⟨⟨r, before⟩, hm, hf⟩ := h
  exact ⟨r, before, hm, hf⟩

theorem transferFrom_ok (h : transferFrom env w spender asset sender recipient amount = .ok w') :
    ∃ w₁ r, transfer env w sender asset recipient amount = .ok w₁ ∧
      amount ≤ (w₁.reserves asset).aToken.allowances sender spender ∧
      r = { w₁.reserves asset with aToken := { (w₁.reserves asset).aToken with
        allowances := write₂ (w₁.reserves asset).aToken.allowances sender spender
          ((w₁.reserves asset).aToken.allowances sender spender - amount) } } ∧
      w' = w₁.setReserve asset r := by
  simp only [transferFrom, approve, bind_ok, exists_unit, require_ok, SafeMath.sub_ok,
    pure_ok] at h
  obtain ⟨w₁, h₁, _, ⟨hle, rfl⟩, _, ⟨-, -, -, rfl⟩, rfl⟩ := h
  exact ⟨w₁, _, h₁, hle, rfl, rfl⟩

end AToken

end Moola
