import Mathlib.Tactic.Simps.Basic
import Moola.Configuration
import Moola.Lib.Ledger

/-! The state of the system: the storage of the pool, of the three tokens of each
reserve and of the underlying token, and what a call reads from other contracts.
The configurator deploys new token proxies for every reserve, so a reserve carries
the tokens at its addresses. -/

namespace Moola

abbrev Address := ℕ

structure ReserveData where
  configuration : ReserveConfigurationMap
  liquidityIndex : ℕ
  variableBorrowIndex : ℕ
  currentLiquidityRate : ℕ
  currentVariableBorrowRate : ℕ
  currentStableBorrowRate : ℕ
  lastUpdateTimestamp : ℕ
  aTokenAddress : Address
  stableDebtTokenAddress : Address
  variableDebtTokenAddress : Address
  interestRateStrategyAddress : Address
  id : ℕ

structure InterestRates where
  liquidityRate : ℕ
  stableBorrowRate : ℕ
  variableBorrowRate : ℕ

namespace ReserveData

@[simps]
def withIndexes (d : ReserveData) (liquidityIndex variableBorrowIndex updated : ℕ) :
    ReserveData :=
  { d with
    liquidityIndex := liquidityIndex
    variableBorrowIndex := variableBorrowIndex
    lastUpdateTimestamp := updated }

@[simps]
def withRates (d : ReserveData) (rates : InterestRates) : ReserveData :=
  { d with
    currentLiquidityRate := rates.liquidityRate
    currentStableBorrowRate := rates.stableBorrowRate
    currentVariableBorrowRate := rates.variableBorrowRate }

end ReserveData

def write {α : Type} (f : Address → α) (a : Address) (v : α) : Address → α :=
  fun x => if x = a then v else f x

def write₂ {α : Type} (f : Address → Address → α) (a b : Address) (v : α) :
    Address → Address → α :=
  write f a (write (f a) b v)

@[simp] theorem write_self {α : Type} (f : Address → α) (a : Address) (v : α) :
    write f a v a = v := if_pos rfl

theorem write_of_ne {α : Type} (f : Address → α) {a x : Address} (v : α) (h : x ≠ a) :
    write f a v x = f x := if_neg h

@[simp] theorem write_write {α : Type} (f : Address → α) (a : Address) (v v' : α) :
    write (write f a v) a v' = write f a v' := by
  funext x
  unfold write
  split <;> rfl

theorem write_apply {α : Type} (f : Address → α) (a : Address) (v : α) (x : Address) :
    write f a v x = if x = a then v else f x := rfl

theorem write₂_apply {α : Type} (f : Address → Address → α) (a b : Address) (v : α)
    (x y : Address) : write₂ f a b v x y = if x = a ∧ y = b then v else f x y := by
  simp only [write₂, write_apply]
  by_cases hx : x = a
  · subst hx
    by_cases hy : y = b <;> simp [hy, write_apply]
  · simp [hx]

structure AToken where
  ledger : Ledger Address
  allowances : Address → Address → ℕ
  treasury : Address

structure StableDebtToken where
  balances : Address → ℕ
  principalSupply : ℕ
  avgStableRate : ℕ
  timestamps : Address → ℕ
  usersStableRate : Address → ℕ
  totalSupplyTimestamp : ℕ
  borrowAllowances : Address → Address → ℕ

structure VariableDebtToken where
  ledger : Ledger Address
  borrowAllowances : Address → Address → ℕ

/-- A token without fees: a transfer moves exactly its amount. -/
structure ERC20 where
  ledger : Ledger Address
  allowances : Address → Address → ℕ

structure Reserve where
  data : ReserveData
  aToken : AToken
  stableDebtToken : StableDebtToken
  variableDebtToken : VariableDebtToken
  underlying : ERC20

namespace Reserve

@[simps]
def withData (r : Reserve) (d : ReserveData) : Reserve := { r with data := d }

@[simps]
def withALedger (r : Reserve) (l : Ledger Address) : Reserve :=
  { r with aToken := { r.aToken with ledger := l } }

@[simps]
def withDebtLedger (r : Reserve) (l : Ledger Address) : Reserve :=
  { r with variableDebtToken := { r.variableDebtToken with ledger := l } }

@[simps]
def withStable (r : Reserve) (t : StableDebtToken) : Reserve := { r with stableDebtToken := t }

@[simps]
def withUnderlying (r : Reserve) (t : ERC20) : Reserve := { r with underlying := t }

/-- The liquidity that the aToken holds. -/
def cash (r : Reserve) : ℕ := r.underlying.ledger.balances r.data.aTokenAddress

end Reserve

/-- The implementation behind the proxy of the pool. -/
inductive PoolImpl
  | lendingPool
  | withUpdateLiquidityIndex
  | withGracePeriod
  deriving DecidableEq

structure World where
  reserves : Address → Reserve
  usersConfig : Address → UserConfigurationMap
  reservesList : ℕ → Address
  reservesCount : ℕ
  paused : Bool
  impl : PoolImpl
  self : Address

namespace World

def maxStableRateBorrowSizePercent : ℕ := 2500

def flashLoanPremiumTotal : ℕ := 9

def maxNumberOfReserves : ℕ := 128

def setReserve (w : World) (asset : Address) (r : Reserve) : World :=
  { w with reserves := write w.reserves asset r }

def setUserConfig (w : World) (user : Address) (c : UserConfigurationMap) : World :=
  { w with usersConfig := write w.usersConfig user c }

def onReserve (w : World) (asset : Address) (f : Reserve → Tx Reserve) : Tx World := do
  let r ← f (w.reserves asset)
  return w.setReserve asset r

def onUserConfig (w : World) (user : Address)
    (f : UserConfigurationMap → Tx UserConfigurationMap) : Tx World := do
  let c ← f (w.usersConfig user)
  return w.setUserConfig user c

variable {w w' : World} {a b u : Address} {r r' : Reserve} {c : UserConfigurationMap}

@[simp] theorem setReserve_reserves_self : (w.setReserve a r).reserves a = r := write_self _ _ _

theorem setReserve_reserves_of_ne (h : b ≠ a) : (w.setReserve a r).reserves b = w.reserves b :=
  write_of_ne _ _ h

@[simp] theorem setReserve_setReserve :
    (w.setReserve a r).setReserve a r' = w.setReserve a r' := by
  simp [setReserve]

@[simp] theorem setReserve_usersConfig : (w.setReserve a r).usersConfig = w.usersConfig := rfl

@[simp] theorem setReserve_reservesList : (w.setReserve a r).reservesList = w.reservesList := rfl

@[simp] theorem setReserve_reservesCount : (w.setReserve a r).reservesCount = w.reservesCount :=
  rfl

@[simp] theorem setReserve_impl : (w.setReserve a r).impl = w.impl := rfl

@[simp] theorem setReserve_paused : (w.setReserve a r).paused = w.paused := rfl

@[simp] theorem setReserve_self : (w.setReserve a r).self = w.self := rfl

@[simp] theorem setUserConfig_usersConfig_self : (w.setUserConfig u c).usersConfig u = c :=
  write_self _ _ _

theorem setUserConfig_usersConfig {v : Address} :
    (w.setUserConfig u c).usersConfig v = if v = u then c else w.usersConfig v := rfl

@[simp] theorem setUserConfig_reserves : (w.setUserConfig u c).reserves = w.reserves := rfl

@[simp] theorem setUserConfig_reservesList : (w.setUserConfig u c).reservesList = w.reservesList :=
  rfl

@[simp] theorem setUserConfig_reservesCount :
    (w.setUserConfig u c).reservesCount = w.reservesCount := rfl

@[simp] theorem setUserConfig_impl : (w.setUserConfig u c).impl = w.impl := rfl

@[simp] theorem setUserConfig_self : (w.setUserConfig u c).self = w.self := rfl

@[simp] theorem onReserve_ok {f : Reserve → Tx Reserve} :
    w.onReserve a f = .ok w' ↔ ∃ r, f (w.reserves a) = .ok r ∧ w.setReserve a r = w' := by
  simp [onReserve]

@[simp] theorem onUserConfig_ok {f : UserConfigurationMap → Tx UserConfigurationMap} :
    w.onUserConfig u f = .ok w' ↔
      ∃ c, f (w.usersConfig u) = .ok c ∧ w.setUserConfig u c = w' := by
  simp [onUserConfig]

end World

/-- The immutable parameters of a deployed interest rate strategy; the constructor
computes the excess utilisation from the optimal one. -/
structure DefaultReserveInterestRateStrategy where
  optimalUtilizationRate : ℕ
  excessUtilizationRate : ℕ
  baseVariableBorrowRate : ℕ
  variableRateSlope1 : ℕ
  variableRateSlope2 : ℕ
  stableRateSlope1 : ℕ
  stableRateSlope2 : ℕ
  constructed : optimalUtilizationRate + excessUtilizationRate = WadRayMath.ray

inductive CollateralManager
  | lendingPoolCollateralManager
  | lendingPoolCollateralManagerWithReserve
  deriving DecidableEq

/-- What a call reads outside the pool and its tokens: the block, the oracles, the
deployed strategies and the addresses provider. -/
structure Env where
  timestamp : ℕ
  getAssetPrice : Address → ℕ
  getMarketBorrowRate : Address → ℕ
  strategy : Address → Option DefaultReserveInterestRateStrategy
  collateralManager : CollateralManager
  poolAdmin : Address
  lendingPoolConfigurator : Address
  isContract : Address → Bool
  zero_not_contract : isContract 0 = false

inductive InterestRateMode
  | none
  | stable
  | variable
  deriving DecidableEq

def InterestRateMode.ofUint : ℕ → Tx InterestRateMode
  | 0 => .ok .none
  | 1 => .ok .stable
  | 2 => .ok .variable
  | _ => .error .invalidEnumValue

end Moola
