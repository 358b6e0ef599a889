import Moola.BadDebt
import Moola.Configurator
import Moola.GracePeriod

/-! The script of MoolaFix, from the bad debt to the grace period, and what it leaves behind:
the last self-test deposits in a pool that no longer lets anybody withdraw. -/

namespace Moola

open Guard WadRayMath

def PoolImpl.revision : PoolImpl → ℕ
  | .lendingPool => 3
  | .withUpdateLiquidityIndex => 4
  | .withGracePeriod => 5

/-- The aToken deployed before the script, and the two that it installs. -/
inductive ATokenImpl
  | original
  | withTransferForMoolaFix
  | aToken
  deriving DecidableEq

def ATokenImpl.revision : ATokenImpl → ℕ
  | .original => 1
  | .withTransferForMoolaFix => 2
  | .aToken => 3

namespace MoolaFix

def ownedWallet : Address := 0x313bc86D3D6e86ba164B2B451cB0D9CfA7943e5c
def mCeloMooPool : Address := 0x9272388FDf2D6bFbA8b1Cdd99732A3D552a71346
def mooBorrower : Address := 0x1Df15534d350377732944e5bCE2FE65C5aE6766D

structure IllGain where
  account : Address
  gain : ℕ

/-- What the script reads and writes: the pool, the implementations behind the aTokens, and the
owners and admins. -/
structure Chain where
  world : World
  aTokenImpl : Address → ATokenImpl
  fixOwner : Address
  providerOwner : Address
  poolAdmin : Address
  emergencyAdmin : Address

variable (env : Env) (fix : Address) (c : Chain)

def onlyProviderOwner : Tx Unit :=
  require (c.providerOwner = fix) .ownableCallerIsNotTheOwner

def setEmergencyAdmin (admin : Address) : Tx Chain := do
  onlyProviderOwner fix c
  return { c with emergencyAdmin := admin }

def setPoolAdmin (admin : Address) : Tx Chain := do
  onlyProviderOwner fix c
  return { c with poolAdmin := admin }

def setLendingPoolImpl (impl : PoolImpl) : Tx Chain := do
  onlyProviderOwner fix c
  require (c.world.impl.revision < impl.revision) .alreadyInitialized
  return { c with world := { c.world with impl } }

def transferOwnership (newOwner : Address) : Tx Chain := do
  onlyProviderOwner fix c
  require (newOwner ≠ 0) .ownableNewOwnerIsTheZeroAddress
  return { c with providerOwner := newOwner }

def Chain.adminEnv : Env := { env with poolAdmin := c.poolAdmin }

def Chain.onWorld (f : Env → World → Tx World) : Tx Chain := do
  let w ← f (c.adminEnv env) c.world
  return { c with world := w }

def Chain.run (call : Call) : Tx Chain := c.onWorld env fun env w => exec env w fix call

def Chain.runAll : Chain → List Call → Tx Chain
  | c, [] => .ok c
  | c, call :: calls => do
    let c ← c.run env fix call
    c.runAll calls

def setPoolPause (val : Bool) : Tx Chain := do
  require (c.emergencyAdmin = fix) .lpcCallerNotEmergencyAdmin
  c.onWorld env fun env w => LendingPool.setPause env w env.lendingPoolConfigurator val

def setReserveFactor (asset : Address) (percent : ℕ) : Tx Chain :=
  c.onWorld env fun env w => LendingPoolConfigurator.setReserveFactor env w fix asset percent

def setReserveParams (asset : Address) (ltv threshold bonus : ℕ) : Tx Chain :=
  c.onWorld env fun env w =>
    LendingPoolConfigurator.configureReserveAsCollateral env w fix asset ltv threshold bonus

/-- Only the aToken of the pool sets its treasury when it is initialized. -/
def updateAToken (asset treasury : Address) (impl : ATokenImpl) : Tx Chain := do
  LendingPoolConfigurator.onlyPoolAdmin (c.adminEnv env) fix
  let r := c.world.reserves asset
  require (r.data.aTokenAddress ≠ 0) .notAContract
  require ((c.aTokenImpl asset).revision < impl.revision) .alreadyInitialized
  let treasury := if impl = .aToken then treasury else r.aToken.treasury
  return { c with
    world := c.world.setReserve asset { r with aToken := { r.aToken with treasury := treasury } }
    aTokenImpl := write c.aTokenImpl asset impl }

def setMtokenImpl (implementation : ATokenImpl) : Tx Chain := do
  let c ← updateAToken env fix c CELO ownedWallet implementation
  let c ← updateAToken env fix c cUSD ownedWallet implementation
  let c ← updateAToken env fix c cEUR ownedWallet implementation
  let c ← updateAToken env fix c cREAL ownedWallet implementation
  updateAToken env fix c MOO ownedWallet implementation

def transferToMoolaFix (asset holder : Address) (amount : ℕ) : Tx Chain := do
  require (c.aTokenImpl asset = .withTransferForMoolaFix) .noSuchFunction
  require (c.poolAdmin = fix) .callerNotPoolAdmin
  c.onWorld env fun env w => AToken.transfer env w holder asset fix amount

def Chain.balance (asset account : Address) : ℕ :=
  (c.world.reserves asset).underlying.ledger.balances account

def transferTokensFromOwnedWallet : Tx Chain := do
  let c ← transferToMoolaFix env fix c CELO ownedWallet 1655727647999204334996
  let c ← transferToMoolaFix env fix c cUSD ownedWallet 3792807757762638659755
  let c ← transferToMoolaFix env fix c cEUR ownedWallet 78104307936956667012
  transferToMoolaFix env fix c cREAL ownedWallet 48578966742446084975

def transferMceloFromExploiter : Tx Chain := do
  let c ← transferToMoolaFix env fix c CELO mooBorrower 447386386370725523222
  transferToMoolaFix env fix c CELO 0xeDFc4dD20A77Dd5E802724576E822Fe1A9Cf27e3
    1998218281124763710708

def advantagersMcelo : List IllGain :=
  [⟨0xbbe97c3fa452b95E0A4603Bffbee475dFaD44e3B, 93120927152610164336331⟩,
    ⟨0x9FD3E70FF099d3bf347D469d35A75ca1847177d9, 119215462299749841714410⟩,
    ⟨0x86d208A677DA4F7d460AFcf2bb239B885B0cC451, 11860097768889023321286⟩,
    ⟨0x70Fb402e73FefB025F93E70eaD8cFA0ec8e092Ba, 34200000000000000000000⟩,
    ⟨0x4532CC41475b46f4A12da4f03B806655D2c692fB, 6578450000000000000000⟩,
    ⟨0xd4DC77165051bc2AeAdFf2C8A681B87163E47820, 7015470000000000000000⟩,
    ⟨0x278B972Fc3c3eE80a3e7Da9ea7431c9637161D5B, 918570000000000000000⟩,
    ⟨0x65E0d48f7B8eB2f33E8Eb38a33b8Bb4E2C0Be001, 401320000000000000000⟩,
    ⟨0x6860Aefc5f684Dc757908De2fb624b44982134a2, 57110000000000000000⟩,
    ⟨0x54F95b76E12F848760864b802d0225E31a343d70, 657144100000000000000000⟩,
    ⟨0x3f92B0032cBCA6787D94e2C737F7C7Cd3351aF91, 381824972519241633264⟩]

def transferMceloFromAdvantagers : Chain → List IllGain → Tx Chain
  | c, [] => .ok c
  | c, g :: gs => do
    let c ← transferToMoolaFix env fix c CELO g.account g.gain
    transferMceloFromAdvantagers c gs

def toAdvantagersMoo : List IllGain :=
  [⟨0xbbe97c3fa452b95E0A4603Bffbee475dFaD44e3B, 22620415311425833000000⟩,
    ⟨0x9FD3E70FF099d3bf347D469d35A75ca1847177d9, 33325450585013636917729⟩,
    ⟨0x86d208A677DA4F7d460AFcf2bb239B885B0cC451, 3421645084954286261176⟩,
    ⟨0x4532CC41475b46f4A12da4f03B806655D2c692fB, 10178000000000000000000⟩,
    ⟨0xd4DC77165051bc2AeAdFf2C8A681B87163E47820, 10900340000000000000000⟩,
    ⟨0x278B972Fc3c3eE80a3e7Da9ea7431c9637161D5B, 1469700000000000000000⟩,
    ⟨0x65E0d48f7B8eB2f33E8Eb38a33b8Bb4E2C0Be001, 1308120000000000000000⟩,
    ⟨0x6860Aefc5f684Dc757908De2fb624b44982134a2, 207430000000000000000⟩,
    ⟨0x54F95b76E12F848760864b802d0225E31a343d70, 2283957000000000000000000⟩,
    ⟨0x3f92B0032cBCA6787D94e2C737F7C7Cd3351aF91, 121194297701153499321⟩]

def transferMooToAdvantagers : Tx Chain := do
  require (2393718942463223448120007 ≤ c.balance MOO fix) .notEnoughMooForAdvantagers
  c.runAll env fix (toAdvantagersMoo.map fun g => .underlyingTransfer MOO g.account g.gain)

/-- `sync` is the call on the pair, which touches nothing that the script reads. -/
def transferMceloFromAndDepositMooToPool (sync : Tx Unit) : Tx Chain := do
  let c ← transferToMoolaFix env fix c CELO mCeloMooPool 675929253603686065263591
  let c ← c.run env fix (.underlyingTransfer MOO mCeloMooPool 2461294965967200813100394)
  match sync with
  | .ok _ => .ok c
  | .error _ => .error .poolSyncFailed

def refuses (call : Call) (failure : Revert) : Tx Unit :=
  match c.run env fix call with
  | .ok _ => .error failure
  | .error _ => .ok ()

/-- A call that has to revert with one text; a revert without a text is not caught. -/
def refusesWith (call : Call) (reason failure : Revert) : Tx Unit :=
  match c.run env fix call with
  | .ok _ => .error .shouldNotAllowLiquidationCall
  | .error e =>
    if e.message = "" then .error e
    else if e.message = reason.message then .ok ()
    else .error failure

def testAmount : ℕ := 10 ^ 18

def testFrozenMoo : Tx Chain := do
  let c ← c.runAll env fix
    [.repay MOO (5 * 10 ^ 16) 2 0xF3f8d518347a3F46E8a3cDb4207fB92e177Be5e2,
      .transfer MOO ownedWallet (testAmount / 2), .withdraw MOO (testAmount / 2) fix]
  refusesWith env fix c
    (.liquidationCall MOO cEUR 0x8f3ea6acaa7faFF240A088ffFeae3A404F4018B4 (10 ^ 17) false)
    .lpLiquidationCallFailed .liquidationShouldBeAllowed
  refuses env fix c (.deposit MOO testAmount fix) .shouldNotAllowDeposits
  refuses env fix c (.borrow MOO (10 ^ 16) 2 fix) .shouldNotAllowBorrow
  return c

def testGracePeriodActions : Tx Chain := do
  let c ← c.run env fix (.deposit cUSD testAmount fix)
  let c ← c.run env fix (.repay cUSD (5 * 10 ^ 16) 2 0xb3208649Fa0835368EfeD20b686402B60497475f)
  refuses env fix c (.transfer cUSD ownedWallet (testAmount / 2)) .shouldNotAllowTransfers
  refuses env fix c (.borrow CELO (10 ^ 17) 2 fix) .shouldNotAllowBorrow
  refuses env fix c (.withdraw cUSD testAmount fix) .shouldNotAllowWithdraw
  refusesWith env fix c
    (.liquidationCall CELO cUSD 0xb3208649Fa0835368EfeD20b686402B60497475f (10 ^ 17) false)
    .gracePeriod .invalidRevertReasonForLiquidation
  return c

def setReserveFactors (percent : ℕ) : Tx Chain := do
  let c ← setReserveFactor env fix c CELO percent
  let c ← setReserveFactor env fix c cUSD percent
  let c ← setReserveFactor env fix c cEUR percent
  let c ← setReserveFactor env fix c cREAL percent
  setReserveFactor env fix c MOO percent

/-- Steps 5 to 7: MoolaFix becomes the admin and the pool is unpaused. -/
def takeControl : Tx Chain := do
  let c ← setEmergencyAdmin fix c fix
  let c ← setPoolAdmin fix c fix
  let c ← setLendingPoolImpl fix c .withUpdateLiquidityIndex
  let c ← setReserveFactors env fix c 0
  let c ← setPoolPause env fix c false
  setMtokenImpl env fix c .withTransferForMoolaFix

/-- Steps 8 to 13: the tokens to repay with. -/
def collect (sync : Tx Unit) : Tx Chain := do
  let c ← transferTokensFromOwnedWallet env fix c
  let c ← c.run env fix (.repay MOO 1858113235812542542102024 2 mooBorrower)
  let c ← transferMceloFromExploiter env fix c
  let c ← transferMceloFromAdvantagers env fix c advantagersMcelo
  let c ← transferMooToAdvantagers env fix c
  transferMceloFromAndDepositMooToPool env fix c sync

/-- Steps 14 to 18: two rounds of repayments, the write-off and the new liquidity indexes. -/
def settleBadDebt : Tx Chain := do
  let (w, mem) ← firstRoundRepay (c.adminEnv env) fix c.world populateMem
  let c ← { c with world := w }.runAll env fix
    [.withdraw CELO maxUint256 fix, .withdraw cUSD maxUint256 fix, .withdraw cEUR maxUint256 fix,
      .withdraw cREAL maxUint256 fix]
  let (w, mem) ← secondRoundRepay (c.adminEnv env) fix c.world mem
  let (w, celo, ceur) ← mem.writeOffBadDebt (c.adminEnv env) fix w
  let c ← transferToMoolaFix env fix { c with world := w } MOO exploiterAddress
    5667837247900688785843099
  let c ← c.run env fix (.withdraw MOO 5667837247900688785843099 fix)
  let c ← setMtokenImpl env fix c .aToken
  c.runAll env fix [.updateLiquidtyIndexForLoss CELO celo, .updateLiquidtyIndexForLoss cEUR ceur]

/-- Steps 19 to 21: the risk parameters, and a check of every action. -/
def reconfigure : Tx Chain := do
  let c ← setReserveParams env fix c CELO 6500 7000 10500
  let c ← setReserveParams env fix c cEUR 4500 5000 11000
  let c ← setReserveParams env fix c cREAL 1 1 11000
  let c ← setReserveParams env fix c MOO 1 1 11000
  let c ← setReserveFactors env fix c 1000
  c.runAll env fix
    [.deposit cUSD testAmount fix, .borrow CELO (testAmount / 100) 2 fix,
      .borrow CELO (testAmount / 100) 1 fix, .deposit CELO (testAmount / 100) fix,
      .withdraw CELO (testAmount / 100) fix, .borrow cEUR (testAmount / 100) 2 fix,
      .borrow cEUR (testAmount / 100) 1 fix, .repay CELO maxUint256 2 fix,
      .repay CELO maxUint256 1 fix, .repay cEUR maxUint256 2 fix, .repay cEUR maxUint256 1 fix,
      .withdraw cUSD maxUint256 fix]

/-- Steps 22 to 24: MOO is frozen and the grace period begins. -/
def beginGracePeriod : Tx Chain := do
  let c ← c.run env fix (.deposit MOO testAmount fix)
  let c ← c.onWorld env fun env w => LendingPoolConfigurator.freezeReserve env w fix MOO
  let c ← testFrozenMoo env fix c
  let c ← setLendingPoolImpl fix c .withGracePeriod
  testGracePeriodActions env fix c

/-- Steps 25 to 28: the pool is paused, and everything goes to the owner. -/
def handOver : Tx Chain := do
  let c ← setPoolPause env fix c true
  require (c.world.paused = true) .poolDidNotPause
  let c ← setEmergencyAdmin fix c ownedWallet
  let c ← setPoolAdmin fix c ownedWallet
  let c ← transferOwnership fix c ownedWallet
  let c ← c.run env fix (.underlyingTransfer MOO ownedWallet (c.balance MOO fix))
  let c ← c.run env fix (.underlyingTransfer cUSD ownedWallet (c.balance cUSD fix))
  c.run env fix (.underlyingTransfer cREAL ownedWallet (c.balance cREAL fix))

def requireMTotalLessThan (asset : Address) (amount : ℕ) : Tx Unit := do
  let total ← AToken.totalSupply c.world.impl env.timestamp (c.world.reserves asset)
  require (total < amount) .requirementFailed

def requireUnderlyingGreaterThan (asset : Address) (amount : ℕ) : Tx Unit :=
  require (amount < (c.world.reserves asset).cash) .requirementFailed

def checkTotals : Tx Unit := do
  requireMTotalLessThan env c CELO 8206100000000000000000000
  requireMTotalLessThan env c cUSD 3484550000000000000000000
  requireMTotalLessThan env c cEUR 1135950000000000000000000
  requireMTotalLessThan env c cREAL 177500000000000000000000
  requireMTotalLessThan env c MOO 1888050000000000000000000
  requireUnderlyingGreaterThan c CELO 8126850000000000000000000
  requireUnderlyingGreaterThan c cUSD 641600000000000000000000
  requireUnderlyingGreaterThan c cEUR 765100000000000000000000
  requireUnderlyingGreaterThan c cREAL 3700000000000000000000
  requireUnderlyingGreaterThan c MOO 1884550000000000000000000

def execute (caller : Address) (sync : Tx Unit) : Tx Chain := do
  require (c.fixOwner = caller) .ownableCallerIsNotTheOwner
  let c ← takeControl env fix c
  let c ← collect env fix c sync
  let c ← settleBadDebt env fix c
  let c ← reconfigure env fix c
  let c ← beginGracePeriod env fix c
  let c ← handOver env fix c
  checkTotals env c
  return c

def LeavesNothing (fix : Address) (c : Chain) : Prop :=
  (∀ asset ∈ [CELO, cUSD, cEUR, cREAL, MOO],
    (c.world.reserves asset).aToken.ledger.balances fix = 0) ∧
  ∀ asset ∈ [cUSD, cREAL, MOO], c.balance asset fix = 0

variable {env fix c} {c' : Chain} {w w' : World} {asset : Address}

theorem run_ok {call : Call} (h : c.run env fix call = .ok c') :
    ∃ w, exec (c.adminEnv env) c.world fix call = .ok w ∧ c' = { c with world := w } := by
  obtain ⟨w, hw, he⟩ := bind_ok.mp h
  exact ⟨w, hw, (pure_ok.mp he).symm⟩

theorem deposit_holds {sender user : Address} {amount : ℕ}
    (h : LendingPool.deposit env w sender asset amount user = .ok w') :
    (w'.reserves asset).aToken.ledger.balances user ≠ 0 := by
  obtain ⟨r₁, r₂, t, r₃, first, -, -, -, hmint, hflag⟩ := LendingPool.deposit_ok h
  obtain ⟨hflags, -⟩ := LendingPool.applyIf_setUsingAsCollateral_ok hflag
  obtain ⟨-, -, hscaled, -, rfl⟩ := AToken.mint_ok hmint
  rw [hflags.reserves, World.setReserve_reserves_self]
  simp only [Reserve.withALedger_aToken_ledger, Ledger.credit_balances, if_true]
  omega

theorem repay_eases {sender account : Address} {amount rateMode n : ℕ}
    (h : LendingPool.repay env w sender asset amount rateMode account = .ok (w', n)) (a : Address) :
    (w.reserves a).Eases (w'.reserves a) := by
  obtain ⟨mode, -, heffect⟩ := LendingPool.repay_effect h
  exact heffect.eases (by simp [Reserve.Easing]) a

theorem underlyingTransfer_eases {sender recipient : Address} {amount : ℕ}
    (h : exec env w sender (.underlyingTransfer asset recipient amount) = .ok w') (a : Address) :
    (w.reserves a).Eases (w'.reserves a) := by
  simp only [exec, World.onReserve_ok, map_ok] at h
  obtain ⟨r, ⟨t, -, rfl⟩, rfl⟩ := h
  by_cases ha : a = asset
  · subst ha
    rw [World.setReserve_reserves_self]
    exact .withUnderlying t
  · rw [World.setReserve_reserves_of_ne ha]
    exact .refl _

theorem testGracePeriodActions_holds (h : testGracePeriodActions env fix c = .ok c') :
    (c'.world.reserves cUSD).aToken.ledger.balances fix ≠ 0 := by
  simp only [testGracePeriodActions, bind_ok, exists_unit, pure_ok] at h
  obtain ⟨c₁, hdeposit, c₂, hrepay, -, -, -, -, rfl⟩ := h
  obtain ⟨w₁, hw₁, rfl⟩ := run_ok hdeposit
  obtain ⟨w₂, hw₂, rfl⟩ := run_ok hrepay
  obtain ⟨⟨_, n⟩, hpaid, rfl⟩ := map_ok.mp hw₂
  have hpos := deposit_holds hw₁
  have hle := (repay_eases hpaid cUSD).balances fix
  exact fun hzero => hpos (Nat.le_zero.mp (hle.trans hzero.le))

theorem handOver_eases (h : handOver env fix c = .ok c') (a : Address) :
    (c.world.reserves a).Eases (c'.world.reserves a) := by
  simp only [handOver, setPoolPause, setEmergencyAdmin, setPoolAdmin, transferOwnership,
    Chain.onWorld, LendingPool.setPause, bind_ok, exists_unit, pure_ok] at h
  obtain ⟨_, ⟨-, w₁, ⟨-, rfl⟩, rfl⟩, -, _, ⟨-, rfl⟩, _, ⟨-, rfl⟩, _, ⟨-, -, rfl⟩, c₂, hmoo, c₃,
    hcusd, hcreal⟩ := h
  obtain ⟨w₂, hw₂, rfl⟩ := run_ok hmoo
  obtain ⟨w₃, hw₃, rfl⟩ := run_ok hcusd
  obtain ⟨w₄, hw₄, rfl⟩ := run_ok hcreal
  exact ((underlyingTransfer_eases hw₂ a).trans (underlyingTransfer_eases hw₃ a)).trans
    (underlyingTransfer_eases hw₄ a)

/-- Every run that succeeds ends with mcUSD in MoolaFix. -/
theorem execute_leaves_mcusd {caller : Address} {sync : Tx Unit}
    (h : execute env fix c caller sync = .ok c') : ¬LeavesNothing fix c' := by
  simp only [execute, bind_ok, exists_unit, pure_ok] at h
  obtain ⟨-, c₁, -, c₂, -, c₃, -, c₄, -, c₅, hgrace, c₆, hover, -, rfl⟩ := h
  simp only [beginGracePeriod, bind_ok] at hgrace
  obtain ⟨_, -, _, -, _, -, _, -, htest⟩ := hgrace
  rintro ⟨hmTokens, -⟩
  have hpos := testGracePeriodActions_holds htest
  have hle := (handOver_eases hover cUSD).balances fix
  have hzero := hmTokens cUSD (by simp)
  exact hpos (by omega)

def holders : List (Address × ℕ) → Ledger Address
  | [] => Ledger.empty
  | (account, amount) :: hs => (holders hs).credit account amount

def wad : ℕ := 10 ^ 18

def fixReserve (id aToken : ℕ) (mTokens debts underlying : List (Address × ℕ)) : Reserve where
  data :=
    { configuration := ⟨sampleConfiguration + BitVec.ofNat 256 (18 * 2 ^ 48)⟩
      liquidityIndex := ray
      variableBorrowIndex := ray
      currentLiquidityRate := 0
      currentVariableBorrowRate := 0
      currentStableBorrowRate := 5 * 10 ^ 25
      lastUpdateTimestamp := 40
      aTokenAddress := aToken
      stableDebtTokenAddress := aToken + 1
      variableDebtTokenAddress := aToken + 2
      interestRateStrategyAddress := 104
      id := id }
  aToken := ⟨holders mTokens, fun _ _ => 0, ownedWallet⟩
  stableDebtToken := ⟨fun _ => 0, 0, 0, fun _ => 0, fun _ => 0, 0, fun _ _ => 0⟩
  variableDebtToken := ⟨holders debts, fun _ _ => 0⟩
  underlying := ⟨holders underlying, fun _ _ => maxUint256⟩

def gains (gs : List IllGain) : List (Address × ℕ) := gs.map fun g => (g.account, g.gain)

def celoReserve : Reserve := fixReserve 0 101
  ((11, 8150000 * wad) :: (ownedWallet, 1655727647999204334996) ::
    (mooBorrower, 447386386370725523222) ::
    (0xeDFc4dD20A77Dd5E802724576E822Fe1A9Cf27e3, 1998218281124763710708) ::
    (mCeloMooPool, 675929253603686065263591) :: gains advantagersMcelo)
  [(exploiterAddress, 1000 * wad)]
  [(101, 9800000 * wad), (12, 2000 * wad)]

def cusdReserve : Reserve := fixReserve 1 201
  [(11, 3000000 * wad), (ownedWallet, 3792807757762638659755)]
  [(exploiterAddress, 1000 * wad), (0xb3208649Fa0835368EfeD20b686402B60497475f, wad)]
  [(201, 3000000 * wad), (12, 2000 * wad)]

def ceurReserve : Reserve := fixReserve 2 301
  [(11, 1000000 * wad), (ownedWallet, 78104307936956667012)]
  [(exploiterAddress, 1000 * wad), (0xE312D7d632F147c0C4963F2B1c14D010971C11A9, 20000 * wad),
    (0x8f3ea6acaa7faFF240A088ffFeae3A404F4018B4, wad)]
  [(301, 979000 * wad), (12, 1000 * wad)]

def crealReserve : Reserve := fixReserve 3 401
  [(11, 10000 * wad), (ownedWallet, 48578966742446084975)] []
  [(401, 10049 * wad)]

def mooReserve : Reserve := fixReserve 4 501
  [(11, 1886000 * wad), (exploiterAddress, 5667837247900688785843099),
    (0x8f3ea6acaa7faFF240A088ffFeae3A404F4018B4, wad)]
  [(mooBorrower, wad), (0xF3f8d518347a3F46E8a3cDb4207fB92e177Be5e2, wad)]
  [(501, 7553836 * wad), (12, 5000000 * wad)]

def flags (collateral borrowing : List ℕ) : UserConfigurationMap :=
  ⟨BitVec.ofNat 256 ((borrowing.map fun i => 4 ^ i).sum + (collateral.map fun i => 2 * 4 ^ i).sum)⟩

def fixUsersConfig (a : Address) : UserConfigurationMap :=
  if a = exploiterAddress then flags [4] [0, 1, 2]
  else if a = mooBorrower then flags [0] [4]
  else if a = 0xb3208649Fa0835368EfeD20b686402B60497475f then flags [] [1]
  else if a = 0xE312D7d632F147c0C4963F2B1c14D010971C11A9 then flags [] [2]
  else if a = 0x8f3ea6acaa7faFF240A088ffFeae3A404F4018B4 then flags [4] [2]
  else if a = 0xF3f8d518347a3F46E8a3cDb4207fB92e177Be5e2 then flags [] [4]
  else flags [] []

def fixWorld : World where
  reserves a :=
    if a = CELO then celoReserve else if a = cUSD then cusdReserve else if a = cEUR then ceurReserve
    else if a = cREAL then crealReserve else if a = MOO then mooReserve
    else emptyReserve sampleUnderlying
  usersConfig := fixUsersConfig
  reservesList i := [CELO, cUSD, cEUR, cREAL, MOO].getD i 0
  reservesCount := 5
  paused := true
  impl := .lendingPool
  self := 99

def fixChain : Chain where
  world := fixWorld
  aTokenImpl _ := .original
  fixOwner := ownedWallet
  providerOwner := 12
  poolAdmin := 7
  emergencyAdmin := 7

def fixEnv : Env := { sampleEnv 40 with getAssetPrice := fun _ => wad }

theorem fixChain_executes : (do
    let c ← execute fixEnv 12 fixChain ownedWallet (.ok ())
    return (c.world.reserves cUSD).aToken.ledger.balances 12) = .ok wad := by
  decide +kernel

theorem execute_leaves_mtokens : ¬ ∀ (env : Env) (fix : Address) (c c' : Chain)
    (caller : Address) (sync : Tx Unit), execute env fix c caller sync = .ok c' →
    LeavesNothing fix c' := by
  intro hleaves
  obtain ⟨c, h, hrest⟩ := bind_ok.mp fixChain_executes
  have hzero := (hleaves _ _ _ _ _ _ h).1 cUSD (by simp)
  rw [pure_ok, hzero] at hrest
  exact absurd hrest (by decide)

theorem fixChain_leaves_mcusd : ∃ c, execute fixEnv 12 fixChain ownedWallet (.ok ()) =
    .ok c ∧ ¬LeavesNothing 12 c := by
  obtain ⟨c, h, -⟩ := bind_ok.mp fixChain_executes
  exact ⟨c, h, execute_leaves_mcusd h⟩

end MoolaFix

end Moola
