import Moola.CollateralManager

/-! The system as a machine that takes one external call after the other, from any
caller, between which time may pass. A flash loan is two steps, before and after the
receiver runs: whatever the receiver does in between are steps of their own callers.
A reverting call changes nothing and is no step. -/

namespace Moola

/-- The external calls that change state, by the pool's users, by the holders of its
tokens and of the underlying tokens, and by its admins. -/
inductive Call
  | deposit (asset : Address) (amount : ℕ) (onBehalfOf : Address)
  | withdraw (asset : Address) (amount : ℕ) (receiver : Address)
  | borrow (asset : Address) (amount interestRateMode : ℕ) (onBehalfOf : Address)
  | repay (asset : Address) (amount rateMode : ℕ) (onBehalfOf : Address)
  | writeOff (asset : Address) (amount rateMode : ℕ) (onBehalfOf : Address)
  | swapBorrowRateMode (asset : Address) (rateMode : ℕ)
  | rebalanceStableBorrowRate (asset user : Address)
  | setUserUseReserveAsCollateral (asset : Address) (useAsCollateral : Bool)
  | liquidationCall (collateralAsset debtAsset user : Address) (debtToCover : ℕ)
      (receiveAToken : Bool)
  | transfer (asset recipient : Address) (amount : ℕ)
  | transferFrom (asset owner recipient : Address) (amount : ℕ)
  | approve (asset spender : Address) (amount : ℕ)
  | approveStableDelegation (asset delegatee : Address) (amount : ℕ)
  | approveVariableDelegation (asset delegatee : Address) (amount : ℕ)
  | underlyingTransfer (asset recipient : Address) (amount : ℕ)
  | underlyingTransferFrom (asset owner recipient : Address) (amount : ℕ)
  | underlyingApprove (asset spender : Address) (amount : ℕ)
  | initReserve (asset : Address) (proxies : LendingPool.Proxies) (strategy : Address)
  | setReserveInterestRateStrategyAddress (asset strategy : Address)
  | setConfiguration (asset : Address) (configuration : BitVec 256)
  | setPause (val : Bool)
  | updateLiquidtyIndexForLoss (asset : Address) (amount : ℕ)
  | setLendingPoolImpl (impl : PoolImpl)

def approveStableDelegation (r : Reserve) (delegator delegatee : Address) (amount : ℕ) :
    Reserve :=
  r.withStable { r.stableDebtToken with
    borrowAllowances := write₂ r.stableDebtToken.borrowAllowances delegator delegatee amount }

def approveVariableDelegation (r : Reserve) (delegator delegatee : Address) (amount : ℕ) :
    Reserve :=
  { r with variableDebtToken := { r.variableDebtToken with
    borrowAllowances := write₂ r.variableDebtToken.borrowAllowances delegator delegatee amount } }

open LendingPool in
/-- One external call by `sender`. The owner of the addresses provider, who installs
implementations, is not an account of the model. -/
def exec (env : Env) (w : World) (sender : Address) : Call → Tx World
  | .deposit asset amount onBehalfOf => deposit env w sender asset amount onBehalfOf
  | .withdraw asset amount receiver => Prod.fst <$> withdraw env w sender asset amount receiver
  | .borrow asset amount mode onBehalfOf => borrow env w sender asset amount mode onBehalfOf
  | .repay asset amount mode onBehalfOf =>
    Prod.fst <$> repay env w sender asset amount mode onBehalfOf
  | .writeOff asset amount mode onBehalfOf =>
    Prod.fst <$> writeOff env w sender asset amount mode onBehalfOf
  | .swapBorrowRateMode asset mode => swapBorrowRateMode env w sender asset mode
  | .rebalanceStableBorrowRate asset user => rebalanceStableBorrowRate env w asset user
  | .setUserUseReserveAsCollateral asset use =>
    setUserUseReserveAsCollateral env w sender asset use
  | .liquidationCall collateral debt user amount receiveAToken =>
    liquidationCall env w sender collateral debt user amount receiveAToken
  | .transfer asset recipient amount => AToken.transfer env w sender asset recipient amount
  | .transferFrom asset owner recipient amount =>
    AToken.transferFrom env w sender asset owner recipient amount
  | .approve asset spender amount =>
    w.onReserve asset fun r => AToken.approve r sender spender amount
  | .approveStableDelegation asset delegatee amount =>
    w.onReserve asset fun r => .ok (Moola.approveStableDelegation r sender delegatee amount)
  | .approveVariableDelegation asset delegatee amount =>
    w.onReserve asset fun r => .ok (Moola.approveVariableDelegation r sender delegatee amount)
  | .underlyingTransfer asset recipient amount =>
    w.onReserve asset fun r => r.withUnderlying <$> r.underlying.transfer sender recipient amount
  | .underlyingTransferFrom asset owner recipient amount =>
    w.onReserve asset fun r =>
      r.withUnderlying <$> r.underlying.transferFrom sender owner recipient amount
  | .underlyingApprove asset spender amount =>
    w.onReserve asset fun r => .ok (r.withUnderlying (r.underlying.approve sender spender amount))
  | .initReserve asset proxies strategy => initReserve env w sender asset proxies strategy
  | .setReserveInterestRateStrategyAddress asset strategy =>
    setReserveInterestRateStrategyAddress env w sender asset strategy
  | .setConfiguration asset configuration => setConfiguration env w sender asset configuration
  | .setPause val => setPause env w sender val
  | .updateLiquidtyIndexForLoss asset amount =>
    updateLiquidtyIndexForLoss env w sender asset amount
  | .setLendingPoolImpl impl => .ok { w with impl }

/-- A flash loan whose receiver is running. -/
structure PendingLoan where
  sender : Address
  loan : LendingPool.FlashLoan
  premiums : List ℕ

structure Machine where
  world : World
  time : ℕ
  loans : List PendingLoan

def emptyReserve (underlying : ERC20) : Reserve where
  data := ⟨⟨0⟩, 0, 0, 0, 0, 0, 0, 0, 0, 0, 0, 0⟩
  aToken := ⟨Ledger.empty, fun _ _ => 0, 0⟩
  stableDebtToken := ⟨fun _ => 0, 0, 0, fun _ => 0, fun _ => 0, 0, fun _ _ => 0⟩
  variableDebtToken := ⟨Ledger.empty, fun _ _ => 0⟩
  underlying := underlying

def initialWorld (underlying : Address → ERC20) (impl : PoolImpl) (self : Address) : World where
  reserves a := emptyReserve (underlying a)
  usersConfig _ := ⟨0⟩
  reservesList _ := 0
  reservesCount := 0
  paused := false
  impl := impl
  self := self

namespace Machine

inductive Event
  | call (env : Env) (sender : Address) (c : Call)
  | flashLoanTake (sender : Address) (loan : LendingPool.FlashLoan)
  | flashLoanSettle (env : Env) (pending : PendingLoan)

inductive Fires : Machine → Event → Machine → Prop
  | call {m : Machine} {env : Env} {sender : Address} {c : Call} {w : World} :
      env.timestamp = m.time → exec env m.world sender c = .ok w →
      Fires m (.call env sender c) { m with world := w }
  | flashLoanTake {m : Machine} {sender : Address} {loan : LendingPool.FlashLoan} {w : World}
      {premiums : List ℕ} : LendingPool.flashLoanTake m.world loan = .ok (w, premiums) →
      Fires m (.flashLoanTake sender loan)
        { m with world := w, loans := ⟨sender, loan, premiums⟩ :: m.loans }
  | flashLoanSettle {m : Machine} {env : Env} {pending : PendingLoan} {rest : List PendingLoan}
      {w : World} : env.timestamp = m.time → m.loans = pending :: rest →
      LendingPool.flashLoanSettle env m.world pending.sender pending.loan pending.premiums =
        .ok w →
      Fires m (.flashLoanSettle env pending) { m with world := w, loans := rest }

theorem Fires.time {m m' : Machine} {e : Event} (h : m.Fires e m') : m'.time = m.time := by
  cases h <;> rfl

end Machine

/-- A step: an event that is allowed where it happens, or time passes between transactions. -/
inductive StepIf (allowed : Machine → Machine.Event → Prop) : Machine → Machine → Prop
  | fires {m m' : Machine} {e : Machine.Event} : allowed m e → m.Fires e m' → StepIf allowed m m'
  | tick {m : Machine} (later : ℕ) : m.time ≤ later → m.loans = [] →
      StepIf allowed m { m with time := later }

abbrev Step : Machine → Machine → Prop := StepIf fun _ _ => True

namespace StepIf

variable {allowed allowed' : Machine → Machine.Event → Prop} {m m' : Machine}

theorem mono (himp : ∀ m e, allowed m e → allowed' m e) (h : StepIf allowed m m') :
    StepIf allowed' m m' := by
  cases h with
  | fires ha he => exact .fires (himp _ _ ha) he
  | tick later hle hloans => exact .tick later hle hloans

theorem step (h : StepIf allowed m m') : Step m m' := h.mono fun _ _ _ => trivial

theorem time_le (h : StepIf allowed m m') : m.time ≤ m'.time := by
  cases h with
  | fires _ he => exact he.time.ge
  | tick later hle => exact hle

end StepIf

theorem Step.call {m : Machine} {env : Env} {w : World} (sender : Address) (c : Call)
    (htime : env.timestamp = m.time) (h : exec env m.world sender c = .ok w) :
    Step m { m with world := w } :=
  .fires trivial (.call htime h)

/-- The states of every run from a pool with nothing in it. -/
inductive Reachable : Machine → Prop
  | initial (underlying : Address → ERC20) (impl : PoolImpl) (self : Address) (time : ℕ) :
      Reachable ⟨initialWorld underlying impl self, time, []⟩
  | step {m m' : Machine} : Reachable m → Step m m' → Reachable m'

/-- What holds in a pool with nothing in it and is kept by every step holds in every run. -/
theorem Reachable.invariant {inv : Machine → Prop}
    (initial : ∀ underlying impl self time,
      inv ⟨initialWorld underlying impl self, time, []⟩)
    (step : ∀ m m', inv m → Step m m' → inv m') {m : Machine} (h : Reachable m) : inv m := by
  induction h with
  | initial underlying impl self time => exact initial underlying impl self time
  | step _ hs ih => exact step _ _ ih hs

structure Transaction where
  env : Env
  sender : Address
  call : Call

def Transaction.execute (w : World) (t : Transaction) : Tx World := exec t.env w t.sender t.call

def runAll : World → List Transaction → Tx World
  | w, [] => .ok w
  | w, t :: ts => do
    let w ← exec t.env w t.sender t.call
    runAll w ts

theorem runAll_preserves {P : World → Prop} {ts : List Transaction} {w w' : World}
    (hstep : ∀ t ∈ ts, ∀ w w', P w → exec t.env w t.sender t.call = .ok w' → P w')
    (hw : P w) (h : runAll w ts = .ok w') : P w' := by
  induction ts generalizing w with
  | nil => rwa [← Except.ok.inj h]
  | cons t ts ih =>
    obtain ⟨w₁, h₁, h⟩ := Guard.bind_ok.mp h
    exact ih (fun t' ht' => hstep t' (List.mem_cons_of_mem t ht'))
      (hstep t List.mem_cons_self w w₁ hw h₁) h

theorem Reachable.runAll {time : ℕ} {loans : List PendingLoan} {w w' : World}
    {ts : List Transaction} (hts : ∀ t ∈ ts, t.env.timestamp = time)
    (hw : Reachable ⟨w, time, loans⟩) (h : Moola.runAll w ts = .ok w') :
    Reachable ⟨w', time, loans⟩ := by
  refine runAll_preserves (P := fun w => Reachable ⟨w, time, loans⟩) ?_ hw h
  intro t ht w₁ w₂ hw₁ hexec
  exact .step hw₁ (.call t.sender t.call (hts t ht) hexec)

/-! A small deployment, for runs on fixed inputs: all assets are worth the same,
borrowing costs five percent a year, and three accounts hold the underlying tokens. -/

def sampleStrategy : DefaultReserveInterestRateStrategy where
  optimalUtilizationRate := 8 * 10 ^ 26
  excessUtilizationRate := 2 * 10 ^ 26
  baseVariableBorrowRate := 5 * 10 ^ 25
  variableRateSlope1 := 0
  variableRateSlope2 := 0
  stableRateSlope1 := 0
  stableRateSlope2 := 0
  constructed := by decide

def sampleEnv (timestamp : ℕ) : Env where
  timestamp := timestamp
  getAssetPrice _ := 1
  getMarketBorrowRate _ := 5 * 10 ^ 25
  strategy _ := some sampleStrategy
  collateralManager := .lendingPoolCollateralManagerWithReserve
  poolAdmin := 7
  lendingPoolConfigurator := 8
  isContract a := a != 0
  zero_not_contract := rfl

def sampleProxies (treasury : Address) : LendingPool.Proxies :=
  ⟨101, 102, 103, treasury, by decide, by decide, by decide⟩

/-- Ltv 7500, threshold 8000, bonus 10500, no decimals; active, borrowing at both rates. -/
def sampleConfiguration : BitVec 256 :=
  BitVec.ofNat 256 (7500 + 8000 * 2 ^ 16 + 10500 * 2 ^ 32 + 2 ^ 56 + 2 ^ 58 + 2 ^ 59)

def sampleUnderlying : ERC20 :=
  ⟨((Ledger.empty.credit 11 1000).credit 12 1000).credit 13 1000, fun _ _ => 10 ^ 18⟩

def sampleStart : World := initialWorld (fun _ => sampleUnderlying) .lendingPool 99

def sampleListing (timestamp asset treasury : ℕ) : List Transaction :=
  [⟨sampleEnv timestamp, 8, .initReserve asset (sampleProxies treasury) 104⟩,
    ⟨sampleEnv timestamp, 8, .setConfiguration asset sampleConfiguration⟩]

theorem Reachable.sample {time : ℕ} {ts : List Transaction} {w : World}
    (hts : ∀ t ∈ ts, t.env.timestamp = time) (h : Moola.runAll sampleStart ts = .ok w) :
    Reachable ⟨w, time, []⟩ :=
  Reachable.runAll hts (Reachable.initial _ _ _ _) h

end Moola
