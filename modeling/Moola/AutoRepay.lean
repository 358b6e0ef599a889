import Mathlib.Data.Finset.Insert
import Moola.Adapters

/-! AutoRepay lets whitelisted accounts repay the debt of a user from the user's own aTokens,
when the health factor of the user is below a limit that the user set. The limits are checked
in the outer call alone; what a flash loan calls back in the middle of it only asks who called. -/

namespace Moola

open Guard WadRayMath PercentageMath

def LendingPool.getUserAccountData (env : Env) (w : World) (user : Address) :
    Tx (GenericLogic.AccountData × ℕ) := do
  let data ← GenericLogic.calculateUserAccountData env w user
  let availableBorrowsETH ← GenericLogic.calculateAvailableBorrowsETH data.totalCollateralInETH
    data.totalDebtInETH data.avgLtv
  return (data, availableBorrowsETH)

namespace AutoRepay

open Adapter (PermitSignature Pull RepayParams element)

structure UserInfo where
  minHealthFactor : ℕ
  maxHealthFactor : ℕ

@[ext]
structure State where
  world : World
  owner : Address
  whitelistedAddresses : Finset Address
  userInfos : Address → UserInfo

namespace State

@[simps]
def withWorld (s : State) (w : World) : State := { s with world := w }

def onWorld (s : State) (f : World → Tx World) : Tx State := s.withWorld <$> f s.world

end State

/-- What the contract calls outside the repository. A token of a path or the router may call
anybody in turn, this contract included, and so change all of the state. -/
structure Outside extends Adapter.Outside where
  duringApprove : State → Tx State
  duringSwap : State → Tx State
  duringTransfer : State → Tx State

/-- What a call took from a user and passed on to its caller; in a swap, with the amount that
the router asks for. -/
structure Receipt where
  pull : Pull
  amounts0 : Option ℕ
  caller : Address
  forwarded : ℕ

def fee : ℕ := 10

def hundredPercent : ℕ := 10000

def maxSlippage : ℕ := 200

section Source

variable (o : Outside) (env : Env) (adapter : Address)

def whitelistAddress (s : State) (sender userAddress : Address) : Tx State := do
  require (s.owner = sender) .ownableCallerIsNotTheOwner
  return { s with whitelistedAddresses := insert userAddress s.whitelistedAddresses }

def removeFromWhitelist (s : State) (sender userAddress : Address) : Tx State := do
  require (s.owner = sender) .ownableCallerIsNotTheOwner
  return { s with whitelistedAddresses := s.whitelistedAddresses.erase userAddress }

def renounceOwnership (s : State) (sender : Address) : Tx State := do
  require (s.owner = sender) .ownableCallerIsNotTheOwner
  return { s with owner := 0 }

def transferOwnership (s : State) (sender newOwner : Address) : Tx State := do
  require (s.owner = sender) .ownableCallerIsNotTheOwner
  require (newOwner ≠ 0) .ownableNewOwnerIsTheZeroAddress
  return { s with owner := newOwner }

def rescueTokens (s : State) (sender : Address) : Tx State := do
  require (s.owner = sender) .ownableCallerIsNotTheOwner
  o.duringTransfer s

def setMinMaxHealthFactor (s : State) (sender : Address) (minHealthFactor maxHealthFactor : ℕ) :
    Tx State := do
  require (minHealthFactor ≤ maxHealthFactor) .maxHealthFactorBelowMin
  return { s with userInfos := write s.userInfos sender ⟨minHealthFactor, maxHealthFactor⟩ }

def checkMinHealthFactor (s : State) (user : Address) : Tx ℕ := do
  let (data, _) ← LendingPool.getUserAccountData env s.world user
  require (data.healthFactor < (s.userInfos user).minHealthFactor) .healthFactorNotBelowMin
  return data.healthFactor

def checkHealthFactorIncreased (s : State) (user : Address) (healthFactorBefore : ℕ) :
    Tx Unit := do
  let (data, _) ← LendingPool.getUserAccountData env s.world user
  require (healthFactorBefore < data.healthFactor ∧
    data.healthFactor ≤ (s.userInfos user).maxHealthFactor) .healthFactorNotIncreased

def swapTokensForExactTokensWithPath (s : State)
    (assetToSwapFromPrice assetToSwapToPrice : Address) (path : List Address)
    (maxAmountToSwap amountToReceive : ℕ) : Tx State := do
  require (2 ≤ path.length) .wrongPathProvided
  Adapter.checkMaxAmountToSwap o.toOutside env maxSlippage assetToSwapFromPrice assetToSwapToPrice
    maxAmountToSwap amountToReceive
  let first ← element path 0
  let s ← s.onWorld fun w => o.safeApprove w first adapter o.uniswapRouter maxAmountToSwap
  let s ← o.duringApprove s
  let (w, amounts) ←
    o.swapTokensForExactTokens s.world amountToReceive maxAmountToSwap path adapter
  let s ← o.duringSwap (s.withWorld w)
  let _ ← element amounts 0
  return s

def feeOf (amount : ℕ) : Tx ℕ := do
  let product ← SafeMath.mul amount fee
  SafeMath.div product hundredPercent

/-- The collateral is another asset than the debt: as much as the router asks for is pulled and
swapped, and the fee on it is passed on. -/
def doSwap (s : State) (p : RepayParams) (signature : PermitSignature) (caller : Address)
    (needed : ℕ) : Tx (State × Receipt) := do
  let amounts ← o.getAmountsIn s.world needed p.path
  let amounts0 ← element amounts 0
  require (amounts0 ≤ p.collateralAmount) .slippageTooHigh
  let feeAmount ← feeOf amounts0
  let pulled ← SafeMath.add amounts0 feeAmount
  let (w, pull) ← Adapter.transferATokenToContractAddress o.toOutside env adapter s.world
    p.collateralAsset p.user pulled signature
  let w ← AToken.transfer env w adapter p.collateralAsset caller feeAmount
  let w ← (if p.useATokenAsFrom then .ok w
    else Prod.fst <$> LendingPool.withdraw env w adapter p.collateralAsset amounts0 adapter)
  let s ← swapTokensForExactTokensWithPath o env adapter (s.withWorld w) p.collateralAsset
    p.debtAsset p.path amounts0 needed
  let s ← s.onWorld fun w => applyIf (p.useATokenAsTo = true) (fun w => do
    let balance ← AToken.balanceOf w.impl env.timestamp (w.reserves p.debtAsset) adapter
    Prod.fst <$> LendingPool.withdraw env w adapter p.debtAsset balance adapter) w
  return (s, ⟨pull, some amounts0, caller, feeAmount⟩)

/-- The collateral is the asset of the debt: it is withdrawn, and what the contract still holds
of the aTokens is passed on. -/
def doPull (s : State) (p : RepayParams) (signature : PermitSignature) (caller : Address)
    (needed : ℕ) : Tx (State × Receipt) := do
  let feeAmount ← feeOf p.debtRepayAmount
  let aTokenTransferAmount ← SafeMath.add needed feeAmount
  let (w, pull) ← Adapter.transferATokenToContractAddress o.toOutside env adapter s.world
    p.collateralAsset p.user aTokenTransferAmount signature
  let (w, _) ← LendingPool.withdraw env w adapter p.collateralAsset needed adapter
  let balance ← AToken.balanceOf w.impl env.timestamp (w.reserves p.collateralAsset) adapter
  let w ← AToken.transfer env w adapter p.collateralAsset caller balance
  return (s.withWorld w, ⟨pull, none, caller, balance⟩)

def doSwapAndPullWithFee (s : State) (p : RepayParams) (signature : PermitSignature)
    (caller : Address) (premium : ℕ) : Tx (State × Receipt) := do
  let needed ← SafeMath.add p.debtRepayAmount premium
  if p.collateralAsset ≠ p.debtAsset then doSwap o env adapter s p signature caller needed
  else doPull o env adapter s p signature caller needed

def executeOperation (s : State) (sender : Address) (assets : List Address)
    (amounts premiums : List ℕ) (initiator : Address)
    (params : Option (RepayParams × PermitSignature × Address)) : Tx (State × Receipt) := do
  require (sender = s.world.self) .callerMustBeLendingPool
  require (initiator = adapter) .onlyThisContractCanCallFlashloan
  match params with
  | none => .error .externalFailure
  | some (p, signature, caller) => do
    let debtAsset ← element assets 0
    let amount ← element amounts 0
    let s ← s.onWorld fun w => Adapter.approve adapter w debtAsset w.self amount
    let before := (s.world.reserves debtAsset).underlying.ledger.balances adapter
    let s ← s.onWorld fun w =>
      Prod.fst <$> LendingPool.repay env w adapter debtAsset amount p.rateMode p.user
    let after := (s.world.reserves debtAsset).underlying.ledger.balances adapter
    let repaidAmount ← SafeMath.sub before after
    let collateralAmount ← Adapter.collateralToSwap p.collateralAmount repaidAmount amount
    let premium ← element premiums 0
    let (s, receipt) ← doSwapAndPullWithFee o env adapter s
      { p with
        debtAsset := debtAsset
        debtRepayAmount := repaidAmount
        collateralAmount := collateralAmount }
      signature caller premium
    let debt ← SafeMath.add amount premium
    let s ← s.onWorld fun w => Adapter.approve adapter w debtAsset w.self debt
    return (s, receipt)

def flashLoan (s : State) (sender : Address) (assets : List Address) (amounts modes : List ℕ)
    (onBehalfOf : Address) (executeOperation : State → List ℕ → Tx (State × Receipt)) :
    Tx (State × Receipt) := do
  let loan := ⟨adapter, assets, amounts, modes, onBehalfOf⟩
  let (w, premiums) ← LendingPool.flashLoanTake s.world loan
  let (s, receipt) ← executeOperation (s.withWorld w) premiums
  let s ← s.onWorld fun w => LendingPool.flashLoanSettle env w sender loan premiums
  return (s, receipt)

def repayDirectly (s : State) (sender : Address) (p : RepayParams)
    (signature : PermitSignature) : Tx (State × Receipt) := do
  let mode ← InterestRateMode.ofUint p.rateMode
  let currentDebt ← (if mode = .stable then
      StableDebtToken.balanceOf env.timestamp (s.world.reserves p.debtAsset) p.user
    else VariableDebtToken.balanceOf s.world.impl env.timestamp (s.world.reserves p.debtAsset)
      p.user)
  let amountToRepay := if p.debtRepayAmount ≤ currentDebt then p.debtRepayAmount else currentDebt
  let collateralAmount ←
    Adapter.collateralToSwap p.collateralAmount amountToRepay p.debtRepayAmount
  let (s, receipt) ← doSwapAndPullWithFee o env adapter s
    { p with debtRepayAmount := amountToRepay, collateralAmount := collateralAmount }
    signature sender 0
  let s ← s.onWorld fun w => Adapter.approve adapter w p.debtAsset w.self amountToRepay
  let s ← s.onWorld fun w =>
    Prod.fst <$> LendingPool.repay env w adapter p.debtAsset amountToRepay p.rateMode p.user
  return (s, receipt)

def increaseHealthFactor (s : State) (sender : Address) (p : RepayParams)
    (signature : PermitSignature) : Tx (State × Receipt) := do
  require (sender ∈ s.whitelistedAddresses) .callerIsNotWhitelisted
  let healthFactorBefore ← checkMinHealthFactor env s p.user
  let (s, receipt) ← (if p.useFlashLoan then
      flashLoan env adapter s adapter [p.debtAsset] [p.debtRepayAmount] [0] p.user
        fun s premiums => executeOperation o env adapter s s.world.self [p.debtAsset]
          [p.debtRepayAmount] premiums adapter (some (p, signature, sender))
    else repayDirectly o env adapter s sender p signature)
  checkHealthFactorIncreased env s p.user healthFactorBefore
  return (s, receipt)

end Source

inductive Request
  | whitelistAddress (userAddress : Address)
  | removeFromWhitelist (userAddress : Address)
  | setMinMaxHealthFactor (minHealthFactor maxHealthFactor : ℕ)
  | increaseHealthFactor (p : RepayParams) (signature : PermitSignature)
  | executeOperation (assets : List Address) (amounts premiums : List ℕ) (initiator : Address)
      (params : Option (RepayParams × PermitSignature × Address))
  /-- A flash loan that somebody takes with the contract as the receiver. -/
  | flashLoan (assets : List Address) (amounts modes : List ℕ) (onBehalfOf : Address)
      (params : Option (RepayParams × PermitSignature × Address))
  | rescueTokens
  | renounceOwnership
  | transferOwnership (newOwner : Address)

/-- A call by an account that is neither the contract nor the pool, whose calls are part of the
functions above. Calls nested in others start in the middle of them. -/
structure Invocation where
  outside : Outside
  env : Env
  state : State
  adapter : Address
  caller : Address
  request : Request
  notAdapter : caller ≠ adapter
  notPool : caller ≠ state.world.self

def Invocation.run (x : Invocation) : Tx (State × Option Receipt) :=
  match x.request with
  | .whitelistAddress userAddress =>
    (·, none) <$> AutoRepay.whitelistAddress x.state x.caller userAddress
  | .removeFromWhitelist userAddress =>
    (·, none) <$> AutoRepay.removeFromWhitelist x.state x.caller userAddress
  | .setMinMaxHealthFactor minHealthFactor maxHealthFactor =>
    (·, none) <$>
      AutoRepay.setMinMaxHealthFactor x.state x.caller minHealthFactor maxHealthFactor
  | .increaseHealthFactor p signature =>
    (fun (s, receipt) => (s, some receipt)) <$>
      AutoRepay.increaseHealthFactor x.outside x.env x.adapter x.state x.caller p signature
  | .executeOperation assets amounts premiums initiator params =>
    (fun (s, receipt) => (s, some receipt)) <$> AutoRepay.executeOperation x.outside x.env
      x.adapter x.state x.caller assets amounts premiums initiator params
  | .flashLoan assets amounts modes onBehalfOf params =>
    (fun (s, receipt) => (s, some receipt)) <$>
      AutoRepay.flashLoan x.env x.adapter x.state x.caller assets amounts modes onBehalfOf
        fun s premiums => AutoRepay.executeOperation x.outside x.env x.adapter s s.world.self
          assets amounts premiums x.caller params
  | .rescueTokens => (·, none) <$> AutoRepay.rescueTokens x.outside x.state x.caller
  | .renounceOwnership => (·, none) <$> AutoRepay.renounceOwnership x.state x.caller
  | .transferOwnership newOwner =>
    (·, none) <$> AutoRepay.transferOwnership x.state x.caller newOwner

structure Executed extends Invocation where
  result : State
  receipt : Option Receipt
  ran : toInvocation.run = .ok (result, receipt)

inductive Outside.Changes (o : Outside) (s s' : State) : Prop
  | world (w : World) : o.toOutside.Changes s.world w → s.withWorld w = s' → Changes o s s'
  | duringApprove : o.duringApprove s = .ok s' → Changes o s s'
  | duringSwap : o.duringSwap s = .ok s' → Changes o s s'
  | duringTransfer : o.duringTransfer s = .ok s' → Changes o s s'

/-- A stretch of a call in which the contract takes aTokens from nobody and passes none on. What
it calls outside may do anything. -/
def Quiet (o : Outside) (adapter : Address) : State → State → Prop :=
  Relation.ReflTransGen fun s s' => o.Changes s s' ∨ s.world.LeavesDeposits adapter s'.world

/-- In the middle of a call and once, aTokens of the user go to the contract and what is forwarded
goes on to the caller; in a swap, the router has just asked for `amounts0`, and that and what is
forwarded is pulled. -/
def Receipt.Made (receipt : Receipt) (o : Outside) (env : Env) (adapter : Address)
    (path : List Address) (s s' : State) : Prop :=
  ∃ s₁ w₂ w₃ w₄, Quiet o adapter s s₁ ∧
    (∀ amounts0, receipt.amounts0 = some amounts0 →
      ∃ needed amounts, o.getAmountsIn s₁.world needed path = .ok amounts ∧
        element amounts 0 = .ok amounts0 ∧ receipt.pull.amount = amounts0 + receipt.forwarded) ∧
    receipt.pull.Transferred o.toOutside env adapter s₁.world w₂ ∧
    w₂.LeavesDeposits adapter w₃ ∧
    AToken.transfer env w₃ adapter receipt.pull.asset receipt.caller receipt.forwarded = .ok w₄ ∧
    Quiet o adapter (s₁.withWorld w₄) s'

variable {o : Outside} {env : Env} {adapter sender caller user : Address} {s s₁ s' : State}
  {w' : World} {p : RepayParams} {signature : PermitSignature} {receipt : Receipt}
  {needed premium : ℕ} {f : World → Tx World}

namespace Quiet

theorem refl (s : State) : Quiet o adapter s s := Relation.ReflTransGen.refl

theorem trans (h₁ : Quiet o adapter s s₁) (h₂ : Quiet o adapter s₁ s') : Quiet o adapter s s' :=
  Relation.ReflTransGen.trans h₁ h₂

theorem changes (h : o.Changes s s') : Quiet o adapter s s' :=
  Relation.ReflTransGen.single (.inl h)

theorem leaves (h : s.world.LeavesDeposits adapter s'.world) : Quiet o adapter s s' :=
  Relation.ReflTransGen.single (.inr h)

theorem onWorld (h : s.onWorld f = .ok s')
    (hf : ∀ w', f s.world = .ok w' → s.world.LeavesDeposits adapter w') :
    Quiet o adapter s s' := by
  obtain ⟨w', hw', rfl⟩ := map_ok.mp h
  exact leaves (hf w' hw')

end Quiet

theorem approve_quiet {asset spender : Address} {amount : ℕ}
    (h : (s.onWorld fun w => Adapter.approve adapter w asset spender amount) = .ok s') :
    Quiet o adapter s s' :=
  .onWorld h fun _ => Adapter.approve_leavesDeposits

theorem repay_quiet {asset onBehalfOf : Address} {amount rateMode : ℕ}
    (h : (s.onWorld fun w =>
      Prod.fst <$> LendingPool.repay env w adapter asset amount rateMode onBehalfOf) = .ok s') :
    Quiet o adapter s s' := by
  refine .onWorld h fun w' hw' => ?_
  obtain ⟨_, hrepay, rfl⟩ := map_ok.mp hw'
  exact LendingPool.repay_leavesDeposits hrepay

theorem swapTokensForExactTokensWithPath_quiet {assetFrom assetTo : Address}
    {path : List Address} {maxAmountToSwap amountToReceive : ℕ}
    (h : swapTokensForExactTokensWithPath o env adapter s assetFrom assetTo path maxAmountToSwap
      amountToReceive = .ok s') : Quiet o adapter s s' := by
  simp only [swapTokensForExactTokensWithPath, bind_ok, exists_unit, pure_ok] at h
  obtain ⟨-, -, first, -, s₁, happrove, s₂, hduring, ⟨w, amounts⟩, hswap, s₃, hswapping, -, -,
    rfl⟩ := h
  obtain ⟨w₁, hone, rfl⟩ := map_ok.mp happrove
  have happroved : Quiet o adapter s s₂ :=
    (Quiet.changes (.world w₁ (.safeApprove _ _ _ _ hone) rfl)).trans
      (.changes (.duringApprove hduring))
  have hswapped : Quiet o adapter s₂ s₃ :=
    (Quiet.changes (.world w (.swapTokensForExactTokens _ _ _ _ _ hswap) rfl)).trans
      (.changes (.duringSwap hswapping))
  exact happroved.trans hswapped

theorem flashLoan_ok {assets : List Address} {amounts modes : List ℕ} {onBehalfOf : Address}
    {executeOperation : State → List ℕ → Tx (State × Receipt)}
    (h : flashLoan env adapter s sender assets amounts modes onBehalfOf executeOperation =
      .ok (s', receipt)) :
    ∃ s₁ premiums s₂, executeOperation s₁ premiums = .ok (s₂, receipt) ∧
      ∀ o, Quiet o adapter s s₁ ∧ Quiet o adapter s₂ s' := by
  simp only [flashLoan, bind_ok, pure_ok, Prod.mk.injEq] at h
  obtain ⟨⟨w₁, premiums⟩, htake, ⟨s₂, _⟩, hoperation, s₃, hsettle, rfl, rfl⟩ := h
  exact ⟨_, premiums, s₂, hoperation, fun o =>
    ⟨.leaves (LendingPool.flashLoanTake_leavesDeposits htake),
      .onWorld hsettle fun _ => LendingPool.flashLoanSettle_leavesDeposits⟩⟩

def State.healthFactor (env : Env) (s : State) (user : Address) : Tx ℕ :=
  (fun data => data.1.healthFactor) <$> LendingPool.getUserAccountData env s.world user

def sampleOutside : Outside where
  toOutside := Adapter.sampleOutside
  duringApprove := .ok
  duringSwap := .ok
  duringTransfer := .ok

end AutoRepay

end Moola
