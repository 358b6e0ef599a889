import Moola.Custody

/-! The swap adapters. UniswapLiquiditySwapAdapterSinglePair and UniswapRepayAdapter pull the
aTokens of a user, swap them on a path of the caller's choice and act in the pool. The router,
the tokens on a path and the recovery of signatures are outside the repository. -/

namespace Moola

open Guard WadRayMath PercentageMath

namespace Adapter

structure PermitSignature where
  amount : ℕ
  deadline : ℕ
  v : ℕ
  r : ℕ
  s : ℕ

/-- What the adapters call outside the repository. Any of it may call anybody in turn. -/
structure Outside where
  uniswapRouter : Address
  /-- What `ecrecover` returns for a permit on the aToken of an asset, at the owner's nonce. -/
  signer : Address → Address → Address → PermitSignature → Address
  balanceOf : World → Address → Address → Tx ℕ
  decimals : Address → Tx ℕ
  safeApprove : World → Address → Address → Address → ℕ → Tx World
  getAmountsIn : World → ℕ → List Address → Tx (List ℕ)
  swapExactTokensForTokens : World → ℕ → ℕ → List Address → Address → Tx (World × List ℕ)
  swapExactTokensForTokensSupportingFeeOnTransferTokens :
    World → ℕ → ℕ → List Address → Address → Tx World
  swapTokensForExactTokens : World → ℕ → ℕ → List Address → Address → Tx (World × List ℕ)

/-- What an adapter takes from a user, and the permit it used. -/
structure Pull where
  user : Address
  asset : Address
  amount : ℕ
  permit : Option PermitSignature

def element (l : List ℕ) (i : ℕ) : Tx ℕ :=
  match l[i]? with
  | some n => .ok n
  | none => .error .indexOutOfRange

section Base

variable (o : Outside) (env : Env) (adapter : Address)

def approve (w : World) (asset spender : Address) (amount : ℕ) : Tx World :=
  w.onReserve asset fun r => .ok (r.withUnderlying
    ((r.underlying.approve adapter spender 0).approve adapter spender amount))

def approveAToken (w : World) (asset spender : Address) (amount : ℕ) : Tx World :=
  w.onReserve asset fun r => do
    let r ← AToken.approve r adapter spender 0
    AToken.approve r adapter spender amount

def permit (w : World) (asset owner : Address) (signature : PermitSignature) : Tx World := do
  require (owner ≠ 0) .invalidOwner
  require (env.timestamp ≤ signature.deadline) .invalidExpiration
  require (o.signer asset owner adapter signature = owner) .invalidSignature
  w.onReserve asset fun r => AToken.approve r owner adapter signature.amount

def usePermit (signature : PermitSignature) : Bool :=
  !(signature.deadline == signature.v && signature.deadline == 0)

def usedPermit (signature : PermitSignature) : Option PermitSignature :=
  if usePermit signature then some signature else none

def transferATokenToContractAddress (w : World) (asset user : Address) (amount : ℕ)
    (signature : PermitSignature) : Tx (World × Pull) := do
  let w ← applyIf (usePermit signature = true)
    (fun w => permit o env adapter w asset user signature) w
  let w ← AToken.transferFrom env w adapter asset user adapter amount
  return (w, ⟨user, asset, amount, usedPermit signature⟩)

def pullAToken (w : World) (reserve user : Address) (amount : ℕ) (signature : PermitSignature) :
    Tx (World × Pull) := do
  let (w, pull) ← transferATokenToContractAddress o env adapter w reserve user amount signature
  let (w, _) ← LendingPool.withdraw env w adapter reserve amount adapter
  return (w, pull)

/-- `10 ** decimals`, which is not checked. -/
def tenToThe (decimals : ℕ) : ℕ := 10 ^ decimals % 2 ^ 256

def checkMaxAmountToSwap (maxSlippage : ℕ) (assetToSwapFromPrice assetToSwapToPrice : Address)
    (maxAmountToSwap amountToReceive : ℕ) : Tx Unit := do
  let fromAssetDecimals ← o.decimals assetToSwapFromPrice
  let toAssetDecimals ← o.decimals assetToSwapToPrice
  let toValue ← SafeMath.mul (env.getAssetPrice assetToSwapToPrice) (tenToThe fromAssetDecimals)
  let value ← SafeMath.mul amountToReceive toValue
  let fromValue ← SafeMath.mul (env.getAssetPrice assetToSwapFromPrice) (tenToThe toAssetDecimals)
  let amount ← SafeMath.div value fromValue
  let slippage ← SafeMath.add percentageFactor maxSlippage
  let expectedMaxAmountToSwap ← percentMul amount slippage
  require (maxAmountToSwap < expectedMaxAmountToSwap) .maxAmountToSwapExceedMaxSlippage

/-- `flashLoan` of the pool with the adapter as the receiver. -/
def flashLoan (w : World) (sender : Address) (assets : List Address) (amounts modes : List ℕ)
    (onBehalfOf : Address) (executeOperation : World → List ℕ → Tx (World × Pull)) :
    Tx (World × Pull) := do
  let loan := ⟨adapter, assets, amounts, modes, onBehalfOf⟩
  let (w, premiums) ← LendingPool.flashLoanTake w loan
  let (w, pull) ← executeOperation w premiums
  let w ← LendingPool.flashLoanSettle env w sender loan premiums
  return (w, pull)

end Base

/-! UniswapLiquiditySwapAdapterSinglePair. -/

structure SwapParams where
  user : Address
  assetFrom : Address
  assetTo : Address
  path : List Address
  amountToSwap : ℕ
  minAmountToReceive : ℕ
  swapAllBalance : Bool
  useATokenAsFrom : Bool
  useATokenAsTo : Bool

section LiquiditySwap

variable (o : Outside) (env : Env) (adapter : Address)

def swapExactTokensForTokensWithPathNoPriceCheck (w : World) (assetFrom : Address)
    (useATokenAsFrom : Bool) (path : List Address) (amountToSwap minAmountOut : ℕ)
    (aTokenExist : Bool) : Tx (World × ℕ) := do
  require (2 ≤ path.length) .wrongPathProvided
  let w ← (if useATokenAsFrom then approveAToken adapter w assetFrom o.uniswapRouter amountToSwap
    else approve adapter w assetFrom o.uniswapRouter amountToSwap)
  let last ← element path (path.length - 1)
  if aTokenExist then
    let balanceBefore ← o.balanceOf w last adapter
    let w ← o.swapExactTokensForTokensSupportingFeeOnTransferTokens w amountToSwap minAmountOut
      path adapter
    let balanceAfter ← o.balanceOf w last adapter
    let swappedAmount ← SafeMath.sub balanceAfter balanceBefore
    return (w, swappedAmount)
  else
    let (w, amounts) ← o.swapExactTokensForTokens w amountToSwap minAmountOut path adapter
    let received ← element amounts (amounts.length - 1)
    return (w, received)

def amountFor (p : SwapParams) (balance amount premium : ℕ) : Tx ℕ :=
  if p.swapAllBalance then do
    let rest ← SafeMath.sub balance premium
    return if rest ≤ amount then rest else amount
  else .ok amount

def swapLiquidity (w : World) (assetFrom : Address) (amount premium : ℕ) (p : SwapParams)
    (signature : PermitSignature) : Tx (World × Pull) := do
  let balance ← AToken.balanceOf w.impl env.timestamp (w.reserves assetFrom) p.user
  let amountToSwap ← amountFor p balance amount premium
  let w ← applyIf (p.useATokenAsFrom = true) (fun w => do
    let w ← approve adapter w assetFrom w.self amountToSwap
    LendingPool.deposit env w adapter assetFrom amountToSwap adapter) w
  let (w, receivedAmount) ← swapExactTokensForTokensWithPathNoPriceCheck o adapter w assetFrom
    p.useATokenAsFrom p.path amountToSwap p.minAmountToReceive
    (p.useATokenAsFrom || p.useATokenAsTo)
  let w ← (if p.useATokenAsTo then AToken.transfer env w adapter p.assetTo p.user receivedAmount
    else do
      let w ← approve adapter w p.assetTo w.self receivedAmount
      LendingPool.deposit env w adapter p.assetTo receivedAmount p.user)
  let flashLoanDebt ← SafeMath.add amount premium
  let amountToPull ← SafeMath.add amountToSwap premium
  let (w, pull) ← pullAToken o env adapter w assetFrom p.user amountToPull signature
  let w ← approve adapter w assetFrom w.self flashLoanDebt
  return (w, pull)

/-- `executeOperation`; `params` are the decoded ones, if they can be decoded. -/
def executeSwapOperation (w : World) (sender : Address) (assets : List Address)
    (amounts premiums : List ℕ) (initiator : Address)
    (params : Option (SwapParams × PermitSignature)) : Tx (World × Pull) := do
  require (sender = w.self) .callerMustBeLendingPool
  require (initiator = adapter) .onlyThisContractCanCallFlashloan
  match params with
  | none => .error .externalFailure
  | some (p, signature) => do
    let asset ← element assets 0
    let amount ← element amounts 0
    let premium ← element premiums 0
    swapLiquidity o env adapter w asset amount premium p signature

def liquiditySwap (w : World) (p : SwapParams) (signature : PermitSignature) :
    Tx (World × Pull) :=
  flashLoan env adapter w adapter [p.assetFrom] [p.amountToSwap] [0] p.user fun w' premiums =>
    executeSwapOperation o env adapter w' w'.self [p.assetFrom] [p.amountToSwap] premiums adapter
      (some (p, signature))

end LiquiditySwap

/-! UniswapRepayAdapter. -/

structure RepayParams where
  user : Address
  collateralAsset : Address
  debtAsset : Address
  path : List Address
  collateralAmount : ℕ
  debtRepayAmount : ℕ
  rateMode : ℕ
  useATokenAsFrom : Bool
  useATokenAsTo : Bool
  useFlashLoan : Bool

def maxSlippagePercent : ℕ := 3000

section Repay

variable (o : Outside) (env : Env) (adapter : Address)

def swapTokensForExactTokensWithPath (w : World) (assetToSwapFromPrice assetToSwapToPrice : Address)
    (path : List Address) (maxAmountToSwap amountToReceive : ℕ) : Tx World := do
  require (2 ≤ path.length) .wrongPathProvided
  checkMaxAmountToSwap o env maxSlippagePercent assetToSwapFromPrice assetToSwapToPrice
    maxAmountToSwap amountToReceive
  let first ← element path 0
  let w ← o.safeApprove w first adapter o.uniswapRouter maxAmountToSwap
  let (w, amounts) ← o.swapTokensForExactTokens w amountToReceive maxAmountToSwap path adapter
  let _ ← element amounts 0
  return w

def collateralToSwap (collateralAmount repaid amount : ℕ) : Tx ℕ :=
  if repaid < amount then do
    let product ← SafeMath.mul collateralAmount repaid
    SafeMath.div product amount
  else .ok collateralAmount

def doSwapAndPullWithPath (w : World) (p : RepayParams) (debtAsset user : Address)
    (premium : ℕ) (signature : PermitSignature) (amountToRepay maxCollateralToSwap : ℕ) :
    Tx (World × Pull) := do
  let needed ← SafeMath.add amountToRepay premium
  if p.collateralAsset ≠ debtAsset then
    let amounts ← o.getAmountsIn w needed p.path
    let amounts0 ← element amounts 0
    require (amounts0 ≤ maxCollateralToSwap) .slippageTooHigh
    let (w, pull) ← (if p.useATokenAsFrom then
        transferATokenToContractAddress o env adapter w p.collateralAsset user amounts0 signature
      else pullAToken o env adapter w p.collateralAsset user amounts0 signature)
    let w ← swapTokensForExactTokensWithPath o env adapter w p.collateralAsset debtAsset p.path
      amounts0 needed
    let w ← applyIf (p.useATokenAsTo = true) (fun w => do
      let balance ← AToken.balanceOf w.impl env.timestamp (w.reserves debtAsset) adapter
      Prod.fst <$> LendingPool.withdraw env w adapter debtAsset balance adapter) w
    return (w, pull)
  else pullAToken o env adapter w p.collateralAsset user needed signature

def swapAndRepayInLoan (w : World) (p : RepayParams) (debtAsset : Address) (amount premium : ℕ)
    (signature : PermitSignature) : Tx (World × Pull) := do
  let w ← approve adapter w debtAsset w.self amount
  let before := (w.reserves debtAsset).underlying.ledger.balances adapter
  let (w, _) ← LendingPool.repay env w adapter debtAsset amount p.rateMode p.user
  let after := (w.reserves debtAsset).underlying.ledger.balances adapter
  let repaidAmount ← SafeMath.sub before after
  let maxCollateralToSwap ← collateralToSwap p.collateralAmount repaidAmount amount
  let (w, pull) ← doSwapAndPullWithPath o env adapter w p debtAsset p.user premium signature
    repaidAmount maxCollateralToSwap
  let debt ← SafeMath.add amount premium
  let w ← approve adapter w debtAsset w.self debt
  return (w, pull)

def executeRepayOperation (w : World) (sender : Address) (assets : List Address)
    (amounts premiums : List ℕ) (initiator : Address)
    (params : Option (RepayParams × PermitSignature)) : Tx (World × Pull) := do
  require (sender = w.self) .callerMustBeLendingPool
  require (initiator = adapter) .onlyThisContractCanCallFlashloan
  match params with
  | none => .error .externalFailure
  | some (p, signature) => do
    let asset ← element assets 0
    let amount ← element amounts 0
    let premium ← element premiums 0
    swapAndRepayInLoan o env adapter w p asset amount premium signature

def swapAndRepayWithPath (w : World) (sender : Address) (p : RepayParams)
    (signature : PermitSignature) : Tx (World × Pull) := do
  let mode ← InterestRateMode.ofUint p.rateMode
  let currentDebt ← (if mode = .stable then
      StableDebtToken.balanceOf env.timestamp (w.reserves p.debtAsset) sender
    else VariableDebtToken.balanceOf w.impl env.timestamp (w.reserves p.debtAsset) sender)
  let amountToRepay := if p.debtRepayAmount ≤ currentDebt then p.debtRepayAmount else currentDebt
  let maxCollateralToSwap ← collateralToSwap p.collateralAmount amountToRepay p.debtRepayAmount
  let (w, pull) ← doSwapAndPullWithPath o env adapter w p p.debtAsset sender 0 signature
    amountToRepay maxCollateralToSwap
  let w ← approve adapter w p.debtAsset w.self amountToRepay
  let (w, _) ← LendingPool.repay env w adapter p.debtAsset amountToRepay p.rateMode sender
  return (w, pull)

def repayFromCollateral (w : World) (sender : Address) (p : RepayParams)
    (signature : PermitSignature) : Tx (World × Pull) :=
  if p.useFlashLoan then
    flashLoan env adapter w adapter [p.debtAsset] [p.debtRepayAmount] [0] p.user fun w' premiums =>
      executeRepayOperation o env adapter w' w'.self [p.debtAsset] [p.debtRepayAmount] premiums
        adapter (some (p, signature))
  else swapAndRepayWithPath o env adapter w sender p signature

end Repay

inductive Request
  | liquiditySwap (p : SwapParams) (signature : PermitSignature)
  | repayFromCollateral (p : RepayParams) (signature : PermitSignature)
  | swapAndRepayWithPath (p : RepayParams) (signature : PermitSignature)
  | executeSwapOperation (assets : List Address) (amounts premiums : List ℕ) (initiator : Address)
      (params : Option (SwapParams × PermitSignature))
  | executeRepayOperation (assets : List Address) (amounts premiums : List ℕ)
      (initiator : Address) (params : Option (RepayParams × PermitSignature))
  /-- A flash loan that somebody takes with the adapter as the receiver. -/
  | swapFlashLoan (assets : List Address) (amounts modes : List ℕ) (onBehalfOf : Address)
      (params : Option (SwapParams × PermitSignature))
  | repayFlashLoan (assets : List Address) (amounts modes : List ℕ) (onBehalfOf : Address)
      (params : Option (RepayParams × PermitSignature))

/-- A call by an account that is neither the adapter nor the pool, whose calls are part of the
functions above. Calls nested in others start in the middle of them. -/
structure Invocation where
  outside : Outside
  env : Env
  world : World
  adapter : Address
  caller : Address
  request : Request
  notAdapter : caller ≠ adapter
  notPool : caller ≠ world.self

def Invocation.run (x : Invocation) : Tx (World × Pull) :=
  match x.request with
  | .liquiditySwap p signature =>
    Adapter.liquiditySwap x.outside x.env x.adapter x.world p signature
  | .repayFromCollateral p signature =>
    Adapter.repayFromCollateral x.outside x.env x.adapter x.world x.caller p signature
  | .swapAndRepayWithPath p signature =>
    Adapter.swapAndRepayWithPath x.outside x.env x.adapter x.world x.caller p signature
  | .executeSwapOperation assets amounts premiums initiator params =>
    Adapter.executeSwapOperation x.outside x.env x.adapter x.world x.caller assets amounts premiums
      initiator params
  | .executeRepayOperation assets amounts premiums initiator params =>
    Adapter.executeRepayOperation x.outside x.env x.adapter x.world x.caller assets amounts
      premiums initiator params
  | .swapFlashLoan assets amounts modes onBehalfOf params =>
    flashLoan x.env x.adapter x.world x.caller assets amounts modes onBehalfOf fun w premiums =>
      Adapter.executeSwapOperation x.outside x.env x.adapter w w.self assets amounts premiums
        x.caller params
  | .repayFlashLoan assets amounts modes onBehalfOf params =>
    flashLoan x.env x.adapter x.world x.caller assets amounts modes onBehalfOf fun w premiums =>
      Adapter.executeRepayOperation x.outside x.env x.adapter w w.self assets amounts premiums
        x.caller params

structure Executed extends Invocation where
  result : World
  pull : Pull
  ran : toInvocation.run = .ok (result, pull)

inductive Outside.Changes (o : Outside) (w w' : World) : Prop
  | safeApprove (token owner spender : Address) (amount : ℕ) :
      o.safeApprove w token owner spender amount = .ok w' → Changes o w w'
  | swapExactTokensForTokens (amountIn amountOutMin : ℕ) (path : List Address) (account : Address)
      (amounts : List ℕ) :
      o.swapExactTokensForTokens w amountIn amountOutMin path account = .ok (w', amounts) →
      Changes o w w'
  | swapExactTokensForTokensSupportingFeeOnTransferTokens (amountIn amountOutMin : ℕ)
      (path : List Address) (account : Address) :
      o.swapExactTokensForTokensSupportingFeeOnTransferTokens w amountIn amountOutMin path account =
        .ok w' → Changes o w w'
  | swapTokensForExactTokens (amountOut amountInMax : ℕ) (path : List Address) (account : Address)
      (amounts : List ℕ) :
      o.swapTokensForExactTokens w amountOut amountInMax path account = .ok (w', amounts) →
      Changes o w w'

/-- A stretch of a call in which the adapter takes aTokens from nobody. What it calls outside may
do anything. -/
def Quiet (o : Outside) (adapter : Address) : World → World → Prop :=
  Relation.ReflTransGen fun w w' => o.Changes w w' ∨ w.KeepsDeposits adapter w'

/-- The permit is used, if there is one, and the aTokens of the user go to the adapter. -/
def Pull.Transferred (pull : Pull) (o : Outside) (env : Env) (adapter : Address) (w w' : World) :
    Prop :=
  ∃ w₁,
    (match pull.permit with
      | some signature => Adapter.permit o env adapter w pull.asset pull.user signature = .ok w₁
      | none => w = w₁) ∧
    AToken.transferFrom env w₁ adapter pull.asset pull.user adapter pull.amount = .ok w'

/-- The one transfer of a user's aTokens in the middle of a call. -/
def Pull.Made (pull : Pull) (o : Outside) (env : Env) (adapter : Address) (w w' : World) : Prop :=
  ∃ w₁ w₂, Quiet o adapter w w₁ ∧ pull.Transferred o env adapter w₁ w₂ ∧ Quiet o adapter w₂ w'

def Outside.TakesNothing (o : Outside) (adapter : Address) : Prop :=
  ∀ w w', o.Changes w w' → w.KeepsDeposits adapter w'

/-- The call took from the user of its pull, and itself from nobody else. -/
def Executed.Made (x : Executed) : Prop :=
  x.pull.Made x.outside x.env x.adapter x.world x.result

def Request.user (caller : Address) : Request → Address
  | .liquiditySwap p _ => p.user
  | .repayFromCollateral p _ => if p.useFlashLoan then p.user else caller
  | _ => caller

def Request.permit : Request → Option PermitSignature
  | .liquiditySwap _ signature => usedPermit signature
  | .repayFromCollateral _ signature => usedPermit signature
  | .swapAndRepayWithPath _ signature => usedPermit signature
  | _ => none

variable {o : Outside} {env : Env} {adapter sender user asset spender : Address}
  {w w₁ w' : World} {amount premium n : ℕ} {signature : PermitSignature} {pull : Pull}

namespace Quiet

theorem refl (w : World) : Quiet o adapter w w := Relation.ReflTransGen.refl

theorem trans (h₁ : Quiet o adapter w w₁) (h₂ : Quiet o adapter w₁ w') : Quiet o adapter w w' :=
  Relation.ReflTransGen.trans h₁ h₂

theorem changes (h : o.Changes w w') : Quiet o adapter w w' :=
  Relation.ReflTransGen.single (.inl h)

theorem keeps (h : w.KeepsDeposits adapter w') : Quiet o adapter w w' :=
  Relation.ReflTransGen.single (.inr h)

theorem leaves (h : w.LeavesDeposits adapter w') : Quiet o adapter w w' := keeps h.keeps

theorem keepsDeposits (ho : o.TakesNothing adapter) (h : Quiet o adapter w w') :
    w.KeepsDeposits adapter w' := by
  induction h with
  | refl => exact fun _ _ _ => le_rfl
  | tail _ hs ih => exact fun user hne x => (ih user hne x).trans (hs.elim (ho _ _) id user hne x)

end Quiet

theorem approve_leavesDeposits (h : approve adapter w asset spender amount = .ok w') :
    w.LeavesDeposits adapter w' := by
  refine .of_onReserve h fun r r' hr => ?_
  rw [← Except.ok.inj hr]
  exact ⟨rfl, rfl⟩

theorem approveAToken_quiet (h : approveAToken adapter w asset spender amount = .ok w') :
    Quiet o adapter w w' := by
  refine Quiet.leaves (.of_onReserve h fun r r' hr => ?_)
  simp only [AToken.approve, bind_ok, exists_unit, pure_ok] at hr
  obtain ⟨_, ⟨-, -, -, rfl⟩, -, -, -, rfl⟩ := hr
  exact ⟨rfl, rfl⟩

theorem approve_quiet (h : approve adapter w asset spender amount = .ok w') :
    Quiet o adapter w w' := Quiet.leaves (approve_leavesDeposits h)

theorem deposit_quiet {onBehalfOf : Address}
    (h : LendingPool.deposit env w sender asset amount onBehalfOf = .ok w') :
    Quiet o adapter w w' := Quiet.keeps (LendingPool.deposit_keepsDeposits h)

theorem withdraw_quiet {receiver : Address}
    (h : LendingPool.withdraw env w adapter asset amount receiver = .ok (w', n)) :
    Quiet o adapter w w' := Quiet.leaves (LendingPool.withdraw_leavesDeposits h)

theorem repay_quiet {rateMode : ℕ} {onBehalfOf : Address}
    (h : LendingPool.repay env w adapter asset amount rateMode onBehalfOf = .ok (w', n)) :
    Quiet o adapter w w' := Quiet.leaves (LendingPool.repay_leavesDeposits h)

theorem swapExactTokensForTokensWithPathNoPriceCheck_quiet {assetFrom : Address}
    {useATokenAsFrom aTokenExist : Bool} {path : List Address}
    {amountToSwap minAmountOut received : ℕ}
    (h : swapExactTokensForTokensWithPathNoPriceCheck o adapter w assetFrom useATokenAsFrom path
      amountToSwap minAmountOut aTokenExist = .ok (w', received)) : Quiet o adapter w w' := by
  simp only [swapExactTokensForTokensWithPathNoPriceCheck, bind_ok, exists_unit] at h
  obtain ⟨-, w₁, happrove, last, -, h⟩ := h
  have hbefore : Quiet o adapter w w₁ := by
    split at happrove
    case isTrue => exact approveAToken_quiet happrove
    case isFalse => exact approve_quiet happrove
  refine hbefore.trans (.changes ?_)
  split at h
  case isTrue =>
    simp only [bind_ok, pure_ok, Prod.mk.injEq] at h
    obtain ⟨_, -, w₂, hswap, _, -, _, -, rfl, -⟩ := h
    exact .swapExactTokensForTokensSupportingFeeOnTransferTokens _ _ _ _ hswap
  case isFalse =>
    simp only [bind_ok, pure_ok, Prod.mk.injEq] at h
    obtain ⟨⟨w₂, amounts⟩, hswap, _, -, rfl, -⟩ := h
    exact .swapExactTokensForTokens _ _ _ _ _ hswap

theorem swapTokensForExactTokensWithPath_quiet {assetFrom assetTo : Address}
    {path : List Address} {maxAmountToSwap amountToReceive : ℕ}
    (h : swapTokensForExactTokensWithPath o env adapter w assetFrom assetTo path maxAmountToSwap
      amountToReceive = .ok w') : Quiet o adapter w w' := by
  simp only [swapTokensForExactTokensWithPath, bind_ok, exists_unit, pure_ok] at h
  obtain ⟨-, -, first, -, w₁, happrove, ⟨w₂, amounts⟩, hswap, -, -, rfl⟩ := h
  exact (Quiet.changes (.safeApprove _ _ _ _ happrove)).trans
    (.changes (.swapTokensForExactTokens _ _ _ _ _ hswap))

structure Pulls (o : Outside) (env : Env) (adapter user : Address) (signature : PermitSignature)
    (pull : Pull) (w w' : World) : Prop where
  user_eq : pull.user = user
  permit_eq : pull.permit = usedPermit signature
  covered : usePermit signature = true → pull.amount ≤ signature.amount ∧
    o.signer pull.asset user adapter signature = user
  made : pull.Made o env adapter w w'

namespace Pulls

variable {w₀ : World}

theorem after (hq : Quiet o adapter w₀ w) (h : Pulls o env adapter user signature pull w w') :
    Pulls o env adapter user signature pull w₀ w' := by
  obtain ⟨w₁, w₂, hbefore, hmade⟩ := h.made
  exact ⟨h.user_eq, h.permit_eq, h.covered, w₁, w₂, hq.trans hbefore, hmade⟩

theorem before (h : Pulls o env adapter user signature pull w w₁) (hq : Quiet o adapter w₁ w') :
    Pulls o env adapter user signature pull w w' := by
  obtain ⟨w₁, w₂, hbefore, htransferred, hafter⟩ := h.made
  exact ⟨h.user_eq, h.permit_eq, h.covered, w₁, w₂, hbefore, htransferred, hafter.trans hq⟩

end Pulls

theorem transferATokenToContractAddress_transferred
    (h : transferATokenToContractAddress o env adapter w asset user amount signature =
      .ok (w', pull)) :
    pull = ⟨user, asset, amount, usedPermit signature⟩ ∧ pull.Transferred o env adapter w w' := by
  simp only [transferATokenToContractAddress, bind_ok, pure_ok, Prod.mk.injEq] at h
  obtain ⟨w₁, hpermit, w₂, htransfer, rfl, rfl⟩ := h
  refine ⟨rfl, w₁, ?_, htransfer⟩
  rcases applyIf_ok.mp hpermit with ⟨huse, hpermit⟩ | ⟨hnot, rfl⟩
  · simpa only [usedPermit, if_pos huse] using hpermit
  · simp only [usedPermit, if_neg hnot]

theorem permit_ok (h : permit o env adapter w asset user signature = .ok w') :
    o.signer asset user adapter signature = user ∧
      w.onReserve asset (fun r => AToken.approve r user adapter signature.amount) = .ok w' := by
  simp only [permit, bind_ok, exists_unit, require_ok] at h
  exact ⟨h.2.2.1, h.2.2.2⟩

theorem transferATokenToContractAddress_ok
    (h : transferATokenToContractAddress o env adapter w asset user amount signature =
      .ok (w', pull)) : Pulls o env adapter user signature pull w w' := by
  obtain ⟨rfl, htransferred⟩ := transferATokenToContractAddress_transferred h
  refine ⟨rfl, rfl, fun huse => ?_, w, w', .refl w, htransferred, .refl w'⟩
  obtain ⟨w₁, hpermit, htransfer⟩ := htransferred
  simp only [usedPermit, if_pos huse] at hpermit
  obtain ⟨hsigner, happrove⟩ := permit_ok hpermit
  simp only [AToken.approve, World.onReserve_ok, bind_ok, exists_unit, pure_ok] at happrove
  obtain ⟨r, ⟨-, -, -, rfl⟩, rfl⟩ := happrove
  obtain ⟨w₃, r, htransfer, hle, -, -⟩ := AToken.transferFrom_ok htransfer
  rw [AToken.transfer_allowances htransfer, World.setReserve_reserves_self] at hle
  exact ⟨hle.trans_eq (by simp [write₂]), hsigner⟩

theorem pullAToken_ok (h : pullAToken o env adapter w asset user amount signature =
    .ok (w', pull)) : Pulls o env adapter user signature pull w w' := by
  simp only [pullAToken, bind_ok, pure_ok, Prod.mk.injEq] at h
  obtain ⟨⟨w₁, pull⟩, hpull, ⟨w₂, n⟩, hwithdraw, rfl, rfl⟩ := h
  exact (transferATokenToContractAddress_ok hpull).before (withdraw_quiet hwithdraw)

theorem swapLiquidity_ok {p : SwapParams}
    (h : swapLiquidity o env adapter w asset amount premium p signature = .ok (w', pull)) :
    Pulls o env adapter p.user signature pull w w' := by
  simp only [swapLiquidity, bind_ok, pure_ok, Prod.mk.injEq] at h
  obtain ⟨_, -, amountToSwap, -, w₁, hdeposit, ⟨w₂, received⟩, hswap, w₃, hgive, _, -, _, -,
    ⟨w₄, _⟩, hpull, w₅, happrove, rfl, rfl⟩ := h
  have hdeposited : Quiet o adapter w w₁ := by
    rcases applyIf_ok.mp hdeposit with ⟨-, h⟩ | ⟨-, rfl⟩
    · obtain ⟨_, happrove, hdeposit⟩ := bind_ok.mp h
      exact (approve_quiet happrove).trans (deposit_quiet hdeposit)
    · exact .refl _
  have hgiven : Quiet o adapter w₂ w₃ := by
    split at hgive
    case isTrue => exact .keeps (AToken.transfer_keepsDeposits hgive)
    case isFalse =>
      obtain ⟨_, happrove, hdeposit⟩ := bind_ok.mp hgive
      exact (approve_quiet happrove).trans (deposit_quiet hdeposit)
  have hswapped := swapExactTokensForTokensWithPathNoPriceCheck_quiet hswap
  have hbefore := (hdeposited.trans hswapped).trans hgiven
  exact ((pullAToken_ok hpull).after hbefore).before (approve_quiet happrove)

theorem flashLoan_ok {assets : List Address} {amounts modes : List ℕ} {onBehalfOf : Address}
    {executeOperation : World → List ℕ → Tx (World × Pull)}
    (h : flashLoan env adapter w sender assets amounts modes onBehalfOf executeOperation =
      .ok (w', pull)) : ∃ w₁ premiums w₂, executeOperation w₁ premiums = .ok (w₂, pull) ∧
        ∀ user signature, Pulls o env adapter user signature pull w₁ w₂ →
          Pulls o env adapter user signature pull w w' := by
  simp only [flashLoan, bind_ok, pure_ok, Prod.mk.injEq] at h
  obtain ⟨⟨w₁, premiums⟩, htake, ⟨w₂, pull⟩, hoperation, w₃, hsettle, rfl, rfl⟩ := h
  have htaken : Quiet o adapter w w₁ := .leaves (LendingPool.flashLoanTake_leavesDeposits htake)
  have hsettled : Quiet o adapter w₂ w₃ :=
    .leaves (LendingPool.flashLoanSettle_leavesDeposits hsettle)
  exact ⟨w₁, premiums, w₂, hoperation, fun _ _ hpulls => (hpulls.after htaken).before hsettled⟩

theorem executeSwapOperation_ok {assets : List Address} {amounts premiums : List ℕ}
    {initiator : Address} {params : Option (SwapParams × PermitSignature)}
    (h : executeSwapOperation o env adapter w sender assets amounts premiums initiator params =
      .ok (w', pull)) : sender = w.self ∧ initiator = adapter ∧
        ∀ p signature, params = some (p, signature) →
          Pulls o env adapter p.user signature pull w w' := by
  simp only [executeSwapOperation, bind_ok, exists_unit, require_ok] at h
  obtain ⟨hsender, hinitiator, h⟩ := h
  refine ⟨hsender, hinitiator, ?_⟩
  rintro p signature rfl
  simp only [bind_ok] at h
  obtain ⟨_, -, _, -, _, -, h⟩ := h
  exact swapLiquidity_ok h

theorem liquiditySwap_ok {p : SwapParams}
    (h : liquiditySwap o env adapter w p signature = .ok (w', pull)) :
    Pulls o env adapter p.user signature pull w w' := by
  obtain ⟨w₁, premiums, w₂, h, hpulls⟩ := flashLoan_ok h
  exact hpulls _ _ ((executeSwapOperation_ok h).2.2 p signature rfl)

theorem doSwapAndPullWithPath_ok {p : RepayParams} {debtAsset : Address}
    {amountToRepay maxCollateralToSwap : ℕ}
    (h : doSwapAndPullWithPath o env adapter w p debtAsset user premium signature amountToRepay
      maxCollateralToSwap = .ok (w', pull)) : Pulls o env adapter user signature pull w w' := by
  obtain ⟨needed, -, h⟩ := bind_ok.mp h
  split at h
  case isFalse => exact pullAToken_ok h
  case isTrue =>
    simp only [bind_ok, exists_unit, pure_ok, Prod.mk.injEq] at h
    obtain ⟨_, -, _, -, -, ⟨w₁, pull⟩, hpull, w₂, hswap, w₃, hwithdraw, rfl, rfl⟩ := h
    have hpulls : Pulls o env adapter user signature pull w w₁ := by
      split at hpull
      case isTrue => exact transferATokenToContractAddress_ok hpull
      case isFalse => exact pullAToken_ok hpull
    have hwithdrawn : Quiet o adapter w₂ w₃ := by
      rcases applyIf_ok.mp hwithdraw with ⟨-, h⟩ | ⟨-, rfl⟩
      · obtain ⟨_, -, h⟩ := bind_ok.mp h
        obtain ⟨_, hall, rfl⟩ := map_ok.mp h
        exact withdraw_quiet hall
      · exact .refl _
    exact hpulls.before ((swapTokensForExactTokensWithPath_quiet hswap).trans hwithdrawn)

theorem executeRepayOperation_ok {assets : List Address} {amounts premiums : List ℕ}
    {initiator : Address} {params : Option (RepayParams × PermitSignature)}
    (h : executeRepayOperation o env adapter w sender assets amounts premiums initiator params =
      .ok (w', pull)) : sender = w.self ∧ initiator = adapter ∧
        ∀ p signature, params = some (p, signature) →
          Pulls o env adapter p.user signature pull w w' := by
  simp only [executeRepayOperation, bind_ok, exists_unit, require_ok] at h
  obtain ⟨hsender, hinitiator, h⟩ := h
  refine ⟨hsender, hinitiator, ?_⟩
  rintro p signature rfl
  simp only [swapAndRepayInLoan, bind_ok, pure_ok, Prod.mk.injEq] at h
  obtain ⟨_, -, _, -, _, -, w₁, happrove, ⟨w₂, _⟩, hrepay, _, -, _, -, ⟨w₃, _⟩, hpull, _, -, w₄,
    hdebt, rfl, rfl⟩ := h
  exact ((doSwapAndPullWithPath_ok hpull).after
    ((approve_quiet happrove).trans (repay_quiet hrepay))).before (approve_quiet hdebt)

theorem swapAndRepayWithPath_ok {p : RepayParams}
    (h : swapAndRepayWithPath o env adapter w sender p signature = .ok (w', pull)) :
    Pulls o env adapter sender signature pull w w' := by
  simp only [swapAndRepayWithPath, bind_ok, pure_ok, Prod.mk.injEq] at h
  obtain ⟨_, -, _, -, _, -, ⟨w₁, _⟩, hpull, w₂, happrove, ⟨w₃, _⟩, hrepay, rfl, rfl⟩ := h
  exact (doSwapAndPullWithPath_ok hpull).before
    ((approve_quiet happrove).trans (repay_quiet hrepay))

theorem repayFromCollateral_ok {p : RepayParams}
    (h : repayFromCollateral o env adapter w sender p signature = .ok (w', pull)) :
    Pulls o env adapter (if p.useFlashLoan then p.user else sender) signature pull w w' := by
  unfold repayFromCollateral at h
  split at h
  case isTrue huse =>
    obtain ⟨w₁, premiums, w₂, h, hpulls⟩ := flashLoan_ok h
    rw [if_pos huse]
    exact hpulls _ _ ((executeRepayOperation_ok h).2.2 p signature rfl)
  case isFalse huse =>
    rw [if_neg huse]
    exact swapAndRepayWithPath_ok h

/-- The callback asks for the pool as the caller and the adapter as the initiator, so only the
entry points of the adapter itself get to a pull. -/
theorem Invocation.run_ok {x : Invocation} (h : x.run = .ok (w', pull)) :
    ∃ signature, x.request.permit = usedPermit signature ∧ Pulls x.outside x.env x.adapter
      (x.request.user x.caller) signature pull x.world w' := by
  unfold Invocation.run at h
  split at h
  case h_1 p signature hrequest =>
    rw [hrequest]
    exact ⟨signature, rfl, liquiditySwap_ok h⟩
  case h_2 p signature hrequest =>
    rw [hrequest]
    exact ⟨signature, rfl, repayFromCollateral_ok h⟩
  case h_3 p signature hrequest =>
    rw [hrequest]
    exact ⟨signature, rfl, swapAndRepayWithPath_ok h⟩
  case h_4 => exact absurd (executeSwapOperation_ok h).1 x.notPool
  case h_5 => exact absurd (executeRepayOperation_ok h).1 x.notPool
  case h_6 =>
    obtain ⟨w₁, premiums, w₂, h, -⟩ := @flashLoan_ok x.outside _ _ _ _ _ _ _ _ _ _ _ h
    exact absurd (executeSwapOperation_ok h).2.1 x.notAdapter
  case h_7 =>
    obtain ⟨w₁, premiums, w₂, h, -⟩ := @flashLoan_ok x.outside _ _ _ _ _ _ _ _ _ _ _ h
    exact absurd (executeRepayOperation_ok h).2.1 x.notAdapter

theorem Executed.made (x : Executed) : x.Made :=
  let ⟨_, _, hpulls⟩ := Invocation.run_ok x.ran
  hpulls.made

def tradeWithPair (w : World) (amountIn amountOut : ℕ) (path : List Address) (account : Address) :
    Tx World := do
  let first ← element path 0
  let last ← element path (path.length - 1)
  let w ← w.onReserve first fun r =>
    r.withUnderlying <$> r.underlying.transferFrom 60 account 13 amountIn
  w.onReserve last fun r => r.withUnderlying <$> r.underlying.transfer 13 account amountOut

/-- A router whose pair pays the least that it may. -/
def sampleOutside : Outside where
  uniswapRouter := 60
  signer _ _ _ _ := 0
  balanceOf w asset account := .ok ((w.reserves asset).underlying.ledger.balances account)
  decimals _ := .ok 0
  safeApprove w asset owner spender amount := w.onReserve asset fun r =>
    .ok (r.withUnderlying (r.underlying.approve owner spender amount))
  getAmountsIn _ amount _ := .ok [amount, amount]
  swapExactTokensForTokens w amountIn amountOutMin path account := do
    let w ← tradeWithPair w amountIn amountOutMin path account
    return (w, [amountIn, amountOutMin])
  swapExactTokensForTokensSupportingFeeOnTransferTokens := tradeWithPair
  swapTokensForExactTokens w amountOut amountInMax path account := do
    let w ← tradeWithPair w amountInMax amountOut path account
    return (w, [amountInMax, amountOut])

end Adapter

end Moola
