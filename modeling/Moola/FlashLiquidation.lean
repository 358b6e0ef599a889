import Moola.Adapters
import Moola.FlashLoans

/-! FlashLiquidationAdapter. With a flash loan it pays the debt of a position that is liquidated,
swaps the collateral that it gets for what the loan takes back, and hands the rest to whoever took
the loan. -/

namespace Moola

open Guard WadRayMath PercentageMath

def World.holding (w : World) (asset account : Address) : ℕ :=
  (w.reserves asset).underlying.ledger.balances account

namespace Adapter

structure LiquidationParams where
  collateralAsset : Address
  borrowedAsset : Address
  user : Address
  debtToCover : ℕ
  useEthPath : Bool

/-- The one check of the adapter whose text no other contract has. -/
inductive LiquidationRevert
  | other (e : Revert)
  | inconsistentParams
  deriving DecidableEq

def LiquidationRevert.message : LiquidationRevert → String
  | .other e => e.message
  | .inconsistentParams => "INCONSISTENT_PARAMS"

section

variable (o : Outside) (env : Env) (wethAddress adapter : Address)

def swapPath (assetToSwapFrom assetToSwapTo : Address) (useEthPath : Bool) : List Address :=
  if useEthPath then [assetToSwapFrom, wethAddress, assetToSwapTo]
  else [assetToSwapFrom, assetToSwapTo]

/-- The prices and the tokens of this swap are the same. -/
def swapTokensForExactTokens (w : World) (assetToSwapFrom assetToSwapTo : Address)
    (maxAmountToSwap amountToReceive : ℕ) (useEthPath : Bool) : Tx (World × ℕ) := do
  checkMaxAmountToSwap o env maxSlippagePercent assetToSwapFrom assetToSwapTo maxAmountToSwap
    amountToReceive
  let w ← approve adapter w assetToSwapFrom o.uniswapRouter maxAmountToSwap
  let path := swapPath wethAddress assetToSwapFrom assetToSwapTo useEthPath
  let (w, amounts) ← o.swapTokensForExactTokens w amountToReceive maxAmountToSwap path adapter
  let sold ← element amounts 0
  return (w, sold)

def approveOnce (w : World) (asset spender : Address) (amount : ℕ) : Tx World :=
  w.onReserve asset fun r => .ok (r.withUnderlying (r.underlying.approve adapter spender amount))

def transferOut (w : World) (asset recipient : Address) (amount : ℕ) : Tx World :=
  w.onReserve asset fun r => r.withUnderlying <$> r.underlying.transfer adapter recipient amount

def swapReleased (w : World) (p : LiquidationParams)
    (borrowedAssetLeftovers diffCollateralBalance flashLoanDebt premium : ℕ) :
    Tx (World × ℕ) :=
  if p.collateralAsset ≠ p.borrowedAsset then do
    let flashBorrowedAssetAfter := w.holding p.borrowedAsset adapter
    let diffFlashBorrowedBalance ← SafeMath.sub flashBorrowedAssetAfter borrowedAssetLeftovers
    let amountToReceive ← SafeMath.sub flashLoanDebt diffFlashBorrowedBalance
    let (w, soldAmount) ← swapTokensForExactTokens o env wethAddress adapter w p.collateralAsset
      p.borrowedAsset diffCollateralBalance amountToReceive p.useEthPath
    let remainingTokens ← SafeMath.sub diffCollateralBalance soldAmount
    return (w, remainingTokens)
  else do
    let remainingTokens ← SafeMath.sub diffCollateralBalance premium
    return (w, remainingTokens)

def liquidateAndSwap (w : World) (p : LiquidationParams) (flashBorrowedAmount premium : ℕ)
    (initiator : Address) : Tx World := do
  let initCollateralBalance := w.holding p.collateralAsset adapter
  let borrowedAssetLeftovers ← (if p.collateralAsset ≠ p.borrowedAsset then
      SafeMath.sub (w.holding p.borrowedAsset adapter) flashBorrowedAmount
    else .ok 0)
  let flashLoanDebt ← SafeMath.add flashBorrowedAmount premium
  let w ← approveOnce adapter w p.borrowedAsset w.self p.debtToCover
  let w ← LendingPool.liquidationCall env w adapter p.collateralAsset p.borrowedAsset p.user
    p.debtToCover false
  let collateralBalanceAfter := w.holding p.collateralAsset adapter
  let diffCollateralBalance ← SafeMath.sub collateralBalanceAfter initCollateralBalance
  let (w, remainingTokens) ← swapReleased o env wethAddress adapter w p borrowedAssetLeftovers
    diffCollateralBalance flashLoanDebt premium
  let w ← approveOnce adapter w p.borrowedAsset w.self flashLoanDebt
  applyIf (remainingTokens > 0)
    (fun w => transferOut adapter w p.collateralAsset initiator remainingTokens) w

def executeLiquidationOperation (w : World) (sender : Address) (assets : List Address)
    (amounts premiums : List ℕ) (initiator : Address) (params : Option LiquidationParams) :
    Except LiquidationRevert World := do
  require (sender = w.self) (.other .callerMustBeLendingPool)
  match params with
  | none => .error (.other .externalFailure)
  | some p => do
    require (assets.length = 1 ∧ assets[0]? = some p.borrowedAsset) .inconsistentParams
    (do
      let amount ← element amounts 0
      let premium ← element premiums 0
      liquidateAndSwap o env wethAddress adapter w p amount premium initiator : Tx World).mapError
        .other

/-- `flashLoan` of the pool, called by anybody with the adapter as the receiver. -/
def flashLiquidation (w : World) (sender : Address) (assets : List Address)
    (amounts modes : List ℕ) (onBehalfOf : Address) (params : Option LiquidationParams) :
    Except LiquidationRevert World := do
  let loan := ⟨adapter, assets, amounts, modes, onBehalfOf⟩
  let (w, premiums) ← (LendingPool.flashLoanTake w loan).mapError .other
  let w ← executeLiquidationOperation o env wethAddress adapter w w.self assets amounts premiums
    sender params
  (LendingPool.flashLoanSettle env w sender loan premiums).mapError .other

end

end Adapter

namespace Reserve

variable {env : Env} {asset account : Address} {r r' : Reserve} {a : Action}
  {actions : List Action}

def Reaches (account : Address) : Action → Prop
  | .pull _ sender _ => sender = account
  | .burn _ receiver _ => receiver = account
  | .transferUnderlyingTo receiver _ => receiver = account
  | .setUnderlying _ => True
  | _ => False

theorem move_other (l : Ledger Address) {sender recipient : Address} {n : ℕ}
    (h : n ≤ l.balances sender) (hs : account ≠ sender) (hr : account ≠ recipient) :
    (l.move sender recipient n h).balances account = l.balances account := by
  rw [Ledger.move_balances, if_neg hs, if_neg hr, Nat.add_zero]

theorem apply_holding (h : r.apply env asset a = .ok r') (ha : ¬Reaches account a)
    (hpool : account ≠ r.data.aTokenAddress) :
    r'.underlying.ledger.balances account = r.underlying.ledger.balances account := by
  cases a with
  | updateState impl =>
    obtain ⟨start, -, he⟩ := LendingPool.updateState_eq impl env.timestamp r
    rw [apply, he] at h
    obtain ⟨-, -, minted, rfl, -⟩ := ReserveLogic.updateStateFrom_ok h
    simp
  | updateInterestRates added taken =>
    obtain ⟨rates, rfl⟩ := ReserveLogic.updateInterestRates_ok h
    rw [withData_underlying]
  | pull spender sender amount =>
    obtain ⟨t, ht, rfl⟩ := map_ok.mp h
    obtain ⟨hn, ht⟩ := ERC20.transferFrom_ok ht
    rw [withUnderlying_underlying, ht]
    exact move_other _ hn (fun he => ha he.symm) hpool
  | mint user amount =>
    obtain ⟨⟨r₁, first⟩, h₁, rfl⟩ := map_ok.mp h
    obtain ⟨-, -, -, -, rfl⟩ := AToken.mint_ok h₁
    rfl
  | burn owner receiver amount =>
    obtain ⟨-, -, -, hs, hn, rfl⟩ := AToken.burn_ok h
    rw [withUnderlying_underlying]
    exact move_other _ hn hpool fun he => ha he.symm
  | move impl sender recipient amount =>
    obtain ⟨⟨r₁, before⟩, h₁, rfl⟩ := map_ok.mp h
    obtain ⟨-, -, -, _, -, -, -, hs, rfl⟩ := AToken.move_ok h₁
    rfl
  | transferUnderlyingTo receiver amount =>
    obtain ⟨-, hn, rfl⟩ := AToken.transferUnderlyingTo_ok h
    rw [withUnderlying_underlying]
    exact move_other _ hn hpool fun he => ha he.symm
  | mintDebt mode sender onBehalfOf amount =>
    obtain ⟨⟨r₁, first⟩, h₁, rfl⟩ := map_ok.mp h
    unfold LendingPool.mintDebt at h₁
    split at h₁
    case isTrue =>
      obtain ⟨-, _, _, t, -, -, -, -, rfl, -⟩ := StableDebtToken.mint_ok h₁
      rfl
    case isFalse =>
      obtain ⟨-, -, -, -, -, _, -, rfl⟩ := VariableDebtToken.mint_ok h₁
      rfl
  | burnDebt mode owner amount =>
    rw [apply, LendingPool.burnDebt] at h
    split at h
    case isTrue =>
      obtain ⟨-, _, t, -, -, rfl, -⟩ := StableDebtToken.burn_ok h
      rfl
    case isFalse =>
      obtain ⟨-, -, -, -, hs, rfl⟩ := VariableDebtToken.burn_ok h
      rfl
  | cumulateToLiquidityIndex total premium =>
    obtain ⟨-, _, -, rfl⟩ := ReserveLogic.cumulateToLiquidityIndex_ok h
    rw [withData_underlying]
  | approve owner spender amount =>
    simp only [apply, AToken.approve, bind_ok, exists_unit, pure_ok] at h
    obtain ⟨-, -, -, rfl⟩ := h
    rfl
  | setUnderlying => exact absurd trivial ha
  | _ =>
    rw [← Except.ok.inj h]
    rfl

theorem run_holding (h : r.run env asset actions = .ok r') (ha : ∀ a ∈ actions, ¬Reaches account a)
    (hpool : account ≠ r.data.aTokenAddress) :
    r'.underlying.ledger.balances account = r.underlying.ledger.balances account ∧
      r'.data.aTokenAddress = r.data.aTokenAddress := by
  refine @run_induction _ _ _ _ (fun r r' => account ≠ r.data.aTokenAddress →
    r'.underlying.ledger.balances account = r.underlying.ledger.balances account ∧
      r'.data.aTokenAddress = r.data.aTokenAddress) _ h (fun _ _ => ⟨rfl, rfl⟩) ?_ ?_ hpool
  · intro r₁ r₂ r₃ h₁ h₂ hpool
    obtain ⟨hsame₁, haddress₁⟩ := h₁ hpool
    obtain ⟨hsame₂, haddress₂⟩ := h₂ (haddress₁ ▸ hpool)
    exact ⟨hsame₂.trans hsame₁, haddress₂.trans haddress₁⟩
  · exact fun a hmem r r' h hpool =>
      ⟨apply_holding h (ha a hmem) hpool, (apply_evolves h).aTokenAddress⟩

end Reserve

variable {env : Env} {w w₁ w' : World} {asset account x : Address} {amount : ℕ}

theorem World.setReserve_holding (w : World) (asset : Address) (r : Reserve) (x account : Address) :
    (w.setReserve asset r).holding x account =
      if x = asset then r.underlying.ledger.balances account else w.holding x account := by
  rw [holding, holding]
  split
  case isTrue hx => rw [hx, setReserve_reserves_self]
  case isFalse hx => rw [setReserve_reserves_of_ne hx]

/-- Nobody's underlying tokens change, and no reserve gets another aToken. -/
structure World.SameFunds (w w' : World) : Prop where
  holding : ∀ x account, w'.holding x account = w.holding x account
  aTokenAddress : ∀ x, (w'.reserves x).data.aTokenAddress = (w.reserves x).data.aTokenAddress

namespace Adapter

variable {o : Outside} {wethAddress adapter : Address} {p : LiquidationParams}

theorem sameFunds_setReserve {r : Reserve}
    (hledger : r.underlying.ledger = (w.reserves asset).underlying.ledger)
    (hdata : r.data = (w.reserves asset).data) : w.SameFunds (w.setReserve asset r) where
  holding x account := by
    rw [World.setReserve_holding]
    split
    case isTrue hx => rw [World.holding, hx, hledger]
    case isFalse => rfl
  aTokenAddress x := by
    by_cases hx : x = asset
    · rw [hx, World.setReserve_reserves_self, hdata]
    · rw [World.setReserve_reserves_of_ne hx]

theorem approve_sameFunds {spender : Address}
    (h : approve adapter w asset spender amount = .ok w') : w.SameFunds w' := by
  obtain ⟨r, hr, rfl⟩ := World.onReserve_ok.mp h
  obtain rfl := Except.ok.inj hr
  exact sameFunds_setReserve rfl rfl

theorem approveOnce_sameFunds {spender : Address}
    (h : approveOnce adapter w asset spender amount = .ok w') : w.SameFunds w' := by
  obtain ⟨r, hr, rfl⟩ := World.onReserve_ok.mp h
  obtain rfl := Except.ok.inj hr
  exact sameFunds_setReserve rfl rfl

theorem onReserve_underlying (f : ERC20 → Tx ERC20)
    (h : w.onReserve asset (fun r => r.withUnderlying <$> f r.underlying) = .ok w') :
    ∃ t, f (w.reserves asset).underlying = .ok t ∧
      (∀ x account, w'.holding x account =
        if x = asset then t.ledger.balances account else w.holding x account) ∧
      ∀ x, (w'.reserves x).data.aTokenAddress = (w.reserves x).data.aTokenAddress := by
  obtain ⟨r, hr, rfl⟩ := World.onReserve_ok.mp h
  obtain ⟨t, ht, rfl⟩ := map_ok.mp hr
  refine ⟨t, ht, fun x account => w.setReserve_holding _ _ x account, fun x => ?_⟩
  by_cases hx : x = asset
  · rw [hx, World.setReserve_reserves_self]
    rfl
  · rw [World.setReserve_reserves_of_ne hx]

theorem transferOut_ok {recipient : Address} (hne : adapter ≠ recipient)
    (h : transferOut adapter w asset recipient amount = .ok w') :
    (∀ x, w'.holding x adapter + (if x = asset then amount else 0) = w.holding x adapter) ∧
    (∀ x, w'.holding x recipient = w.holding x recipient + if x = asset then amount else 0) ∧
    ∀ x, (w'.reserves x).data.aTokenAddress = (w.reserves x).data.aTokenAddress := by
  obtain ⟨t, ht, hholding, haddress⟩ :=
    onReserve_underlying (fun t => t.transfer adapter recipient amount) h
  obtain ⟨-, -, hn, rfl⟩ := ERC20.transfer_ok.mp ht
  refine ⟨fun x => ?_, fun x => ?_, haddress⟩
  · rw [hholding, Ledger.move_balances, if_pos rfl, if_neg hne]
    split
    case isTrue hx =>
      rw [World.holding, hx]
      exact Nat.sub_add_cancel hn
    case isFalse => rfl
  · rw [hholding, Ledger.move_balances, if_neg hne.symm, if_pos rfl]
    split
    case isTrue hx => rw [World.holding, hx]
    case isFalse => rfl

theorem liquidationCall_funds {collateralAsset debtAsset user : Address} {debtToCover : ℕ}
    (h : LendingPool.liquidationCall env w adapter collateralAsset debtAsset user debtToCover
      false = .ok w') :
    (∀ x, (w'.reserves x).data.aTokenAddress = (w.reserves x).data.aTokenAddress) ∧
    (∀ x, x ≠ collateralAsset → x ≠ debtAsset →
      ∀ account, w'.holding x account = w.holding x account) ∧
    ∀ account, account ≠ adapter → account ≠ (w.reserves collateralAsset).data.aTokenAddress →
      account ≠ (w.reserves debtAsset).data.aTokenAddress →
      ∀ x, w'.holding x account = w.holding x account := by
  obtain ⟨l, seized, treasury, -, heffect, htreasury⟩ := LendingPool.liquidationCall_effect h
  have hothers : ∀ x, x ≠ collateralAsset → x ≠ debtAsset →
      ∀ account, w'.holding x account = w.holding x account := by
    intro x hc hd account
    have hrun := heffect.run x
    simp only [onAsset, if_neg hc, if_neg hd, List.append_nil] at hrun
    rw [World.holding, World.holding, Except.ok.inj hrun]
  refine ⟨fun x => (Reserve.run_evolves (heffect.run x)).aTokenAddress, hothers,
    fun account hne hcollateral hdebt x => ?_⟩
  by_cases hpool : account ≠ (w.reserves x).data.aTokenAddress
  · refine (Reserve.run_holding (heffect.run x) (fun a ha => ?_) hpool).1
    simp only [List.mem_append, mem_onAsset, List.mem_cons, List.not_mem_nil, or_false] at ha
    rcases ha with (⟨-, (rfl | ha) | rfl⟩ | ⟨-, ha⟩ | ⟨-, ha⟩) | ⟨-, rfl⟩
    · exact id
    · unfold CollateralManager.debtActions at ha
      split_ifs at ha <;> simp at ha
      case pos => rw [ha]; exact id
      case pos => obtain rfl | rfl := ha <;> exact id
      case neg => rw [ha]; exact id
    · exact id
    · simp only [CollateralManager.seizeActions, Bool.false_eq_true, if_false, List.mem_cons,
        List.not_mem_nil, or_false] at ha
      obtain rfl | rfl | rfl := ha
      · exact id
      · exact id
      · exact hne.symm
    · obtain rfl | ⟨recipient, n, rfl⟩ := htreasury
      · simp at ha
      · rw [List.mem_singleton.mp ha]
        exact id
    · exact hne.symm
  · refine hothers x ?_ ?_ account
    · rintro rfl
      exact hpool hcollateral
    · rintro rfl
      exact hpool hdebt

/-- What a swap for an exact amount does, seen by the trader and by somebody else: the trader gives
the first token of the path and gets the exact amount of the last one. -/
def Outside.ExactOutput (o : Outside) (trader bystander : Address) : Prop :=
  ∀ w amountOut amountInMax path w' amounts,
    o.swapTokensForExactTokens w amountOut amountInMax path trader = .ok (w', amounts) →
    (∀ x, (w'.reserves x).data.aTokenAddress = (w.reserves x).data.aTokenAddress) ∧
    (∀ x, w'.holding x bystander = w.holding x bystander) ∧
    ∃ sold rest, amounts = sold :: rest ∧ ∀ x,
      w'.holding x trader + (if path.head? = some x then sold else 0) =
        w.holding x trader + if path.getLast? = some x then amountOut else 0

theorem swapTokensForExactTokens_funds {assetFrom assetTo bystander : Address}
    {maxAmountToSwap amountToReceive sold : ℕ} {useEthPath : Bool}
    (ho : o.ExactOutput adapter bystander)
    (h : swapTokensForExactTokens o env wethAddress adapter w assetFrom assetTo maxAmountToSwap
      amountToReceive useEthPath = .ok (w', sold)) :
    (∀ x, (w'.reserves x).data.aTokenAddress = (w.reserves x).data.aTokenAddress) ∧
    (∀ x, w'.holding x bystander = w.holding x bystander) ∧
    ∀ x, w'.holding x adapter + (if x = assetFrom then sold else 0) =
      w.holding x adapter + if x = assetTo then amountToReceive else 0 := by
  simp only [swapTokensForExactTokens, bind_ok, exists_unit, pure_ok, Prod.mk.injEq] at h
  obtain ⟨-, w₁, h₁, h⟩ := h
  obtain ⟨⟨w₂, amounts⟩, h₂, sold', hsold, rfl, rfl⟩ := h
  have hsame := approve_sameFunds h₁
  obtain ⟨hdata, hbystander, sold, rest, rfl, htrader⟩ := ho _ _ _ _ _ _ h₂
  obtain rfl : sold = sold' := by simpa [element] using hsold
  refine ⟨fun x => (hdata x).trans (hsame.aTokenAddress x),
    fun x => (hbystander x).trans (hsame.holding x bystander), fun x => ?_⟩
  have hpath := htrader x
  rw [hsame.holding] at hpath
  cases useEthPath <;> simpa [swapPath, eq_comm] using hpath

theorem swapReleased_funds {bystander : Address} {leftovers diff debt premium remaining : ℕ}
    (ho : o.ExactOutput adapter bystander)
    (h : swapReleased o env wethAddress adapter w p leftovers diff debt premium =
      .ok (w', remaining)) :
    (∀ x, (w'.reserves x).data.aTokenAddress = (w.reserves x).data.aTokenAddress) ∧
    (∀ x, w'.holding x bystander = w.holding x bystander) ∧
    (p.collateralAsset ≠ p.borrowedAsset ∧
        w'.holding p.borrowedAsset adapter = leftovers + debt ∧
        w'.holding p.collateralAsset adapter + diff =
          w.holding p.collateralAsset adapter + remaining ∧
        (∀ x, x ≠ p.collateralAsset → x ≠ p.borrowedAsset →
          w'.holding x adapter = w.holding x adapter) ∨
      p.collateralAsset = p.borrowedAsset ∧ w' = w ∧ diff = remaining + premium) := by
  unfold swapReleased at h
  split at h
  case isTrue hne =>
    simp only [bind_ok, SafeMath.sub_ok, pure_ok, Prod.mk.injEq] at h
    obtain ⟨_, ⟨hleft, rfl⟩, _, ⟨hdebt, rfl⟩, ⟨w₁, sold⟩, hswap, _, ⟨hsold, rfl⟩, hw, rfl⟩ := h
    obtain rfl : w₁ = w' := hw
    obtain ⟨haddress, hbystander, htrader⟩ := swapTokensForExactTokens_funds ho hswap
    refine ⟨haddress, hbystander, .inl ⟨hne, ?_, ?_, fun x hc hb => ?_⟩⟩
    · have hborrowed := htrader p.borrowedAsset
      rw [if_neg hne.symm, if_pos rfl] at hborrowed
      omega
    · have hcollateral := htrader p.collateralAsset
      have hle : sold ≤ diff := hsold
      rw [if_pos rfl, if_neg hne] at hcollateral
      change _ = _ + (diff - sold)
      omega
    · have hother := htrader x
      rwa [if_neg hc, if_neg hb, Nat.add_zero, Nat.add_zero] at hother
  case isFalse heq =>
    simp only [bind_ok, SafeMath.sub_ok, pure_ok, Prod.mk.injEq] at h
    obtain ⟨_, ⟨hle, rfl⟩, rfl, rfl⟩ := h
    exact ⟨fun _ => rfl, fun _ => rfl, .inr ⟨not_not.mp heq, rfl, (Nat.sub_add_cancel hle).symm⟩⟩

theorem transferRemaining_funds {initiator : Address} {remaining : ℕ} (hne : adapter ≠ initiator)
    (h : applyIf (remaining > 0)
      (fun w => transferOut adapter w p.collateralAsset initiator remaining) w = .ok w') :
    (∀ x, w'.holding x adapter + (if x = p.collateralAsset then remaining else 0) =
      w.holding x adapter) ∧
    (∀ x, w'.holding x initiator =
      w.holding x initiator + if x = p.collateralAsset then remaining else 0) ∧
    ∀ x, (w'.reserves x).data.aTokenAddress = (w.reserves x).data.aTokenAddress := by
  rcases applyIf_ok.mp h with ⟨-, h⟩ | ⟨hzero, rfl⟩
  · exact transferOut_ok hne h
  · obtain rfl : remaining = 0 := by omega
    simp

/-- The adapter ends with the premium on top of what it had, and the initiator with the rest of the
collateral. -/
theorem liquidateAndSwap_funds {initiator : Address} {flashBorrowedAmount premium : ℕ}
    (ho : o.ExactOutput adapter initiator) (hne : adapter ≠ initiator)
    (hcollateral : initiator ≠ (w.reserves p.collateralAsset).data.aTokenAddress)
    (hdebt : initiator ≠ (w.reserves p.borrowedAsset).data.aTokenAddress)
    (h : liquidateAndSwap o env wethAddress adapter w p flashBorrowedAmount premium initiator =
      .ok w') :
    (∀ x, (w'.reserves x).data.aTokenAddress = (w.reserves x).data.aTokenAddress) ∧
    (∀ x, w'.holding x adapter =
      w.holding x adapter + if x = p.borrowedAsset then premium else 0) ∧
    ∃ gained, ∀ x, w'.holding x initiator =
      w.holding x initiator + if x = p.collateralAsset then gained else 0 := by
  simp only [liquidateAndSwap, bind_ok, SafeMath.sub_ok, SafeMath.add_ok] at h
  obtain ⟨leftovers, hleftovers, _, ⟨-, rfl⟩, w₁, h₁, w₂, h₂, _, ⟨hreleased, rfl⟩,
    ⟨w₃, remaining⟩, h₃, w₄, h₄, h₅⟩ := h
  have happrove := approveOnce_sameFunds h₁
  have hreapprove := approveOnce_sameFunds h₄
  obtain ⟨haddress₂, hothers₂, hbystander₂⟩ := liquidationCall_funds h₂
  obtain ⟨haddress₃, hbystander₃, hswapped⟩ := swapReleased_funds ho h₃
  obtain ⟨hadapter₅, hinitiator₅, haddress₅⟩ := transferRemaining_funds hne h₅
  have hkept : ∀ x, w₂.holding x initiator = w₁.holding x initiator :=
    hbystander₂ initiator hne.symm (by rwa [happrove.aTokenAddress])
      (by rwa [happrove.aTokenAddress])
  refine ⟨fun x => ?_, fun x => ?_, remaining, fun x => ?_⟩
  · rw [haddress₅, hreapprove.aTokenAddress, haddress₃, haddress₂, happrove.aTokenAddress]
  · have hsent := hadapter₅ x
    rw [hreapprove.holding] at hsent
    dsimp only at hsent
    obtain ⟨hassets, hborrowed, hsold, hothers₃⟩ | ⟨hassets, rfl, hremaining⟩ := hswapped
    · rw [if_pos hassets, SafeMath.sub_ok] at hleftovers
      obtain ⟨hflash, rfl⟩ := hleftovers
      by_cases hb : x = p.borrowedAsset
      · subst hb
        rw [if_neg (Ne.symm hassets)] at hsent
        rw [if_pos rfl]
        omega
      · rw [if_neg hb]
        by_cases hc : x = p.collateralAsset
        · subst hc
          rw [if_pos rfl] at hsent
          omega
        · rw [if_neg hc, hothers₃ x hc hb, World.holding, hothers₂ x hc hb] at hsent
          exact hsent.trans (happrove.holding x adapter)
    · by_cases hb : x = p.borrowedAsset
      · subst hb
        rw [if_pos hassets.symm, ← hassets] at hsent
        rw [if_pos rfl, ← hassets]
        omega
      · have hc : x ≠ p.collateralAsset := fun he => hb (he.trans hassets)
        rw [if_neg hc, hothers₂ x hc hb, happrove.holding] at hsent
        rw [if_neg hb]
        exact hsent
  · rw [hinitiator₅, hreapprove.holding, hbystander₃, hkept, happrove.holding]

theorem flashLoanTake_funds {modes premiums : List ℕ} {onBehalfOf : Address}
    (h : LendingPool.flashLoanTake w ⟨adapter, [asset], [amount], modes, onBehalfOf⟩ =
      .ok (w', premiums)) :
    premiums = [LendingPool.premiumOf amount] ∧
    (∀ x, (w'.reserves x).data.aTokenAddress = (w.reserves x).data.aTokenAddress) ∧
    ∀ x account, account ≠ (w.reserves asset).data.aTokenAddress →
      w'.holding x account =
        w.holding x account + if x = asset ∧ account = adapter then amount else 0 := by
  simp only [LendingPool.flashLoanTake, LendingPool.takeAll, LendingPool.takeOne, bind_ok,
    exists_unit, SafeMath.mul_ok, SafeMath.div_ok, pure_ok, Except.ok.injEq, Prod.mk.injEq] at h
  obtain ⟨-, -, -, ⟨w₁, premium⟩, htaken, _, rfl, rfl, rfl⟩ := h
  obtain ⟨_, ⟨-, rfl⟩, _, ⟨-, rfl⟩, r, hr, rfl, rfl⟩ := htaken
  obtain ⟨-, hn, rfl⟩ := AToken.transferUnderlyingTo_ok hr
  refine ⟨rfl, fun x => ?_, fun x account hpool => ?_⟩
  · by_cases hx : x = asset
    · rw [hx, World.setReserve_reserves_self]
      rfl
    · rw [World.setReserve_reserves_of_ne hx]
  · rw [World.setReserve_holding]
    by_cases hx : x = asset
    · subst hx
      rw [if_pos rfl, Reserve.withUnderlying_underlying, Ledger.move_balances, if_neg hpool]
      simp [World.holding]
    · rw [if_neg hx, if_neg fun he => hx he.1, Nat.add_zero]

theorem returnOne_funds {receiver : Address} {amountPlusPremium premium : ℕ}
    (hreceiver : receiver ≠ (w.reserves asset).data.aTokenAddress)
    (h : LendingPool.returnOne env w receiver asset amountPlusPremium premium = .ok w')
    (hpool : account ≠ (w.reserves asset).data.aTokenAddress) :
    w'.holding x account + (if x = asset ∧ account = receiver then amountPlusPremium else 0) =
      w.holding x account := by
  obtain ⟨total, heffect⟩ := LendingPool.returnOne_effect h
  have hrun := heffect.run x
  by_cases hx : x = asset
  · subst hx
    simp only [onAsset, if_true] at hrun
    change (w.reserves x).run env x ([.updateState w.impl, .cumulateToLiquidityIndex total premium,
      .updateInterestRates amountPlusPremium 0] ++ [.pull w.self receiver amountPlusPremium]) = _
      at hrun
    rw [Reserve.run_append] at hrun
    obtain ⟨r, hr, hpull⟩ := bind_ok.mp hrun
    obtain ⟨hsame, haddress⟩ := Reserve.run_holding hr (by simp [Reserve.Reaches]) hpool
    obtain ⟨r₁, h₁, hdone⟩ := bind_ok.mp hpull
    obtain ⟨t, ht, rfl⟩ := map_ok.mp h₁
    obtain ⟨hn, ht⟩ := ERC20.transferFrom_ok ht
    rw [World.holding, World.holding, ← Except.ok.inj hdone, Reserve.withUnderlying_underlying, ht,
      Ledger.move_balances, haddress, if_neg hpool, ← hsame]
    by_cases hreceives : account = receiver
    · subst hreceives
      simp only [if_true, and_self, Nat.add_zero]
      exact Nat.sub_add_cancel hn
    · simp [hreceives]
  · rw [onAsset, if_neg hx] at hrun
    rw [World.holding, ← Except.ok.inj hrun, if_neg fun he => hx he.1, Nat.add_zero, World.holding]

theorem flashLoanSettle_funds {sender onBehalfOf : Address} {modes : List ℕ} {premium : ℕ}
    (hadapter : adapter ≠ (w.reserves asset).data.aTokenAddress)
    (h : LendingPool.flashLoanSettle env w sender ⟨adapter, [asset], [amount], modes, onBehalfOf⟩
      [premium] = .ok w') :
    ∃ m rest mode, modes = m :: rest ∧ InterestRateMode.ofUint m = .ok mode ∧
      ∀ x account, account ≠ (w.reserves asset).data.aTokenAddress →
        w'.holding x account +
            (if x = asset ∧ account = adapter ∧ mode = .none then amount + premium else 0) =
          w.holding x account := by
  obtain ⟨_, _, _, _, m, rest, w₁, ⟨rfl, rfl⟩, ⟨rfl, rfl⟩, rfl, h₁, hdone⟩ :=
    LendingPool.settleAll_cons_ok h
  obtain rfl : w₁ = w' := by simpa [LendingPool.settleAll] using hdone
  simp only [LendingPool.settleOne, bind_ok, SafeMath.add_ok] at h₁
  obtain ⟨_, ⟨-, rfl⟩, mode, hmode, h₁⟩ := h₁
  refine ⟨m, rest, mode, rfl, hmode, fun x account hpool => ?_⟩
  split at h₁
  case isTrue hnone =>
    rw [← returnOne_funds hadapter h₁ hpool]
    simp [hnone]
  case isFalse hopen =>
    obtain ⟨mode', -, heffect⟩ := LendingPool.executeBorrow_effect h₁
    rw [if_neg fun he => hopen he.2.2, Nat.add_zero]
    have hrun := heffect.run x
    by_cases hx : x = asset
    · subst hx
      simp only [onAsset, if_true, LendingPool.borrowActions, Bool.false_eq_true, if_false,
        List.append_nil] at hrun
      exact (Reserve.run_holding hrun (by simp [Reserve.Reaches]) hpool).1
    · rw [onAsset, if_neg hx] at hrun
      rw [World.holding, ← Except.ok.inj hrun, World.holding]

theorem element_ok {l : List ℕ} {i n : ℕ} (h : element l i = .ok n) : l[i]? = some n := by
  unfold element at h
  split at h
  case h_1 m hm => rw [hm, Except.ok.inj h]
  case h_2 => cases h

theorem executeLiquidationOperation_ok {sender initiator : Address} {assets : List Address}
    {amounts premiums : List ℕ} {params : Option LiquidationParams}
    (h : executeLiquidationOperation o env wethAddress adapter w sender assets amounts premiums
      initiator params = .ok w') :
    ∃ p amount premium, params = some p ∧ assets = [p.borrowedAsset] ∧
      amounts[0]? = some amount ∧ premiums[0]? = some premium ∧
      liquidateAndSwap o env wethAddress adapter w p amount premium initiator = .ok w' := by
  simp only [executeLiquidationOperation, bind_unit_ok] at h
  obtain ⟨-, h⟩ := h
  cases params with
  | none => cases h
  | some p =>
    simp only [require_ok, mapError_ok, bind_ok] at h
    obtain ⟨_, ⟨hlength, hasset⟩, amount, hamount, premium, hpremium, h⟩ := h
    obtain ⟨asset, rfl⟩ := List.length_eq_one_iff.mp hlength
    obtain rfl : asset = p.borrowedAsset := by simpa using hasset
    exact ⟨p, amount, premium, rfl, rfl, element_ok hamount, element_ok hpremium, h⟩

/-- A flash loan to the adapter leaves there what was there before, and only where the loan is
left open as debt the amount with its premium stays behind. Whoever takes the loan pays nothing and
gets the rest of the collateral. -/
theorem flashLiquidation_funds {sender onBehalfOf : Address} {assets : List Address}
    {amounts modes : List ℕ} (ho : o.ExactOutput adapter sender) (hne : adapter ≠ sender)
    (hadapter : adapter ≠ (w.reserves p.borrowedAsset).data.aTokenAddress)
    (hcollateral : sender ≠ (w.reserves p.collateralAsset).data.aTokenAddress)
    (hdebt : sender ≠ (w.reserves p.borrowedAsset).data.aTokenAddress)
    (h : flashLiquidation o env wethAddress adapter w sender assets amounts modes onBehalfOf
      (some p) = .ok w') :
    ∃ amount m rest mode gained, assets = [p.borrowedAsset] ∧ amounts = [amount] ∧
      modes = m :: rest ∧ InterestRateMode.ofUint m = .ok mode ∧
      (∀ x, w'.holding x adapter = w.holding x adapter +
        if x = p.borrowedAsset ∧ mode ≠ .none then amount + LendingPool.premiumOf amount else 0) ∧
      ∀ x, w'.holding x sender =
        w.holding x sender + if x = p.collateralAsset then gained else 0 := by
  simp only [flashLiquidation, bind_ok, mapError_ok] at h
  obtain ⟨⟨w₁, premiums⟩, h₁, w₂, h₂, h₃⟩ := h
  obtain ⟨p', amount, premium, hp, rfl, hamount, hpremium, h₂⟩ := executeLiquidationOperation_ok h₂
  obtain rfl : p = p' := Option.some.inj hp
  obtain rfl : amounts = [amount] := by
    have hlength := h₁
    simp only [LendingPool.flashLoanTake, bind_unit_ok, require_ok] at hlength
    obtain ⟨n, rfl⟩ := List.length_eq_one_iff.mp hlength.2.2.1.symm
    simpa using hamount
  obtain ⟨rfl, haddress₁, htaken⟩ := flashLoanTake_funds h₁
  obtain rfl : LendingPool.premiumOf amount = premium := by simpa using hpremium
  obtain ⟨haddress₂, hadapter₂, gained, hsender₂⟩ :=
    liquidateAndSwap_funds ho hne (by rwa [haddress₁]) (by rwa [haddress₁]) h₂
  have haddress : ∀ x, (w₂.reserves x).data.aTokenAddress = (w.reserves x).data.aTokenAddress :=
    fun x => (haddress₂ x).trans (haddress₁ x)
  obtain ⟨m, rest, mode, rfl, hmode, hsettled⟩ := flashLoanSettle_funds (by rwa [haddress]) h₃
  refine ⟨amount, m, rest, mode, gained, rfl, rfl, rfl, hmode, fun x => ?_, fun x => ?_⟩
  · have hback := hsettled x adapter (by rwa [haddress])
    have hpaid := htaken x adapter hadapter
    rw [hadapter₂] at hback
    by_cases hx : x = p.borrowedAsset
    · by_cases hnone : mode = .none
      · simp only [hx, hnone, true_and, and_self, if_true, ne_eq, not_true, if_false] at *
        omega
      · simp only [hx, hnone, and_self, and_false, if_true, if_false, ne_eq,
          not_false_eq_true] at *
        omega
    · simp only [hx, false_and, if_false] at *
      omega
  · have hback := hsettled x sender (by rwa [haddress])
    have hpaid := htaken x sender hdebt
    rw [if_neg fun he => hne he.2.1.symm, hsender₂, Nat.add_zero] at hback
    rw [if_neg fun he => hne he.2.symm, Nat.add_zero] at hpaid
    rw [hback, hpaid]

def twoForOne : Outside := { sampleOutside with
  swapTokensForExactTokens := fun w amountOut _ path account => do
    let w ← tradeWithPair w (2 * amountOut) amountOut path account
    return (w, [2 * amountOut, amountOut]) }

theorem tradeWithPair_funds {trader : Address} {amountIn amountOut : ℕ} {path : List Address}
    (htrader : trader ≠ 13) (h : tradeWithPair w amountIn amountOut path trader = .ok w') :
    (∀ x, (w'.reserves x).data.aTokenAddress = (w.reserves x).data.aTokenAddress) ∧
    ∀ x account, account ≠ 13 →
      w'.holding x account + (if path.head? = some x ∧ account = trader then amountIn else 0) =
        w.holding x account +
          if path.getLast? = some x ∧ account = trader then amountOut else 0 := by
  simp only [tradeWithPair, bind_ok] at h
  obtain ⟨first, hfirst, last, hlast, w₁, h₁, h₂⟩ := h
  obtain ⟨t₁, ht₁, hholding₁, haddress₁⟩ := onReserve_underlying
    (fun t => t.transferFrom 60 trader 13 amountIn) h₁
  obtain ⟨hn₁, ht₁⟩ := ERC20.transferFrom_ok ht₁
  obtain ⟨t₂, ht₂, hholding₂, haddress₂⟩ := onReserve_underlying
    (fun t => t.transfer 13 trader amountOut) h₂
  obtain ⟨-, -, hn₂, rfl⟩ := ERC20.transfer_ok.mp ht₂
  have hhead : path.head? = some first := by
    rw [List.head?_eq_getElem?, element_ok hfirst]
  have hend : path.getLast? = some last := by
    rw [List.getLast?_eq_getElem?, element_ok hlast]
  refine ⟨fun x => (haddress₂ x).trans (haddress₁ x), fun x account hpair => ?_⟩
  simp only [hhead, hend, Option.some.injEq]
  have hpaid : w₁.holding x account + (if first = x ∧ account = trader then amountIn else 0) =
      w.holding x account := by
    rw [hholding₁, ht₁, Ledger.move_balances, if_neg hpair]
    split
    case isTrue hx =>
      subst hx
      by_cases ht : account = trader
      · subst ht
        simp only [if_true, and_self, Nat.add_zero]
        exact Nat.sub_add_cancel hn₁
      · simp [ht, World.holding]
    case isFalse hx => rw [if_neg fun he => hx he.1.symm, Nat.add_zero]
  rw [← hpaid, hholding₂, Ledger.move_balances, if_neg hpair]
  split
  case isTrue hx =>
    subst hx
    simp only [true_and, World.holding]
    omega
  case isFalse hx => rw [if_neg (c := last = x ∧ _) fun he => hx he.1.symm, Nat.add_zero]

theorem twoForOne_exact {trader bystander : Address} (htrader : trader ≠ 13)
    (hbystander : bystander ≠ 13) (hne : bystander ≠ trader) :
    twoForOne.ExactOutput trader bystander := by
  intro w amountOut amountInMax path w' amounts h
  obtain ⟨w₁, h₁, hdone⟩ := bind_ok.mp h
  simp only [pure_ok, Prod.mk.injEq] at hdone
  obtain ⟨rfl, rfl⟩ := hdone
  obtain ⟨haddress, hfunds⟩ := tradeWithPair_funds htrader h₁
  refine ⟨haddress, fun x => ?_, 2 * amountOut, [amountOut], rfl, fun x => ?_⟩
  · simpa [hne] using hfunds x bystander hbystander
  · simpa using hfunds x trader htrader

def dearDebt : Env := { sampleEnv 40 with getAssetPrice := fun asset => if asset = 2 then 2 else 1 }

def tokenHolders : World :=
  initialWorld (fun _ => ⟨((Ledger.empty.credit 11 (10 ^ 6)).credit 12 (10 ^ 6)).credit 13
    (10 ^ 6), fun _ _ => 10 ^ 18⟩) .lendingPool 99

def overextended : List Transaction :=
  sampleListing 40 1 9 ++ sampleListing 40 2 9 ++
    [⟨sampleEnv 40, 11, .deposit 2 500000 11⟩, ⟨sampleEnv 40, 12, .deposit 1 100000 12⟩,
      ⟨sampleEnv 40, 12, .borrow 2 60000 2 12⟩]

def coverPart : LiquidationParams := ⟨1, 2, 12, 20000, false⟩

theorem coverPart_runs : (do
    let w ← (runAll tokenHolders overextended).mapError LiquidationRevert.other
    let w' ← flashLiquidation twoForOne dearDebt 3 50 w 14 [2] [20000] [0] 14 (some coverPart)
    return ((w.reserves 1).data.aTokenAddress, (w.reserves 2).data.aTokenAddress,
      w'.holding 1 14)) = .ok (101, 101, 1964) := by
  decide +kernel

theorem flashLiquidation_funds_sample : ∃ w w' gained,
    flashLiquidation twoForOne dearDebt 3 50 w 14 [2] [20000] [0] 14 (some coverPart) = .ok w' ∧
    (∀ x, w'.holding x 50 = w.holding x 50) ∧ w'.holding 1 14 = 1964 ∧
    ∀ x, w'.holding x 14 = w.holding x 14 + if x = 1 then gained else 0 := by
  obtain ⟨w, hw, hrest⟩ := bind_ok.mp coverPart_runs
  obtain ⟨w', h, hrest⟩ := bind_ok.mp hrest
  simp only [pure_ok, Prod.mk.injEq] at hrest
  obtain ⟨hfirst, hsecond, hgained⟩ := hrest
  obtain ⟨amount, m, rest, mode, gained, -, -, hmodes, hmode, hadapter, hsender⟩ :=
    flashLiquidation_funds (p := coverPart)
      (twoForOne_exact (by decide) (by decide) (by decide)) (by decide)
      (by rw [show coverPart.borrowedAsset = 2 from rfl, hsecond]; decide)
      (by rw [show coverPart.collateralAsset = 1 from rfl, hfirst]; decide)
      (by rw [show coverPart.borrowedAsset = 2 from rfl, hsecond]; decide) h
  obtain ⟨rfl, rfl⟩ := List.cons.inj hmodes
  obtain rfl : InterestRateMode.none = mode := Except.ok.inj hmode
  exact ⟨w, w', gained, h, by simpa using hadapter, hgained, hsender⟩

end Adapter

end Moola
