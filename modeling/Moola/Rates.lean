import Moola.Evolution
import Moola.Lib.Trace

/-! The stored rates against the liquidity that an operation leaves. Each operation computes
the rates before its token transfer, for the cash that it predicts; the prediction is the
strategy's input, so rates are right when the transfer happens as predicted. -/

namespace Moola

open Guard WadRayMath

namespace ReserveLogic

variable {env : Env} {asset : Address} {added taken liquidity : ℕ} {r r' : Reserve}

def ratesAt (env : Env) (asset : Address) (r : Reserve) (liquidity : ℕ) : Tx InterestRates := do
  let (totalStableDebt, avgStableRate) ←
    StableDebtToken.getTotalSupplyAndAvgRate env.timestamp r
  let scaledVariableDebt ← VariableDebtToken.scaledTotalSupply r
  let totalVariableDebt ← rayMul scaledVariableDebt r.data.variableBorrowIndex
  match env.strategy r.data.interestRateStrategyAddress with
  | none => .error .notAContract
  | some strategy =>
    strategy.calculateInterestRates (env.getMarketBorrowRate asset) liquidity totalStableDebt
      totalVariableDebt avgStableRate r.data.configuration.getReserveFactor

def storedRates (r : Reserve) : InterestRates :=
  ⟨r.data.currentLiquidityRate, r.data.currentStableBorrowRate, r.data.currentVariableBorrowRate⟩

/-- The stored rates are the strategy's for the reserve as it stands. -/
def ReflectsLiquidity (env : Env) (asset : Address) (r : Reserve) : Prop :=
  ratesAt env asset r r.cash = .ok (storedRates r)

theorem updateInterestRates_rates (h : updateInterestRates env asset added taken r = .ok r') :
    ∃ rates, ratesAt env asset r (r.cash + added - taken) = .ok rates ∧
      taken ≤ r.cash + added ∧ r' = r.withData (r.data.withRates rates) := by
  simp only [updateInterestRates, bind_ok] at h
  obtain ⟨⟨stable, avg⟩, hstable, scaled, hscaled, variableDebt, hvariable, h⟩ := h
  split at h
  case h_1 => cases h
  case h_2 strategy hstrategy =>
    simp only [bind_ok, exists_unit, pure_ok] at h
    obtain ⟨rates, hrates, -, -, -, rfl⟩ := h
    obtain ⟨hle, hcalc⟩ :=
      DefaultReserveInterestRateStrategy.calculateInterestRatesAfter_ok hrates
    refine ⟨rates, ?_, hle, rfl⟩
    simp only [ratesAt, hstable, hscaled, hvariable, ok_bind, hstrategy, hcalc]

theorem ratesAt_congr (hd : r'.data = r.data) (hs : r'.stableDebtToken = r.stableDebtToken)
    (hv : r'.variableDebtToken = r.variableDebtToken) :
    ratesAt env asset r' = ratesAt env asset r := by
  funext liquidity
  simp only [ratesAt, StableDebtToken.getTotalSupplyAndAvgRate,
    VariableDebtToken.scaledTotalSupply, hd, hs, hv]

theorem ratesAt_withRates (rates : InterestRates) :
    ratesAt env asset (r.withData (r.data.withRates rates)) = ratesAt env asset r := rfl

end ReserveLogic

namespace Reserve

variable {env : Env} {asset : Address} {added taken : ℕ} {r r₁ r' : Reserve} {a : Action}
  {actions pre post : List Action}

/-- The liquidity after a call that no account outside makes on behalf of the aToken. -/
def cashAfter (cash : ℕ) : Action → ℕ
  | .pull _ _ amount => cash + amount
  | .burn _ _ amount => cash - amount
  | .transferUnderlyingTo _ amount => cash - amount
  | _ => cash

def OtherThan (aToken : Address) : Action → Prop
  | .pull _ sender _ => sender ≠ aToken
  | .burn _ receiver _ => receiver ≠ aToken
  | .transferUnderlyingTo receiver _ => receiver ≠ aToken
  | .setUnderlying _ => False
  | _ => True

def Settles : Action → Prop
  | .pull .. | .mint .. | .burn .. | .transferUnderlyingTo .. => True
  | _ => False

theorem cash_congr (hd : r'.data.aTokenAddress = r.data.aTokenAddress)
    (hu : r'.underlying = r.underlying) : r'.cash = r.cash := by
  rw [cash, cash, hd, hu]

theorem updateState_underlying {impl : PoolImpl} {now : ℕ}
    (h : LendingPool.updateState impl now r = .ok r') : r'.underlying = r.underlying := by
  obtain ⟨start, -, he⟩ := LendingPool.updateState_eq impl now r
  rw [he] at h
  obtain ⟨-, -, minted, rfl, -⟩ := ReserveLogic.updateStateFrom_ok h
  rw [withALedger_underlying, withData_underlying]

theorem mintDebt_underlying {mode : InterestRateMode} {user onBehalfOf : Address} {amount : ℕ}
    {first : Bool} (h : LendingPool.mintDebt env r mode user onBehalfOf amount = .ok (r', first)) :
    r'.underlying = r.underlying := by
  unfold LendingPool.mintDebt at h
  split at h
  case isTrue =>
    obtain ⟨-, _, _, t, -, -, -, -, rfl, -⟩ := StableDebtToken.mint_ok h
    rfl
  case isFalse =>
    obtain ⟨-, -, -, -, -, _, -, rfl⟩ := VariableDebtToken.mint_ok h
    rfl

theorem burnDebt_underlying {mode : InterestRateMode} {user : Address} {amount : ℕ}
    (h : LendingPool.burnDebt env r mode user amount = .ok r') : r'.underlying = r.underlying := by
  unfold LendingPool.burnDebt at h
  split at h
  case isTrue =>
    obtain ⟨-, _, t, -, -, rfl, -⟩ := StableDebtToken.burn_ok h
    rfl
  case isFalse =>
    obtain ⟨-, -, -, -, hs, rfl⟩ := VariableDebtToken.burn_ok h
    rfl

theorem move_balance {l : Ledger Address} {sender receiver : Address} {n : ℕ}
    (hr : receiver ≠ sender) (hn : n ≤ l.balances sender) :
    (l.move sender receiver n hn).balances sender = l.balances sender - n := by
  rw [Ledger.move_balances, if_pos rfl, if_neg hr.symm, Nat.add_zero]

theorem apply_cash (h : r.apply env asset a = .ok r') (ha : OtherThan r.data.aTokenAddress a) :
    r'.cash = cashAfter r.cash a := by
  have haddress := (apply_evolves h).aTokenAddress
  cases a with
  | updateState impl => exact cash_congr haddress (updateState_underlying h)
  | updateInterestRates added taken =>
    obtain ⟨rates, rfl⟩ := ReserveLogic.updateInterestRates_ok h
    exact cash_congr haddress (withData_underlying _ _)
  | pull spender sender amount =>
    obtain ⟨t, ht, rfl⟩ := map_ok.mp h
    obtain ⟨hn, hl⟩ := ERC20.transferFrom_ok ht
    have hne : r.data.aTokenAddress ≠ sender := fun he => ha he.symm
    rw [cash, withUnderlying_underlying, hl, withUnderlying_data, Ledger.move_balances, if_neg hne,
      if_pos rfl, cashAfter, cash]
  | mint user amount =>
    obtain ⟨⟨r₁, first⟩, h₁, rfl⟩ := map_ok.mp h
    obtain ⟨-, -, -, -, rfl⟩ := AToken.mint_ok h₁
    exact cash_congr haddress (withALedger_underlying _ _)
  | burn user receiver amount =>
    obtain ⟨-, -, -, hs, hn, rfl⟩ := AToken.burn_ok h
    exact move_balance ha hn
  | move impl sender recipient amount =>
    obtain ⟨⟨r₁, before⟩, h₁, rfl⟩ := map_ok.mp h
    obtain ⟨-, -, -, index, -, -, -, hs, rfl⟩ := AToken.move_ok h₁
    exact cash_congr haddress (withALedger_underlying _ _)
  | transferUnderlyingTo receiver amount =>
    obtain ⟨-, hn, rfl⟩ := AToken.transferUnderlyingTo_ok h
    exact move_balance ha hn
  | mintDebt mode user onBehalfOf amount =>
    obtain ⟨⟨r₁, first⟩, h₁, rfl⟩ := map_ok.mp h
    exact cash_congr haddress (mintDebt_underlying h₁)
  | burnDebt mode user amount => exact cash_congr haddress (burnDebt_underlying h)
  | cumulateToLiquidityIndex total premium =>
    obtain ⟨-, ratio, -, rfl⟩ := ReserveLogic.cumulateToLiquidityIndex_ok h
    exact cash_congr haddress (withData_underlying _ _)
  | approve owner spender amount =>
    simp only [apply, AToken.approve, bind_ok, exists_unit, pure_ok] at h
    obtain ⟨-, -, -, rfl⟩ := h
    rfl
  | setUnderlying t => exact absurd ha id
  | setLiquidityIndex index =>
    rw [← Except.ok.inj h]
    exact cash_congr rfl (withData_underlying _ _)
  | _ =>
    rw [← Except.ok.inj h]
    rfl

theorem run_cash (h : r.run env asset actions = .ok r')
    (ha : ∀ a ∈ actions, OtherThan r.data.aTokenAddress a) :
    r'.cash = actions.foldl cashAfter r.cash := by
  induction actions generalizing r with
  | nil =>
    rw [run, Except.ok.injEq] at h
    rw [h, List.foldl_nil]
  | cons a l ih =>
    obtain ⟨r₁, h₁, h⟩ := bind_ok.mp h
    have haddress := (apply_evolves h₁).aTokenAddress
    rw [ih h fun a' ha' => haddress ▸ ha a' (List.mem_cons_of_mem a ha'), List.foldl_cons,
      apply_cash h₁ (ha a List.mem_cons_self)]

structure KeepsDebts (r r' : Reserve) : Prop where
  data : r'.data = r.data
  stableDebtToken : r'.stableDebtToken = r.stableDebtToken
  variableDebtToken : r'.variableDebtToken = r.variableDebtToken

theorem KeepsDebts.trans (h₁ : KeepsDebts r r₁) (h₂ : KeepsDebts r₁ r') : KeepsDebts r r' :=
  ⟨h₂.data.trans h₁.data, h₂.stableDebtToken.trans h₁.stableDebtToken,
    h₂.variableDebtToken.trans h₁.variableDebtToken⟩

theorem apply_settles (h : r.apply env asset a = .ok r') (ha : Settles a) : KeepsDebts r r' := by
  cases a with
  | pull spender sender amount =>
    obtain ⟨t, -, rfl⟩ := map_ok.mp h
    exact ⟨rfl, rfl, rfl⟩
  | mint user amount =>
    obtain ⟨⟨r₁, first⟩, h₁, rfl⟩ := map_ok.mp h
    obtain ⟨-, -, -, -, rfl⟩ := AToken.mint_ok h₁
    exact ⟨rfl, rfl, rfl⟩
  | burn user receiver amount =>
    obtain ⟨-, -, -, hs, hn, rfl⟩ := AToken.burn_ok h
    exact ⟨rfl, rfl, rfl⟩
  | transferUnderlyingTo receiver amount =>
    obtain ⟨-, hn, rfl⟩ := AToken.transferUnderlyingTo_ok h
    exact ⟨rfl, rfl, rfl⟩
  | _ => exact absurd ha id

theorem run_settles (h : r.run env asset actions = .ok r') (ha : ∀ a ∈ actions, Settles a) :
    KeepsDebts r r' :=
  run_induction h (fun _ => ⟨rfl, rfl, rfl⟩) (fun _ _ _ h₁ h₂ => h₁.trans h₂)
    fun a hmem _ _ h => apply_settles h (ha a hmem)

end Reserve

namespace ReserveLogic

variable {env : Env} {asset : Address} {added taken : ℕ} {r r' : Reserve} {pre post : List Action}

theorem run_reflects_iff
    (h : r.run env asset (pre ++ .updateInterestRates added taken :: post) = .ok r')
    (hpre : ∀ a ∈ pre, Reserve.OtherThan r.data.aTokenAddress a)
    (hpost : ∀ a ∈ post, Reserve.Settles a) :
    ReflectsLiquidity env asset r' ↔ ratesAt env asset r' r'.cash =
      ratesAt env asset r' (pre.foldl Reserve.cashAfter r.cash + added - taken) := by
  rw [Reserve.run_append] at h
  obtain ⟨r₁, h₁, h⟩ := bind_ok.mp h
  obtain ⟨r₂, h₂, h₃⟩ := bind_ok.mp h
  obtain ⟨rates, hrates, -, rfl⟩ := updateInterestRates_rates h₂
  obtain ⟨hd, hs, hv⟩ := Reserve.run_settles h₃ hpost
  have hstored : storedRates r' = rates := by
    rw [storedRates, hd]
    rfl
  rw [ReflectsLiquidity, hstored, ratesAt_congr hd hs hv, ratesAt_withRates,
    ← Reserve.run_cash h₁ hpre, hrates]

end ReserveLogic

namespace Call

def storesRatesOf : Call → Option Address
  | .deposit asset .. | .withdraw asset .. | .borrow asset .. | .repay asset .. => some asset
  | .writeOff asset .. | .swapBorrowRateMode asset _ => some asset
  | _ => none

def isWriteOff : Call → Bool
  | .writeOff .. => true
  | _ => false

/-- The aToken neither makes the call nor receives what it withdraws. -/
def OtherThan (aToken sender : Address) : Call → Prop
  | .withdraw _ _ receiver => receiver ≠ aToken
  | _ => sender ≠ aToken

end Call

open ReserveLogic

variable {env : Env} {w w' : World} {sender asset : Address} {c : Call}

theorem Effect.reflects_iff (pre post : List Action) {added taken : ℕ}
    (h : Effect env (onAsset asset (pre ++ .updateInterestRates added taken :: post)) w w')
    (hpre : ∀ a ∈ pre, Reserve.OtherThan (w.reserves asset).data.aTokenAddress a)
    (hpost : ∀ a ∈ post, Reserve.Settles a) :
    ReflectsLiquidity env asset (w'.reserves asset) ↔
      ratesAt env asset (w'.reserves asset) (w'.reserves asset).cash =
        ratesAt env asset (w'.reserves asset)
          (pre.foldl Reserve.cashAfter (w.reserves asset).cash + added - taken) := by
  have hrun := h.run asset
  rw [onAsset, if_pos rfl] at hrun
  exact run_reflects_iff hrun hpre hpost

theorem Effect.cash {actions : List Action} (h : Effect env (onAsset asset actions) w w')
    (ha : ∀ a ∈ actions, Reserve.OtherThan (w.reserves asset).data.aTokenAddress a) :
    (w'.reserves asset).cash = actions.foldl Reserve.cashAfter (w.reserves asset).cash := by
  have hrun := h.run asset
  rw [onAsset, if_pos rfl] at hrun
  exact Reserve.run_cash hrun ha

theorem Effect.reflects (pre post : List Action) {added taken : ℕ}
    (h : Effect env (onAsset asset (pre ++ .updateInterestRates added taken :: post)) w w')
    (hpre : ∀ a ∈ pre, Reserve.OtherThan (w.reserves asset).data.aTokenAddress a)
    (hpost : ∀ a ∈ post, Reserve.Settles a ∧
      Reserve.OtherThan (w.reserves asset).data.aTokenAddress a)
    (hmoved : post.foldl Reserve.cashAfter (pre.foldl Reserve.cashAfter (w.reserves asset).cash) =
      pre.foldl Reserve.cashAfter (w.reserves asset).cash + added - taken) :
    ReflectsLiquidity env asset (w'.reserves asset) := by
  refine (h.reflects_iff pre post hpre fun a ha => (hpost a ha).1).mpr ?_
  have hcash := h.cash fun a ha => ?_
  · rw [hcash, List.foldl_append, List.foldl_cons]
    exact congrArg _ hmoved
  · rcases List.mem_append.mp ha with ha | ha
    · exact hpre a ha
    · rcases List.mem_cons.mp ha with rfl | ha
      · trivial
      · exact (hpost a ha).2

theorem exec_reflects (hc : c.storesRatesOf = some asset) (hwriteOff : c.isWriteOff = false)
    (hother : c.OtherThan (w.reserves asset).data.aTokenAddress sender)
    (h : exec env w sender c = .ok w') : ReflectsLiquidity env asset (w'.reserves asset) := by
  cases c with
  | deposit a amount onBehalfOf =>
    obtain rfl := Option.some.inj hc
    have hsender : sender ≠ (w.reserves a).data.aTokenAddress := hother
    refine Effect.reflects [_] _ (LendingPool.deposit_effect h) ?_ ?_ rfl
    · simp [Reserve.OtherThan]
    · simp [Reserve.Settles, Reserve.OtherThan, hsender]
  | withdraw a amount receiver =>
    obtain rfl := Option.some.inj hc
    have hreceiver : receiver ≠ (w.reserves a).data.aTokenAddress := hother
    obtain ⟨⟨w₁, n⟩, h₁, rfl⟩ := map_ok.mp h
    refine Effect.reflects [_] _ (LendingPool.withdraw_effect h₁) ?_ ?_ rfl
    · simp [Reserve.OtherThan]
    · simp [Reserve.Settles, Reserve.OtherThan, hreceiver]
  | borrow a amount mode onBehalfOf =>
    obtain rfl := Option.some.inj hc
    have hsender : sender ≠ (w.reserves a).data.aTokenAddress := hother
    obtain ⟨m, -, heffect⟩ := LendingPool.executeBorrow_effect (LendingPool.borrow_ok h)
    refine Effect.reflects [_, _] _ heffect ?_ ?_ rfl
    · simp [Reserve.OtherThan]
    · simp [Reserve.Settles, Reserve.OtherThan, hsender]
  | repay a amount mode onBehalfOf =>
    obtain rfl := Option.some.inj hc
    have hsender : sender ≠ (w.reserves a).data.aTokenAddress := hother
    obtain ⟨⟨w₁, n⟩, h₁, rfl⟩ := map_ok.mp h
    obtain ⟨m, -, heffect⟩ := LendingPool.repay_effect h₁
    refine Effect.reflects [_, _] _ heffect ?_ ?_ rfl
    · simp [Reserve.OtherThan]
    · simp [Reserve.Settles, Reserve.OtherThan, hsender]
  | swapBorrowRateMode a mode =>
    obtain rfl := Option.some.inj hc
    obtain ⟨burned, minted, n, heffect⟩ := LendingPool.swapBorrowRateMode_effect h
    refine Effect.reflects [_, _, _] _ heffect ?_ ?_ rfl
    · simp [Reserve.OtherThan]
    · simp
  | writeOff => cases hwriteOff
  | _ => cases hc

theorem payback_ne_zero {amount mode : ℕ} {onBehalfOf : Address} {p : LendingPool.Payback}
    (h : LendingPool.payback env w sender asset amount mode onBehalfOf = .ok p) :
    p.paybackAmount ≠ 0 := by
  obtain ⟨stableDebt, variableDebt, m, -, -, -, -, -, hvalid, hamount, -⟩ :=
    LendingPool.payback_ok h
  simp only [ValidationLogic.validateRepay, bind_ok, exists_unit, require_ok] at hvalid
  obtain ⟨-, hpos, hdebt, -⟩ := hvalid
  rw [hamount]
  rcases hdebt with ⟨hstable, rfl⟩ | ⟨hvariable, rfl⟩
  · rw [if_pos rfl]
    omega
  · rw [if_neg (by decide)]
    omega

theorem writeOff_reflects_iff {amount mode n : ℕ} {onBehalfOf : Address}
    (h : LendingPool.writeOff env w sender asset amount mode onBehalfOf = .ok (w', n)) :
    ReflectsLiquidity env asset (w'.reserves asset) ↔
      ratesAt env asset (w'.reserves asset) (w'.reserves asset).cash =
        ratesAt env asset (w'.reserves asset) ((w'.reserves asset).cash + n) := by
  obtain ⟨m, -, heffect⟩ := LendingPool.writeOff_effect h
  have hpre : ∀ a ∈ [Action.updateState w.impl, .burnDebt m onBehalfOf n],
      Reserve.OtherThan (w.reserves asset).data.aTokenAddress a := by simp [Reserve.OtherThan]
  have hcash := heffect.cash (by simp [Reserve.OtherThan])
  have hiff := Effect.reflects_iff [_, _] [] heffect hpre (by simp)
  rw [hiff, hcash]
  rfl

/-- What a transaction leaves of the rates of its reserve: those for the liquidity that it
leaves, and after a write-off only if what that returns makes no difference to the strategy. -/
structure Transaction.LeavesRates (t : Transaction) (w w' : World) (asset : Address) : Prop where
  moved : t.call.isWriteOff = false → ReflectsLiquidity t.env asset (w'.reserves asset)
  writtenOff : ∀ amount mode onBehalfOf, t.call = .writeOff asset amount mode onBehalfOf →
    ∃ n ≠ 0, LendingPool.writeOff t.env w t.sender asset amount mode onBehalfOf = .ok (w', n) ∧
      (ReflectsLiquidity t.env asset (w'.reserves asset) ↔
        ratesAt t.env asset (w'.reserves asset) (w'.reserves asset).cash =
          ratesAt t.env asset (w'.reserves asset) ((w'.reserves asset).cash + n))

theorem execute_leavesRates {t : Transaction} (hc : t.call.storesRatesOf = some asset)
    (hother : t.call.OtherThan (w.reserves asset).data.aTokenAddress t.sender)
    (h : t.execute w = .ok w') : t.LeavesRates w w' asset := by
  refine ⟨fun hwriteOff => exec_reflects hc hwriteOff hother h, fun amount mode user hcall => ?_⟩
  rw [Transaction.execute, hcall] at h
  obtain ⟨⟨w₁, n⟩, h₁, rfl⟩ := map_ok.mp h
  obtain ⟨-, p, hp, rfl, -⟩ := LendingPool.writeOff_ok h₁
  exact ⟨p.paybackAmount, payback_ne_zero hp, h₁, writeOff_reflects_iff h₁⟩

/-- Along every run from every state, an operation stores the rates for the liquidity that it
leaves if it is no write-off, and says what a write-off leaves. -/
theorem stored_rates_along (w : World) (ts : List Transaction) :
    Trace.Along Transaction.execute (fun t w w' => ∀ asset,
      t.call.storesRatesOf = some asset →
      t.call.OtherThan (w.reserves asset).data.aTokenAddress t.sender → t.LeavesRates w w' asset)
      w ts :=
  .of_step (fun _ _ _ h _ hc hother => execute_leavesRates hc hother h) w ts

def borrowedHalf : List Transaction :=
  sampleListing 40 1 9 ++
    [⟨sampleEnv 40, 11, .deposit 1 100 11⟩, ⟨sampleEnv 40, 12, .deposit 1 100 12⟩,
      ⟨sampleEnv 40, 12, .borrow 1 50 2 12⟩,
      ⟨sampleEnv 40, 7, .setLendingPoolImpl .withUpdateLiquidityIndex⟩]

theorem borrowedHalf_writeOff : (do
    let w ← runAll sampleStart borrowedHalf
    let w' ← exec (sampleEnv 40) w 7 (.writeOff 1 20 2 12)
    let rates ← ratesAt (sampleEnv 40) 1 (w'.reserves 1) (w'.reserves 1).cash
    let w₁ ← exec (sampleEnv 40) w 11 (.deposit 1 10 11)
    return (w.impl, (w.reserves 1).data.aTokenAddress, rates.liquidityRate,
      (w'.reserves 1).data.currentLiquidityRate, (w₁.reserves 1).cash)) =
    .ok (.withUpdateLiquidityIndex, 101, 8333333333333333333333333, 7500000000000000000000000,
      160) := by
  decide +kernel

theorem borrowedHalf_state : ∃ w w' w₁ rates, Reachable ⟨w, 40, []⟩ ∧
    exec (sampleEnv 40) w 7 (.writeOff 1 20 2 12) = .ok w' ∧
    exec (sampleEnv 40) w 11 (.deposit 1 10 11) = .ok w₁ ∧
    ratesAt (sampleEnv 40) 1 (w'.reserves 1) (w'.reserves 1).cash = .ok rates ∧
    w.impl = .withUpdateLiquidityIndex ∧ (w.reserves 1).data.aTokenAddress = 101 ∧
    rates.liquidityRate ≠ (storedRates (w'.reserves 1)).liquidityRate := by
  obtain ⟨w, hrun, hrest⟩ := bind_ok.mp borrowedHalf_writeOff
  obtain ⟨w', h, hrest⟩ := bind_ok.mp hrest
  obtain ⟨rates, hrates, hrest⟩ := bind_ok.mp hrest
  obtain ⟨w₁, h₁, hrest⟩ := bind_ok.mp hrest
  simp only [pure_ok, Prod.mk.injEq] at hrest
  obtain ⟨himpl, haddress, hactual, hstored, -⟩ := hrest
  refine ⟨w, w', w₁, rates, .sample (by decide) hrun, h, h₁, hrates, himpl, haddress, ?_⟩
  rw [storedRates, hactual, hstored]
  norm_num

theorem writeOff_predicts_payment : ¬ ∀ (m : Machine) (t : Transaction) (w' : World)
    (asset : Address), Reachable m → m.world.impl = .withUpdateLiquidityIndex →
    t.env.timestamp = m.time → t.call.storesRatesOf = some asset →
    t.call.OtherThan (m.world.reserves asset).data.aTokenAddress t.sender →
    exec t.env m.world t.sender t.call = .ok w' →
    ReflectsLiquidity t.env asset (w'.reserves asset) := by
  intro hstored
  obtain ⟨w, w', -, rates, hreach, h, -, hrates, himpl, haddress, hne⟩ := borrowedHalf_state
  have hother : (Call.writeOff 1 20 2 12).OtherThan (w.reserves 1).data.aTokenAddress 7 := by
    rw [haddress]
    exact (by decide : 7 ≠ 101)
  have hreflects := hstored ⟨w, 40, []⟩ ⟨sampleEnv 40, 7, .writeOff 1 20 2 12⟩ w' 1 hreach himpl rfl
    rfl hother h
  exact hne (congrArg InterestRates.liquidityRate (Except.ok.inj (hrates.symm.trans hreflects)))

/-- The deposit that follows the loan stores the rates for what it leaves. -/
theorem stored_rates_along_half : ∃ w w₁, Reachable ⟨w, 40, []⟩ ∧
    exec (sampleEnv 40) w 11 (.deposit 1 10 11) = .ok w₁ ∧
    ReflectsLiquidity (sampleEnv 40) 1 (w₁.reserves 1) := by
  obtain ⟨w, -, w₁, rates, hreach, -, h₁, -, -, haddress, -⟩ := borrowedHalf_state
  have hdepositor : (Call.deposit 1 10 11).OtherThan (w.reserves 1).data.aTokenAddress 11 := by
    rw [haddress]
    exact (by decide : 11 ≠ 101)
  obtain ⟨hleaves, -⟩ := stored_rates_along w [⟨sampleEnv 40, 11, .deposit 1 10 11⟩] w₁ h₁
  exact ⟨w, w₁, hreach, h₁, (hleaves 1 rfl hdepositor).moved rfl⟩

end Moola
