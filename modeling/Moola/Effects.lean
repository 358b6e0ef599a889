import Moola.Actions

/-! The calls that each operation makes on the reserves. -/

namespace Moola

open Guard WadRayMath

namespace LendingPool

variable {env : Env} {w w' : World} {sender asset onBehalfOf user receiver : Address}
  {amount rateMode premium n : ℕ}

theorem OnlyFlags.setReserve {w₁ : World} (h : OnlyFlags w w₁) (a : Address) (r : Reserve) :
    OnlyFlags (w.setReserve a r) (w₁.setReserve a r) where
  reserves := congrArg (write · a r) h.reserves
  reservesList := h.reservesList
  reservesCount := h.reservesCount
  impl := h.impl
  self := h.self

theorem setUsingAsCollateral_onlyFlags {i : ℕ} {value : Bool}
    (h : setUsingAsCollateral w user i value = .ok w') : OnlyFlags w w' := by
  obtain ⟨-, rfl⟩ := setUsingAsCollateral_ok.mp h
  exact ⟨rfl, rfl, rfl, rfl, rfl⟩

theorem deposit_effect (h : deposit env w sender asset amount onBehalfOf = .ok w') :
    Effect env (onAsset asset [.updateState w.impl, .updateInterestRates amount 0,
      .pull w.self sender amount, .mint onBehalfOf amount]) w w' := by
  obtain ⟨r₁, r₂, t, r₃, first, h₁, h₂, ht, h₃, hflag⟩ := deposit_ok h
  refine Effect.thenFlags (Effect.setReserve ?_) (applyIf_setUsingAsCollateral_ok hflag).1
  exact Reserve.run_cons h₁ (Reserve.run_cons h₂ (Reserve.run_cons (map_ok.mpr ⟨t, ht, rfl⟩)
    (Reserve.run_cons (map_ok.mpr ⟨_, h₃, rfl⟩) rfl)))

theorem withdraw_effect (h : withdraw env w sender asset amount receiver = .ok (w', n)) :
    Effect env (onAsset asset [.updateState w.impl, .updateInterestRates 0 n,
      .burn sender receiver n]) w w' := by
  obtain ⟨b, r, hb, rfl, hr, rfl⟩ := withdraw_ok h
  obtain ⟨balance, r₁, -, -, -, h₁, h₂, hflag⟩ := beforeBurn_ok hb
  have hflags := (applyIf_setUsingAsCollateral_ok hflag).1
  refine Effect.thenFlags (Effect.setReserve ?_) (hflags.setReserve asset r)
  exact Reserve.run_cons h₁ (Reserve.run_cons h₂ (Reserve.run_cons hr rfl))

/-- What `_executeBorrow` calls: the underlying leaves only when it is released. -/
def borrowActions (impl : PoolImpl) (mode : InterestRateMode) (user onBehalfOf : Address)
    (amount : ℕ) (releaseUnderlying : Bool) : List Action :=
  [.updateState impl, .mintDebt mode user onBehalfOf amount,
    .updateInterestRates 0 (if releaseUnderlying then amount else 0)] ++
    if releaseUnderlying then [.transferUnderlyingTo user amount] else []

theorem executeBorrow_effect {release : Bool}
    (h : executeBorrow env w user asset onBehalfOf amount rateMode release = .ok w') :
    ∃ mode, InterestRateMode.ofUint rateMode = .ok mode ∧
      Effect env (onAsset asset (borrowActions w.impl mode user onBehalfOf amount release)) w
        w' := by
  obtain ⟨value, r₁, r₂, r₃, r₄, first, mode, w₁, -, -, h₁, hmode, h₂, hflag, h₃, h₄, rfl⟩ :=
    executeBorrow_ok h
  have hflags := (applyIf_setBorrowing_ok hflag).1
  refine ⟨mode, hmode, Effect.thenFlags (Effect.setReserve ?_) (hflags.setReserve asset r₄)⟩
  refine Reserve.run_cons h₁ (Reserve.run_cons (map_ok.mpr ⟨_, h₂, rfl⟩) (Reserve.run_cons h₃ ?_))
  cases release with
  | false => exact h₄
  | true => exact Reserve.run_cons h₄ rfl

theorem payback_effect {p : Payback}
    (h : payback env w sender asset amount rateMode onBehalfOf = .ok p) :
    ∃ mode, InterestRateMode.ofUint rateMode = .ok mode ∧
      OnlyFlags w p.world ∧ (w.reserves asset).run env asset [.updateState w.impl,
        .burnDebt mode onBehalfOf p.paybackAmount,
        .updateInterestRates p.paybackAmount 0] = .ok p.reserve := by
  obtain ⟨stableDebt, variableDebt, mode, r₁, r₂, -, -, hmode, -, -, h₁, h₂, h₃, -, hflag⟩ :=
    payback_ok h
  refine ⟨mode, hmode, (applyIf_setBorrowing_ok hflag).1, ?_⟩
  exact Reserve.run_cons h₁ (Reserve.run_cons h₂ (Reserve.run_cons h₃ rfl))

theorem repay_effect (h : repay env w sender asset amount rateMode onBehalfOf = .ok (w', n)) :
    ∃ mode, InterestRateMode.ofUint rateMode = .ok mode ∧
      Effect env (onAsset asset [.updateState w.impl, .burnDebt mode onBehalfOf n,
        .updateInterestRates n 0, .pull w.self sender n]) w w' := by
  obtain ⟨p, t, hp, rfl, ht, rfl⟩ := repay_ok h
  obtain ⟨mode, hmode, hflags, hrun⟩ := payback_effect hp
  refine ⟨mode, hmode, Effect.thenFlags (Effect.setReserve ?_) (hflags.setReserve asset _)⟩
  have hsplit : (w.reserves asset).run env asset ([.updateState w.impl,
      .burnDebt mode onBehalfOf p.paybackAmount, .updateInterestRates p.paybackAmount 0] ++
      [.pull w.self sender p.paybackAmount]) = _ := Reserve.run_append _ _ _
  rw [hrun, ok_bind] at hsplit
  refine hsplit.trans ?_
  exact Reserve.run_cons (map_ok.mpr ⟨t, ht, rfl⟩) rfl

theorem writeOff_effect
    (h : writeOff env w sender asset amount rateMode onBehalfOf = .ok (w', n)) :
    ∃ mode, InterestRateMode.ofUint rateMode = .ok mode ∧
      Effect env (onAsset asset [.updateState w.impl, .burnDebt mode onBehalfOf n,
        .updateInterestRates n 0]) w w' := by
  obtain ⟨-, p, hp, rfl, rfl⟩ := writeOff_ok h
  obtain ⟨mode, hmode, hflags, hrun⟩ := payback_effect hp
  exact ⟨mode, hmode, Effect.thenFlags (Effect.setReserve hrun) (hflags.setReserve asset _)⟩

theorem swapBorrowRateMode_effect
    (h : swapBorrowRateMode env w sender asset rateMode = .ok w') :
    ∃ burned minted n, Effect env (onAsset asset [.updateState w.impl, .burnDebt burned sender n,
      .mintDebt minted sender sender n, .updateInterestRates 0 0]) w w' := by
  obtain ⟨stableDebt, variableDebt, mode, r₁, r₂, r₃, r₄, first, -, -, -, h₁, hswap, h₄, rfl⟩ :=
    swapBorrowRateMode_ok h
  rcases hswap with ⟨-, h₂, h₃⟩ | ⟨-, h₂, h₃⟩
  · refine ⟨.stable, .variable, stableDebt, Effect.setReserve ?_⟩
    exact Reserve.run_cons h₁ (Reserve.run_cons h₂ (Reserve.run_cons (map_ok.mpr ⟨_, h₃, rfl⟩)
      (Reserve.run_cons h₄ rfl)))
  · refine ⟨.variable, .stable, variableDebt, Effect.setReserve ?_⟩
    exact Reserve.run_cons h₁ (Reserve.run_cons h₂ (Reserve.run_cons (map_ok.mpr ⟨_, h₃, rfl⟩)
      (Reserve.run_cons h₄ rfl)))

theorem rebalanceStableBorrowRate_effect
    (h : rebalanceStableBorrowRate env w asset user = .ok w') :
    ∃ n, StableDebtToken.balanceOf env.timestamp (w.reserves asset) user = .ok n ∧
      Effect env (onAsset asset [.updateState w.impl, .burnDebt .stable user n,
        .mintDebt .stable user user n, .updateInterestRates 0 0]) w w' := by
  obtain ⟨n, r₁, r₂, r₃, r₄, first, hn, h₁, h₂, h₃, h₄, rfl⟩ := rebalanceStableBorrowRate_ok h
  refine ⟨n, hn, Effect.setReserve ?_⟩
  exact Reserve.run_cons h₁ (Reserve.run_cons h₂ (Reserve.run_cons (map_ok.mpr ⟨_, h₃, rfl⟩)
    (Reserve.run_cons h₄ rfl)))

/-- The rule for the loop that pays out: what relates the pool before and after each payment,
and is reflexive and transitive, relates it before and after the loop. -/
theorem takeAll_relates {R : World → World → Prop} (hrefl : ∀ w, R w w)
    (htrans : ∀ w w₁ w', R w w₁ → R w₁ w' → R w w')
    (hone : ∀ w w₁ asset amount premium,
      takeOne w receiver asset amount = .ok (w₁, premium) → R w w₁)
    {assets : List Address} {amounts premiums : List ℕ}
    (h : takeAll receiver w assets amounts = .ok (w', premiums)) : R w w' := by
  induction assets generalizing w amounts premiums with
  | nil =>
    obtain ⟨rfl, -⟩ : w = w' ∧ [] = premiums := by simpa [takeAll] using h
    exact hrefl w
  | cons asset assets ih =>
    cases amounts with
    | nil =>
      obtain ⟨rfl, -⟩ : w = w' ∧ [] = premiums := by simpa [takeAll] using h
      exact hrefl w
    | cons amount amounts =>
      simp only [takeAll, bind_ok, pure_ok] at h
      obtain ⟨⟨w₁, premium⟩, h₁, ⟨w₂, rest⟩, h₂, heq⟩ := h
      obtain ⟨rfl, -⟩ := Prod.mk.inj heq
      exact htrans w w₁ w₂ (hone w w₁ asset amount premium h₁) (ih h₂)

theorem takeOne_effect (env : Env) {amount premium : ℕ}
    (h : takeOne w receiver asset amount = .ok (w', premium)) :
    Effect env (onAsset asset [.transferUnderlyingTo receiver amount]) w w' := by
  obtain ⟨r, hr, rfl⟩ := takeOne_ok h
  exact Effect.setReserve (Reserve.run_cons hr rfl)

theorem takeAll_effect (env : Env) {assets : List Address} {amounts premiums : List ℕ}
    (h : takeAll receiver w assets amounts = .ok (w', premiums)) :
    ∃ l, (∀ x, ∀ a ∈ l x, ∃ amount, a = .transferUnderlyingTo receiver amount) ∧
      Effect env l w w' := by
  refine takeAll_relates (R := fun w w' => ∃ l,
    (∀ x, ∀ a ∈ l x, ∃ amount, a = .transferUnderlyingTo receiver amount) ∧ Effect env l w w')
    (fun w => ⟨fun _ => [], by simp, Effect.ofFlags (OnlyFlags.refl w)⟩) ?_ ?_ h
  · rintro w w₁ w' ⟨l₁, hl₁, hfirst⟩ ⟨l, hl, hrest⟩
    refine ⟨_, ?_, hfirst.trans hrest⟩
    intro x a ha
    exact (List.mem_append.mp ha).elim (hl₁ x a) (hl x a)
  · intro w w₁ asset amount premium hone
    refine ⟨_, ?_, takeOne_effect env hone⟩
    intro x a ha
    exact ⟨amount, List.mem_singleton.mp (mem_onAsset.mp ha).2⟩

abbrev returnActions (impl : PoolImpl) (self receiver : Address)
    (total amountPlusPremium premium : ℕ) : List Action :=
  [.updateState impl, .cumulateToLiquidityIndex total premium,
    .updateInterestRates amountPlusPremium 0, .pull self receiver amountPlusPremium]

theorem returnOne_effect {amountPlusPremium : ℕ}
    (h : returnOne env w receiver asset amountPlusPremium premium = .ok w') :
    ∃ total, Effect env (onAsset asset
      (returnActions w.impl w.self receiver total amountPlusPremium premium)) w w' := by
  obtain ⟨r₁, total, r₂, r₃, t, h₁, -, h₂, h₃, ht, rfl⟩ := returnOne_ok h
  refine ⟨total, Effect.setReserve ?_⟩
  exact Reserve.run_cons h₁ (Reserve.run_cons h₂ (Reserve.run_cons h₃
    (Reserve.run_cons (map_ok.mpr ⟨t, ht, rfl⟩) rfl)))

theorem settleAll_cons_ok {loan : FlashLoan} {assets : List Address}
    {amounts premiums modes : List ℕ}
    (h : settleAll env sender loan w (asset :: assets) amounts premiums modes = .ok w') :
    ∃ amount amounts' premium premiums' mode modes' w₁, amounts = amount :: amounts' ∧
      premiums = premium :: premiums' ∧ modes = mode :: modes' ∧
      settleOne env w sender loan asset amount premium mode = .ok w₁ ∧
      settleAll env sender loan w₁ assets amounts' premiums' modes' = .ok w' := by
  cases amounts <;> cases premiums <;> cases modes <;> simp only [settleAll, reduceCtorEq] at h
  obtain ⟨w₁, h₁, h₂⟩ := bind_ok.mp h
  exact ⟨_, _, _, _, _, _, w₁, rfl, rfl, rfl, h₁, h₂⟩

/-- The rule for the settlement: what relates the pool before and after each loan that is
settled, and is reflexive and transitive, relates it before and after them all. -/
theorem settleAll_relates {R : World → World → Prop} {loan : FlashLoan}
    (hrefl : ∀ w, R w w) (htrans : ∀ w w₁ w', R w w₁ → R w₁ w' → R w w')
    (hone : ∀ w w₁ asset amount premium mode,
      settleOne env w sender loan asset amount premium mode = .ok w₁ → R w w₁)
    {assets : List Address} {amounts premiums modes : List ℕ}
    (h : settleAll env sender loan w assets amounts premiums modes = .ok w') : R w w' := by
  induction assets generalizing w amounts premiums modes with
  | nil =>
    obtain rfl : w = w' := by simpa [settleAll] using h
    exact hrefl w
  | cons asset assets ih =>
    obtain ⟨amount, amounts', premium, premiums', mode, modes', w₁, -, -, -, h₁, h₂⟩ :=
      settleAll_cons_ok h
    exact htrans w w₁ w' (hone w w₁ asset amount premium mode h₁) (ih h₂)

theorem settleOne_effect {loan : FlashLoan} {mode : ℕ}
    (h : settleOne env w sender loan asset amount premium mode = .ok w') :
    ∃ actions, Effect env (onAsset asset actions) w w' := by
  rcases settleOne_ok h with h | h
  · obtain ⟨total, h⟩ := returnOne_effect h
    exact ⟨_, h⟩
  · obtain ⟨m, -, h⟩ := executeBorrow_effect h
    exact ⟨_, h⟩

/-- The calls of the settlement, asset by asset: each loan is paid back or left open as debt. -/
inductive Settles (impl : PoolImpl) (self sender : Address) (loan : FlashLoan) :
    List Address → (Address → List Action) → Prop
  | done : Settles impl self sender loan [] (fun _ => [])
  | paid {asset : Address} {assets : List Address} {l : Address → List Action}
      (total amountPlusPremium premium : ℕ) : Settles impl self sender loan assets l →
      Settles impl self sender loan (asset :: assets) (fun x => onAsset asset
        (returnActions impl self loan.receiverAddress total amountPlusPremium premium) x ++ l x)
  | opened {asset : Address} {assets : List Address} {l : Address → List Action}
      (mode : InterestRateMode) (amount : ℕ) : Settles impl self sender loan assets l →
      Settles impl self sender loan (asset :: assets) (fun x => onAsset asset
        (borrowActions impl mode sender loan.onBehalfOf amount false) x ++ l x)

theorem settleAll_makes {loan : FlashLoan} {assets : List Address}
    {amounts premiums modes : List ℕ}
    (h : settleAll env sender loan w assets amounts premiums modes = .ok w') :
    ∃ l, Settles w.impl w.self sender loan assets l ∧ Effect env l w w' := by
  induction assets generalizing w amounts premiums modes with
  | nil =>
    obtain rfl : w = w' := by simpa [settleAll] using h
    exact ⟨_, .done, Effect.ofFlags (OnlyFlags.refl w)⟩
  | cons asset assets ih =>
    obtain ⟨amount, amounts', premium, premiums', mode, modes', w₁, -, -, -, h₁, h₂⟩ :=
      settleAll_cons_ok h
    obtain ⟨l, hl, hrest⟩ := ih h₂
    rcases settleOne_ok h₁ with hone | hone
    · obtain ⟨total, hfirst⟩ := returnOne_effect hone
      rw [hfirst.impl, hfirst.self] at hl
      exact ⟨_, .paid _ _ _ hl, hfirst.trans hrest⟩
    · obtain ⟨m, -, hfirst⟩ := executeBorrow_effect hone
      rw [hfirst.impl, hfirst.self] at hl
      exact ⟨_, .opened _ _ hl, hfirst.trans hrest⟩

theorem finalizeTransfer_onlyFlags {recipient : Address} {before : AToken.BalancesBefore}
    (h : finalizeTransfer env w asset sender recipient amount before = .ok w') :
    OnlyFlags w w' := by
  obtain ⟨-, ⟨-, rfl⟩ | ⟨-, w₁, -, h₁, h₂⟩⟩ := finalizeTransfer_ok h
  · exact OnlyFlags.refl _
  · exact (applyIf_setUsingAsCollateral_ok h₁).1.trans (applyIf_setUsingAsCollateral_ok h₂).1

end LendingPool

namespace AToken

variable {env : Env} {w w' : World} {spender sender asset recipient : Address} {amount : ℕ}

theorem transfer_effect (h : transfer env w sender asset recipient amount = .ok w') :
    Effect env (onAsset asset [.move w.impl sender recipient amount]) w w' := by
  obtain ⟨r, before, hr, h⟩ := transfer_ok h
  exact Effect.thenFlags (Effect.setReserve (Reserve.run_cons (map_ok.mpr ⟨_, hr, rfl⟩) rfl))
    (LendingPool.finalizeTransfer_onlyFlags h)

theorem transferFrom_effect
    (h : transferFrom env w spender asset sender recipient amount = .ok w') :
    ∃ allowance, Effect env (fun x => onAsset asset [.move w.impl sender recipient amount] x ++
      onAsset asset [.approve sender spender allowance] x) w w' := by
  simp only [transferFrom, bind_ok, SafeMath.sub_ok, pure_ok] at h
  obtain ⟨w₁, h₁, allowance, -, r, hr, rfl⟩ := h
  exact ⟨allowance, (transfer_effect h₁).trans (Effect.setReserve (Reserve.run_cons hr rfl))⟩

theorem transfer_allowances (h : transfer env w sender asset recipient amount = .ok w') :
    (w'.reserves asset).aToken.allowances = (w.reserves asset).aToken.allowances := by
  obtain ⟨r, before, hr, h⟩ := transfer_ok h
  obtain ⟨-, -, -, _, -, -, -, _, rfl⟩ := move_ok hr
  rw [(LendingPool.finalizeTransfer_onlyFlags h).reserves, World.setReserve_reserves_self]
  rfl

end AToken

namespace CollateralManager

variable {env : Env} {w w' : World} {manager : CollateralManager} {amount : ℕ}
  {sender collateralAsset debtAsset user : Address} {receiveAToken : Bool} {l : Liquidation}
  {r r' : Reserve}

def debtActions (user : Address) (l : Liquidation) : List Action :=
  if l.actualDebtToLiquidate ≤ l.userVariableDebt then
    [.burnDebt .variable user l.actualDebtToLiquidate]
  else
    (if l.userVariableDebt > 0 then [.burnDebt .variable user l.userVariableDebt] else []) ++
      [.burnDebt .stable user (l.actualDebtToLiquidate - l.userVariableDebt)]

def seizeActions (impl : PoolImpl) (sender user : Address) (amount : ℕ) (receiveAToken : Bool) :
    List Action :=
  if receiveAToken then [.move impl user sender amount]
  else [.updateState .lendingPool, .updateInterestRates 0 amount, .burn user sender amount]

theorem burnLiquidatedDebt_run (h : burnLiquidatedDebt env r user l = .ok r') :
    r.run env debtAsset (debtActions user l) = .ok r' := by
  unfold debtActions
  rcases burnLiquidatedDebt_ok h with ⟨hle, h⟩ | ⟨hlt, r₁, h₁, h₂⟩
  · rw [if_pos hle]
    exact Reserve.run_cons h rfl
  · rw [if_neg (by omega)]
    have hrest : r₁.run env debtAsset
        [.burnDebt .stable user (l.actualDebtToLiquidate - l.userVariableDebt)] = .ok r' :=
      Reserve.run_cons h₂ rfl
    refine Reserve.run_trans ?_ hrest
    rcases applyIf_ok.mp h₁ with ⟨hpos, h₁⟩ | ⟨hzero, rfl⟩
    · rw [if_pos hpos]
      exact Reserve.run_cons h₁ rfl
    · rw [if_neg hzero, Reserve.run]

theorem liquidateDebt_effect
    (h : w.onReserve debtAsset (liquidateDebt env debtAsset user l) = .ok w') :
    Effect env (onAsset debtAsset ([.updateState .lendingPool] ++ debtActions user l ++
      [.updateInterestRates l.actualDebtToLiquidate 0])) w w' := by
  obtain ⟨r, hr, rfl⟩ := World.onReserve_ok.mp h
  obtain ⟨r₁, r₂, h₁, h₂, h₃⟩ := liquidateDebt_ok hr
  exact Effect.setReserve (Reserve.run_trans (Reserve.run_cons h₁ (burnLiquidatedDebt_run h₂))
    (Reserve.run_cons h₃ rfl))

theorem seize_effect
    (h : seize env w sender collateralAsset user amount receiveAToken = .ok w') :
    Effect env (onAsset collateralAsset (seizeActions w.impl sender user amount receiveAToken))
      w w' := by
  unfold seizeActions
  rcases seize_ok h with ⟨rfl, balance, r, hr, hflag⟩ | ⟨rfl, r₁, r₂, r₃, h₁, h₂, h₃, rfl⟩
  · refine Effect.thenFlags (Effect.setReserve ?_)
      (LendingPool.applyIf_setUsingAsCollateral_ok hflag).1
    simp only [AToken.transferOnLiquidation, bind_ok, pure_ok] at hr
    obtain ⟨⟨r₁, before⟩, hm, rfl⟩ := hr
    exact Reserve.run_cons (map_ok.mpr ⟨_, hm, rfl⟩) rfl
  · exact Effect.setReserve (Reserve.run_cons h₁ (Reserve.run_cons h₂ (Reserve.run_cons h₃ rfl)))

theorem seizeForTreasury_effect
    (h : seizeForTreasury env w collateralAsset user amount = .ok w') :
    Effect env (onAsset collateralAsset (if 0 < amount then
      [.move w.impl user (w.reserves collateralAsset).aToken.treasury amount] else [])) w w' := by
  rcases seizeForTreasury_ok h with ⟨hpos, r, hr, rfl⟩ | ⟨rfl, rfl⟩
  · refine Effect.setReserve ?_
    simp only [AToken.transferOnLiquidation, bind_ok, pure_ok] at hr
    obtain ⟨⟨r₁, before⟩, hm, rfl⟩ := hr
    rw [if_pos hpos]
    exact Reserve.run_cons (map_ok.mpr ⟨_, hm, rfl⟩) rfl
  · rw [if_neg (lt_irrefl 0), onAsset_nil]
    exact Effect.ofFlags (LendingPool.OnlyFlags.refl _)

theorem payDebt_effect (env : Env) (h : payDebt w sender debtAsset amount = .ok w') :
    Effect env (onAsset debtAsset [.pull w.self sender amount]) w w' := by
  obtain ⟨t, ht, rfl⟩ := payDebt_ok h
  exact Effect.setReserve (Reserve.run_cons (map_ok.mpr ⟨t, ht, rfl⟩) rfl)

theorem clearSeizedCollateral_onlyFlags
    (h : clearSeizedCollateral w collateralAsset user l = .ok w') : LendingPool.OnlyFlags w w' :=
  (LendingPool.applyIf_setUsingAsCollateral_ok h).1

theorem liquidateCollateral_effect
    (h : liquidateCollateral env w manager sender collateralAsset user l receiveAToken = .ok w') :
    ∃ amount treasury, Effect env (fun x =>
      onAsset collateralAsset (seizeActions w.impl sender user amount receiveAToken) x ++
        onAsset collateralAsset treasury x) w w' ∧
      (treasury = [] ∨
        ∃ recipient n, treasury = [.move w.impl user recipient n]) := by
  obtain ⟨amount, w₁, w₂, w₃, ⟨h₁, h₂, h₃, -, -⟩ | ⟨rfl, -, h₂, h₃⟩⟩ := liquidateCollateral_ok h
  · have hflags := clearSeizedCollateral_onlyFlags h₁
    have hseize := Effect.afterFlags hflags (seize_effect h₂)
    have htreasury := seizeForTreasury_effect h₃
    rw [hseize.impl] at htreasury
    rw [hflags.impl] at hseize
    refine ⟨amount, _, hseize.trans htreasury, ?_⟩
    split
    case isTrue => exact .inr ⟨_, _, rfl⟩
    case isFalse => exact .inl rfl
  · have hseize := (seize_effect h₂).thenFlags (clearSeizedCollateral_onlyFlags h₃)
    exact ⟨amount, [], by simpa using hseize, .inl rfl⟩

end CollateralManager

namespace LendingPool

variable {env : Env} {w w' : World} {sender collateralAsset debtAsset user : Address}
  {debtToCover : ℕ} {receiveAToken : Bool}

theorem liquidationCall_effect
    (h : liquidationCall env w sender collateralAsset debtAsset user debtToCover receiveAToken =
      .ok w') :
    ∃ l amount treasury, CollateralManager.validated env w env.collateralManager collateralAsset
        debtAsset user debtToCover receiveAToken = .ok (.ok l) ∧
      Effect env (fun x =>
        onAsset debtAsset (.updateState .lendingPool :: CollateralManager.debtActions user l ++
          [.updateInterestRates l.actualDebtToLiquidate 0]) x ++
        (onAsset collateralAsset
          (CollateralManager.seizeActions w.impl sender user amount receiveAToken) x ++
          onAsset collateralAsset treasury x) ++
        onAsset debtAsset [.pull w.self sender l.actualDebtToLiquidate] x) w w' ∧
      (treasury = [] ∨ ∃ recipient n, treasury = [.move w.impl user recipient n]) := by
  obtain ⟨l, w₁, w₂, hl, h₁, h₂, h₃⟩ := CollateralManager.liquidationCall_ok (liquidationCall_ok h)
  have hdebt := CollateralManager.liquidateDebt_effect h₁
  obtain ⟨amount, treasury, hcollateral, htreasury⟩ :=
    CollateralManager.liquidateCollateral_effect h₂
  have hpay := CollateralManager.payDebt_effect env h₃
  rw [hcollateral.self, hdebt.self] at hpay
  rw [hdebt.impl] at hcollateral htreasury
  exact ⟨l, amount, treasury, hl, (hdebt.trans hcollateral).trans hpay, htreasury⟩

end LendingPool

/-- The calls on the reserves that an external call of `sender` comes to. The two calls that change
the frame of the pool are left out. -/
inductive Call.Makes (w : World) (sender : Address) :
    Call → (Address → List Action) → Prop
  | deposit {asset onBehalfOf : Address} {amount : ℕ} :
      Makes w sender (.deposit asset amount onBehalfOf) (onAsset asset [.updateState w.impl,
        .updateInterestRates amount 0, .pull w.self sender amount, .mint onBehalfOf amount])
  | withdraw {asset receiver : Address} {amount : ℕ} (n : ℕ) :
      Makes w sender (.withdraw asset amount receiver) (onAsset asset [.updateState w.impl,
        .updateInterestRates 0 n, .burn sender receiver n])
  | borrow {asset onBehalfOf : Address} {amount rateMode : ℕ} (mode : InterestRateMode) :
      Makes w sender (.borrow asset amount rateMode onBehalfOf) (onAsset asset
        [.updateState w.impl, .mintDebt mode sender onBehalfOf amount,
          .updateInterestRates 0 amount, .transferUnderlyingTo sender amount])
  | repay {asset onBehalfOf : Address} {amount rateMode : ℕ} (mode : InterestRateMode) (n : ℕ) :
      Makes w sender (.repay asset amount rateMode onBehalfOf) (onAsset asset
        [.updateState w.impl, .burnDebt mode onBehalfOf n, .updateInterestRates n 0,
          .pull w.self sender n])
  | writeOff {asset onBehalfOf : Address} {amount rateMode : ℕ} (mode : InterestRateMode)
      (n : ℕ) :
      Makes w sender (.writeOff asset amount rateMode onBehalfOf) (onAsset asset
        [.updateState w.impl, .burnDebt mode onBehalfOf n, .updateInterestRates n 0])
  | swapBorrowRateMode {asset : Address} {rateMode : ℕ} (burned minted : InterestRateMode)
      (n : ℕ) :
      Makes w sender (.swapBorrowRateMode asset rateMode) (onAsset asset
        [.updateState w.impl, .burnDebt burned sender n, .mintDebt minted sender sender n,
          .updateInterestRates 0 0])
  | rebalanceStableBorrowRate {asset user : Address} (n : ℕ) :
      Makes w sender (.rebalanceStableBorrowRate asset user) (onAsset asset
        [.updateState w.impl, .burnDebt .stable user n, .mintDebt .stable user user n,
          .updateInterestRates 0 0])
  | setUserUseReserveAsCollateral {asset : Address} {use : Bool} :
      Makes w sender (.setUserUseReserveAsCollateral asset use) (fun _ => [])
  | liquidationCall {collateralAsset debtAsset user : Address} {debtToCover : ℕ}
      {receiveAToken : Bool} (l : CollateralManager.Liquidation) (amount : ℕ)
      (treasury : List Action) :
      treasury = [] ∨ (∃ recipient n, treasury = [.move w.impl user recipient n]) →
      Makes w sender (.liquidationCall collateralAsset debtAsset user debtToCover
        receiveAToken) (fun x =>
          onAsset debtAsset (.updateState .lendingPool :: CollateralManager.debtActions user l ++
            [.updateInterestRates l.actualDebtToLiquidate 0]) x ++
          (onAsset collateralAsset
            (CollateralManager.seizeActions w.impl sender user amount receiveAToken) x ++
            onAsset collateralAsset treasury x) ++
          onAsset debtAsset [.pull w.self sender l.actualDebtToLiquidate] x)
  | transfer {asset recipient : Address} {amount : ℕ} :
      Makes w sender (.transfer asset recipient amount) (onAsset asset
        [.move w.impl sender recipient amount])
  | transferFrom {asset owner recipient : Address} {amount : ℕ} (allowance : ℕ) :
      Makes w sender (.transferFrom asset owner recipient amount) (fun x =>
        onAsset asset [.move w.impl owner recipient amount] x ++
          onAsset asset [.approve owner sender allowance] x)
  | approve {asset spender : Address} {amount : ℕ} :
      Makes w sender (.approve asset spender amount) (onAsset asset
        [.approve sender spender amount])
  | approveStableDelegation {asset delegatee : Address} {amount : ℕ} :
      Makes w sender (.approveStableDelegation asset delegatee amount) (onAsset asset
        [.approveStableDelegation sender delegatee amount])
  | approveVariableDelegation {asset delegatee : Address} {amount : ℕ} :
      Makes w sender (.approveVariableDelegation asset delegatee amount) (onAsset asset
        [.approveVariableDelegation sender delegatee amount])
  | underlyingTransfer {asset recipient : Address} {amount : ℕ} (t : ERC20) :
      Makes w sender (.underlyingTransfer asset recipient amount) (onAsset asset
        [.setUnderlying t])
  | underlyingTransferFrom {asset owner recipient : Address} {amount : ℕ} (t : ERC20) :
      Makes w sender (.underlyingTransferFrom asset owner recipient amount) (onAsset asset
        [.setUnderlying t])
  | underlyingApprove {asset spender : Address} {amount : ℕ} (t : ERC20) :
      Makes w sender (.underlyingApprove asset spender amount) (onAsset asset
        [.setUnderlying t])
  | setReserveInterestRateStrategyAddress {asset strategy : Address} :
      Makes w sender (.setReserveInterestRateStrategyAddress asset strategy) (onAsset asset
        [.setStrategy strategy])
  | setConfiguration {asset : Address} {configuration : BitVec 256} :
      Makes w sender (.setConfiguration asset configuration) (onAsset asset
        [.setConfiguration ⟨configuration⟩])
  | setPause {val : Bool} :
      Makes w sender (.setPause val) (fun _ => [])
  | updateLiquidtyIndexForLoss {asset : Address} {amount : ℕ} (index : ℕ) :
      Makes w sender (.updateLiquidtyIndexForLoss asset amount) (onAsset asset
        [.setLiquidityIndex index])

theorem exec_makes {env : Env} {w w' : World} {sender : Address} {c : Call}
    (h : exec env w sender c = .ok w') : (∃ l, c.Makes w sender l ∧ Effect env l w w') ∨
      (∃ asset proxies strategy, c = .initReserve asset proxies strategy) ∨
      (∃ impl, c = .setLendingPoolImpl impl) := by
  cases c with
  | initReserve asset proxies strategy => exact .inr (.inl ⟨_, _, _, rfl⟩)
  | setLendingPoolImpl impl => exact .inr (.inr ⟨_, rfl⟩)
  | deposit asset amount onBehalfOf => exact .inl ⟨_, .deposit, LendingPool.deposit_effect h⟩
  | withdraw asset amount receiver =>
    obtain ⟨⟨w₁, n⟩, h₁, rfl⟩ := map_ok.mp h
    exact .inl ⟨_, .withdraw n, LendingPool.withdraw_effect h₁⟩
  | borrow asset amount mode onBehalfOf =>
    obtain ⟨m, -, h⟩ := LendingPool.executeBorrow_effect (LendingPool.borrow_ok h)
    exact .inl ⟨_, .borrow m, h⟩
  | repay asset amount mode onBehalfOf =>
    obtain ⟨⟨w₁, n⟩, h₁, rfl⟩ := map_ok.mp h
    obtain ⟨m, -, h⟩ := LendingPool.repay_effect h₁
    exact .inl ⟨_, .repay m n, h⟩
  | writeOff asset amount mode onBehalfOf =>
    obtain ⟨⟨w₁, n⟩, h₁, rfl⟩ := map_ok.mp h
    obtain ⟨m, -, h⟩ := LendingPool.writeOff_effect h₁
    exact .inl ⟨_, .writeOff m n, h⟩
  | swapBorrowRateMode asset mode =>
    obtain ⟨burned, minted, n, h⟩ := LendingPool.swapBorrowRateMode_effect h
    exact .inl ⟨_, .swapBorrowRateMode burned minted n, h⟩
  | rebalanceStableBorrowRate asset user =>
    obtain ⟨n, -, h⟩ := LendingPool.rebalanceStableBorrowRate_effect h
    exact .inl ⟨_, .rebalanceStableBorrowRate n, h⟩
  | setUserUseReserveAsCollateral asset use =>
    obtain ⟨-, h⟩ := LendingPool.setUserUseReserveAsCollateral_ok h
    exact .inl ⟨_, .setUserUseReserveAsCollateral,
      Effect.ofFlags (LendingPool.setUsingAsCollateral_onlyFlags h)⟩
  | liquidationCall collateral debt user amount receiveAToken =>
    obtain ⟨l, n, treasury, -, h, htreasury⟩ := LendingPool.liquidationCall_effect h
    exact .inl ⟨_, .liquidationCall l n treasury htreasury, h⟩
  | transfer asset recipient amount => exact .inl ⟨_, .transfer, AToken.transfer_effect h⟩
  | transferFrom asset owner recipient amount =>
    obtain ⟨allowance, h⟩ := AToken.transferFrom_effect h
    exact .inl ⟨_, .transferFrom allowance, h⟩
  | approve asset spender amount =>
    rw [exec] at h
    obtain ⟨r, hr, rfl⟩ := World.onReserve_ok.mp h
    exact .inl ⟨_, .approve, Effect.single _ hr⟩
  | approveStableDelegation asset delegatee amount =>
    rw [exec] at h
    obtain ⟨r, hr, rfl⟩ := World.onReserve_ok.mp h
    exact .inl ⟨_, .approveStableDelegation, Effect.single _ hr⟩
  | approveVariableDelegation asset delegatee amount =>
    rw [exec] at h
    obtain ⟨r, hr, rfl⟩ := World.onReserve_ok.mp h
    exact .inl ⟨_, .approveVariableDelegation, Effect.single _ hr⟩
  | underlyingTransfer asset recipient amount =>
    rw [exec] at h
    obtain ⟨r, hr, rfl⟩ := World.onReserve_ok.mp h
    obtain ⟨t, -, rfl⟩ := map_ok.mp hr
    exact .inl ⟨_, .underlyingTransfer t, Effect.single _ rfl⟩
  | underlyingTransferFrom asset owner recipient amount =>
    rw [exec] at h
    obtain ⟨r, hr, rfl⟩ := World.onReserve_ok.mp h
    obtain ⟨t, -, rfl⟩ := map_ok.mp hr
    exact .inl ⟨_, .underlyingTransferFrom t, Effect.single _ rfl⟩
  | underlyingApprove asset spender amount =>
    rw [exec] at h
    obtain ⟨r, hr, rfl⟩ := World.onReserve_ok.mp h
    rw [← Except.ok.inj hr]
    exact .inl ⟨_, .underlyingApprove _, Effect.single _ rfl⟩
  | setReserveInterestRateStrategyAddress asset strategy =>
    simp only [exec, LendingPool.setReserveInterestRateStrategyAddress, bind_ok, exists_unit,
      pure_ok] at h
    obtain ⟨-, rfl⟩ := h
    exact .inl ⟨_, .setReserveInterestRateStrategyAddress, Effect.single _ rfl⟩
  | setConfiguration asset configuration =>
    simp only [exec, LendingPool.setConfiguration, bind_ok, exists_unit, pure_ok] at h
    obtain ⟨-, rfl⟩ := h
    exact .inl ⟨_, .setConfiguration, Effect.single _ rfl⟩
  | setPause val =>
    simp only [exec, LendingPool.setPause, bind_ok, exists_unit, pure_ok] at h
    obtain ⟨-, rfl⟩ := h
    exact .inl ⟨_, .setPause, ⟨fun _ => rfl, rfl, rfl, rfl, rfl⟩⟩
  | updateLiquidtyIndexForLoss asset amount =>
    obtain ⟨-, total, ratio, -, -, -, -, rfl⟩ := LendingPool.updateLiquidtyIndexForLoss_ok h
    exact .inl ⟨_, .updateLiquidtyIndexForLoss _, Effect.single _ rfl⟩

def Machine.Event.Makes (w : World) (env : Env) : Event → (Address → List Action) → Prop
  | .call env' sender c, l => env' = env ∧ c.Makes w sender l
  | .flashLoanTake _ loan, l =>
    ∀ x, ∀ a ∈ l x, ∃ amount, a = .transferUnderlyingTo loan.receiverAddress amount
  | .flashLoanSettle env' pending, l =>
    env' = env ∧ LendingPool.Settles w.impl w.self pending.sender pending.loan pending.loan.assets l

theorem Machine.Fires.makes {m m' : Machine} {e : Event} (h : m.Fires e m') :
    (∃ env l, env.timestamp = m.time ∧ e.Makes m.world env l ∧ Effect env l m.world m'.world) ∨
      (∃ env sender asset proxies strategy,
        e = .call env sender (.initReserve asset proxies strategy) ∧
          LendingPool.initReserve env m.world sender asset proxies strategy = .ok m'.world) ∨
      (∃ env sender impl, e = .call env sender (.setLendingPoolImpl impl) ∧
        m'.world = { m.world with impl }) := by
  cases h with
  | @call env sender c w htime h =>
    rcases exec_makes h with ⟨l, hl, heffect⟩ | ⟨asset, p, strategy, rfl⟩ | ⟨impl, rfl⟩
    · exact .inl ⟨env, l, htime, ⟨rfl, hl⟩, heffect⟩
    · exact .inr (.inl ⟨_, _, _, _, _, rfl, h⟩)
    · exact .inr (.inr ⟨_, _, impl, rfl, (Except.ok.inj h).symm⟩)
  | flashLoanTake h =>
    simp only [LendingPool.flashLoanTake, bind_ok, exists_unit] at h
    obtain ⟨-, -, -, h⟩ := h
    obtain ⟨l, hl, heffect⟩ := LendingPool.takeAll_effect (sampleEnv m.time) h
    exact .inl ⟨_, l, rfl, hl, heffect⟩
  | @flashLoanSettle env pending rest w htime hloans h =>
    obtain ⟨l, hl, heffect⟩ := LendingPool.settleAll_makes h
    exact .inl ⟨env, l, htime, ⟨rfl, hl⟩, heffect⟩

/-- Every call but the two that change the frame of the pool makes calls on its reserves and
changes nothing else but flags of users and the pause. -/
theorem exec_effect {env : Env} {w w' : World} {sender : Address} {c : Call}
    (h : exec env w sender c = .ok w') : (∃ l, Effect env l w w') ∨
      (∃ asset proxies strategy, c = .initReserve asset proxies strategy) ∨
      (∃ impl, c = .setLendingPoolImpl impl) :=
  (exec_makes h).imp_left fun ⟨l, _, heffect⟩ => ⟨l, heffect⟩

def Call.reachesPool : Call → Bool
  | .approve .. | .approveStableDelegation .. | .approveVariableDelegation .. => false
  | .underlyingTransfer .. | .underlyingTransferFrom .. | .underlyingApprove .. => false
  | .setLendingPoolImpl .. => false
  | _ => true

namespace Reserve

/-- Everything of a reserve but allowances and the underlying token. -/
structure SamePositions (r r' : Reserve) : Prop where
  data : r'.data = r.data
  aTokens : r'.aToken.ledger = r.aToken.ledger
  treasury : r'.aToken.treasury = r.aToken.treasury
  variableDebts : r'.variableDebtToken.ledger = r.variableDebtToken.ledger
  stableDebts : { r'.stableDebtToken with borrowAllowances := fun _ _ => 0 } =
    { r.stableDebtToken with borrowAllowances := fun _ _ => 0 }

namespace SamePositions

variable {r r₁ r' : Reserve}

theorem refl (r : Reserve) : SamePositions r r := ⟨rfl, rfl, rfl, rfl, rfl⟩

theorem trans (h₁ : SamePositions r r₁) (h₂ : SamePositions r₁ r') : SamePositions r r' where
  data := h₂.data.trans h₁.data
  aTokens := h₂.aTokens.trans h₁.aTokens
  treasury := h₂.treasury.trans h₁.treasury
  variableDebts := h₂.variableDebts.trans h₁.variableDebts
  stableDebts := h₂.stableDebts.trans h₁.stableDebts

theorem stableBalances (h : SamePositions r r') :
    r'.stableDebtToken.balances = r.stableDebtToken.balances := by
  have hbalances := congrArg StableDebtToken.balances h.stableDebts
  exact hbalances

end SamePositions

end Reserve

structure World.SamePositions (w w' : World) : Prop where
  reserves : ∀ a, (w.reserves a).SamePositions (w'.reserves a)
  usersConfig : w'.usersConfig = w.usersConfig

namespace World.SamePositions

variable {w w₁ w' : World}

theorem refl (w : World) : SamePositions w w := ⟨fun _ => .refl _, rfl⟩

theorem trans (h₁ : SamePositions w w₁) (h₂ : SamePositions w₁ w') : SamePositions w w' where
  reserves a := (h₁.reserves a).trans (h₂.reserves a)
  usersConfig := h₂.usersConfig.trans h₁.usersConfig

theorem of_onReserve {asset : Address} {f : Reserve → Tx Reserve}
    (h : w.onReserve asset f = .ok w') (hf : ∀ r r', f r = .ok r' → r.SamePositions r') :
    SamePositions w w' := by
  obtain ⟨r, hr, rfl⟩ := World.onReserve_ok.mp h
  refine ⟨fun x => ?_, rfl⟩
  by_cases hx : x = asset
  · subst hx
    rw [World.setReserve_reserves_self]
    exact hf _ _ hr
  · rw [World.setReserve_reserves_of_ne hx]
    exact .refl _

end World.SamePositions

variable {env : Env} {w w' : World} {sender : Address} {c : Call}

theorem exec_outside_pool (hc : c.reachesPool = false)
    (howner : ∀ impl, c ≠ .setLendingPoolImpl impl) (h : exec env w sender c = .ok w') :
    w.SamePositions w' := by
  cases c with
  | approve asset spender amount =>
    rw [exec] at h
    refine .of_onReserve h fun r r' hr => ?_
    simp only [AToken.approve, bind_ok, exists_unit, pure_ok] at hr
    obtain ⟨-, -, -, rfl⟩ := hr
    exact ⟨rfl, rfl, rfl, rfl, rfl⟩
  | approveStableDelegation asset delegatee amount =>
    rw [exec] at h
    refine .of_onReserve h fun r r' hr => ?_
    rw [← Except.ok.inj hr]
    exact ⟨rfl, rfl, rfl, rfl, rfl⟩
  | approveVariableDelegation asset delegatee amount =>
    rw [exec] at h
    refine .of_onReserve h fun r r' hr => ?_
    rw [← Except.ok.inj hr]
    exact ⟨rfl, rfl, rfl, rfl, rfl⟩
  | underlyingTransfer asset recipient amount =>
    rw [exec] at h
    refine .of_onReserve h fun r r' hr => ?_
    obtain ⟨t, -, rfl⟩ := map_ok.mp hr
    exact ⟨rfl, rfl, rfl, rfl, rfl⟩
  | underlyingTransferFrom asset owner recipient amount =>
    rw [exec] at h
    refine .of_onReserve h fun r r' hr => ?_
    obtain ⟨t, -, rfl⟩ := map_ok.mp hr
    exact ⟨rfl, rfl, rfl, rfl, rfl⟩
  | underlyingApprove asset spender amount =>
    rw [exec] at h
    refine .of_onReserve h fun r r' hr => ?_
    rw [← Except.ok.inj hr]
    exact ⟨rfl, rfl, rfl, rfl, rfl⟩
  | setLendingPoolImpl impl => exact absurd rfl (howner impl)
  | _ => cases hc

end Moola
