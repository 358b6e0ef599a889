import Moola.Roles

/-! What an account has lent grows. The interest of suppliers never falls, in whatever order
users, flash loans and the configurator act and however much time passes; a balance falls only
by what its account gives away, by the write-off of a loss, or when the pool is replaced. -/

namespace Moola

open Guard WadRayMath LendingPool

namespace ReserveLogic

/-- What one scaled aToken is worth at a time, as the installed pool shows it. -/
def income (impl : PoolImpl) (now : ℕ) (d : ReserveData) : ℕ :=
  match impl with
  | .withUpdateLiquidityIndex => d.liquidityIndex
  | _ => accruedLiquidityIndex d (now - d.lastUpdateTimestamp)

variable {impl : PoolImpl} {d d' : ReserveData} {now later dt dt' index : ℕ}

theorem accruedLiquidityIndex_mono (hrate : d'.currentLiquidityRate = d.currentLiquidityRate)
    (hindex : d.liquidityIndex ≤ d'.liquidityIndex) (hdt : dt ≤ dt') :
    accruedLiquidityIndex d dt ≤ accruedLiquidityIndex d' dt' := by
  unfold accruedLiquidityIndex
  rw [hrate]
  split
  case isTrue => exact hindex
  case isFalse =>
    have hinterest : d.currentLiquidityRate * dt ≤ d.currentLiquidityRate * dt' :=
      Nat.mul_le_mul_left _ hdt
    exact rayProduct_mono (Nat.add_le_add_right (Nat.div_le_div_right hinterest) _) hindex

theorem income_fresh (h : d.lastUpdateTimestamp = now) : income impl now d = d.liquidityIndex := by
  cases impl <;> simp [income, h]

theorem income_mono (hrate : d'.currentLiquidityRate = d.currentLiquidityRate)
    (hlast : d'.lastUpdateTimestamp = d.lastUpdateTimestamp)
    (hindex : d.liquidityIndex ≤ d'.liquidityIndex) (hle : now ≤ later) :
    income impl now d ≤ income impl later d' := by
  have haccrued := accruedLiquidityIndex_mono hrate hindex
    (hlast ▸ Nat.sub_le_sub_right hle d.lastUpdateTimestamp :
      now - d.lastUpdateTimestamp ≤ later - d'.lastUpdateTimestamp)
  cases impl
  case withUpdateLiquidityIndex => exact hindex
  all_goals exact haccrued

theorem income_of_view (hnow : now < 2 ^ 40)
    (h : getReserveNormalizedIncome impl d now = .ok index) : index = income impl now d := by
  have haccrues : getNormalizedIncome d now = .ok index →
      index = accruedLiquidityIndex d (now - d.lastUpdateTimestamp) := by
    intro h
    unfold getNormalizedIncome at h
    split at h
    case isTrue hfresh =>
      rw [hfresh, uint40_of_lt hnow, Nat.sub_self, accruedLiquidityIndex_zero]
      exact (Except.ok.inj h).symm
    case isFalse =>
      obtain ⟨f, hf, h⟩ := bind_ok.mp h
      obtain ⟨-, rfl⟩ := MathUtils.calculateLinearInterest_ok hf
      obtain ⟨-, rfl⟩ := rayMul_ok.mp h
      unfold accruedLiquidityIndex
      split
      case isTrue hrate => rw [hrate, MathUtils.linearFactor_zero_left, rayProduct_ray_left]
      case isFalse => rfl
  cases impl
  case withUpdateLiquidityIndex => exact (Except.ok.inj h).symm
  all_goals exact haccrues h

theorem updateState_income {i : PoolImpl} {r r' : Reserve} (hi : i = impl ∨ i = .lendingPool)
    (hnow : now < 2 ^ 40) (h : LendingPool.updateState i now r = .ok r') :
    r'.data.lastUpdateTimestamp = now ∧ income impl now r.data ≤ r'.data.liquidityIndex := by
  have hstores : ∀ start, updateStateFrom start now r = .ok r' →
      r'.data.lastUpdateTimestamp = now ∧
        r'.data.liquidityIndex = accruedLiquidityIndex r.data (now - start) := by
    intro start h
    obtain ⟨-, -, minted, rfl, -⟩ := updateStateFrom_ok h
    exact ⟨uint40_of_lt hnow, rfl⟩
  have hbelow : income impl now r.data ≤
      accruedLiquidityIndex r.data (now - r.data.lastUpdateTimestamp) := by
    cases impl
    case withUpdateLiquidityIndex => exact le_accruedLiquidityIndex _ _
    all_goals exact le_rfl
  obtain rfl | rfl := hi
  · cases i
    case withUpdateLiquidityIndex =>
      obtain ⟨hlast, hindex⟩ := hstores _ h
      exact ⟨hlast, hindex ▸ le_accruedLiquidityIndex _ _⟩
    all_goals
      obtain ⟨hlast, hindex⟩ := hstores _ h
      exact ⟨hlast, hindex ▸ hbelow⟩
  · obtain ⟨hlast, hindex⟩ := hstores _ h
    exact ⟨hlast, hindex ▸ hbelow⟩

end ReserveLogic

/-- Calls in an order in which the rates change after an update only, nobody writes an index and
one account gives nothing away; `fresh` says whether there was an update before. -/
def Earning (impl : PoolImpl) (user : Address) : Bool → List Action → Prop
  | _, [] => True
  | _, .updateState i :: l => (i = impl ∨ i = .lendingPool) ∧ Earning impl user true l
  | fresh, .updateInterestRates .. :: l => fresh = true ∧ Earning impl user fresh l
  | fresh, .burn owner _ _ :: l => owner ≠ user ∧ Earning impl user fresh l
  | fresh, .move _ sender _ _ :: l => sender ≠ user ∧ Earning impl user fresh l
  | _, .setLiquidityIndex _ :: _ => False
  | fresh, _ :: l => Earning impl user fresh l

namespace Earning

variable {impl : PoolImpl} {user : Address} {fresh : Bool} {l l₁ l₂ : List Action}

theorem weaken (h : Earning impl user false l) : Earning impl user fresh l := by
  cases fresh with
  | false => exact h
  | true =>
    induction l with
    | nil => trivial
    | cons a l ih =>
      cases a with
      | updateState i => exact h
      | updateInterestRates => cases h.1
      | burn => exact ⟨h.1, ih h.2⟩
      | move => exact ⟨h.1, ih h.2⟩
      | setLiquidityIndex => exact h
      | _ => exact ih h

theorem append (h₁ : Earning impl user fresh l₁) (h₂ : Earning impl user false l₂) :
    Earning impl user fresh (l₁ ++ l₂) := by
  induction l₁ generalizing fresh with
  | nil => exact h₂.weaken
  | cons a l ih =>
    cases a with
    | updateState => exact ⟨h₁.1, ih h₁.2⟩
    | updateInterestRates => exact ⟨h₁.1, ih h₁.2⟩
    | burn => exact ⟨h₁.1, ih h₁.2⟩
    | move => exact ⟨h₁.1, ih h₁.2⟩
    | setLiquidityIndex => exact h₁
    | _ => exact ih h₁

theorem onAsset {asset : Address} (h : Earning impl user false l) (x : Address) :
    Earning impl user false (Moola.onAsset asset l x) := by
  unfold Moola.onAsset
  split
  case isTrue => exact h
  case isFalse => trivial

end Earning

namespace Reserve

/-- The account has no fewer scaled aTokens, and each is worth no less. -/
structure Earns (impl : PoolImpl) (now later : ℕ) (user : Address) (r r' : Reserve) : Prop where
  balance : r.aToken.ledger.balances user ≤ r'.aToken.ledger.balances user
  income : ReserveLogic.income impl now r.data ≤ ReserveLogic.income impl later r'.data

namespace Earns

variable {impl : PoolImpl} {now later last : ℕ} {user : Address} {r r₁ r' : Reserve}

theorem refl (r : Reserve) : Earns impl now now user r r := ⟨le_rfl, le_rfl⟩

theorem trans (h₁ : Earns impl now later user r r₁) (h₂ : Earns impl later last user r₁ r') :
    Earns impl now last user r r' :=
  ⟨h₁.balance.trans h₂.balance, h₁.income.trans h₂.income⟩

theorem wait (r : Reserve) (hle : now ≤ later) : Earns impl now later user r r :=
  ⟨le_rfl, ReserveLogic.income_mono rfl rfl le_rfl hle⟩

theorem balanceOf_le (h : Earns impl now later user r r') (hnow : now < 2 ^ 40)
    (hlater : later < 2 ^ 40) {b b' : ℕ} (hb : AToken.balanceOf impl now r user = .ok b)
    (hb' : AToken.balanceOf impl later r' user = .ok b') : b ≤ b' := by
  simp only [AToken.balanceOf, scaledBy, bind_ok, exists_unit, rayMul_ok] at hb hb'
  obtain ⟨-, index, hindex, -, rfl⟩ := hb
  obtain ⟨-, index', hindex', -, rfl⟩ := hb'
  rw [ReserveLogic.income_of_view hnow hindex, ReserveLogic.income_of_view hlater hindex']
  exact rayProduct_mono h.balance h.income

end Earns

variable {env : Env} {asset user : Address} {impl : PoolImpl} {r r' : Reserve} {a : Action}
  {l : List Action} {fresh : Bool}

theorem apply_accrual (h : r.apply env asset a = .ok r')
    (ha : Earning impl user false [a]) (hupdate : ∀ i, a ≠ .updateState i) :
    r'.data.currentLiquidityRate = r.data.currentLiquidityRate ∧
      r'.data.lastUpdateTimestamp = r.data.lastUpdateTimestamp ∧
      r.data.liquidityIndex ≤ r'.data.liquidityIndex := by
  by_cases hdata : a.KeepsData
  · rw [apply_data h hdata]
    exact ⟨rfl, rfl, le_rfl⟩
  cases a with
  | cumulateToLiquidityIndex total premium =>
    obtain ⟨-, ratio, -, rfl⟩ := ReserveLogic.cumulateToLiquidityIndex_ok h
    rw [withData_data]
    exact ⟨rfl, rfl, le_rayProduct_left (Nat.le_add_left _ _)⟩
  | setConfiguration configuration =>
    rw [← Except.ok.inj h]
    exact ⟨rfl, rfl, le_rfl⟩
  | setStrategy strategy =>
    rw [← Except.ok.inj h]
    exact ⟨rfl, rfl, le_rfl⟩
  | updateState i => exact absurd rfl (hupdate i)
  | updateInterestRates => cases ha.1
  | setLiquidityIndex => exact absurd ha id
  | _ => exact absurd trivial hdata

theorem run_earns (h : r.run env asset l = .ok r') (hl : Earning impl user fresh l)
    (hfresh : fresh = true → r.data.lastUpdateTimestamp = env.timestamp)
    (hnow : env.timestamp < 2 ^ 40) : Earns impl env.timestamp env.timestamp user r r' := by
  induction l generalizing r fresh with
  | nil =>
    rw [run, Except.ok.injEq] at h
    exact h ▸ .refl r
  | cons a l ih =>
    obtain ⟨r₁, h₁, hrest⟩ := bind_ok.mp h
    have hother (ha : Earning impl user false [a]) (hupdate : ∀ i, a ≠ .updateState i)
        (htakes : ¬TakesFrom user a) (hl : Earning impl user fresh l) :
        Earns impl env.timestamp env.timestamp user r r' := by
      obtain ⟨hrate, hlast, hindex⟩ := apply_accrual h₁ ha hupdate
      have hfirst : Earns impl env.timestamp env.timestamp user r r₁ :=
        ⟨apply_deposit h₁ htakes, ReserveLogic.income_mono hrate hlast hindex le_rfl⟩
      exact hfirst.trans (ih hrest hl fun hf => hlast.trans (hfresh hf))
    cases a with
    | updateState i =>
      obtain ⟨hlast, hincome⟩ := ReserveLogic.updateState_income hl.1 hnow h₁
      have hfirst : Earns impl env.timestamp env.timestamp user r r₁ :=
        ⟨apply_deposit h₁ id, (ReserveLogic.income_fresh hlast).symm ▸ hincome⟩
      exact hfirst.trans (ih hrest hl.2 fun _ => hlast)
    | updateInterestRates added taken =>
      have hlast := hfresh hl.1
      have hbalance : r.aToken.ledger.balances user ≤ r₁.aToken.ledger.balances user :=
        apply_deposit h₁ id
      obtain ⟨rates, rfl⟩ := ReserveLogic.updateInterestRates_ok h₁
      have hfirst : Earns impl env.timestamp env.timestamp user r
          (r.withData (r.data.withRates rates)) := by
        refine ⟨hbalance, ?_⟩
        rw [ReserveLogic.income_fresh hlast, withData_data, ReserveLogic.income_fresh]
        · rfl
        · exact hlast
      exact hfirst.trans (ih hrest hl.2 fun _ => hlast)
    | burn owner receiver amount => exact hother ⟨hl.1, trivial⟩ (by simp) hl.1 hl.2
    | move i sender recipient amount => exact hother ⟨hl.1, trivial⟩ (by simp) hl.1 hl.2
    | setLiquidityIndex => exact absurd hl id
    | _ => exact hother trivial (by simp) id hl

end Reserve

variable {env : Env} {w w₁ w' : World} {sender asset user : Address} {l : Address → List Action}
  {actions : List Action} {c : Call}

/-- The account earns in every reserve, and the pool stays. -/
structure World.Earns (now later : ℕ) (user : Address) (w w' : World) : Prop where
  reserves : ∀ x, (w.reserves x).data.aTokenAddress ≠ 0 →
    (w'.reserves x).data.aTokenAddress = (w.reserves x).data.aTokenAddress ∧
      Reserve.Earns w.impl now later user (w.reserves x) (w'.reserves x)
  impl : w'.impl = w.impl

namespace World.Earns

variable {now later last : ℕ}

theorem of_reserves (hreserves : w'.reserves = w.reserves) (himpl : w'.impl = w.impl)
    (hle : now ≤ later) : Earns now later user w w' :=
  ⟨fun x _ => by rw [hreserves]; exact ⟨rfl, .wait _ hle⟩, himpl⟩

theorem trans (h₁ : Earns now later user w w₁) (h₂ : Earns later last user w₁ w') :
    Earns now last user w w' := by
  refine ⟨fun x hx => ?_, h₂.impl.trans h₁.impl⟩
  obtain ⟨ha₁, hfirst⟩ := h₁.reserves x hx
  obtain ⟨ha₂, hrest⟩ := h₂.reserves x (ha₁ ▸ hx)
  exact ⟨ha₂.trans ha₁, hfirst.trans (h₁.impl ▸ hrest)⟩

theorem of_effect (hnow : env.timestamp < 2 ^ 40) (h : Effect env l w w')
    (hl : ∀ x, Earning w.impl user false (l x)) :
    Earns env.timestamp env.timestamp user w w' where
  reserves x _ := ⟨(Reserve.run_evolves (h.run x)).aTokenAddress,
    Reserve.run_earns (h.run x) (hl x) (by simp) hnow⟩
  impl := h.impl

theorem of_onAsset (hnow : env.timestamp < 2 ^ 40) (h : Effect env (onAsset asset actions) w w')
    (ha : Earning w.impl user false actions) : Earns env.timestamp env.timestamp user w w' :=
  of_effect hnow h ha.onAsset

theorem borrow {mode : InterestRateMode} {onBehalfOf : Address} {amount : ℕ} {release : Bool}
    (hnow : env.timestamp < 2 ^ 40) (h : Effect env (onAsset asset
      (borrowActions w.impl mode sender onBehalfOf amount release)) w w') :
    Earns env.timestamp env.timestamp user w w' := by
  refine of_onAsset hnow h ?_
  cases release <;> simp [borrowActions, Earning]

theorem liquidationCall {collateralAsset debtAsset owner : Address} {debtToCover : ℕ}
    {receiveAToken : Bool} (hnow : env.timestamp < 2 ^ 40) (hne : owner ≠ user)
    (h : LendingPool.liquidationCall env w sender collateralAsset debtAsset owner debtToCover
      receiveAToken = .ok w') : Earns env.timestamp env.timestamp user w w' := by
  obtain ⟨liquidation, amount, treasury, -, heffect, htreasury⟩ := liquidationCall_effect h
  refine of_effect hnow heffect fun x => .append (.append (.onAsset ?_ x) (.append (.onAsset ?_ x)
    (.onAsset ?_ x))) (.onAsset (by simp [Earning]) x)
  · unfold CollateralManager.debtActions
    split_ifs <;> simp [Earning]
  · unfold CollateralManager.seizeActions
    split_ifs <;> simp [Earning, hne]
  · rcases htreasury with rfl | ⟨recipient, n, rfl⟩ <;> simp [Earning, hne]

theorem initReserve {proxies : Proxies} {strategy : Address}
    (h : LendingPool.initReserve env w sender asset proxies strategy = .ok w') :
    Earns now now user w w' := by
  simp only [LendingPool.initReserve, addReserveToList, bind_ok, exists_unit, require_ok] at h
  obtain ⟨-, -, hnew, -, h⟩ := h
  have hother : ∀ x ≠ asset, w'.reserves x = w.reserves x := by
    intro x hx
    split at h <;> rw [← pure_ok.mp h]
    · exact World.setReserve_reserves_of_ne hx
    · simp only [World.setReserve_setReserve]
      exact World.setReserve_reserves_of_ne hx
  refine ⟨fun x hx => ?_, ?_⟩
  · rw [hother x fun he => hx (he ▸ hnew)]
    exact ⟨rfl, .refl _⟩
  · split at h <;> rw [← pure_ok.mp h] <;> rfl

theorem flashLoanTake {loan : FlashLoan} {premiums : List ℕ} (hnow : now < 2 ^ 40)
    (h : LendingPool.flashLoanTake w loan = .ok (w', premiums)) : Earns now now user w w' := by
  simp only [LendingPool.flashLoanTake, bind_ok, exists_unit] at h
  obtain ⟨-, -, -, h⟩ := h
  refine takeAll_relates (R := Earns now now user) (fun _ => of_reserves rfl rfl le_rfl)
    (fun _ _ _ => trans) ?_ h
  intro w w₁ asset amount premium hone
  exact of_onAsset hnow (takeOne_effect (sampleEnv now) hone) (by simp [Earning])

theorem flashLoanSettle {loan : FlashLoan} {premiums : List ℕ} (hnow : env.timestamp < 2 ^ 40)
    (h : LendingPool.flashLoanSettle env w sender loan premiums = .ok w') :
    Earns env.timestamp env.timestamp user w w' := by
  refine settleAll_relates (R := Earns env.timestamp env.timestamp user)
    (fun _ => of_reserves rfl rfl le_rfl) (fun _ _ _ => trans) ?_ h
  intro w w₁ asset amount premium mode hone
  rcases settleOne_ok hone with hone | hone
  · obtain ⟨total, heffect⟩ := returnOne_effect hone
    exact of_onAsset hnow heffect (by simp [Earning])
  · obtain ⟨m, -, heffect⟩ := executeBorrow_effect hone
    exact borrow hnow heffect

end World.Earns

/-- A call that takes no aTokens from the account, writes no loss off and replaces no pool. -/
structure Leaves (user : Address) (_env : Env) (sender : Address) (c : Call) : Prop where
  gives : ¬c.Gives sender user
  loss : ∀ asset amount, c ≠ .updateLiquidtyIndexForLoss asset amount
  impl : ∀ impl, c ≠ .setLendingPoolImpl impl

theorem World.Earns.exec (hnow : env.timestamp < 2 ^ 40) (hc : Leaves user env sender c)
    (h : Moola.exec env w sender c = .ok w') : Earns env.timestamp env.timestamp user w w' := by
  have hgives := hc.gives
  rcases exec_makes h with ⟨l, hmakes, heffect⟩ | ⟨asset, proxies, strategy, rfl⟩ | ⟨impl, rfl⟩
  case inr.inl => exact initReserve h
  case inr.inr => exact absurd rfl (hc.impl _)
  cases hmakes with
  | withdraw =>
    exact of_onAsset hnow heffect (by simpa [Earning, Call.Gives, eq_comm] using hgives)
  | liquidationCall => exact liquidationCall hnow (fun he => hgives he.symm) h
  | transfer =>
    exact of_onAsset hnow heffect (by simpa [Earning, Call.Gives, eq_comm] using hgives)
  | @transferFrom asset owner =>
    have hne : owner ≠ user := fun he => hgives he.symm
    exact of_effect hnow heffect fun x => .append (.onAsset (by simp [Earning, hne]) x)
      (.onAsset (by simp [Earning]) x)
  | setUserUseReserveAsCollateral => exact of_effect hnow heffect fun _ => trivial
  | setPause => exact of_effect hnow heffect fun _ => trivial
  | updateLiquidtyIndexForLoss => exact absurd rfl (hc.loss _ _)
  | _ => exact of_onAsset hnow heffect (by simp [Earning])

variable {m m' : Machine}

theorem StepBy.earns (h : StepBy (Leaves user) m m') (hnow : m'.time < 2 ^ 40) :
    m.world.Earns m.time m'.time user m'.world := by
  cases h with
  | fires hc hfires =>
    cases hfires with
    | call htime h => exact htime ▸ World.Earns.exec (htime ▸ hnow) hc h
    | flashLoanTake h => exact .flashLoanTake hnow h
    | flashLoanSettle htime _ h => exact htime ▸ World.Earns.flashLoanSettle (htime ▸ hnow) h
  | tick later hle => exact .of_reserves rfl rfl hle

theorem RunBy.earns (h : RunBy (Leaves user) m m') (hnow : m'.time < 2 ^ 40) :
    m.time ≤ m'.time ∧ m.world.Earns m.time m'.time user m'.world := by
  induction h with
  | refl => exact ⟨le_rfl, .of_reserves rfl rfl le_rfl⟩
  | tail _ hs ih =>
    obtain ⟨hle, hrun⟩ := ih (hs.time_le.trans_lt hnow)
    exact ⟨hle.trans hs.time_le, hrun.trans (hs.earns hnow)⟩

/-- What an account has in a reserve shrinks only when the account gives aTokens away, is
liquidated, or a loss is written off: in every other run, over any time, its balance grows. -/
theorem balances_grow (h : RunBy (Leaves user) m m') (hnow : m'.time < 2 ^ 40) {asset b b' : ℕ}
    (hb : AToken.balanceOf m.world.impl m.time (m.world.reserves asset) user = .ok b)
    (hb' : AToken.balanceOf m'.world.impl m'.time (m'.world.reserves asset) user = .ok b') :
    b ≤ b' := by
  obtain ⟨hle, hrun⟩ := RunBy.earns h hnow
  have hlisted : (m.world.reserves asset).data.aTokenAddress ≠ 0 := by
    simp only [AToken.balanceOf, bind_ok, exists_unit, require_ok] at hb
    exact hb.1
  rw [hrun.impl] at hb'
  exact (hrun.reserves asset hlisted).2.balanceOf_le (hle.trans_lt hnow) hnow hb hb'

def lending : List Transaction :=
  sampleListing 40 1 9 ++ [⟨sampleEnv 40, 12, .deposit 1 500 12⟩,
    ⟨sampleEnv 40, 11, .deposit 1 200 11⟩]

theorem lending_runs : (do
    let w ← runAll sampleStart lending
    let b ← AToken.balanceOf w.impl 40 (w.reserves 1) 12
    let w₁ ← exec (sampleEnv 40) w 11 (.borrow 1 100 2 11)
    let w₂ ← exec (sampleEnv 31536040) w₁ 11 (.repay 1 50 2 11)
    let b' ← AToken.balanceOf w₂.impl 31536040 (w₂.reserves 1) 12
    return (b, b')) = .ok (500, 504) := by
  decide +kernel

theorem balances_grow_sample : ∃ b b' m m', RunBy (Leaves 12) m m' ∧
    AToken.balanceOf m.world.impl m.time (m.world.reserves 1) 12 = .ok b ∧
    AToken.balanceOf m'.world.impl m'.time (m'.world.reserves 1) 12 = .ok b' ∧
    b = 500 ∧ b' = 504 ∧ b ≤ b' := by
  obtain ⟨w, -, hrest⟩ := bind_ok.mp lending_runs
  obtain ⟨b, hb, hrest⟩ := bind_ok.mp hrest
  obtain ⟨w₁, h₁, hrest⟩ := bind_ok.mp hrest
  obtain ⟨w₂, h₂, hrest⟩ := bind_ok.mp hrest
  obtain ⟨b', hb', hrest⟩ := bind_ok.mp hrest
  simp only [pure_ok, Prod.mk.injEq] at hrest
  have hborrow : StepBy (Leaves 12) ⟨w, 40, []⟩ ⟨w₁, 40, []⟩ :=
    .call 11 (.borrow 1 100 2 11) ⟨id, by simp, by simp⟩ rfl h₁
  have htick : StepBy (Leaves 12) ⟨w₁, 40, []⟩ ⟨w₁, 31536040, []⟩ :=
    .tick 31536040 (by norm_num) rfl
  have hrepay : StepBy (Leaves 12) ⟨w₁, 31536040, []⟩ ⟨w₂, 31536040, []⟩ :=
    .call 11 (.repay 1 50 2 11) ⟨id, by simp, by simp⟩ rfl h₂
  have hrun : RunBy (Leaves 12) ⟨w, 40, []⟩ ⟨w₂, 31536040, []⟩ :=
    ((Relation.ReflTransGen.single hborrow).tail htick).tail hrepay
  exact ⟨b, b', _, _, hrun, hb, hb', hrest.1, hrest.2, balances_grow hrun (by norm_num) hb hb'⟩

end Moola
