import Moola.Clock

/-! `updateState` under LendingPool. Stable debt is minted and burned only after an update in
the same call, so its supply is never measured later than the reserve, indexes never fall
below one ray, and the accrued debt never shrinks: no subtraction of the update can fail. -/

namespace Moola

open Guard WadRayMath

/-- The states of the runs in which no other pool was ever installed. -/
inductive ReachableUnder (impl : PoolImpl) : Machine → Prop
  | initial (underlying : Address → ERC20) (self : Address) (time : ℕ) :
      ReachableUnder impl ⟨initialWorld underlying impl self, time, []⟩
  | step {m m' : Machine} : ReachableUnder impl m → Step m m' → m'.world.impl = impl →
      ReachableUnder impl m'

namespace ReachableUnder

variable {impl : PoolImpl} {m : Machine}

theorem reachable (h : ReachableUnder impl m) : Reachable m := by
  induction h with
  | initial underlying self time => exact .initial underlying impl self time
  | step _ hs _ ih => exact .step ih hs

theorem impl_eq (h : ReachableUnder impl m) : m.world.impl = impl := by
  cases h with
  | initial => rfl
  | step _ _ himpl => exact himpl

theorem runAll {time : ℕ} {loans : List PendingLoan} {w w' : World} {ts : List Transaction}
    (htime : ∀ t ∈ ts, t.env.timestamp = time)
    (hcall : ∀ t ∈ ts, ∀ impl, t.call ≠ .setLendingPoolImpl impl)
    (h : ReachableUnder impl ⟨w, time, loans⟩) (hrun : Moola.runAll w ts = .ok w') :
    ReachableUnder impl ⟨w', time, loans⟩ := by
  refine runAll_preserves (P := fun w => ReachableUnder impl ⟨w, time, loans⟩) ?_ h hrun
  intro t ht w₁ w₂ hw₁ hexec
  refine .step hw₁ (.call t.sender t.call (htime t ht) hexec) ?_
  exact (hw₁.reachable.wellFormed.exec_impl (hcall t ht) hexec).trans hw₁.impl_eq

end ReachableUnder

/-- Calls in an order in which debts change after an update only, and nobody writes an
index; `fresh` says whether there was an update before. -/
def Accruing : Bool → List Action → Prop
  | _, [] => True
  | _, .updateState _ :: l => Accruing true l
  | fresh, .mintDebt .. :: l => fresh = true ∧ Accruing fresh l
  | fresh, .burnDebt .. :: l => fresh = true ∧ Accruing fresh l
  | _, .setLiquidityIndex _ :: _ => False
  | fresh, _ :: l => Accruing fresh l

namespace Accruing

variable {fresh : Bool} {l l₁ l₂ : List Action}

theorem weaken (h : Accruing false l) : Accruing fresh l := by
  cases fresh with
  | false => exact h
  | true =>
    induction l with
    | nil => trivial
    | cons a l ih =>
      cases a with
      | updateState impl => exact h
      | mintDebt => cases h.1
      | burnDebt => cases h.1
      | setLiquidityIndex => exact h
      | _ => exact ih h

theorem append (h₁ : Accruing fresh l₁) (h₂ : Accruing false l₂) : Accruing fresh (l₁ ++ l₂) := by
  induction l₁ generalizing fresh with
  | nil => exact h₂.weaken
  | cons a l ih =>
    cases a with
    | updateState impl => exact ih h₁
    | mintDebt => exact ⟨h₁.1, ih h₁.2⟩
    | burnDebt => exact ⟨h₁.1, ih h₁.2⟩
    | setLiquidityIndex => exact h₁
    | _ => exact ih h₁

def Passive : Action → Prop
  | .updateState _ | .mintDebt .. | .burnDebt .. | .setLiquidityIndex _ => False
  | _ => True

theorem of_passive (h : ∀ a ∈ l, Passive a) : Accruing fresh l := by
  induction l with
  | nil => trivial
  | cons a l ih =>
    have hrest := ih fun a' ha' => h a' (List.mem_cons_of_mem a ha')
    have ha := h a List.mem_cons_self
    cases a with
    | updateState => exact absurd ha id
    | mintDebt => exact absurd ha id
    | burnDebt => exact absurd ha id
    | setLiquidityIndex => exact absurd ha id
    | _ => exact hrest

theorem onAsset {asset : Address} (h : Accruing false l) (x : Address) :
    Accruing false (Moola.onAsset asset l x) := by
  unfold Moola.onAsset
  split
  case isTrue => exact h
  case isFalse => trivial

end Accruing

namespace Reserve

/-- The supply of stable debt is not measured later than the reserve, and a reserve that
is listed has a liquidity index of at least one ray. -/
structure Ordered (r : Reserve) : Prop where
  supply : r.stableDebtToken.totalSupplyTimestamp ≤ r.data.lastUpdateTimestamp
  index : r.data.aTokenAddress ≠ 0 → ray ≤ r.data.liquidityIndex

variable {env : Env} {asset : Address} {r r' : Reserve} {a : Action} {l : List Action}
  {fresh : Bool}

theorem mintDebt_supply {mode : InterestRateMode} {user onBehalfOf : Address} {amount : ℕ}
    {first : Bool} (h : LendingPool.mintDebt env r mode user onBehalfOf amount = .ok (r', first)) :
    r'.stableDebtToken.totalSupplyTimestamp = r.stableDebtToken.totalSupplyTimestamp ∨
      r'.stableDebtToken.totalSupplyTimestamp = uint40 env.timestamp := by
  unfold LendingPool.mintDebt at h
  split at h
  case isTrue =>
    obtain ⟨current, supply, newRate, avgRate, al, -, -, -, -, rfl⟩ :=
      StableDebtToken.mint_state h
    exact .inr rfl
  case isFalse =>
    obtain ⟨-, -, -, -, -, al, -, rfl⟩ := VariableDebtToken.mint_ok h
    exact .inl rfl

theorem burnDebt_supply {mode : InterestRateMode} {user : Address} {amount : ℕ}
    (h : LendingPool.burnDebt env r mode user amount = .ok r') :
    r'.stableDebtToken.totalSupplyTimestamp = r.stableDebtToken.totalSupplyTimestamp ∨
      r'.stableDebtToken.totalSupplyTimestamp = uint40 env.timestamp := by
  unfold LendingPool.burnDebt at h
  split at h
  case isTrue =>
    obtain ⟨current, supply, total, avgRate, -, -, -, -, rfl⟩ := StableDebtToken.burn_state h
    exact .inr rfl
  case isFalse =>
    obtain ⟨-, -, -, -, hs, rfl⟩ := VariableDebtToken.burn_ok h
    exact .inl rfl

theorem updateState_ordered {impl : PoolImpl} {now : ℕ}
    (h : LendingPool.updateState impl now r = .ok r') (hnow : now < 2 ^ 40)
    (hclock : r.ClockBelow now) (hr : r.Ordered) :
    r'.Ordered ∧ r'.data.lastUpdateTimestamp = now := by
  obtain ⟨start, -, he⟩ := LendingPool.updateState_eq impl now r
  rw [he] at h
  obtain ⟨-, -, minted, rfl, -⟩ := ReserveLogic.updateStateFrom_ok h
  simp only [withALedger_data, withData_data, ReserveData.withIndexes_lastUpdateTimestamp,
    uint40_of_lt hnow, and_true]
  constructor
  case supply =>
    simpa [uint40_of_lt hnow] using hclock.totalSupplyTimestamp
  case index =>
    simp only [withALedger_data, withData_data, ReserveData.withIndexes_aTokenAddress,
      ReserveData.withIndexes_liquidityIndex]
    exact fun ha => (hr.index ha).trans (ReserveLogic.le_accruedLiquidityIndex _ _)

open Accruing (Passive)

theorem apply_passive (h : r.apply env asset a = .ok r') (ha : Passive a) :
    r'.data.lastUpdateTimestamp = r.data.lastUpdateTimestamp ∧
      r.data.liquidityIndex ≤ r'.data.liquidityIndex := by
  by_cases hdata : a.KeepsData
  · rw [apply_data h hdata]
    exact ⟨rfl, le_rfl⟩
  cases a with
  | updateInterestRates added taken =>
    obtain ⟨rates, rfl⟩ := ReserveLogic.updateInterestRates_ok h
    exact ⟨rfl, le_rfl⟩
  | cumulateToLiquidityIndex total premium =>
    obtain ⟨-, ratio, -, rfl⟩ := ReserveLogic.cumulateToLiquidityIndex_ok h
    simp only [withData_data, true_and]
    exact le_rayProduct_left (Nat.le_add_left _ _)
  | setConfiguration configuration =>
    rw [← Except.ok.inj h]
    exact ⟨rfl, le_rfl⟩
  | setStrategy strategy =>
    rw [← Except.ok.inj h]
    exact ⟨rfl, le_rfl⟩
  | updateState => exact absurd ha id
  | setLiquidityIndex => exact absurd ha id
  | _ => exact absurd trivial hdata

theorem leavesStableDebt_of_passive (ha : Passive a) : LeavesStableDebt a := by
  cases a <;> trivial

theorem apply_ordered (h : r.apply env asset a = .ok r') (ha : Passive a) (hr : r.Ordered) :
    r'.Ordered := by
  obtain ⟨hlast, hindex⟩ := apply_passive h ha
  obtain ⟨hsupply, -⟩ := apply_stableDebtToken h (leavesStableDebt_of_passive ha)
  constructor
  case supply =>
    rw [hsupply, hlast]
    exact hr.supply
  case index =>
    rw [(apply_evolves h).aTokenAddress]
    exact fun h0 => (hr.index h0).trans hindex

theorem Ordered.of_debt (hr : r.Ordered) (hd : r'.data = r.data)
    (hfresh : r.data.lastUpdateTimestamp = env.timestamp)
    (hsupply : r'.stableDebtToken.totalSupplyTimestamp = r.stableDebtToken.totalSupplyTimestamp ∨
      r'.stableDebtToken.totalSupplyTimestamp = uint40 env.timestamp) : r'.Ordered where
  supply := by
    rw [hd]
    rcases hsupply with he | he
    · exact he ▸ hr.supply
    · rw [he, hfresh]
      exact uint40_le _
  index := hd ▸ hr.index

theorem run_ordered (h : r.run env asset l = .ok r') (hl : Accruing fresh l)
    (hfresh : fresh = true → r.data.lastUpdateTimestamp = env.timestamp)
    (htime : env.timestamp < 2 ^ 40) (hclock : r.ClockBelow env.timestamp) (hr : r.Ordered) :
    r'.Ordered := by
  induction l generalizing r fresh with
  | nil =>
    rw [run, Except.ok.injEq] at h
    exact h ▸ hr
  | cons a l ih =>
    obtain ⟨r₁, h₁, hrest⟩ := bind_ok.mp h
    have hclock₁ := apply_clock h₁ hclock
    have hpassive (ha : Passive a) (hl : Accruing fresh l) : r'.Ordered :=
      ih hrest hl (fun hf => (apply_passive h₁ ha).1.trans (hfresh hf)) hclock₁
        (apply_ordered h₁ ha hr)
    cases a with
    | updateState impl =>
      obtain ⟨hr₁, hnow⟩ := updateState_ordered h₁ htime hclock hr
      exact ih hrest hl (fun _ => hnow) hclock₁ hr₁
    | mintDebt mode user onBehalfOf amount =>
      obtain ⟨⟨r₂, first⟩, h₂, rfl⟩ := map_ok.mp h₁
      have hd := mintDebt_data h₂
      exact ih hrest hl.2 (fun hf => hd ▸ hfresh hf) hclock₁
        (hr.of_debt hd (hfresh hl.1) (mintDebt_supply h₂))
    | burnDebt mode user amount =>
      have hd := burnDebt_data h₁
      exact ih hrest hl.2 (fun hf => hd ▸ hfresh hf) hclock₁
        (hr.of_debt hd (hfresh hl.1) (burnDebt_supply h₁))
    | setLiquidityIndex index => exact absurd hl id
    | _ => exact hpassive trivial hl

end Reserve

def AccruingEffect (env : Env) (w w' : World) : Prop :=
  ∃ l, Effect env l w w' ∧ ∀ x, Accruing false (l x)

namespace AccruingEffect

variable {env : Env} {w w₁ w' : World} {asset : Address} {actions : List Action}

theorem take {loan : LendingPool.FlashLoan} {premiums : List ℕ}
    (h : LendingPool.flashLoanTake w loan = .ok (w', premiums)) : AccruingEffect env w w' := by
  simp only [LendingPool.flashLoanTake, bind_ok, exists_unit] at h
  obtain ⟨-, -, -, h⟩ := h
  obtain ⟨l, hl, heffect⟩ := LendingPool.takeAll_effect env h
  refine ⟨l, heffect, fun x => .of_passive fun a ha => ?_⟩
  obtain ⟨amount, rfl⟩ := hl x a ha
  trivial

theorem refl (w : World) : AccruingEffect env w w :=
  ⟨_, Effect.ofFlags (LendingPool.OnlyFlags.refl w), fun _ => trivial⟩

theorem of_onAsset (h : Effect env (onAsset asset actions) w w') (ha : Accruing false actions) :
    AccruingEffect env w w' := ⟨_, h, ha.onAsset⟩

theorem trans (h₁ : AccruingEffect env w w₁) (h₂ : AccruingEffect env w₁ w') :
    AccruingEffect env w w' := by
  obtain ⟨l₁, h₁, ha₁⟩ := h₁
  obtain ⟨l₂, h₂, ha₂⟩ := h₂
  exact ⟨_, h₁.trans h₂, fun x => (ha₁ x).append (ha₂ x)⟩

theorem borrow {mode : InterestRateMode} {impl : PoolImpl} {user onBehalfOf : Address} {amount : ℕ}
    {release : Bool} (h : Effect env (onAsset asset
      (LendingPool.borrowActions impl mode user onBehalfOf amount release)) w w') :
    AccruingEffect env w w' := by
  refine of_onAsset h ?_
  cases release <;> simp [LendingPool.borrowActions, Accruing]

theorem settleAll {sender : Address} {loan : LendingPool.FlashLoan} {assets : List Address}
    {amounts premiums modes : List ℕ}
    (h : LendingPool.settleAll env sender loan w assets amounts premiums modes = .ok w') :
    AccruingEffect env w w' := by
  refine LendingPool.settleAll_relates refl (fun _ _ _ => trans) ?_ h
  intro w w₁ asset amount premium mode hone
  rcases LendingPool.settleOne_ok hone with hone | hone
  · obtain ⟨total, heffect⟩ := LendingPool.returnOne_effect hone
    exact of_onAsset heffect (by simp [Accruing])
  · obtain ⟨mode, -, heffect⟩ := LendingPool.executeBorrow_effect hone
    exact borrow heffect

theorem exec {sender : Address} {c : Call} (h : Moola.exec env w sender c = .ok w') :
    AccruingEffect env w w' ∨
      (∃ asset loss, c = .updateLiquidtyIndexForLoss asset loss) ∨
      (∃ asset proxies strategy, c = .initReserve asset proxies strategy) ∨
      (∃ impl, c = .setLendingPoolImpl impl) := by
  rcases exec_makes h with ⟨l, hmakes, heffect⟩ | hframe
  case inr => exact .inr (.inr hframe)
  cases hmakes with
  | updateLiquidtyIndexForLoss => exact .inr (.inl ⟨_, _, rfl⟩)
  | liquidationCall l amount treasury htreasury =>
    refine .inl ⟨_, heffect, fun x => .append (.append (.onAsset ?_ x) (.append (.onAsset ?_ x)
      (.onAsset ?_ x))) (.onAsset (by simp [Accruing]) x)⟩
    · unfold CollateralManager.debtActions
      split_ifs <;> simp [Accruing]
    · unfold CollateralManager.seizeActions
      split_ifs <;> simp [Accruing]
    · rcases htreasury with rfl | ⟨recipient, n, rfl⟩ <;> simp [Accruing]
  | transferFrom =>
    exact .inl ⟨_, heffect, fun x => .append (.onAsset (by simp [Accruing]) x)
      (.onAsset (by simp [Accruing]) x)⟩
  | setUserUseReserveAsCollateral => exact .inl ⟨_, heffect, fun _ => trivial⟩
  | setPause => exact .inl ⟨_, heffect, fun _ => trivial⟩
  | _ => exact .inl (of_onAsset heffect (by simp [Accruing]))

end AccruingEffect

theorem AccruingEffect.ordered {env : Env} {w w' : World} (h : AccruingEffect env w w')
    (htime : env.timestamp < 2 ^ 40) (hclock : ∀ a, (w.reserves a).ClockBelow env.timestamp)
    (hw : ∀ a, (w.reserves a).Ordered) : ∀ a, (w'.reserves a).Ordered := by
  obtain ⟨l, heffect, haccruing⟩ := h
  exact fun a => Reserve.run_ordered (heffect.run a) (haccruing a) nofun htime (hclock a) (hw a)

theorem initReserve_ordered {env : Env} {w w' : World} {sender asset strategy : Address}
    {p : LendingPool.Proxies} (hw : w.WellFormed) (hordered : ∀ a, (w.reserves a).Ordered)
    (h : LendingPool.initReserve env w sender asset p strategy = .ok w') :
    ∀ a, (w'.reserves a).Ordered := by
  obtain ⟨-, -, -, rfl⟩ := hw.initReserve_ok h
  intro a
  by_cases ha : a = asset
  · subst ha
    simp only [write_self]
    exact ⟨Nat.zero_le _, fun _ => Nat.le_refl ray⟩
  · simp only [write_of_ne _ _ ha]
    exact hordered a

theorem Step.ordered {m m' : Machine} (hm : Reachable m) (himpl : m.world.impl = .lendingPool)
    (htime : m'.time < 2 ^ 40) (hordered : ∀ a, (m.world.reserves a).Ordered) (h : Step m m') :
    ∀ a, (m'.world.reserves a).Ordered := by
  obtain ⟨-, ⟨henv, hc⟩ | hc | ⟨henv, -, hc⟩⟩ | ⟨later, hle, -⟩ := h
  · rcases AccruingEffect.exec hc with
      heffect | ⟨asset, loss, rfl⟩ | ⟨asset, p, strategy, rfl⟩ | ⟨impl, rfl⟩
    · exact heffect.ordered (henv ▸ htime) (henv ▸ hm.clock) hordered
    · have hloss := (LendingPool.updateLiquidtyIndexForLoss_ok hc).1
      rw [himpl] at hloss
      cases hloss
    · exact initReserve_ordered hm.wellFormed hordered hc
    · rw [← Except.ok.inj hc]
      exact hordered
  · exact (@AccruingEffect.take (sampleEnv m.time) _ _ _ _ hc).ordered htime hm.clock hordered
  · exact (AccruingEffect.settleAll hc).ordered (henv ▸ htime) (henv ▸ hm.clock) hordered
  · exact hordered

theorem ReachableUnder.ordered {m : Machine} (h : ReachableUnder .lendingPool m)
    (htime : m.time < 2 ^ 40) : ∀ a, (m.world.reserves a).Ordered := by
  induction h with
  | initial underlying self time => exact fun a => ⟨Nat.le_refl _, fun ha => absurd rfl ha⟩
  | step hm hs _ ih =>
    exact hs.ordered hm.reachable hm.impl_eq htime (ih (hs.time_le.trans_lt htime))

/-- The guards of additions and multiplications, and the two of the stored indexes. -/
def Revert.IsGuard (e : Revert) : Prop :=
  e.IsOverflow ∨ e = .rlLiquidityIndexOverflow ∨ e = .rlVariableBorrowIndexOverflow

namespace ReserveLogic

variable {d : ReserveData} {r : Reserve} {scaled now accrueFrom : ℕ}

theorem updateIndexes_fails (h : accrueFrom ≤ now) :
    FailsOnly Revert.IsGuard (updateIndexes d scaled accrueFrom now) := by
  have hoverflow {α : Type} {x : Tx α} (hx : FailsOnly Revert.IsOverflow x) :
      FailsOnly Revert.IsGuard x := hx.mono fun _ => .inl
  unfold updateIndexes
  split
  case isFalse => exact .pure _
  case isTrue =>
    refine .bind ?_ fun _ _ => .pure _
    refine .bind (hoverflow (MathUtils.calculateLinearInterest_fails h)) fun _ _ => ?_
    refine .bind (hoverflow rayMul_fails) fun _ _ => ?_
    refine .bind_unit (.require fun _ => .inr (.inl rfl)) fun _ => ?_
    unfold cumulateVariableBorrowIndex
    split
    case isFalse => exact .pure _
    case isTrue =>
      refine .bind (hoverflow (MathUtils.calculateCompoundedInterest_fails h)) fun _ _ => ?_
      refine .bind (hoverflow rayMul_fails) fun _ _ => ?_
      exact .bind_unit (.require fun _ => .inr (.inr rfl)) fun _ => .pure _

theorem previousStableDebt_le {stable : StableDebtToken.SupplyData} {timestamp c : ℕ}
    (hs : StableDebtToken.getSupplyData now r = .ok stable) (hnow : timestamp ≤ now)
    (hc : MathUtils.calculateCompoundedInterest stable.avgRate stable.updatedTimestamp timestamp =
      .ok c) : rayProduct stable.principal c ≤ stable.total := by
  simp only [StableDebtToken.getSupplyData, bind_ok, exists_unit, pure_ok] at hs
  obtain ⟨-, total, ht, rfl⟩ := hs
  unfold StableDebtToken.calcTotalSupply at ht
  split at ht
  case isTrue h0 => simp [h0]
  case isFalse =>
    simp only [bind_ok, rayMul_ok] at ht
    obtain ⟨c', hc', -, rfl⟩ := ht
    obtain ⟨-, rfl⟩ := MathUtils.calculateCompoundedInterest_ok hc
    obtain ⟨-, rfl⟩ := MathUtils.calculateCompoundedInterest_ok hc'
    exact rayProduct_mono (Nat.le_refl _) (Nat.add_le_add_left
      (MathUtils.compoundedExcess_mono _ (Nat.sub_le_sub_right hnow _)) ray)

theorem treasuryShare_fails {previousV newV timestamp factor : ℕ}
    (ha : r.data.stableDebtTokenAddress ≠ 0)
    (hsupply : r.stableDebtToken.totalSupplyTimestamp ≤ timestamp) (hnow : timestamp ≤ now)
    (hV : previousV ≤ newV) : FailsOnly Revert.IsOverflow
      (treasuryShare now r scaled previousV newV timestamp factor) := by
  refine .bind (.bind_unit (.require fun h0 => absurd ha h0) fun _ =>
    .bind (StableDebtToken.calcTotalSupply_fails (hsupply.trans hnow)) fun _ _ => .pure _)
    fun stable hstable => ?_
  have hupdated : stable.updatedTimestamp = r.stableDebtToken.totalSupplyTimestamp := by
    simp only [StableDebtToken.getSupplyData, bind_ok, exists_unit, pure_ok] at hstable
    obtain ⟨-, _, -, rfl⟩ := hstable
    rfl
  refine .bind rayMul_fails fun previous hprevious => .bind rayMul_fails fun current hcurrent => ?_
  refine .bind (MathUtils.calculateCompoundedInterest_fails (hupdated ▸ hsupply)) fun c hc => ?_
  refine .bind rayMul_fails fun previousStable hstableDebt => ?_
  refine .bind SafeMath.add_fails fun debt hdebt => ?_
  obtain ⟨-, rfl⟩ := rayMul_ok.mp hprevious
  obtain ⟨-, rfl⟩ := rayMul_ok.mp hcurrent
  obtain ⟨-, rfl⟩ := rayMul_ok.mp hstableDebt
  obtain ⟨-, rfl⟩ := SafeMath.add_ok.mp hdebt
  have hvariable : rayProduct scaled previousV ≤ rayProduct scaled newV :=
    rayProduct_mono (Nat.le_refl _) hV
  have hstableLe := previousStableDebt_le hstable hnow hc
  refine .bind (SafeMath.sub_fails (by omega)) fun accrued haccrued => ?_
  obtain ⟨-, rfl⟩ := SafeMath.sub_ok.mp haccrued
  exact .bind (SafeMath.sub_fails (by omega)) fun _ _ => PercentageMath.percentMul_fails

theorem mintToTreasury_fails {previousV newL newV timestamp : ℕ}
    (ha : r.data.aTokenAddress ≠ 0) (hs : r.data.stableDebtTokenAddress ≠ 0)
    (htreasury : r.aToken.treasury ≠ 0) (hL : newL ≠ 0)
    (hsupply : r.stableDebtToken.totalSupplyTimestamp ≤ timestamp) (hnow : timestamp ≤ now)
    (hV : previousV ≤ newV) : FailsOnly Revert.IsOverflow
      (mintToTreasury now r scaled previousV newL newV timestamp) := by
  unfold mintToTreasury
  dsimp only
  split
  case isTrue => exact .pure _
  case isFalse =>
    refine .bind (treasuryShare_fails hs hsupply hnow hV) fun amount _ => ?_
    split
    case isFalse => exact .pure _
    case isTrue =>
      refine .bind_unit (.require fun h0 => absurd ha h0) fun _ => ?_
      split
      case isTrue => exact .pure _
      case isFalse =>
        refine .bind (rayDiv_fails hL) fun _ _ => .bind ?_ fun _ _ => .pure _
        refine .bind_unit (.require fun h0 => absurd htreasury h0) fun _ => ?_
        exact .bind_unit (.require fun _ => .inl rfl) fun _ => .pure _

end ReserveLogic

/-- In every run under LendingPool at times that the pool can store, a later update gets
its times in order and fails in an overflow guard or an index check only. -/
theorem updateState_fails {m : Machine} (hm : ReachableUnder .lendingPool m)
    (htime : m.time < 2 ^ 40) {now : ℕ} (hnow : m.time ≤ now) {asset : Address}
    (hlisted : (m.world.reserves asset).data.aTokenAddress ≠ 0)
    (htreasury : (m.world.reserves asset).aToken.treasury ≠ 0) :
    (m.world.reserves asset).data.lastUpdateTimestamp ≤ now ∧
    (m.world.reserves asset).stableDebtToken.totalSupplyTimestamp ≤
      (m.world.reserves asset).data.lastUpdateTimestamp ∧
    FailsOnly Revert.IsGuard (ReserveLogic.updateState now (m.world.reserves asset)) := by
  have hordered := hm.ordered htime asset
  have hlast := ((hm.reachable.clock asset).mono hnow).lastUpdateTimestamp
  obtain ⟨hs, hv⟩ := hm.reachable.deployed asset hlisted
  refine ⟨hlast, hordered.supply, ?_⟩
  refine .bind (.bind_unit (.require fun h0 => absurd hv h0) fun _ => .pure _) fun scaled _ => ?_
  refine .bind (ReserveLogic.updateIndexes_fails hlast) fun d hd => ?_
  obtain ⟨-, rfl⟩ := ReserveLogic.updateIndexes_ok hd
  refine FailsOnly.mono (ReserveLogic.mintToTreasury_fails ?_ ?_ ?_ ?_ ?_ hlast ?_) fun _ => .inl
  · simpa using hlisted
  · simpa using hs
  · simpa using htreasury
  · simp only [ReserveData.withIndexes_liquidityIndex]
    have hle := (hordered.index hlisted).trans
      (ReserveLogic.le_accruedLiquidityIndex (m.world.reserves asset).data
        (now - (m.world.reserves asset).data.lastUpdateTimestamp))
    exact (ray_pos.trans_le hle).ne'
  · simpa using hordered.supply
  · simp only [ReserveData.withIndexes_variableBorrowIndex]
    exact ReserveLogic.le_accruedVariableBorrowIndex _ _ _

def lateLoan : List Transaction :=
  sampleListing (2 ^ 40 - 1) 1 9 ++ sampleListing (2 ^ 40 - 1) 2 9 ++
    [⟨sampleEnv (2 ^ 40 - 1), 8,
        .setConfiguration 1 (sampleConfiguration + BitVec.ofNat 256 (1000 * 2 ^ 64))⟩,
      ⟨sampleEnv (2 ^ 40 - 1), 11, .deposit 1 900 11⟩,
      ⟨sampleEnv (2 ^ 40 - 1), 12, .deposit 2 500 12⟩,
      ⟨sampleEnv (2 ^ 40 - 1), 12, .borrow 1 200 1 12⟩]

set_option synthInstance.maxSize 256 in
/-- The deposit a second later stores the time zero, before that of the stable supply. -/
theorem lateLoan_wraps : (do
    let w ← runAll sampleStart lateLoan
    let w' ← runAll w [⟨sampleEnv (2 ^ 40), 11, .deposit 1 100 11⟩]
    let update := (ReserveLogic.updateState (2 ^ 40 + 1) (w'.reserves 1)).map fun _ => ()
    return ((w.reserves 1).data.aTokenAddress, (w.reserves 1).aToken.treasury,
      (w'.reserves 1).data.aTokenAddress, (w'.reserves 1).aToken.treasury, update)) =
    .ok (101, 9, 101, 9, .error .safeMathSubtractionOverflow) := by
  decide +kernel

theorem lateLoan_state : ∃ w w', ReachableUnder .lendingPool ⟨w, 2 ^ 40 - 1, []⟩ ∧
    ReachableUnder .lendingPool ⟨w', 2 ^ 40, []⟩ ∧ (w.reserves 1).data.aTokenAddress = 101 ∧
    (w.reserves 1).aToken.treasury = 9 ∧ (w'.reserves 1).data.aTokenAddress = 101 ∧
    (w'.reserves 1).aToken.treasury = 9 ∧ ReserveLogic.updateState (2 ^ 40 + 1) (w'.reserves 1) =
      .error .safeMathSubtractionOverflow := by
  obtain ⟨w, hrun, hrest⟩ := bind_ok.mp lateLoan_wraps
  obtain ⟨w', hrun', hrest⟩ := bind_ok.mp hrest
  simp only [pure_ok, Prod.mk.injEq] at hrest
  obtain ⟨ha, ht, ha', ht', hupdate⟩ := hrest
  have hstart : ReachableUnder .lendingPool ⟨w, 2 ^ 40 - 1, []⟩ :=
    .runAll (by decide) (by simp [lateLoan, sampleListing]) (.initial _ _ _) hrun
  have htick : ReachableUnder .lendingPool ⟨w, 2 ^ 40, []⟩ :=
    .step hstart (.tick _ (Nat.sub_le _ _) rfl) hstart.impl_eq
  exact ⟨w, w', hstart, htick.runAll (by simp [sampleEnv]) (by simp) hrun', ha, ht, ha', ht',
    map_error.mp hupdate⟩

theorem update_underflows_after_wrap : ¬ ∀ (m : Machine) (now : ℕ) (asset : Address),
    ReachableUnder .lendingPool m → m.time ≤ now →
    (m.world.reserves asset).data.aTokenAddress ≠ 0 →
    (m.world.reserves asset).aToken.treasury ≠ 0 →
    FailsOnly Revert.IsGuard (ReserveLogic.updateState now (m.world.reserves asset)) := by
  intro hupdates
  obtain ⟨-, w', -, hreach, -, -, ha, ht, hupdate⟩ := lateLoan_state
  have hfails := hupdates ⟨w', 2 ^ 40, []⟩ (2 ^ 40 + 1) 1 hreach (Nat.le_succ _)
    (by rw [ha]; decide) (by rw [ht]; decide) _ hupdate
  simp [Revert.IsGuard, Revert.IsOverflow] at hfails

theorem updateState_fails_late : ∃ w, ReachableUnder .lendingPool ⟨w, 2 ^ 40 - 1, []⟩ ∧
    FailsOnly Revert.IsGuard (ReserveLogic.updateState (2 ^ 40 + 1) (w.reserves 1)) := by
  obtain ⟨w, -, hreach, -, ha, ht, -, -, -⟩ := lateLoan_state
  exact ⟨w, hreach, (updateState_fails hreach (by norm_num) (by norm_num)
    (by rw [ha]; decide) (by rw [ht]; decide)).2.2⟩

end Moola
