import Moola.Clock

/-! The pool of the fix, whose ReserveLogicNoInterest is to stop interest. Its two getters
and its index update stand still. The stable debt token accrues by itself, and the treasury
still receives its share of that; both stop where the rates of stable debt do. -/

namespace Moola

open Guard WadRayMath

/-- A principal at a rate from which nothing accrues in a second. -/
def Idle (principal rate : ℕ) : Prop := principal = 0 ∨ rate < MathUtils.secondsPerYear

namespace StableDebtToken

variable {t : StableDebtToken} {r : Reserve} {user : Address} {now later share : ℕ}

theorem accrued_idle (hidle : Idle (t.balances user) (t.usersStableRate user))
    (hpast : t.timestamps user ≤ now) (hnow : now < 2 ^ 40) :
    accrued now t user = if t.balances user = 0 then .ok 0 else rayMul (t.balances user) ray := by
  unfold accrued
  split
  case isTrue => rfl
  case isFalse hne =>
    rw [MathUtils.calculateCompoundedInterest_idle (hidle.resolve_left hne) hpast hnow, ok_bind]

theorem balanceOf_idle
    (hidle : Idle (r.stableDebtToken.balances user) (r.stableDebtToken.usersStableRate user))
    (hpast : r.stableDebtToken.timestamps user ≤ now) (hle : now ≤ later)
    (hlater : later < 2 ^ 40) : balanceOf now r user = balanceOf later r user := by
  rw [balanceOf, balanceOf, accrued_idle hidle hpast (by omega),
    accrued_idle hidle (hpast.trans hle) hlater]

theorem balanceOf_grows {b b' : ℕ} (hle : now ≤ later)
    (hinterest : ray ≤ r.stableDebtToken.balances user *
      (r.stableDebtToken.usersStableRate user / MathUtils.secondsPerYear * (later - now)))
    (h : balanceOf now r user = .ok b) (h' : balanceOf later r user = .ok b') : b < b' := by
  obtain ⟨-, h⟩ := balanceOf_ok.mp h
  obtain ⟨-, h'⟩ := balanceOf_ok.mp h'
  have hne : r.stableDebtToken.balances user ≠ 0 := by
    intro h0
    rw [h0, Nat.zero_mul] at hinterest
    exact absurd hinterest (Nat.not_le.mpr ray_pos)
  simp only [accrued, if_neg hne, bind_ok, rayMul_ok] at h h'
  obtain ⟨c, hc, -, rfl⟩ := h
  obtain ⟨c', hc', -, rfl⟩ := h'
  obtain ⟨hpast, rfl⟩ := MathUtils.calculateCompoundedInterest_ok hc
  obtain ⟨-, rfl⟩ := MathUtils.calculateCompoundedInterest_ok hc'
  have hgrowth := MathUtils.compoundedExcess_growth (r.stableDebtToken.usersStableRate user)
    (Nat.sub_le_sub_right hle (r.stableDebtToken.timestamps user))
  rw [show later - r.stableDebtToken.timestamps user -
    (now - r.stableDebtToken.timestamps user) = later - now by omega] at hgrowth
  refine HalfUp.lt_of_add_le ray_pos ?_
  calc r.stableDebtToken.balances user * (ray + MathUtils.compoundedExcess _ _) + ray
      ≤ r.stableDebtToken.balances user * (ray + MathUtils.compoundedExcess _ _) +
        r.stableDebtToken.balances user * _ := Nat.add_le_add_left hinterest _
    _ = r.stableDebtToken.balances user * (ray + (MathUtils.compoundedExcess _ _ + _)) := by
        rw [← Nat.mul_add, Nat.add_assoc]
    _ ≤ _ := Nat.mul_le_mul_left _ (Nat.add_le_add_left hgrowth ray)

end StableDebtToken

structure Reserve.NothingAccrued (r r' : Reserve) : Prop where
  liquidityIndex : r'.data.liquidityIndex = r.data.liquidityIndex
  variableBorrowIndex : r'.data.variableBorrowIndex = r.data.variableBorrowIndex
  aTokens : r'.aToken.ledger = r.aToken.ledger

/-- Nothing accrues on any stable debt, and on their total only if nobody shares in it. -/
structure Reserve.StableDebtIdle (r : Reserve) : Prop where
  borrowers : ∀ u, Idle (r.stableDebtToken.balances u) (r.stableDebtToken.usersStableRate u)
  total : r.data.configuration.getReserveFactor = 0 ∨
    Idle r.stableDebtToken.principalSupply r.stableDebtToken.avgStableRate

namespace ReserveLogicNoInterest

variable {r r' : Reserve} {now : ℕ}

theorem treasuryShare_idle {s V timestamp factor share : ℕ}
    (hidle : Idle r.stableDebtToken.principalSupply r.stableDebtToken.avgStableRate)
    (h : ReserveLogic.treasuryShare now r s V V timestamp factor = .ok share) : share = 0 := by
  obtain ⟨stable, c, hs, hc, rfl⟩ := ReserveLogic.treasuryShare_ok h
  have htotal : stable.total = rayProduct stable.principal c := by
    simp only [StableDebtToken.getSupplyData, bind_ok, exists_unit, pure_ok] at hs
    obtain ⟨-, total, ht, rfl⟩ := hs
    unfold StableDebtToken.calcTotalSupply at ht
    split at ht
    case isTrue h0 =>
      rw [pure_ok] at ht
      simp [← ht, h0]
    case isFalse h0 =>
      simp only [bind_ok, rayMul_ok] at ht
      obtain ⟨c', hc', -, rfl⟩ := ht
      have hrate := hidle.resolve_left h0
      obtain ⟨-, rfl⟩ := MathUtils.calculateCompoundedInterest_ok hc
      obtain ⟨-, rfl⟩ := MathUtils.calculateCompoundedInterest_ok hc'
      simp only [MathUtils.compoundedExcess_idle hrate]
  rw [htotal, show rayProduct s V + rayProduct stable.principal c - rayProduct s V -
    rayProduct stable.principal c = 0 by omega]
  simp [PercentageMath.percentProduct]

/-- Without a share of stable interest an update moves no index and mints nothing. -/
theorem updateState_idle (hnow : now < 2 ^ 40)
    (hidle : r.data.configuration.getReserveFactor = 0 ∨
      Idle r.stableDebtToken.principalSupply r.stableDebtToken.avgStableRate)
    (h : updateState now r = .ok r') : r.NothingAccrued r' := by
  simp only [updateState, ReserveLogic.updateStateFrom, bind_ok,
    VariableDebtToken.scaledTotalSupply_ok, uint40_of_lt hnow] at h
  obtain ⟨_, ⟨-, rfl⟩, d, hd, h⟩ := h
  obtain ⟨-, rfl⟩ := ReserveLogic.updateIndexes_ok hd
  obtain ⟨minted, rfl, -, hm⟩ := ReserveLogic.mintToTreasury_ok h
  have hnothing : minted = 0 := by
    rcases hm with ⟨-, hm⟩ | ⟨hfactor, share, hshare, rfl⟩
    · exact hm
    · simp only [ReserveData.withIndexes_variableBorrowIndex, Nat.sub_self,
        ReserveLogic.accruedVariableBorrowIndex_zero] at hshare
      have hshare := treasuryShare_idle (hidle.resolve_left hfactor) hshare
      simp [hshare, rayQuotient]
  constructor <;> simp [hnothing]

theorem updateState_fresh (hnow : now < 2 ^ 40) (hlast : r.data.lastUpdateTimestamp = now)
    (h : updateState now r = .ok r') : r.NothingAccrued r' := by
  rw [updateState, uint40_of_lt hnow] at h
  obtain ⟨-, -, minted, rfl, -, -, hfresh⟩ := ReserveLogic.updateStateFrom_ok h
  constructor <;> simp [hfresh rfl hlast]

end ReserveLogicNoInterest

namespace Reserve

/-- Whichever of the calls is an update, nothing accrues by it. -/
def UpdatesStill (env : Env) (asset : Address) : Reserve → List Action → Prop
  | _, [] => True
  | r, a :: l => ∀ r', r.apply env asset a = .ok r' →
      (∀ impl, a = .updateState impl → r.NothingAccrued r') ∧ UpdatesStill env asset r' l

def UpdatesFirst (l : List Action) : Prop :=
  ∃ l', l = .updateState .withUpdateLiquidityIndex :: l' ∧
    ∀ impl, .updateState impl ∈ l' → impl = .withUpdateLiquidityIndex

variable {env : Env} {asset : Address} {r r' : Reserve} {a : Action} {l l₁ : List Action}

namespace UpdatesStill

theorem of_none (h : ∀ impl, .updateState impl ∉ l) : UpdatesStill env asset r l := by
  induction l generalizing r with
  | nil => trivial
  | cons a l ih =>
    intro r' _
    refine ⟨fun impl ha => ?_, ih fun impl hmem => h impl (List.mem_cons_of_mem a hmem)⟩
    exact absurd (ha ▸ List.mem_cons_self) (h impl)

theorem of_fresh (hnow : env.timestamp < 2 ^ 40)
    (hlast : r.data.lastUpdateTimestamp = env.timestamp)
    (h : ∀ impl, .updateState impl ∈ l → impl = .withUpdateLiquidityIndex) :
    UpdatesStill env asset r l := by
  induction l generalizing r with
  | nil => trivial
  | cons a l ih =>
    intro r' ha
    have hlast' : r'.data.lastUpdateTimestamp = env.timestamp := by
      rcases (apply_evolves ha).lastUpdateTimestamp with he | he
      · exact he.trans hlast
      · exact he.trans (uint40_of_lt hnow)
    refine ⟨?_, ih hlast' fun impl hmem => h impl (List.mem_cons_of_mem a hmem)⟩
    rintro impl rfl
    obtain rfl := h impl List.mem_cons_self
    exact ReserveLogicNoInterest.updateState_fresh hnow hlast ha

theorem of_idle (hnow : env.timestamp < 2 ^ 40) (hidle : r.StableDebtIdle) (h : UpdatesFirst l) :
    UpdatesStill env asset r l := by
  obtain ⟨l', rfl, hrest⟩ := h
  intro r' ha
  have hstill := ReserveLogicNoInterest.updateState_idle hnow hidle.total ha
  refine ⟨fun _ _ => hstill, of_fresh hnow ?_ hrest⟩
  obtain ⟨-, -, minted, rfl, -⟩ := ReserveLogic.updateStateFrom_ok ha
  simp [uint40_of_lt hnow]

end UpdatesStill

theorem apply_variableBorrowIndex (h : r.apply env asset a = .ok r')
    (ha : ∀ impl, a ≠ .updateState impl) :
    r'.data.variableBorrowIndex = r.data.variableBorrowIndex := by
  by_cases hdata : a.KeepsData
  · rw [apply_data h hdata]
  cases a with
  | updateState impl => exact absurd rfl (ha impl)
  | updateInterestRates added taken =>
    obtain ⟨rates, rfl⟩ := ReserveLogic.updateInterestRates_ok h
    simp
  | cumulateToLiquidityIndex total premium =>
    obtain ⟨-, ratio, -, rfl⟩ := ReserveLogic.cumulateToLiquidityIndex_ok h
    simp
  | setLiquidityIndex => simp [← Except.ok.inj h]
  | setConfiguration => simp [← Except.ok.inj h]
  | setStrategy => simp [← Except.ok.inj h]
  | _ => exact absurd trivial hdata

theorem run_variableBorrowIndex (h : r.run env asset l = .ok r')
    (hl : UpdatesStill env asset r l) :
    r'.data.variableBorrowIndex = r.data.variableBorrowIndex := by
  induction l generalizing r with
  | nil => rw [← Except.ok.inj h]
  | cons a l ih =>
    obtain ⟨r₁, h₁, h⟩ := bind_ok.mp h
    obtain ⟨hstill, hrest⟩ := hl r₁ h₁
    rw [ih h hrest]
    by_cases ha : ∃ impl, a = .updateState impl
    · obtain ⟨impl, ha⟩ := ha
      exact (hstill impl ha).variableBorrowIndex
    · exact apply_variableBorrowIndex h₁ fun impl he => ha ⟨impl, he⟩

theorem UpdatesFirst.append_or (h₁ : l₁ = [] ∨ UpdatesFirst l₁) (h : l = [] ∨ UpdatesFirst l) :
    l₁ ++ l = [] ∨ UpdatesFirst (l₁ ++ l) := by
  obtain rfl | ⟨l', rfl, hrest⟩ := h₁
  · exact h
  refine .inr ⟨l' ++ l, rfl, fun impl hmem => ?_⟩
  rcases List.mem_append.mp hmem with hmem | hmem
  · exact hrest impl hmem
  · obtain rfl | ⟨l₂, rfl, hrest₂⟩ := h
    · cases hmem
    · rcases List.mem_cons.mp hmem with he | hmem
      · exact Action.updateState.inj he
      · exact hrest₂ impl hmem

end Reserve

theorem onAsset_or {P : List Action → Prop} {l : List Action} (asset x : Address) (h : P l) :
    onAsset asset l x = [] ∨ P (onAsset asset l x) := by
  unfold onAsset
  split
  case isTrue => exact .inr h
  case isFalse => exact .inl rfl

open Reserve (UpdatesFirst)

theorem LendingPool.Settles.updatesFirst {self sender : Address} {loan : LendingPool.FlashLoan}
    {assets : List Address} {l : Address → List Action}
    (h : LendingPool.Settles .withUpdateLiquidityIndex self sender loan assets l) (x : Address) :
    l x = [] ∨ UpdatesFirst (l x) := by
  induction h with
  | done => exact .inl rfl
  | @paid asset assets l total amountPlusPremium premium _ ih =>
    exact UpdatesFirst.append_or (onAsset_or asset x ⟨_, rfl, by simp⟩) ih
  | @opened asset assets l mode amount _ ih =>
    exact UpdatesFirst.append_or (onAsset_or asset x ⟨_, rfl, by simp⟩) ih

namespace Machine

/-- No event by which the pool leaves the library without interest: a liquidation, whose manager
brings its own, or another implementation. -/
def Event.KeepsLibrary : Event → Prop
  | .call _ _ (.liquidationCall ..) | .call _ _ (.setLendingPoolImpl _) => False
  | _ => True

/-- By the event, if it updates the reserve at all, nothing accrues. A listing updates none. -/
def UpdatesStill (asset : Address) (m : Machine) (e : Event) (m' : Machine) : Prop :=
  (∃ env l, env.timestamp = m.time ∧ e.Makes m.world env l ∧ Effect env l m.world m'.world ∧
    (m.world.reserves asset).UpdatesStill env asset (l asset)) ∨
  ∃ env sender a proxies strategy, e = .call env sender (.initReserve a proxies strategy)

variable {m m' : Machine} {e : Event} {asset : Address}

theorem Event.Makes.updatesFirst {env : Env} {l : Address → List Action}
    (h : e.Makes m.world env l) (himpl : m.world.impl = .withUpdateLiquidityIndex)
    (he : e.KeepsLibrary) (x : Address) :
    (∀ impl, .updateState impl ∉ l x) ∨ UpdatesFirst (l x) := by
  have hempty : ∀ {l' : List Action}, l' = [] ∨ UpdatesFirst l' →
      (∀ impl, .updateState impl ∉ l') ∨ UpdatesFirst l' :=
    Or.imp_left fun hnone => by simp [hnone]
  cases e with
  | call env' sender c =>
    obtain ⟨-, h⟩ := h
    cases h with
    | liquidationCall => exact absurd he id
    | deposit => exact hempty (onAsset_or _ x ⟨_, by rw [himpl], by simp⟩)
    | withdraw => exact hempty (onAsset_or _ x ⟨_, by rw [himpl], by simp⟩)
    | borrow => exact hempty (onAsset_or _ x ⟨_, by rw [himpl], by simp⟩)
    | repay => exact hempty (onAsset_or _ x ⟨_, by rw [himpl], by simp⟩)
    | writeOff => exact hempty (onAsset_or _ x ⟨_, by rw [himpl], by simp⟩)
    | swapBorrowRateMode => exact hempty (onAsset_or _ x ⟨_, by rw [himpl], by simp⟩)
    | rebalanceStableBorrowRate => exact hempty (onAsset_or _ x ⟨_, by rw [himpl], by simp⟩)
    | _ => exact .inl fun impl => by simp
  | flashLoanTake sender loan =>
    refine .inl fun impl hmem => ?_
    obtain ⟨amount, he⟩ := h x _ hmem
    cases he
  | flashLoanSettle env' pending =>
    rw [Event.Makes, himpl] at h
    exact hempty (h.2.updatesFirst x)

theorem Fires.updatesStill (h : m.Fires e m') (himpl : m.world.impl = .withUpdateLiquidityIndex)
    (he : e.KeepsLibrary) (hnow : m.time < 2 ^ 40)
    (hidle : (m.world.reserves asset).StableDebtIdle) : m.UpdatesStill asset e m' := by
  obtain ⟨env, l, htime, hl, heffect⟩ | ⟨env, sender, a, p, strategy, rfl, -⟩ |
    ⟨env, sender, impl, rfl, -⟩ := h.makes
  · refine .inl ⟨env, l, htime, hl, heffect, ?_⟩
    obtain hnone | hfirst := hl.updatesFirst himpl he asset
    · exact .of_none hnone
    · exact .of_idle (htime ▸ hnow) hidle hfirst
  · exact .inr ⟨_, _, _, _, _, rfl⟩
  · exact absurd he id

end Machine

/-- Between two blocks without an operation, a reserve shows no interest, and an update in
the later one accrues none. -/
structure Reserve.InterestStopped (impl : PoolImpl) (now later : ℕ) (r : Reserve) : Prop where
  update : ∀ r', LendingPool.updateState impl later r = .ok r' → r.NothingAccrued r'
  aTokens : ∀ u, AToken.balanceOf impl now r u = AToken.balanceOf impl later r u
  variableDebts : ∀ u,
    VariableDebtToken.balanceOf impl now r u = VariableDebtToken.balanceOf impl later r u
  stableDebts : ∀ u, StableDebtToken.balanceOf now r u = StableDebtToken.balanceOf later r u

/-- The runs of the pool of the fix without a liquidation, in which the stable debt of an asset is
idle wherever something happens. -/
abbrev IdleRun (asset : Address) : Machine → Machine → Prop :=
  Relation.ReflTransGen (StepIf fun m e =>
    (m.world.reserves asset).StableDebtIdle ∧ e.KeepsLibrary)

variable {m m' : Machine} {asset : Address}

theorem Machine.Fires.impl {e : Machine.Event} (h : m.Fires e m') (hm : m.world.WellFormed)
    (he : e.KeepsLibrary) : m'.world.impl = m.world.impl := by
  obtain ⟨env, l, -, -, heffect⟩ | ⟨env, sender, a, p, strategy, -, hnew⟩ |
    ⟨env, sender, impl, rfl, -⟩ := h.makes
  · exact heffect.impl
  · obtain ⟨-, -, -, hw⟩ := hm.initReserve_ok hnew
    rw [hw]
  · exact absurd he id

theorem Machine.Fires.variableBorrowIndex {e : Machine.Event} (h : m.Fires e m')
    (hm : m.world.WellFormed) (himpl : m.world.impl = .withUpdateLiquidityIndex)
    (he : e.KeepsLibrary) (hnow : m.time < 2 ^ 40)
    (hidle : (m.world.reserves asset).StableDebtIdle)
    (hlisted : (m.world.reserves asset).data.aTokenAddress ≠ 0) :
    (m'.world.reserves asset).data.aTokenAddress ≠ 0 ∧
      (m'.world.reserves asset).data.variableBorrowIndex =
        (m.world.reserves asset).data.variableBorrowIndex := by
  obtain ⟨env, l, htime, hl, heffect, hstill⟩ | ⟨env, sender, a, p, strategy, rfl⟩ :=
    h.updatesStill himpl he hnow hidle
  · rw [(Reserve.run_evolves (heffect.run asset)).aTokenAddress]
    exact ⟨hlisted, Reserve.run_variableBorrowIndex (heffect.run asset) hstill⟩
  · cases h with
    | call _ hnew =>
      obtain ⟨-, hfresh, -, rfl⟩ := hm.initReserve_ok hnew
      have hother : asset ≠ a := by
        rintro rfl
        exact hlisted hfresh
      simp only [write_of_ne _ _ hother]
      exact ⟨hlisted, trivial⟩

theorem IdleRun.keeps (hm : Reachable m) (himpl : m.world.impl = .withUpdateLiquidityIndex)
    (hrun : IdleRun asset m m') (hnow : m'.time < 2 ^ 40) :
    Reachable m' ∧ m'.world.impl = .withUpdateLiquidityIndex ∧
      ((m.world.reserves asset).data.aTokenAddress ≠ 0 →
        (m'.world.reserves asset).data.aTokenAddress ≠ 0 ∧
          (m'.world.reserves asset).data.variableBorrowIndex =
            (m.world.reserves asset).data.variableBorrowIndex) := by
  induction hrun with
  | refl => exact ⟨hm, himpl, fun hlisted => ⟨hlisted, rfl⟩⟩
  | tail _ hs ih =>
    obtain ⟨hreachable, hpool, hindex⟩ := ih (hs.time_le.trans_lt hnow)
    refine ⟨.step hreachable hs.step, ?_⟩
    cases hs with
    | fires hallowed hfires =>
      refine ⟨(hfires.impl hreachable.wellFormed hallowed.2).trans hpool, fun hlisted => ?_⟩
      obtain ⟨hlisted₁, hsame⟩ := hindex hlisted
      rw [hfires.time] at hnow
      obtain ⟨hlisted₂, hstep⟩ := hfires.variableBorrowIndex hreachable.wellFormed hpool
        hallowed.2 hnow hallowed.1 hlisted₁
      exact ⟨hlisted₂, hstep.trans hsame⟩
    | tick => exact ⟨hpool, hindex⟩

/-- What the manager of a liquidation is compiled with accrues, whichever pool is installed. -/
theorem liquidation_accrues {env : Env} {w w' : World} {sender collateralAsset user : Address}
    {debtToCover : ℕ} {receiveAToken : Bool} (h : exec env w sender
      (.liquidationCall collateralAsset asset user debtToCover receiveAToken) = .ok w') :
    ReserveLogic.accruedVariableBorrowIndex (w.reserves asset).data
        (w.reserves asset).variableDebtToken.ledger.totalSupply
        (env.timestamp - (w.reserves asset).data.lastUpdateTimestamp) ≤
      (w'.reserves asset).data.variableBorrowIndex := by
  obtain ⟨l, amount, treasury, -, heffect, -⟩ := LendingPool.liquidationCall_effect h
  have hrun := heffect.run asset
  simp only [onAsset, if_true, List.cons_append] at hrun
  obtain ⟨r₁, h₁, hrest⟩ := bind_ok.mp hrun
  obtain ⟨-, -, minted, rfl, -⟩ := ReserveLogic.updateStateFrom_ok h₁
  simpa using (Reserve.run_evolves hrest).variableBorrowIndex

/-- In every run under the pool of the fix, without a liquidation and with idle stable debt,
interest stands still: by no event anything accrues, and nothing between two blocks. Stable debt
that is not idle grows as soon as it has earned one unit, and a liquidation accrues what the
variable debt of its reserve has earned. -/
theorem interest_stopped (hm : Reachable m) (himpl : m.world.impl = .withUpdateLiquidityIndex)
    (hrun : IdleRun asset m m') (hnow : m'.time < 2 ^ 40) :
    m'.world.impl = .withUpdateLiquidityIndex ∧
    ((m.world.reserves asset).data.aTokenAddress ≠ 0 →
      (m'.world.reserves asset).data.variableBorrowIndex =
        (m.world.reserves asset).data.variableBorrowIndex) ∧
    ((m'.world.reserves asset).StableDebtIdle →
      (∀ e m'', e.KeepsLibrary → m'.Fires e m'' → m'.UpdatesStill asset e m'') ∧
      ∀ now later, m'.time ≤ now → now ≤ later → later < 2 ^ 40 →
        (m'.world.reserves asset).InterestStopped m'.world.impl now later) ∧
    (∀ now later user b b', m'.time ≤ now → now ≤ later →
      ray ≤ (m'.world.reserves asset).stableDebtToken.balances user *
        ((m'.world.reserves asset).stableDebtToken.usersStableRate user /
          MathUtils.secondsPerYear * (later - now)) →
      StableDebtToken.balanceOf now (m'.world.reserves asset) user = .ok b →
      StableDebtToken.balanceOf later (m'.world.reserves asset) user = .ok b' → b < b') ∧
    ∀ env sender collateralAsset user debtToCover receiveAToken w', exec env m'.world sender
        (.liquidationCall collateralAsset asset user debtToCover receiveAToken) = .ok w' →
      ReserveLogic.accruedVariableBorrowIndex (m'.world.reserves asset).data
          (m'.world.reserves asset).variableDebtToken.ledger.totalSupply
          (env.timestamp - (m'.world.reserves asset).data.lastUpdateTimestamp) ≤
        (w'.reserves asset).data.variableBorrowIndex := by
  obtain ⟨hreachable, hpool, hindex⟩ := hrun.keeps hm himpl hnow
  refine ⟨hpool, fun hlisted => (hindex hlisted).2, fun hidle => ⟨?_, ?_⟩, ?_, ?_⟩
  · exact fun e m'' he hfires => hfires.updatesStill hpool he hnow hidle
  · intro now later hpast hle hlater
    have hclock := (hreachable.clock asset).mono hpast
    rw [hpool]
    constructor
    case update => exact fun r' h => ReserveLogicNoInterest.updateState_idle hlater hidle.total h
    case aTokens => exact fun u => rfl
    case variableDebts => exact fun u => rfl
    case stableDebts =>
      exact fun u => StableDebtToken.balanceOf_idle (hidle.borrowers u) (hclock.timestamps u)
        hle hlater
  · exact fun now later user b b' _ hle hinterest h h' =>
      StableDebtToken.balanceOf_grows hle hinterest h h'
  · exact fun env sender collateralAsset user debtToCover receiveAToken w' h =>
      liquidation_accrues h

def stableLoan : List Transaction :=
  sampleListing 40 1 9 ++ sampleListing 40 2 9 ++
    [⟨sampleEnv 40, 8,
        .setConfiguration 1 (sampleConfiguration + BitVec.ofNat 256 (1000 * 2 ^ 64))⟩,
      ⟨sampleEnv 40, 11, .deposit 1 1000 11⟩, ⟨sampleEnv 40, 12, .deposit 2 500 12⟩,
      ⟨sampleEnv 40, 12, .borrow 1 200 1 12⟩,
      ⟨sampleEnv 40, 7, .setLendingPoolImpl .withUpdateLiquidityIndex⟩]

set_option synthInstance.maxSize 256 in
theorem stableLoan_accrues : (do
    let w ← runAll sampleStart stableLoan
    let b ← StableDebtToken.balanceOf 40 (w.reserves 1) 12
    let b' ← StableDebtToken.balanceOf (40 + MathUtils.secondsPerYear) (w.reserves 1) 12
    let r ← LendingPool.updateState w.impl (40 + MathUtils.secondsPerYear) (w.reserves 1)
    return (w.impl, b, b', (w.reserves 1).aToken.ledger.balances 9, r.aToken.ledger.balances 9,
      (w.reserves 1).stableDebtToken.balances 12,
      (w.reserves 1).stableDebtToken.usersStableRate 12)) =
    .ok (.withUpdateLiquidityIndex, 200, 210, 0, 1, 200, 5 * 10 ^ 25) := by
  decide +kernel

theorem stableLoan_state : ∃ w, Reachable ⟨w, 40, []⟩ ∧ w.impl = .withUpdateLiquidityIndex ∧
    StableDebtToken.balanceOf 40 (w.reserves 1) 12 = .ok 200 ∧
    StableDebtToken.balanceOf (40 + MathUtils.secondsPerYear) (w.reserves 1) 12 = .ok 210 ∧
    (w.reserves 1).stableDebtToken.balances 12 = 200 ∧
    (w.reserves 1).stableDebtToken.usersStableRate 12 = 5 * 10 ^ 25 := by
  obtain ⟨w, hrun, hrest⟩ := bind_ok.mp stableLoan_accrues
  obtain ⟨b, hb, hrest⟩ := bind_ok.mp hrest
  obtain ⟨b', hb', hrest⟩ := bind_ok.mp hrest
  obtain ⟨r, hr, hrest⟩ := bind_ok.mp hrest
  simp only [pure_ok, Prod.mk.injEq] at hrest
  obtain ⟨himpl, rfl, rfl, -, -, hprincipal, hrate⟩ := hrest
  exact ⟨w, .sample (by decide) hrun, himpl, hb, hb', hprincipal, hrate⟩

theorem stable_debt_accrues : ¬ ∀ (m : Machine) (now later : ℕ) (asset : Address),
    Reachable m → m.world.impl = .withUpdateLiquidityIndex → m.time ≤ now → now ≤ later →
    (m.world.reserves asset).InterestStopped m.world.impl now later := by
  intro hstops
  obtain ⟨w, hreach, himpl, hb, hb', -, -⟩ := stableLoan_state
  have hstopped := hstops ⟨w, 40, []⟩ 40 (40 + MathUtils.secondsPerYear) 1 hreach himpl
    (Nat.le_refl _) (Nat.le_add_right _ _)
  have hsame := Except.ok.inj (hb.symm.trans ((hstopped.stableDebts 12).trans hb'))
  omega

theorem listed_year : ∃ w w', Reachable ⟨w, 40, []⟩ ∧ w.impl = .withUpdateLiquidityIndex ∧
    (w'.reserves 1).StableDebtIdle ∧ (w'.reserves 1).data.aTokenAddress = 101 ∧
    IdleRun 1 ⟨w, 40, []⟩ ⟨w', 40 + MathUtils.secondsPerYear, []⟩ := by
  have hlisting : ((exec (sampleEnv 40)
      (initialWorld (fun _ => sampleUnderlying) .withUpdateLiquidityIndex 99) 8
      (.initReserve 1 (sampleProxies 9) 104)).map fun _ => ()) = .ok () := by
    decide +kernel
  obtain ⟨w', h, -⟩ := map_ok.mp hlisting
  have hfires : Machine.Fires ⟨_, 40, []⟩ (.call (sampleEnv 40) 8 _) ⟨w', 40, []⟩ := .call rfl h
  have hstart := Reachable.initial (fun _ => sampleUnderlying) .withUpdateLiquidityIndex 99 40
  have hidle : (emptyReserve sampleUnderlying).StableDebtIdle ∧
      (Machine.Event.call (sampleEnv 40) 8 (.initReserve 1 (sampleProxies 9) 104)).KeepsLibrary :=
    ⟨⟨fun _ => .inl rfl, .inl rfl⟩, trivial⟩
  obtain ⟨-, -, -, hw⟩ := hstart.wellFormed.initReserve_ok h
  refine ⟨_, w', hstart, rfl, ?_, by rw [hw]; rfl,
    (Relation.ReflTransGen.single (.fires hidle hfires)).tail
      (.tick (40 + MathUtils.secondsPerYear) (Nat.le_add_right _ _) rfl)⟩
  rw [hw]
  exact ⟨fun _ => .inl rfl, .inl rfl⟩

/-- A pool without debts stands still over a second year, in which the stable loan grows. -/
theorem interest_stopped_year :
    (∃ w : World, (w.reserves 1).data.aTokenAddress = 101 ∧ (w.reserves 1).InterestStopped w.impl
      (40 + MathUtils.secondsPerYear) (40 + 2 * MathUtils.secondsPerYear)) ∧
    ∃ w b b', Reachable ⟨w, 40, []⟩ ∧ StableDebtToken.balanceOf 40 (w.reserves 1) 12 = .ok b ∧
      StableDebtToken.balanceOf (40 + MathUtils.secondsPerYear) (w.reserves 1) 12 = .ok b' ∧
      b < b' := by
  have hnow : 40 + MathUtils.secondsPerYear < 2 ^ 40 := by norm_num [MathUtils.secondsPerYear]
  have hlater : 40 + 2 * MathUtils.secondsPerYear < 2 ^ 40 := by
    norm_num [MathUtils.secondsPerYear]
  constructor
  · obtain ⟨w, w', hreach, himpl, hidle, hlisted, hrun⟩ := listed_year
    obtain ⟨-, -, hstill, -⟩ := interest_stopped hreach himpl hrun hnow
    exact ⟨w', hlisted, (hstill hidle).2 _ _ le_rfl (by omega) hlater⟩
  · obtain ⟨w, hreach, himpl, hb, hb', hprincipal, hrate⟩ := stableLoan_state
    have hidle : IdleRun 1 ⟨w, 40, []⟩ ⟨w, 40, []⟩ := .refl
    obtain ⟨-, -, -, hgrows, -⟩ := interest_stopped hreach himpl hidle (by norm_num)
    refine ⟨w, 200, 210, hreach, hb, hb', hgrows _ _ 12 200 210 le_rfl (Nat.le_add_right _ _) ?_
      hb hb'⟩
    rw [hprincipal, hrate]
    norm_num [ray, MathUtils.secondsPerYear]

end Moola
