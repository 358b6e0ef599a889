import Moola.Clock

/-! `balanceDecreaseAllowed` multiplies the total collateral by an average threshold that was
floored, and takes off what the withdrawn amount contributed exactly. The floored average
loses a remainder, and the check answers when the rest of the collateral makes up for it. -/

namespace Moola

open Guard WadRayMath PercentageMath

theorem tokenUnit_pos {decimals : ℕ} (h : decimals < 256) : 0 < tokenUnit decimals := by
  refine Nat.pos_of_ne_zero fun h0 => ?_
  have hdvd : 2 ^ 256 ∣ 2 ^ decimals * 5 ^ decimals := by
    rw [← Nat.mul_pow]
    exact Nat.dvd_of_mod_eq_zero h0
  have hpow := Nat.Coprime.dvd_of_dvd_mul_right (Nat.Coprime.pow _ _ (by decide)) hdvd
  have hle := (Nat.pow_dvd_pow_iff_le_right (by norm_num)).mp hpow
  omega

/-- A reserve whose tokens are deployed and have seen no later time. -/
structure Reserve.Answers (now : ℕ) (r : Reserve) : Prop where
  aToken : r.data.aTokenAddress ≠ 0
  stableDebtToken : r.data.stableDebtTokenAddress ≠ 0
  variableDebtToken : r.data.variableDebtTokenAddress ≠ 0
  clock : r.ClockBelow now

namespace GenericLogic

variable {env : Env} {w : World} {r : Reserve} {user asset : Address}
  {price amount total debt threshold n i : ℕ} {vars vars' : AccountTotals}

theorem valueOf_fails (c : ReserveConfigurationMap) :
    FailsOnly Revert.IsOverflow (valueOf price amount c.getDecimals) :=
  .bind SafeMath.mul_fails fun _ _ => SafeMath.div_fails (tokenUnit_pos c.getDecimals_lt)

theorem calculateHealthFactor_fails : FailsOnly Revert.IsOverflow
    (calculateHealthFactorFromBalances total debt threshold) := by
  unfold calculateHealthFactorFromBalances
  split
  case isTrue => exact .pure _
  case isFalse hdebt => exact .bind percentMul_fails fun _ _ => wadDiv_fails hdebt

section Fails

variable {p : Revert → Prop}

/-- Every balance of a user in a reserve fails in the way `p` only. -/
structure ReadsFail (p : Revert → Prop) (env : Env) (w : World) (user : Address) (r : Reserve) :
    Prop where
  aToken : FailsOnly p (AToken.balanceOf w.impl env.timestamp r user)
  stableDebt : FailsOnly p (StableDebtToken.balanceOf env.timestamp r user)
  variableDebt : FailsOnly p (VariableDebtToken.balanceOf w.impl env.timestamp r user)

theorem ReadsFail.of_answers (hr : r.Answers env.timestamp) :
    ReadsFail Revert.IsOverflow env w user r where
  aToken := AToken.balanceOf_fails hr.aToken hr.clock.lastUpdateTimestamp
  stableDebt := StableDebtToken.balanceOf_fails hr.stableDebtToken (hr.clock.timestamps user)
  variableDebt :=
    VariableDebtToken.balanceOf_fails hr.variableDebtToken hr.clock.lastUpdateTimestamp

theorem addCollateral_fails (hp : ∀ e, Revert.IsOverflow e → p e) (hr : ReadsFail p env w user r) :
    FailsOnly p (addCollateral env w r price user vars) := by
  refine .bind hr.aToken fun _ _ => .bind ((valueOf_fails _).mono hp) fun _ _ => ?_
  refine .bind (SafeMath.add_fails.mono hp) fun _ _ => ?_
  refine .bind (SafeMath.mul_fails.mono hp) fun _ _ => ?_
  refine .bind (SafeMath.add_fails.mono hp) fun _ _ => ?_
  refine .bind (SafeMath.mul_fails.mono hp) fun _ _ => ?_
  exact .bind (SafeMath.add_fails.mono hp) fun _ _ => .pure _

theorem addDebt_fails (hp : ∀ e, Revert.IsOverflow e → p e) (hr : ReadsFail p env w user r) :
    FailsOnly p (addDebt env w r price user vars) := by
  refine .bind hr.stableDebt fun _ _ => .bind hr.variableDebt fun _ _ => ?_
  refine .bind (SafeMath.add_fails.mono hp) fun _ _ => ?_
  refine .bind ((valueOf_fails _).mono hp) fun _ _ => ?_
  exact .bind (SafeMath.add_fails.mono hp) fun _ _ => .pure _

theorem applyIf_fails {c : Prop} [Decidable c] {f : AccountTotals → Tx AccountTotals}
    (hf : FailsOnly p (f vars)) : FailsOnly p (applyIf c f vars) := by
  unfold applyIf
  split
  case isTrue => exact hf
  case isFalse => exact .ok _

theorem accountStep_fails (hp : ∀ e, Revert.IsOverflow e → p e) (hi : i < 128)
    (hr : ReadsFail p env w user (w.reserves (w.reservesList i))) :
    FailsOnly p (accountStep env w user i vars) := by
  have hflags {α : Type} {x : Tx α} {a : α} (h : x = .ok a) : FailsOnly p x := h ▸ .ok a
  refine .bind (hflags (UserConfigurationMap.isUsingAsCollateralOrBorrowing_ok.mpr ⟨hi, rfl⟩))
    fun used _ => ?_
  split
  case isTrue => exact .pure _
  case isFalse =>
    refine .bind (hflags (UserConfigurationMap.isUsingAsCollateral_ok.mpr ⟨hi, rfl⟩))
      fun _ _ => .bind (applyIf_fails (addCollateral_fails hp hr)) fun _ _ => ?_
    exact .bind (hflags (UserConfigurationMap.isBorrowing_ok.mpr ⟨hi, rfl⟩))
      fun _ _ => applyIf_fails (addDebt_fails hp hr)

theorem accountTotals_fails (hp : ∀ e, Revert.IsOverflow e → p e) (hn : n ≤ 128)
    (hr : ∀ i < n, ReadsFail p env w user (w.reserves (w.reservesList i))) :
    FailsOnly p (accountTotals env w user n) := by
  induction n with
  | zero => exact .ok _
  | succ n ih =>
    refine .bind (ih (by omega) fun i hi => hr i (by omega)) fun _ _ => ?_
    exact accountStep_fails hp (by omega) (hr n (by omega))

theorem calculateUserAccountData_fails (hp : ∀ e, Revert.IsOverflow e → p e)
    (hn : w.reservesCount ≤ 128)
    (hr : ∀ i < w.reservesCount, ReadsFail p env w user (w.reserves (w.reservesList i))) :
    FailsOnly p (calculateUserAccountData env w user) := by
  unfold calculateUserAccountData
  split
  case isTrue => exact .pure _
  case isFalse =>
    exact .bind (accountTotals_fails hp hn hr) fun _ _ =>
      .bind (calculateHealthFactor_fails.mono hp) fun _ _ => .pure _

end Fails

theorem addCollateral_total (h : addCollateral env w r price user vars = .ok vars') :
    ∃ balance value, AToken.balanceOf w.impl env.timestamp r user = .ok balance ∧
      valueOf price balance r.data.configuration.getDecimals = .ok value ∧
      vars'.totalCollateralInETH = vars.totalCollateralInETH + value := by
  simp only [addCollateral, bind_ok, SafeMath.add_ok, SafeMath.mul_ok, pure_ok] at h
  obtain ⟨balance, hbalance, value, hvalue, _, ⟨-, rfl⟩, _, -, _, -, _, -, _, -, rfl⟩ := h
  exact ⟨balance, value, hbalance, hvalue, rfl⟩

theorem addDebt_total (h : addDebt env w r price user vars = .ok vars') :
    vars'.totalCollateralInETH = vars.totalCollateralInETH := by
  simp only [addDebt, bind_ok, pure_ok] at h
  obtain ⟨_, -, _, -, _, -, _, -, _, -, rfl⟩ := h
  rfl

theorem accountStep_total (h : accountStep env w user i vars = .ok vars') :
    vars.totalCollateralInETH ≤ vars'.totalCollateralInETH ∧
    ∀ balance, (w.usersConfig user).collateral i = true →
      (w.reserves (w.reservesList i)).data.configuration.getLiquidationThreshold ≠ 0 →
      AToken.balanceOf w.impl env.timestamp (w.reserves (w.reservesList i)) user = .ok balance →
      ∃ value, valueOf (env.getAssetPrice (w.reservesList i)) balance
        (w.reserves (w.reservesList i)).data.configuration.getDecimals = .ok value ∧
        value ≤ vars'.totalCollateralInETH := by
  simp only [accountStep, bind_ok] at h
  obtain ⟨used, hused, h⟩ := h
  obtain ⟨-, rfl⟩ := UserConfigurationMap.isUsingAsCollateralOrBorrowing_ok.mp hused
  split at h
  case isTrue hunused =>
    obtain rfl := pure_ok.mp h
    refine ⟨Nat.le_refl _, fun balance hcollateral => ?_⟩
    simp [hcollateral] at hunused
  case isFalse =>
    simp only [bind_ok, UserConfigurationMap.isUsingAsCollateral_ok,
      UserConfigurationMap.isBorrowing_ok] at h
    obtain ⟨_, ⟨-, rfl⟩, vars₁, h₁, _, ⟨-, rfl⟩, h₂⟩ := h
    have hdebt : vars'.totalCollateralInETH = vars₁.totalCollateralInETH := by
      rcases applyIf_ok.mp h₂ with ⟨-, h₂⟩ | ⟨-, rfl⟩
      · exact addDebt_total h₂
      · rfl
    rw [hdebt]
    rcases applyIf_ok.mp h₁ with ⟨-, h₁⟩ | ⟨hnot, rfl⟩
    · obtain ⟨balance, value, hbalance, hvalue, htotal⟩ := addCollateral_total h₁
      refine ⟨by omega, fun balance' _ _ hbalance' => ⟨value, ?_, by omega⟩⟩
      rwa [← Except.ok.inj (hbalance.symm.trans hbalance')]
    · exact ⟨Nat.le_refl _, fun balance hcollateral hthreshold =>
        absurd ⟨hthreshold, hcollateral⟩ hnot⟩

theorem value_le_total {balance : ℕ} (h : accountTotals env w user n = .ok vars) (hi : i < n)
    (hcollateral : (w.usersConfig user).collateral i = true)
    (hthreshold :
      (w.reserves (w.reservesList i)).data.configuration.getLiquidationThreshold ≠ 0)
    (hbalance : AToken.balanceOf w.impl env.timestamp (w.reserves (w.reservesList i)) user =
      .ok balance) :
    ∃ value, valueOf (env.getAssetPrice (w.reservesList i)) balance
      (w.reserves (w.reservesList i)).data.configuration.getDecimals = .ok value ∧
      value ≤ vars.totalCollateralInETH := by
  induction n generalizing vars with
  | zero => exact absurd hi (Nat.not_lt_zero i)
  | succ n ih =>
    obtain ⟨vars₁, h₁, hstep⟩ := bind_ok.mp h
    obtain ⟨hle, hadds⟩ := accountStep_total hstep
    rcases Nat.lt_succ_iff_lt_or_eq.mp hi with hlt | rfl
    · obtain ⟨value, hvalue, hpart⟩ := ih h₁ hlt
      exact ⟨value, hvalue, hpart.trans hle⟩
    · exact hadds balance hcollateral hthreshold hbalance

theorem calculateUserAccountData_ok {data : AccountData}
    (hused : (w.usersConfig user).isEmpty = false)
    (h : calculateUserAccountData env w user = .ok data) : ∃ vars,
      accountTotals env w user w.reservesCount = .ok vars ∧
      data.totalCollateralInETH = vars.totalCollateralInETH ∧
      data.totalDebtInETH = vars.totalDebtInETH ∧
      data.avgLiquidationThreshold =
        vars.avgLiquidationThreshold / vars.totalCollateralInETH := by
  rw [calculateUserAccountData, hused] at h
  simp only [Bool.false_eq_true, if_false, bind_ok, pure_ok] at h
  obtain ⟨vars, hvars, health, -, rfl⟩ := h
  exact ⟨vars, hvars, rfl, rfl, rfl⟩

/-- The check on the totals reverts only where the floored product runs short. -/
theorem healthFactorAfterDecrease_fails {data : AccountData} {decrease : ℕ}
    (hle : decrease ≤ data.totalCollateralInETH)
    (hcovered : decrease < data.totalCollateralInETH →
      decrease * threshold ≤ data.totalCollateralInETH * data.avgLiquidationThreshold) :
    FailsOnly Revert.IsOverflow (healthFactorAfterDecrease data decrease threshold) := by
  refine .bind (SafeMath.sub_fails hle) fun after hafter => ?_
  obtain ⟨-, rfl⟩ := SafeMath.sub_ok.mp hafter
  split
  case isTrue => exact .pure _
  case isFalse hrest =>
    refine .bind SafeMath.mul_fails fun weighted hweighted => ?_
    refine .bind SafeMath.mul_fails fun removed hremoved => ?_
    obtain ⟨-, rfl⟩ := SafeMath.mul_ok.mp hweighted
    obtain ⟨-, rfl⟩ := SafeMath.mul_ok.mp hremoved
    refine .bind (SafeMath.sub_fails (hcovered (by omega))) fun _ _ => ?_
    refine .bind (SafeMath.div_fails (by omega)) fun _ _ => ?_
    exact .bind calculateHealthFactor_fails fun _ _ => .pure _

theorem healthFactorAfterDecrease_covered {data : AccountData} {decrease : ℕ} {allowed : Bool}
    (h : healthFactorAfterDecrease data decrease threshold = .ok allowed)
    (hlt : decrease < data.totalCollateralInETH) :
    decrease * threshold ≤ data.totalCollateralInETH * data.avgLiquidationThreshold := by
  simp only [healthFactorAfterDecrease, bind_ok, SafeMath.sub_ok] at h
  obtain ⟨_, ⟨-, rfl⟩, h⟩ := h
  rw [if_neg (by omega)] at h
  simp only [bind_ok, SafeMath.mul_ok, SafeMath.sub_ok] at h
  obtain ⟨_, ⟨-, rfl⟩, _, ⟨-, rfl⟩, _, ⟨hcovered, -⟩, -⟩ := h
  exact hcovered

/-- The remainder that the average drops is at most the weighted threshold of what stays. -/
def RemainderCovered (env : Env) (w : World) (user asset : Address) (amount : ℕ) : Prop :=
  ∀ vars decrease, accountTotals env w user w.reservesCount = .ok vars →
    vars.totalDebtInETH ≠ 0 →
    valueOf (env.getAssetPrice asset) amount
      (w.reserves asset).data.configuration.getDecimals = .ok decrease →
    decrease < vars.totalCollateralInETH →
    vars.avgLiquidationThreshold % vars.totalCollateralInETH +
      decrease * (w.reserves asset).data.configuration.getLiquidationThreshold ≤
        vars.avgLiquidationThreshold

theorem covered_iff {weighted part : ℕ} (total : ℕ) :
    weighted % total + part ≤ weighted ↔ part ≤ total * (weighted / total) := by
  have := Nat.mod_add_div weighted total
  omega

end GenericLogic

open GenericLogic

variable {m : Machine} {env : Env} {user asset : Address} {amount balance : ℕ}

theorem Reachable.answers (hm : Reachable m) (htime : m.time ≤ env.timestamp) {i : ℕ}
    (hi : i < m.world.reservesCount) :
    (m.world.reserves (m.world.reservesList i)).Answers env.timestamp := by
  have ha := (hm.wellFormed.initialized i hi).1
  obtain ⟨hs, hv⟩ := hm.deployed _ ha
  exact ⟨ha, hs, hv, (hm.clock _).mono htime⟩

theorem balanceDecreaseAllowed_fails (hm : Reachable m) (htime : m.time ≤ env.timestamp)
    (hcollateral : (m.world.usersConfig user).collateral (m.world.reserves asset).data.id = true)
    (hbalance : AToken.balanceOf m.world.impl env.timestamp (m.world.reserves asset) user =
      .ok balance) (hamount : amount ≤ balance)
    (hcovered : (m.world.usersConfig user).isBorrowingAny = true →
      RemainderCovered env m.world user asset amount) :
    FailsOnly Revert.IsOverflow (balanceDecreaseAllowed env m.world asset user amount) := by
  have hw := hm.wellFormed
  obtain ⟨ha, -⟩ := AToken.balanceOf_ok.mp hbalance
  obtain ⟨hid, hlist⟩ := hw.listed asset ha
  have hid128 : (m.world.reserves asset).data.id < 128 := hid.trans_le hw.count_le
  have hused := UserConfigurationMap.isEmpty_eq_false_of_collateral hcollateral
  unfold balanceDecreaseAllowed
  dsimp only
  split
  case isTrue => exact .pure _
  case isFalse hborrowing =>
    have hborrowing : (m.world.usersConfig user).isBorrowingAny = true := by simpa using hborrowing
    rw [UserConfigurationMap.isUsingAsCollateral_ok.mpr ⟨hid128, hcollateral⟩, ok_bind]
    split
    case isTrue => exact .pure _
    case isFalse hthreshold =>
      refine .bind (calculateUserAccountData_fails (fun _ => id) hw.count_le fun i hi =>
        .of_answers (hm.answers htime hi)) fun data hdata => ?_
      obtain ⟨vars, hvars, htotal, hdebt, havg⟩ := calculateUserAccountData_ok hused hdata
      split
      case isTrue => exact .pure _
      case isFalse hne =>
        refine .bind (valueOf_fails _) fun decrease hdecrease => ?_
        have hle : decrease ≤ data.totalCollateralInETH := by
          have hthreshold : (m.world.reserves asset).data.configuration.getLiquidationThreshold ≠
              0 := fun h0 => hthreshold (.inr h0)
          rw [← hlist] at hthreshold hbalance
          obtain ⟨value, hvalue, hpart⟩ := value_le_total hvars hid hcollateral hthreshold hbalance
          rw [hlist] at hvalue
          obtain ⟨-, -, rfl⟩ := valueOf_ok.mp hvalue
          obtain ⟨-, -, rfl⟩ := valueOf_ok.mp hdecrease
          rw [htotal]
          exact (Nat.div_le_div_right (Nat.mul_le_mul_left _ hamount)).trans hpart
        refine healthFactorAfterDecrease_fails hle fun hlt => ?_
        rw [htotal, havg, ← covered_iff]
        exact hcovered hborrowing vars decrease hvars (hdebt ▸ hne) hdecrease (htotal ▸ hlt)

/-- The withdrawal check answers exactly when the other collaterals make up for the remainder
of the average threshold; balances and prices are small enough for the overflow guards. -/
theorem balanceDecreaseAllowed_answers_iff (hm : Reachable m) (htime : m.time ≤ env.timestamp)
    (hcollateral : (m.world.usersConfig user).collateral (m.world.reserves asset).data.id = true)
    (hbalance : AToken.balanceOf m.world.impl env.timestamp (m.world.reserves asset) user =
      .ok balance) (hamount : amount ≤ balance)
    (hsmall : ∀ e, balanceDecreaseAllowed env m.world asset user amount = .error e →
      ¬e.IsOverflow) :
    (∃ allowed, balanceDecreaseAllowed env m.world asset user amount = .ok allowed) ↔
      ((m.world.usersConfig user).isBorrowingAny = true →
        RemainderCovered env m.world user asset amount) := by
  constructor
  · rintro ⟨allowed, h⟩ hborrowing vars decrease hvars hdebt hdecrease hlt
    have hused := UserConfigurationMap.isEmpty_eq_false_of_collateral hcollateral
    rw [covered_iff]
    simp only [balanceDecreaseAllowed, hborrowing, Bool.true_eq_false, if_false, bind_ok,
      UserConfigurationMap.isUsingAsCollateral_ok] at h
    obtain ⟨_, ⟨-, rfl⟩, h⟩ := h
    by_cases hthreshold :
        (m.world.reserves asset).data.configuration.getLiquidationThreshold = 0
    · rw [hthreshold, Nat.mul_zero]
      exact Nat.zero_le _
    · rw [if_neg (by simp [hcollateral, hthreshold])] at h
      obtain ⟨data, hdata, h⟩ := bind_ok.mp h
      obtain ⟨vars', hvars', htotal, hdebt', havg⟩ := calculateUserAccountData_ok hused hdata
      obtain rfl := Except.ok.inj (hvars.symm.trans hvars')
      rw [if_neg (hdebt'.symm ▸ hdebt), hdecrease, ok_bind] at h
      rw [← havg, ← htotal]
      exact healthFactorAfterDecrease_covered h (htotal.symm ▸ hlt)
  · intro hcovered
    exact (balanceDecreaseAllowed_fails hm htime hcollateral hbalance hamount hcovered).exists_ok
      hsmall

def unequalThresholds : List Transaction :=
  sampleListing 40 1 9 ++ sampleListing 40 2 9 ++ sampleListing 40 3 9 ++
    [⟨sampleEnv 40, 8, .setConfiguration 2
        (BitVec.ofNat 256 (2 ^ 16 + 10500 * 2 ^ 32 + 2 ^ 56 + 2 ^ 58 + 2 ^ 59))⟩,
      ⟨sampleEnv 40, 11, .deposit 3 100 11⟩, ⟨sampleEnv 40, 12, .deposit 1 100 12⟩,
      ⟨sampleEnv 40, 12, .deposit 2 1 12⟩, ⟨sampleEnv 40, 12, .borrow 3 10 2 12⟩]

set_option synthInstance.maxSize 256 in
/-- The average threshold is 7920, and 101 * 7920 is less than 100 * 8000. -/
theorem unequalThresholds_check : (do
    let w ← runAll sampleStart unequalThresholds
    let balance ← AToken.balanceOf w.impl 40 (w.reserves 1) 12
    let data ← calculateUserAccountData (sampleEnv 40) w 12
    let check := (balanceDecreaseAllowed (sampleEnv 40) w 1 12 100).map fun _ => ()
    return ((w.usersConfig 12).collateral (w.reserves 1).data.id, balance,
      data.totalCollateralInETH, data.avgLiquidationThreshold, check)) =
    .ok (true, 100, 101, 7920, .error .safeMathSubtractionOverflow) := by
  decide +kernel

theorem unequalThresholds_state : ∃ w, Reachable ⟨w, 40, []⟩ ∧
    (w.usersConfig 12).collateral (w.reserves 1).data.id = true ∧
    AToken.balanceOf w.impl 40 (w.reserves 1) 12 = .ok 100 ∧
    balanceDecreaseAllowed (sampleEnv 40) w 1 12 100 = .error .safeMathSubtractionOverflow := by
  obtain ⟨w, hrun, hrest⟩ := bind_ok.mp unequalThresholds_check
  obtain ⟨balance, hbalance, hrest⟩ := bind_ok.mp hrest
  obtain ⟨data, -, hrest⟩ := bind_ok.mp hrest
  simp only [pure_ok, Prod.mk.injEq] at hrest
  obtain ⟨hcollateral, rfl, -, -, hcheck⟩ := hrest
  exact ⟨w, .sample (by decide) hrun, hcollateral, hbalance, map_error.mp hcheck⟩

theorem withdrawal_check_reverts : ¬ ∀ (m : Machine) (env : Env) (user asset : Address)
    (amount balance : ℕ), Reachable m → m.time ≤ env.timestamp → (∀ a, 0 < env.getAssetPrice a) →
    (m.world.usersConfig user).collateral (m.world.reserves asset).data.id = true →
    AToken.balanceOf m.world.impl env.timestamp (m.world.reserves asset) user = .ok balance →
    amount ≤ balance →
    (∀ e, balanceDecreaseAllowed env m.world asset user amount = .error e → ¬e.IsOverflow) →
    ∃ allowed, balanceDecreaseAllowed env m.world asset user amount = .ok allowed := by
  intro hanswers
  obtain ⟨w, hreach, hcollateral, hbalance, hcheck⟩ := unequalThresholds_state
  obtain ⟨allowed, hallowed⟩ := hanswers ⟨w, 40, []⟩ (sampleEnv 40) 12 1 100 100 hreach
    (Nat.le_refl _) (fun _ => Nat.one_pos) hcollateral hbalance (Nat.le_refl _) fun e he => by
      rw [← Except.error.inj (hcheck.symm.trans he)]
      simp [Revert.IsOverflow]
  cases hcheck.symm.trans hallowed

theorem balanceDecreaseAllowed_answers_iff_unequal : ∃ w, Reachable ⟨w, 40, []⟩ ∧
    ((∃ allowed, balanceDecreaseAllowed (sampleEnv 40) w 1 12 100 = .ok allowed) ↔
      ((w.usersConfig 12).isBorrowingAny = true →
        RemainderCovered (sampleEnv 40) w 12 1 100)) := by
  obtain ⟨w, hreach, hcollateral, hbalance, hcheck⟩ := unequalThresholds_state
  refine ⟨w, hreach, balanceDecreaseAllowed_answers_iff hreach (Nat.le_refl _) hcollateral
    hbalance (Nat.le_refl _) fun e he => ?_⟩
  rw [← Except.error.inj (hcheck.symm.trans he)]
  simp [Revert.IsOverflow]

end Moola
