import Mathlib.Algebra.BigOperators.Group.Finset.Basic
import Mathlib.Algebra.Order.BigOperators.Group.Finset
import Moola.Visibility

/-! What the checks of the pool leave of the health of an account. A withdrawal, a disabled
collateral, a transfer and a borrow are each checked by other floors and roundings, and each
leaves the debt covered by the weighted collateral up to dust. -/

namespace Moola

open Guard WadRayMath PercentageMath

/-- The number that a view shows, and zero where it reverts. -/
def shown : Tx ℕ → ℕ
  | .ok n => n
  | .error _ => 0

@[simp] theorem shown_ok (n : ℕ) : shown (.ok n) = n := rfl

@[ext]
structure Account where
  weightedCollateral : ℕ
  debt : ℕ

/-- The debt is covered up to dust. -/
def Account.Covered (a : Account) : Prop :=
  10000 * a.debt ≤ a.weightedCollateral + 2 * 10 ^ 5 + a.debt / 10 ^ 14

def Account.KeepsCover (a a' : Account) : Prop := a' = a ∨ a'.Covered

theorem Account.covered_of_noDebt {a : Account} (h : a.debt = 0) : a.Covered := by
  simp [Covered, h]

namespace GenericLogic

open Function (update)

section Position

variable (env : Env) (w : World)

/-- The value of an amount of an asset, as the loop of `calculateUserAccountData` takes it. -/
def worth (asset : Address) (amount : ℕ) : ℕ :=
  env.getAssetPrice asset * amount /
    tokenUnit (w.reserves asset).data.configuration.getDecimals

def threshold (asset : Address) : ℕ :=
  (w.reserves asset).data.configuration.getLiquidationThreshold

def weightedPart (flags : UserConfigurationMap) (balance : Address → ℕ) (i : ℕ) : ℕ :=
  if flags.collateral i = true then
    worth env w (w.reservesList i) (balance (w.reservesList i)) * threshold w (w.reservesList i)
  else 0

def debtPart (flags : UserConfigurationMap) (debt : Address → ℕ) (i : ℕ) : ℕ :=
  if flags.borrowing i = true then worth env w (w.reservesList i) (debt (w.reservesList i))
  else 0

/-- The account at given flags, balances and debts. -/
@[simps]
def account (flags : UserConfigurationMap) (balance debt : Address → ℕ) : Account where
  weightedCollateral := ∑ i ∈ Finset.range w.reservesCount, weightedPart env w flags balance i
  debt := ∑ i ∈ Finset.range w.reservesCount, debtPart env w flags debt i

def balance (user asset : Address) : ℕ :=
  shown (AToken.balanceOf w.impl env.timestamp (w.reserves asset) user)

def debt (user asset : Address) : ℕ :=
  shown (StableDebtToken.balanceOf env.timestamp (w.reserves asset) user) +
    shown (VariableDebtToken.balanceOf w.impl env.timestamp (w.reserves asset) user)

def accountOf (user : Address) : Account :=
  account env w (w.usersConfig user) (balance env w user) (debt env w user)

def withLess (user asset : Address) (amount : ℕ) : Account :=
  account env w (w.usersConfig user)
    (update (balance env w user) asset (balance env w user asset - amount)) (debt env w user)

def withMore (w' : World) (user asset : Address) (amount : ℕ) : Account :=
  account env w (w'.usersConfig user) (balance env w user)
    (update (debt env w user) asset (debt env w user asset + amount))

end Position

variable {env : Env} {w : World} {user asset : Address} {n i : ℕ} {vars vars' : AccountTotals}

variable {flags : UserConfigurationMap} {balances debts : Address → ℕ}

theorem noDebt (h : ∀ i < w.reservesCount, flags.borrowing i = false) :
    (account env w flags balances debts).debt = 0 := by
  rw [account_debt]
  refine Finset.sum_eq_zero fun i hi => ?_
  rw [debtPart, h i (Finset.mem_range.mp hi), if_neg (by decide)]

/-- No reserve has an ltv above its threshold, as the configurator sees to. -/
def ThresholdsAboveLtv (w : World) : Prop :=
  ∀ i < w.reservesCount,
    (w.reserves (w.reservesList i)).data.configuration.getLtv ≤ threshold w (w.reservesList i)

instance (w : World) : Decidable (ThresholdsAboveLtv w) := by
  unfold ThresholdsAboveLtv
  infer_instance

structure Totals (env : Env) (w : World) (user : Address) (n : ℕ) (vars : AccountTotals) :
    Prop where
  threshold_eq : vars.avgLiquidationThreshold =
    ∑ i ∈ Finset.range n, weightedPart env w (w.usersConfig user) (balance env w user) i
  debt_eq : vars.totalDebtInETH =
    ∑ i ∈ Finset.range n, debtPart env w (w.usersConfig user) (debt env w user) i
  ltv_le : vars.avgLtv ≤ vars.avgLiquidationThreshold
  ltv_le_word : vars.avgLtv ≤ vars.totalCollateralInETH * 65535

theorem addCollateral_ok
    (h : addCollateral env w (w.reserves asset) (env.getAssetPrice asset) user vars =
      .ok vars') :
    vars' = { vars with
      totalCollateralInETH :=
        vars.totalCollateralInETH + worth env w asset (balance env w user asset)
      avgLtv := vars.avgLtv + worth env w asset (balance env w user asset) *
        (w.reserves asset).data.configuration.getLtv
      avgLiquidationThreshold := vars.avgLiquidationThreshold +
        worth env w asset (balance env w user asset) * threshold w asset } := by
  simp only [addCollateral, bind_ok, valueOf_ok, SafeMath.add_ok, SafeMath.mul_ok, pure_ok] at h
  obtain ⟨b, hb, _, ⟨-, -, rfl⟩, _, ⟨-, rfl⟩, _, ⟨-, rfl⟩, _, ⟨-, rfl⟩, _, ⟨-, rfl⟩, _, ⟨-, rfl⟩,
    rfl⟩ := h
  simp only [balance, hb, shown_ok, worth, threshold]

theorem addDebt_ok
    (h : addDebt env w (w.reserves asset) (env.getAssetPrice asset) user vars = .ok vars') :
    vars' = { vars with
      totalDebtInETH := vars.totalDebtInETH + worth env w asset (debt env w user asset) } := by
  simp only [addDebt, bind_ok, valueOf_ok, SafeMath.add_ok, pure_ok] at h
  obtain ⟨stable, hs, variableDebt, hv, _, ⟨-, rfl⟩, _, ⟨-, -, rfl⟩, _, ⟨-, rfl⟩, rfl⟩ := h
  simp only [debt, hs, hv, shown_ok, worth]

theorem collateralPart_ok {c : Bool} {vars₁ : AccountTotals} (hltv : ThresholdsAboveLtv w)
    (hi : i < w.reservesCount) (hflag : (w.usersConfig user).collateral i = c)
    (h : applyIf ((w.reserves (w.reservesList i)).data.configuration.getLiquidationThreshold ≠ 0 ∧
      c = true) (addCollateral env w (w.reserves (w.reservesList i))
        (env.getAssetPrice (w.reservesList i)) user) vars = .ok vars₁) :
    vars₁.totalDebtInETH = vars.totalDebtInETH ∧
      vars₁.avgLiquidationThreshold = vars.avgLiquidationThreshold +
        weightedPart env w (w.usersConfig user) (balance env w user) i ∧
      (vars.avgLtv ≤ vars.avgLiquidationThreshold →
        vars₁.avgLtv ≤ vars₁.avgLiquidationThreshold) ∧
      (vars.avgLtv ≤ vars.totalCollateralInETH * 65535 →
        vars₁.avgLtv ≤ vars₁.totalCollateralInETH * 65535) := by
  unfold weightedPart
  rw [hflag]
  rcases applyIf_ok.mp h with ⟨⟨-, hc⟩, hadd⟩ | ⟨hnot, rfl⟩
  · rw [addCollateral_ok hadd, if_pos hc]
    have hle := Nat.mul_le_mul_left (worth env w (w.reservesList i)
      (balance env w user (w.reservesList i))) (hltv i hi)
    have hword := Nat.mul_le_mul_left (worth env w (w.reservesList i)
      (balance env w user (w.reservesList i)))
      (w.reserves (w.reservesList i)).data.configuration.getLtv_le
    refine ⟨rfl, rfl, fun hv => Nat.add_le_add hv hle, fun hv => ?_⟩
    rw [Nat.add_mul]
    exact Nat.add_le_add hv hword
  · refine ⟨rfl, ?_, id, id⟩
    split
    case isTrue hc =>
      have hzero : threshold w (w.reservesList i) = 0 := by
        by_contra hne
        exact hnot ⟨hne, hc⟩
      rw [hzero, Nat.mul_zero, Nat.add_zero]
    case isFalse => rfl

theorem debtPart_ok {b : Bool} {vars₁ : AccountTotals}
    (hflag : (w.usersConfig user).borrowing i = b)
    (h : applyIf (b = true) (addDebt env w (w.reserves (w.reservesList i))
      (env.getAssetPrice (w.reservesList i)) user) vars = .ok vars₁) :
    vars₁ = { vars with
      totalDebtInETH := vars.totalDebtInETH +
        debtPart env w (w.usersConfig user) (debt env w user) i } := by
  unfold debtPart
  rw [hflag]
  rcases applyIf_ok.mp h with ⟨hb, hadd⟩ | ⟨hnot, rfl⟩
  · rw [addDebt_ok hadd, if_pos hb]
  · rw [if_neg hnot]
    rfl

theorem Totals.step (hltv : ThresholdsAboveLtv w) (hn : n < w.reservesCount)
    (h : Totals env w user n vars) (hstep : accountStep env w user n vars = .ok vars') :
    Totals env w user (n + 1) vars' := by
  have hnext : vars'.avgLiquidationThreshold = vars.avgLiquidationThreshold +
        weightedPart env w (w.usersConfig user) (balance env w user) n ∧
      vars'.totalDebtInETH = vars.totalDebtInETH +
        debtPart env w (w.usersConfig user) (debt env w user) n ∧
      vars'.avgLtv ≤ vars'.avgLiquidationThreshold ∧
      vars'.avgLtv ≤ vars'.totalCollateralInETH * 65535 := by
    unfold accountStep at hstep
    obtain ⟨used, hused, hstep⟩ := bind_ok.mp hstep
    obtain ⟨-, hused⟩ := UserConfigurationMap.isUsingAsCollateralOrBorrowing_ok.mp hused
    split at hstep
    case isTrue hunused =>
      rw [hunused, Bool.or_eq_false_iff] at hused
      obtain rfl := pure_ok.mp hstep
      rw [weightedPart, debtPart, hused.1, hused.2]
      exact ⟨rfl, rfl, h.ltv_le, h.ltv_le_word⟩
    case isFalse =>
      simp only [bind_ok, UserConfigurationMap.isUsingAsCollateral_ok,
        UserConfigurationMap.isBorrowing_ok] at hstep
      obtain ⟨c, ⟨-, hc⟩, vars₁, h₁, b, ⟨-, hb⟩, h₂⟩ := hstep
      obtain ⟨hdebt, hthreshold, hle, hword⟩ := collateralPart_ok hltv hn hc h₁
      rw [debtPart_ok hb h₂]
      exact ⟨hthreshold, by rw [hdebt], hle h.ltv_le, hword h.ltv_le_word⟩
  obtain ⟨hthreshold, hdebt, hle, hword⟩ := hnext
  constructor
  case threshold_eq => rw [hthreshold, h.threshold_eq, Finset.sum_range_succ]
  case debt_eq => rw [hdebt, h.debt_eq, Finset.sum_range_succ]
  case ltv_le => exact hle
  case ltv_le_word => exact hword

theorem totals_of_accountTotals (hltv : ThresholdsAboveLtv w) (hn : n ≤ w.reservesCount)
    (h : accountTotals env w user n = .ok vars) : Totals env w user n vars := by
  induction n generalizing vars with
  | zero =>
    obtain rfl := Except.ok.inj h
    exact ⟨rfl, rfl, le_rfl, Nat.zero_le _⟩
  | succ n ih =>
    obtain ⟨vars₁, h₁, hstep⟩ := bind_ok.mp h
    exact (ih (Nat.le_of_succ_le hn) h₁).step hltv hn hstep

structure Summarizes (a : Account) (data : AccountData) : Prop where
  debt_eq : data.totalDebtInETH = a.debt
  threshold_le : data.totalCollateralInETH * data.avgLiquidationThreshold ≤ a.weightedCollateral
  ltv_le : data.totalCollateralInETH * data.avgLtv ≤ a.weightedCollateral
  ltv_le_word : data.avgLtv ≤ 65535
  healthFactor : data.totalDebtInETH ≠ 0 →
    calculateHealthFactorFromBalances data.totalCollateralInETH data.totalDebtInETH
      data.avgLiquidationThreshold = .ok data.healthFactor

theorem calculateUserAccountData_summarizes {data : AccountData} (hltv : ThresholdsAboveLtv w)
    (h : calculateUserAccountData env w user = .ok data) :
    Summarizes (accountOf env w user) data := by
  unfold calculateUserAccountData at h
  split at h
  case isTrue hempty =>
    obtain rfl := pure_ok.mp h
    have hdebt : (accountOf env w user).debt = 0 :=
      noDebt fun i _ => UserConfigurationMap.borrowing_of_isEmpty hempty i
    exact ⟨hdebt.symm, Nat.zero_le _, Nat.zero_le _, Nat.zero_le _, absurd rfl⟩
  case isFalse =>
    simp only [bind_ok, pure_ok] at h
    obtain ⟨vars, hvars, healthFactor, hhealth, rfl⟩ := h
    obtain ⟨hthreshold, hdebt, hle, hword⟩ := totals_of_accountTotals hltv le_rfl hvars
    have hweighted : vars.avgLiquidationThreshold = (accountOf env w user).weightedCollateral :=
      hthreshold
    constructor
    case debt_eq => exact hdebt
    case threshold_le => exact hweighted ▸ Nat.mul_div_le _ _
    case ltv_le => exact hweighted ▸ (Nat.mul_div_le _ _).trans hle
    case ltv_le_word => exact Nat.div_le_of_le_mul hword
    case healthFactor => exact fun _ => hhealth

/-- A health factor of one covers the debt up to the rounding of both of its divisions. -/
theorem debt_le_of_healthFactor {collateral debt avg healthFactor : ℕ} (hdebt : debt ≠ 0)
    (h : calculateHealthFactorFromBalances collateral debt avg = .ok healthFactor)
    (hle : healthFactorLiquidationThreshold ≤ healthFactor) :
    10000 * debt ≤ collateral * avg + 5000 + debt / 10 ^ 14 := by
  rw [calculateHealthFactorFromBalances, if_neg hdebt] at h
  simp only [bind_ok, percentMul_ok, wadDiv_ok] at h
  obtain ⟨adjusted, ⟨-, hadjusted⟩, -, -, rfl⟩ := h
  have hround : 10000 * adjusted ≤ collateral * avg + 5000 := by
    rw [← hadjusted]
    exact Nat.mul_div_le (collateral * avg + 5000) 10000
  have hscaled : 10 ^ 18 * debt ≤ adjusted * 10 ^ 18 + debt / 2 :=
    (Nat.le_div_iff_mul_le (Nat.pos_of_ne_zero hdebt)).mp hle
  omega

theorem worth_add_le (env : Env) (w : World) (asset : Address) (m n : ℕ) :
    worth env w asset (m + n) ≤ worth env w asset m + worth env w asset n + 1 := by
  unfold worth
  rw [Nat.mul_add]
  rcases Nat.eq_zero_or_pos (tokenUnit (w.reserves asset).data.configuration.getDecimals) with
    h0 | hpos
  · simp [h0]
  · rw [Nat.add_div hpos]
    split <;> omega

theorem sum_le_sum_add {f g : ℕ → ℕ} {j e : ℕ} (h : ∀ i < n, i ≠ j → f i ≤ g i)
    (hj : f j ≤ g j + e) :
    ∑ i ∈ Finset.range n, f i ≤ ∑ i ∈ Finset.range n, g i + e := by
  have hle : ∀ i ∈ Finset.range n, f i ≤ g i + if i = j then e else 0 := by
    intro i hi
    split
    case isTrue hij => exact hij ▸ hj
    case isFalse hij => exact h i (Finset.mem_range.mp hi) hij
  calc ∑ i ∈ Finset.range n, f i
      ≤ ∑ i ∈ Finset.range n, (g i + if i = j then e else 0) := Finset.sum_le_sum hle
    _ = ∑ i ∈ Finset.range n, g i + ∑ i ∈ Finset.range n, if i = j then e else 0 :=
        Finset.sum_add_distrib
    _ ≤ ∑ i ∈ Finset.range n, g i + e := by
        rw [Finset.sum_ite_eq']
        split <;> omega

theorem eq_id (hw : w.WellFormed) (hi : i < w.reservesCount)
    (h : w.reservesList i = asset) : i = (w.reserves asset).data.id := by
  rw [← h, (hw.initialized i hi).2]

theorem account_update_eq {x : ℕ} (hw : w.WellFormed)
    (h : flags.collateral (w.reserves asset).data.id = false ∨ threshold w asset = 0) :
    account env w flags (update balances asset x) debts = account env w flags balances debts := by
  refine Account.ext ?_ rfl
  rw [account_weightedCollateral, account_weightedCollateral]
  refine Finset.sum_congr rfl fun i hi => ?_
  unfold weightedPart
  by_cases hasset : w.reservesList i = asset
  · rcases h with h | h
    · rw [eq_id hw (Finset.mem_range.mp hi) hasset, h]
      rfl
    · rw [hasset, h, Nat.mul_zero, Nat.mul_zero]
  · rw [Function.update_of_ne hasset]

theorem weighted_congr (env : Env) (w : World) {flags' : UserConfigurationMap}
    (balances debts debts' : Address → ℕ)
    (h : ∀ i, flags'.collateral i = flags.collateral i) :
    (account env w flags' balances debts').weightedCollateral =
      (account env w flags balances debts).weightedCollateral := by
  rw [account_weightedCollateral, account_weightedCollateral]
  refine Finset.sum_congr rfl fun i _ => ?_
  unfold weightedPart
  rw [h i]

theorem weighted_le_update {amount : ℕ} (env : Env) (flags : UserConfigurationMap)
    (debts : Address → ℕ) (hw : w.WellFormed) (hle : amount ≤ balances asset) :
    (account env w flags balances debts).weightedCollateral ≤
      (account env w flags (update balances asset (balances asset - amount))
        debts).weightedCollateral + (worth env w asset amount + 1) * threshold w asset := by
  rw [account_weightedCollateral, account_weightedCollateral]
  have hother : ∀ i, w.reservesList i ≠ asset →
      weightedPart env w flags (update balances asset (balances asset - amount)) i =
        weightedPart env w flags balances i := by
    intro i hi
    unfold weightedPart
    rw [Function.update_of_ne hi]
  refine sum_le_sum_add (j := (w.reserves asset).data.id) (fun i hi hne => ?_) ?_
  · exact (hother i fun hasset => hne (eq_id hw hi hasset)).ge
  · by_cases hasset : w.reservesList (w.reserves asset).data.id = asset
    · unfold weightedPart
      rw [hasset, Function.update_self]
      split
      case isTrue =>
        have hworth := worth_add_le env w asset (balances asset - amount) amount
        rw [Nat.sub_add_cancel hle] at hworth
        rw [← Nat.add_mul]
        exact Nat.mul_le_mul_right _ (by omega)
      case isFalse => exact Nat.zero_le _
    · rw [hother _ hasset]
      exact Nat.le_add_right _ _

/-- More of one debt adds at most its value, and one unit more, if nothing was owed where a flag
is new. -/
theorem debt_update_le {flags' : UserConfigurationMap} (env : Env) (balances : Address → ℕ)
    (amount : ℕ) (hw : w.WellFormed)
    (hlisted : w.reservesList (w.reserves asset).data.id = asset)
    (hflags : ∀ i, flags'.borrowing i = true → flags.borrowing i = false →
      i = (w.reserves asset).data.id ∧ debts asset = 0) :
    (account env w flags' balances (update debts asset (debts asset + amount))).debt ≤
      (account env w flags balances debts).debt + (worth env w asset amount + 1) := by
  rw [account_debt, account_debt]
  refine sum_le_sum_add (j := (w.reserves asset).data.id) (fun i hi hne => ?_) ?_
  · have hother : w.reservesList i ≠ asset := fun hasset => hne (eq_id hw hi hasset)
    unfold debtPart
    rw [Function.update_of_ne hother]
    split
    case isTrue hnew =>
      cases hold : flags.borrowing i with
      | true => exact le_rfl
      | false => exact absurd (hflags i hnew hold).1 hne
    case isFalse => exact Nat.zero_le _
  · unfold debtPart
    rw [hlisted, Function.update_self]
    split
    case isTrue hnew =>
      have hworth := worth_add_le env w asset (debts asset) amount
      cases hold : flags.borrowing (w.reserves asset).data.id with
      | true =>
        rw [if_pos rfl]
        omega
      | false =>
        rw [(hflags _ hnew hold).2, Nat.zero_add]
        exact (Nat.le_succ _).trans (Nat.le_add_left _ _)
    case isFalse => exact Nat.zero_le _

theorem decrease_keepsCover {amount : ℕ} (hw : w.WellFormed) (hltv : ThresholdsAboveLtv w)
    (hle : amount ≤ balance env w user asset)
    (h : balanceDecreaseAllowed env w asset user amount = .ok true) :
    (accountOf env w user).KeepsCover (withLess env w user asset amount) := by
  unfold balanceDecreaseAllowed at h
  dsimp only at h
  split at h
  case isTrue hnone =>
    refine .inr (Account.covered_of_noDebt (noDebt fun i hi => ?_))
    exact UserConfigurationMap.borrowing_of_not_isBorrowingAny hnone (hi.trans_le hw.count_le)
  case isFalse =>
    obtain ⟨collateral, hcollateral, h⟩ := bind_ok.mp h
    obtain ⟨-, rfl⟩ := UserConfigurationMap.isUsingAsCollateral_ok.mp hcollateral
    split at h
    case isTrue hunused => exact .inl (account_update_eq hw hunused)
    case isFalse =>
      obtain ⟨data, hdata, h⟩ := bind_ok.mp h
      obtain ⟨hdebt, hthreshold, -, -, -⟩ := calculateUserAccountData_summarizes hltv hdata
      split at h
      case isTrue hzero => exact .inr (Account.covered_of_noDebt (hdebt.symm.trans hzero))
      case isFalse hne =>
        simp only [bind_ok, valueOf_ok, healthFactorAfterDecrease, SafeMath.sub_ok] at h
        obtain ⟨value, ⟨-, -, hvalue⟩, left, ⟨-, -⟩, h⟩ := h
        split at h
        case isTrue => cases pure_ok.mp h
        case isFalse =>
          simp only [bind_ok, SafeMath.mul_ok, SafeMath.sub_ok, SafeMath.div_ok, pure_ok,
            decide_eq_true_eq] at h
          obtain ⟨_, ⟨-, rfl⟩, _, ⟨-, rfl⟩, rest, ⟨hremoved, hrest⟩, avg, ⟨-, rfl⟩, healthFactor,
            hhealth, hhealthy⟩ := h
          have hcovered := debt_le_of_healthFactor hne hhealth hhealthy
          have hleft := Nat.mul_div_le rest left
          have hlost := weighted_le_update env (w.usersConfig user) (debt env w user) hw hle
          rw [worth, hvalue, Nat.add_mul, Nat.one_mul] at hlost
          have hbound : threshold w asset ≤ 65535 :=
            (w.reserves asset).data.configuration.getLiquidationThreshold_le
          have hsame : (withLess env w user asset amount).debt = data.totalDebtInETH := hdebt.symm
          have hremoved' : value * threshold w asset ≤
              data.totalCollateralInETH * data.avgLiquidationThreshold := hremoved
          have hrest' : data.totalCollateralInETH * data.avgLiquidationThreshold -
              value * threshold w asset = rest := hrest
          have hall : data.totalCollateralInETH * data.avgLiquidationThreshold ≤
            (account env w (w.usersConfig user) (balance env w user)
              (debt env w user)).weightedCollateral := hthreshold
          refine .inr ?_
          unfold Account.Covered
          rw [hsame]
          unfold withLess
          omega

theorem debt_eq_zero (h : ¬(w.reserves asset).HasDebt user) : debt env w user asset = 0 := by
  unfold Reserve.HasDebt at h
  push Not at h
  obtain ⟨hvariable, hstable⟩ := h
  have hs : shown (StableDebtToken.balanceOf env.timestamp (w.reserves asset) user) = 0 := by
    cases hb : StableDebtToken.balanceOf env.timestamp (w.reserves asset) user with
    | error e => rfl
    | ok b =>
      rw [StableDebtToken.balanceOf_ok, StableDebtToken.accrued_zero hstable] at hb
      exact (Except.ok.inj hb.2).symm
  have hv : shown (VariableDebtToken.balanceOf w.impl env.timestamp (w.reserves asset) user) =
      0 := by
    cases hb : VariableDebtToken.balanceOf w.impl env.timestamp (w.reserves asset) user with
    | error e => rfl
    | ok b =>
      obtain ⟨-, ⟨-, rfl⟩ | ⟨hne, -⟩⟩ := VariableDebtToken.balanceOf_ok hb
      · rfl
      · exact absurd hvariable hne
  rw [debt, hs, hv]

theorem loan_le_of_validateBorrow {amount value mode : ℕ} (hltv : ThresholdsAboveLtv w)
    (h : ValidationLogic.validateBorrow env w asset user amount value mode = .ok ()) :
    10000 * ((accountOf env w user).debt + value) ≤
      (accountOf env w user).weightedCollateral + 65535 := by
  simp only [ValidationLogic.validateBorrow, ValidationLogic.checkCollateral, bind_ok, exists_unit,
    require_ok, SafeMath.add_ok, percentDiv_ok] at h
  obtain ⟨-, -, -, -, -, data, hdata, -, -, ⟨_, ⟨-, rfl⟩, _, ⟨hne, -, rfl⟩, hle⟩, -⟩ := h
  obtain ⟨hdebt, -, hcollateral, hword, -⟩ := calculateUserAccountData_summarizes hltv hdata
  have hcover : (data.totalDebtInETH + value) * percentageFactor + data.avgLtv / 2 <
      data.totalCollateralInETH * data.avgLtv + data.avgLtv := by
    have hlt := (Nat.div_lt_iff_lt_mul (Nat.pos_of_ne_zero hne)).mp (Nat.lt_succ_of_le hle)
    rwa [Nat.succ_mul] at hlt
  rw [hdebt, percentageFactor] at hcover
  omega

theorem updateState_variableDebtToken {impl : PoolImpl} {now : ℕ} {r r' : Reserve}
    (h : LendingPool.updateState impl now r = .ok r') : r.data.variableDebtTokenAddress ≠ 0 := by
  obtain ⟨start, -, he⟩ := LendingPool.updateState_eq impl now r
  rw [he] at h
  exact (ReserveLogic.updateStateFrom_ok h).1

theorem borrow_covered {sender onBehalfOf : Address} {amount mode : ℕ} {release : Bool} {w' : World}
    (hw : w.WellFormed) (hvisible : w.DebtsVisible) (hltv : ThresholdsAboveLtv w)
    (h : LendingPool.executeBorrow env w sender asset onBehalfOf amount mode release = .ok w') :
    (withMore env w w' onBehalfOf asset amount).Covered := by
  obtain ⟨value, r₁, r₂, r₃, r₄, first, mode', w₁, hvalue, hvalid, h₁, -, h₂, hflag, -, -, rfl⟩ :=
    LendingPool.executeBorrow_ok h
  obtain ⟨-, -, hvalue⟩ := valueOf_ok.mp hvalue
  have hworth : worth env w asset amount = value := hvalue
  have hchecked := loan_le_of_validateBorrow hltv hvalid
  have hid : r₂.data.id = (w.reserves asset).data.id :=
    (Reserve.mintDebt_evolves h₂ : r₁.Evolves 0 r₂).id.trans (Reserve.updateState_evolves h₁).id
  obtain ⟨-, hborrowing⟩ := LendingPool.applyIf_setBorrowing_ok hflag
  have hlisted : w.reservesList (w.reserves asset).data.id = asset :=
    (hw.listed asset fun h0 => updateState_variableDebtToken h₁
      (hw.blank asset h0).variableDebtTokenAddress).2
  have hflags : ∀ i, (w₁.usersConfig onBehalfOf).borrowing i = true →
      (w.usersConfig onBehalfOf).borrowing i = false →
      i = (w.reserves asset).data.id ∧ debt env w onBehalfOf asset = 0 := by
    intro i hnew hold
    rw [hborrowing, hold, hid] at hnew
    obtain ⟨-, rfl⟩ : first = true ∧ i = (w.reserves asset).data.id := by simpa using hnew
    refine ⟨rfl, debt_eq_zero fun howes => ?_⟩
    have hset := hvisible asset onBehalfOf howes
    rw [hold] at hset
    cases hset
  have hdebt := debt_update_le env (balance env w onBehalfOf) amount hw hlisted hflags
  have hcollateral := weighted_congr env w (balance env w onBehalfOf) (debt env w onBehalfOf)
    (update (debt env w onBehalfOf) asset (debt env w onBehalfOf asset + amount))
    (LendingPool.applyIf_setBorrowing_collateral hflag onBehalfOf)
  rw [hworth] at hdebt
  unfold accountOf at hchecked
  unfold Account.Covered withMore
  rw [World.setReserve_usersConfig, hcollateral]
  omega

theorem transfer_covered (hltv : ThresholdsAboveLtv w)
    (h : ValidationLogic.validateTransfer env w user = .ok ()) :
    (accountOf env w user).Covered := by
  simp only [ValidationLogic.validateTransfer, bind_ok, require_ok] at h
  obtain ⟨data, hdata, hhealthy⟩ := h
  obtain ⟨hdebt, hthreshold, -, -, hhealth⟩ := calculateUserAccountData_summarizes hltv hdata
  by_cases hzero : data.totalDebtInETH = 0
  · exact Account.covered_of_noDebt (hdebt.symm.trans hzero)
  · have hcovered := debt_le_of_healthFactor hzero (hhealth hzero) hhealthy
    rw [hdebt] at hcovered
    unfold Account.Covered
    omega

theorem updateState_configuration {impl : PoolImpl} {now : ℕ} {r r' : Reserve}
    (h : LendingPool.updateState impl now r = .ok r') :
    r'.data.configuration = r.data.configuration := by
  obtain ⟨start, -, he⟩ := LendingPool.updateState_eq impl now r
  rw [he] at h
  obtain ⟨-, -, _, rfl, -⟩ := ReserveLogic.updateStateFrom_ok h
  rfl

theorem updateInterestRates_configuration {added taken : ℕ} {r r' : Reserve}
    (h : ReserveLogic.updateInterestRates env asset added taken r = .ok r') :
    r'.data.configuration = r.data.configuration := by
  obtain ⟨_, rfl⟩ := ReserveLogic.updateInterestRates_ok h
  rfl

theorem cumulateToLiquidityIndex_configuration {total amount : ℕ} {r r' : Reserve}
    (h : ReserveLogic.cumulateToLiquidityIndex r total amount = .ok r') :
    r'.data.configuration = r.data.configuration := by
  obtain ⟨hne, ratio, hratio, hr⟩ := ReserveLogic.cumulateToLiquidityIndex_ok h
  rw [hr, Reserve.withData_data]

theorem settleOne_configuration {sender : Address} {loan : LendingPool.FlashLoan}
    {amount premium mode : ℕ} {w' : World}
    (h : LendingPool.settleOne env w sender loan asset amount premium mode = .ok w')
    (a : Address) : (w'.reserves a).data.configuration = (w.reserves a).data.configuration := by
  by_cases ha : a = asset
  · subst ha
    rcases LendingPool.settleOne_ok h with h | h
    · obtain ⟨r₁, total, r₂, r₃, t, h₁, -, h₂, h₃, -, rfl⟩ := LendingPool.returnOne_ok h
      rw [World.setReserve_reserves_self, Reserve.withUnderlying_data,
        updateInterestRates_configuration h₃, cumulateToLiquidityIndex_configuration h₂,
        updateState_configuration h₁]
    · obtain ⟨_, r₁, r₂, r₃, r₄, first, _, w₁, -, -, h₁, -, h₂, -, h₃, h₄, rfl⟩ :=
        LendingPool.executeBorrow_ok h
      rw [applyIf, if_neg (by decide), Except.ok.injEq] at h₄
      rw [World.setReserve_reserves_self, ← h₄, updateInterestRates_configuration h₃,
        Reserve.mintDebt_data h₂, updateState_configuration h₁]
  · obtain ⟨actions, heffect⟩ := LendingPool.settleOne_effect h
    have hrun := heffect.run a
    rw [onAsset, if_neg ha, Reserve.run, Except.ok.injEq] at hrun
    rw [hrun]

theorem settleAll_configuration {sender : Address} {loan : LendingPool.FlashLoan}
    {assets : List Address} {amounts premiums modes : List ℕ} {w' : World}
    (h : LendingPool.settleAll env sender loan w assets amounts premiums modes = .ok w')
    (a : Address) : (w'.reserves a).data.configuration = (w.reserves a).data.configuration := by
  refine LendingPool.settleAll_relates
    (R := fun w w' => (w'.reserves a).data.configuration = (w.reserves a).data.configuration)
    (fun _ => rfl) (fun _ _ _ hfirst hrest => hrest.trans hfirst) ?_ h
  exact fun _ _ _ _ _ _ hone => settleOne_configuration hone a

theorem ThresholdsAboveLtv.of_configuration {l : Address → List Action} {w' : World}
    (hltv : ThresholdsAboveLtv w) (heffect : Effect env l w w')
    (h : ∀ a, (w'.reserves a).data.configuration = (w.reserves a).data.configuration) :
    ThresholdsAboveLtv w' := by
  intro i hi
  rw [heffect.reservesCount] at hi
  unfold threshold
  rw [heffect.reservesList, h]
  exact hltv i hi

/-- The operations that raise the risk of an account, with the account before and after them:
after the change of one balance or debt by the amount of the operation, or, for a transfer, on
the balances that `finalizeTransfer` sees. A flash loan opens its debts one after the other. -/
inductive RiskIncrease (env : Env) (w : World) : Account → Account → Prop
  | withdraw {user asset receiver : Address} {amount n : ℕ} {w' : World} :
      LendingPool.withdraw env w user asset amount receiver = .ok (w', n) →
      RiskIncrease env w (accountOf env w user) (withLess env w user asset n)
  | disable {user asset : Address} {w' : World} :
      LendingPool.setUserUseReserveAsCollateral env w user asset false = .ok w' →
      RiskIncrease env w (accountOf env w user)
        (withLess env w user asset (balance env w user asset))
  | transfer {user asset recipient : Address} {amount : ℕ} {r : Reserve}
      {before : AToken.BalancesBefore} {w' : World} :
      AToken.move w.impl env.timestamp (w.reserves asset) user recipient amount =
        .ok (r, before) →
      LendingPool.finalizeTransfer env (w.setReserve asset r) asset user recipient amount before =
        .ok w' →
      RiskIncrease env w (accountOf env w user) (accountOf env (w.setReserve asset r) user)
  | borrow {sender user asset : Address} {amount mode : ℕ} {w' : World} :
      LendingPool.borrow env w sender asset amount mode user = .ok w' →
      RiskIncrease env w (accountOf env w user) (withMore env w w' user asset amount)
  | flashLoan {sender asset : Address} {loan : LendingPool.FlashLoan} {assets : List Address}
      {amounts premiums modes : List ℕ} {amount premium mode : ℕ} {w₁ w₂ : World} :
      LendingPool.settleAll env sender loan w assets amounts premiums modes = .ok w₁ →
      LendingPool.settleOne env w₁ sender loan asset amount premium mode = .ok w₂ → mode ≠ 0 →
      RiskIncrease env w (accountOf env w₁ loan.onBehalfOf)
        (withMore env w₁ w₂ loan.onBehalfOf asset amount)

theorem settleOne_borrows {sender : Address} {loan : LendingPool.FlashLoan}
    {amount premium mode : ℕ} {w' : World} (hmode : mode ≠ 0)
    (h : LendingPool.settleOne env w sender loan asset amount premium mode = .ok w') :
    LendingPool.executeBorrow env w sender asset loan.onBehalfOf amount mode false = .ok w' := by
  simp only [LendingPool.settleOne, bind_ok, SafeMath.add_ok] at h
  obtain ⟨_, -, rateMode, hrateMode, h⟩ := h
  split at h
  case isTrue hnone =>
    rw [hnone] at hrateMode
    unfold InterestRateMode.ofUint at hrateMode
    split at hrateMode <;> simp_all
  case isFalse => exact h

theorem RiskIncrease.covers {a a' : Account} (hw : w.WellFormed) (hvisible : w.DebtsVisible)
    (hltv : ThresholdsAboveLtv w) (h : RiskIncrease env w a a') : a.KeepsCover a' := by
  cases h with
  | withdraw h =>
    obtain ⟨b, r, hb, rfl, -, -⟩ := LendingPool.withdraw_ok h
    obtain ⟨shownBalance, r₁, hbalance, -, hvalid, -⟩ := LendingPool.beforeBurn_ok hb
    simp only [ValidationLogic.validateWithdraw, bind_ok, exists_unit, require_ok] at hvalid
    obtain ⟨-, hle, -, allowed, hallowed, rfl⟩ := hvalid
    refine decrease_keepsCover hw hltv ?_ hallowed
    rwa [balance, hbalance]
  | disable h =>
    obtain ⟨hvalid, -⟩ := LendingPool.setUserUseReserveAsCollateral_ok h
    simp only [ValidationLogic.validateSetUseReserveAsCollateral, bind_ok, exists_unit,
      require_ok] at hvalid
    obtain ⟨shownBalance, hbalance, -, hvalid⟩ := hvalid
    rw [if_neg (by decide)] at hvalid
    simp only [bind_ok, require_ok] at hvalid
    obtain ⟨allowed, hallowed, rfl⟩ := hvalid
    refine decrease_keepsCover hw hltv le_rfl ?_
    rwa [balance, hbalance]
  | @transfer user asset recipient amount r before w' hmove h =>
    obtain ⟨-, -, -, _, -, -, -, _, rfl⟩ := AToken.move_ok hmove
    have heffect : Effect env _ w (w.setReserve asset _) :=
      Effect.single (.move w.impl user recipient amount) (map_ok.mpr ⟨_, hmove, rfl⟩)
    refine .inr (transfer_covered (hltv.of_configuration heffect fun a => ?_)
      (LendingPool.finalizeTransfer_ok h).1)
    by_cases ha : a = asset
    · rw [ha, World.setReserve_reserves_self]
      rfl
    · rw [World.setReserve_reserves_of_ne ha]
  | borrow h => exact .inr (borrow_covered hw hvisible hltv (LendingPool.borrow_ok h))
  | flashLoan hbefore h hmode =>
    obtain ⟨l, -, heffect⟩ := LendingPool.settleAll_makes hbefore
    exact .inr (borrow_covered (hw.effect heffect) (hvisible.settleAll hbefore)
      (hltv.of_configuration heffect (settleAll_configuration hbefore)) (settleOne_borrows hmode h))

end GenericLogic

open GenericLogic

/-- In every run at times that the pool can store, an operation that raises the risk of an account
changes nothing for it or leaves its debt covered up to dust. -/
theorem Reachable.keepsCover {m : Machine} {env : Env} {a a' : Account} (h : Reachable m)
    (htime : m.time < 2 ^ 40) (hltv : ThresholdsAboveLtv m.world)
    (hrisk : RiskIncrease env m.world a a') : a.KeepsCover a' :=
  hrisk.covers h.wellFormed (h.debtsVisible htime) hltv

def owingStart : List Transaction :=
  sampleListing 0 1 9 ++ sampleListing 0 2 9 ++
    [⟨slowEnv 0, 11, .deposit 1 1000 11⟩, ⟨slowEnv 0, 12, .deposit 2 700 12⟩,
      ⟨slowEnv 0, 12, .borrow 1 500 2 12⟩]

theorem keepsCover_owing : ∃ (w w' : World) (n : ℕ), Reachable ⟨w, 0, []⟩ ∧
    LendingPool.withdraw (slowEnv 0) w 12 2 30 12 = .ok (w', n) ∧
    (accountOf (slowEnv 0) w 12).debt = 500 ∧
    (accountOf (slowEnv 0) w 12).KeepsCover (withLess (slowEnv 0) w 12 2 n) := by
  have hrun : (do
      let w ← runAll sampleStart owingStart
      let withdrawn ← LendingPool.withdraw (slowEnv 0) w 12 2 30 12
      return (withdrawn.2, decide (ThresholdsAboveLtv w), (accountOf (slowEnv 0) w 12).debt)) =
        .ok (30, true, 500) := by
    decide +kernel
  obtain ⟨w, hw, hrest⟩ := bind_ok.mp hrun
  obtain ⟨⟨w', n⟩, hwithdraw, hrest⟩ := bind_ok.mp hrest
  simp only [pure_ok, Prod.mk.injEq, decide_eq_true_eq] at hrest
  obtain ⟨-, hltv, hdebt⟩ := hrest
  have hreach : Reachable ⟨w, 0, []⟩ := .sample (by decide) hw
  exact ⟨w, w', n, hreach, hwithdraw, hdebt, Reachable.keepsCover hreach
    (show 0 < 2 ^ 40 by norm_num) hltv (.withdraw hwithdraw)⟩

def afterWrap : List Transaction :=
  [⟨slowEnv (2 ^ 40), 12, .repay 1 maxUint256 2 12⟩, ⟨slowEnv (2 ^ 40), 12, .withdraw 2 360 12⟩]

/-- The part of the debt that was not shown has no flag; a loan at the other rate mode sets it. -/
theorem afterWrap_runs : (do
    let w ← runAll sampleStart owingStart
    let w₁ ← runAll w afterWrap
    let w₂ ← LendingPool.borrow (slowEnv (2 ^ 40)) w₁ 12 1 250 1 12
    let after := withMore (slowEnv (2 ^ 40)) w₁ w₂ 12 1 250
    return (decide (ThresholdsAboveLtv w₁), (accountOf (slowEnv (2 ^ 40)) w₁ 12).debt,
      after.weightedCollateral, after.debt)) = .ok (true, 0, 2720000, 454) := by
  decide +kernel

theorem uncovered_after_wrap : ∃ (m : Machine) (env : Env) (a a' : Account), Reachable m ∧
    env.timestamp = m.time ∧ ThresholdsAboveLtv m.world ∧ RiskIncrease env m.world a a' ∧
    ¬a.KeepsCover a' := by
  obtain ⟨w, hrun, hrest⟩ := bind_ok.mp afterWrap_runs
  obtain ⟨w₁, hrun₁, hrest⟩ := bind_ok.mp hrest
  obtain ⟨w₂, hborrow, hrest⟩ := bind_ok.mp hrest
  simp only [pure_ok, Prod.mk.injEq, decide_eq_true_eq] at hrest
  obtain ⟨hltv, hbefore, hcollateral, hdebt⟩ := hrest
  have htick : Reachable ⟨w, 2 ^ 40, []⟩ :=
    .step (.sample (by decide) hrun) (.tick _ (Nat.zero_le _) rfl)
  refine ⟨⟨w₁, 2 ^ 40, []⟩, slowEnv (2 ^ 40), _, _,
    htick.runAll (by simp [afterWrap, slowEnv, sampleEnv]) hrun₁, rfl, hltv, .borrow hborrow, ?_⟩
  rintro (hsame | hcovered)
  · rw [hsame, hbefore] at hdebt
    cases hdebt
  · unfold Account.Covered at hcovered
    rw [hcollateral, hdebt] at hcovered
    omega

end Moola
