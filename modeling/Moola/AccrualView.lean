import Moola.ReserveLogic

/-! The view of the indexes against their update. `getNormalizedDebt` and
`getNormalizedIncome` compare the stored time with the block and then accrue;
`updateState` accrues whenever the liquidity rate is not zero. The two guards
differ, and the indexes agree exactly when that does not matter. -/

namespace Moola

open Guard WadRayMath

namespace ReserveLogic

/-- The compounding since the last update rounds away on the variable borrow index. -/
def debtStandsStill (d : ReserveData) (now : ℕ) : Prop :=
  ∃ c, MathUtils.calculateCompoundedInterest d.currentVariableBorrowRate d.lastUpdateTimestamp
    now = .ok c ∧ 2 * ((c - ray) * d.variableBorrowIndex) < ray

/-- The linear interest since the last update rounds away on the liquidity index. -/
def incomeStandsStill (d : ReserveData) (now : ℕ) : Prop :=
  2 * ((MathUtils.linearFactor d.currentLiquidityRate (now - d.lastUpdateTimestamp) - ray) *
    d.liquidityIndex) < ray

variable {d d' : ReserveData} {now scaled : ℕ}

theorem rayProduct_ray_add (e i : ℕ) : rayProduct (ray + e) i = i + rayProduct e i := by
  have he : (ray + e) * i + ray / 2 = e * i + ray / 2 + i * ray := by ring
  rw [rayProduct, HalfUp.div, he, Nat.add_mul_div_right _ _ ray_pos, add_comm]
  rfl

theorem rayProduct_ray_add_eq_iff (e i : ℕ) : rayProduct (ray + e) i = i ↔ 2 * (e * i) < ray := by
  rw [rayProduct_ray_add, Nat.add_eq_left, rayProduct, HalfUp.eq_zero_iff ray_pos]

private theorem mul_le_of_still {e i : ℕ} (hi : i < 2 ^ 128) (h : 2 * (e * i) < ray) :
    (ray + e) * i ≤ maxUint256 - halfRay := by
  have hray : ray * i ≤ ray * 2 ^ 128 := Nat.mul_le_mul_left _ hi.le
  have hmax : ray * 2 ^ 128 + ray ≤ maxUint256 - halfRay := by
    norm_num [ray, maxUint256, halfRay]
  rw [add_mul]
  omega

/-- Without any income nothing is stored, and the view must see no compounding. -/
private theorem debt_agrees_without_income (hV : d.variableBorrowIndex < 2 ^ 128) :
    (do let c ← MathUtils.calculateCompoundedInterest d.currentVariableBorrowRate
          d.lastUpdateTimestamp now
        rayMul c d.variableBorrowIndex) = .ok d.variableBorrowIndex ↔ debtStandsStill d now := by
  simp only [bind_ok, rayMul_ok, debtStandsStill]
  constructor
  · rintro ⟨c, hc, -, he⟩
    obtain ⟨-, rfl⟩ := MathUtils.calculateCompoundedInterest_ok hc
    rw [rayProduct_ray_add_eq_iff] at he
    exact ⟨_, hc, by rwa [Nat.add_sub_cancel_left]⟩
  · rintro ⟨c, hc, hs⟩
    obtain ⟨-, rfl⟩ := MathUtils.calculateCompoundedInterest_ok hc
    rw [Nat.add_sub_cancel_left] at hs
    exact ⟨_, hc, mul_le_of_still hV hs, (rayProduct_ray_add_eq_iff _ _).mpr hs⟩

theorem normalizedDebt_agrees_iff (hV : d.variableBorrowIndex < 2 ^ 128) (hs : scaled ≠ 0)
    (h : updateIndexes d scaled d.lastUpdateTimestamp now = .ok d') :
    getNormalizedDebt d now = .ok d'.variableBorrowIndex ↔
      debtStandsStill d now ∨
        (d.lastUpdateTimestamp = uint40 now ↔ d.currentLiquidityRate = 0) := by
  by_cases hrate : d.currentLiquidityRate = 0
  · have hd' : d'.variableBorrowIndex = d.variableBorrowIndex := by
      rw [(updateIndexes_ok h).2]
      simp [accruedVariableBorrowIndex, hrate]
    rw [hd', getNormalizedDebt]
    by_cases hfresh : d.lastUpdateTimestamp = uint40 now
    · simp [hfresh, hrate]
    · rw [if_neg hfresh, debt_agrees_without_income hV]
      simp [hfresh, hrate]
  · simp only [updateIndexes, Nat.pos_of_ne_zero hrate, if_true, cumulateIndexes,
      cumulateVariableBorrowIndex, if_pos hs, bind_ok, exists_unit, require_ok, rayMul_ok,
      pure_ok] at h
    obtain ⟨_, ⟨_, -, _, -, -, c, hc, V, ⟨hmax, rfl⟩, -, rfl⟩, rfl⟩ := h
    obtain ⟨-, rfl⟩ := MathUtils.calculateCompoundedInterest_ok hc
    rw [getNormalizedDebt]
    by_cases hfresh : d.lastUpdateTimestamp = uint40 now
    · rw [if_pos hfresh, Except.ok.injEq, eq_comm, rayProduct_ray_add_eq_iff]
      simp only [hrate, hfresh, iff_false, not_true, or_false]
      rw [← hfresh, debtStandsStill]
      constructor
      · intro hstill
        exact ⟨_, hc, by rwa [Nat.add_sub_cancel_left]⟩
      · rintro ⟨c', hc', hstill⟩
        rw [← Except.ok.inj (hc.symm.trans hc'), Nat.add_sub_cancel_left] at hstill
        exact hstill
    · rw [if_neg hfresh, hc, ok_bind, rayMul_ok]
      simp only [hrate, hfresh, or_true, iff_true]
      exact ⟨hmax, trivial⟩

theorem normalizedIncome_agrees_iff (hL : d.liquidityIndex < 2 ^ 128)
    (hlast : d.lastUpdateTimestamp ≤ now)
    (h : updateIndexes d scaled d.lastUpdateTimestamp now = .ok d') :
    getNormalizedIncome d now = .ok d'.liquidityIndex ↔ incomeStandsStill d now ∨
      d.lastUpdateTimestamp ≠ uint40 now ∨ d.currentLiquidityRate = 0 := by
  have hd' := congrArg ReserveData.liquidityIndex (updateIndexes_ok h).2
  simp only [ReserveData.withIndexes_liquidityIndex] at hd'
  rw [hd', getNormalizedIncome]
  by_cases hfresh : d.lastUpdateTimestamp = uint40 now
  · rw [if_pos hfresh, Except.ok.injEq, accruedLiquidityIndex]
    by_cases hrate : d.currentLiquidityRate = 0
    · simp [hrate]
    · obtain ⟨e, he⟩ := Nat.exists_eq_add_of_le
        (MathUtils.ray_le_linearFactor d.currentLiquidityRate (now - d.lastUpdateTimestamp))
      rw [if_neg hrate, he, eq_comm, rayProduct_ray_add_eq_iff, incomeStandsStill, he,
        Nat.add_sub_cancel_left]
      simp only [hrate, hfresh, ne_eq, not_true, or_false]
  · rw [if_neg hfresh]
    simp only [ne_eq, hfresh, not_false_eq_true, true_or, or_true, iff_true]
    by_cases hrate : d.currentLiquidityRate = 0
    · have hguard : 0 + ray ≤ maxUint256 := by norm_num [ray, maxUint256]
      have hlinear : MathUtils.calculateLinearInterest 0 d.lastUpdateTimestamp now = .ok ray := by
        simp only [MathUtils.calculateLinearInterest, bind_ok, SafeMath.sub_ok, SafeMath.mul_ok,
          SafeMath.add_ok]
        exact ⟨_, ⟨hlast, rfl⟩, _, ⟨by simp, rfl⟩, by simpa using hguard, by simp⟩
      have hmax := mul_le_of_still hL (show 2 * (0 * d.liquidityIndex) < ray by simp [ray_pos])
      rw [accruedLiquidityIndex, if_pos hrate, hrate, hlinear, ok_bind, rayMul_ok]
      exact ⟨hmax, rayProduct_ray_left _⟩
    · simp only [updateIndexes, Nat.pos_of_ne_zero hrate, if_true, cumulateIndexes, bind_ok,
        exists_unit, require_ok, rayMul_ok] at h
      obtain ⟨_, ⟨f, hf, L, ⟨hmax, rfl⟩, -, -⟩, -⟩ := h
      obtain ⟨-, rfl⟩ := MathUtils.calculateLinearInterest_ok hf
      rw [hf, ok_bind, rayMul_ok, accruedLiquidityIndex, if_neg hrate]
      exact ⟨hmax, rfl⟩

/-- The view just before an update returns the indexes just after it if and only if
neither guard hides an interest that the other path books: the debt side agrees when
the stored time and the liquidity rate tell the same story, the income side when the
time does not hide a nonzero rate, and either when its interest rounds away. -/
theorem view_agrees_with_update_iff {r r' : Reserve}
    (hV : r.data.variableBorrowIndex < 2 ^ 128) (hL : r.data.liquidityIndex < 2 ^ 128)
    (hdebt : r.variableDebtToken.ledger.totalSupply ≠ 0)
    (hlast : r.data.lastUpdateTimestamp ≤ now) (h : updateState now r = .ok r') :
    (getNormalizedDebt r.data now = .ok r'.data.variableBorrowIndex ∧
      getNormalizedIncome r.data now = .ok r'.data.liquidityIndex) ↔
    (debtStandsStill r.data now ∨
      (r.data.lastUpdateTimestamp = uint40 now ↔ r.data.currentLiquidityRate = 0)) ∧
    (incomeStandsStill r.data now ∨ r.data.lastUpdateTimestamp ≠ uint40 now ∨
      r.data.currentLiquidityRate = 0) := by
  simp only [updateState, updateStateFrom, bind_ok, VariableDebtToken.scaledTotalSupply_ok] at h
  obtain ⟨_, ⟨-, rfl⟩, d, hd, hm⟩ := h
  obtain ⟨minted, rfl, -⟩ := mintToTreasury_ok hm
  exact and_congr (normalizedDebt_agrees_iff hV hdebt hd) (normalizedIncome_agrees_iff hL hlast hd)

/-- A reserve whose whole interest goes to the treasury: borrowers pay ten percent,
and nothing is left for the liquidity rate. -/
def fullFactorReserve : Reserve where
  data := ⟨⟨10000#256 <<< 64 ||| 1#256 <<< 56⟩, ray, ray, 0, 10 ^ 26, 0, 0, 1, 2, 3, 4, 0⟩
  aToken := ⟨Ledger.empty.credit 5 1000, fun _ _ => 0, 6⟩
  stableDebtToken := ⟨fun _ => 0, 0, 0, fun _ => 0, fun _ => 0, 0, fun _ _ => 0⟩
  variableDebtToken := ⟨Ledger.empty.credit 5 100, fun _ _ => 0⟩
  underlying := ⟨Ledger.empty.credit 1 900, fun _ _ => 0⟩

theorem fullFactorReserve_update : (fun r => r.data.variableBorrowIndex) <$>
    updateState MathUtils.secondsPerYear fullFactorReserve = .ok ray := by
  decide +kernel

/-- After a year the view shows the interest and the update forgets it. -/
theorem view_disagrees_without_income : ¬ ∀ (r r' : Reserve) (now : ℕ),
    r.variableDebtToken.ledger.totalSupply ≠ 0 → r.data.lastUpdateTimestamp ≤ now →
    updateState now r = .ok r' →
    getNormalizedDebt r.data now = .ok r'.data.variableBorrowIndex ∧
      getNormalizedIncome r.data now = .ok r'.data.liquidityIndex := by
  intro hagree
  obtain ⟨r', hupdate, hindex⟩ := map_ok.mp fullFactorReserve_update
  have hview := (hagree _ _ _ (by decide) (by decide) hupdate).1
  rw [hindex] at hview
  exact absurd hview (by decide +kernel)

theorem view_agrees_with_update_iff_full_factor : ∃ r', updateState MathUtils.secondsPerYear
    fullFactorReserve = .ok r' ∧
    ((getNormalizedDebt fullFactorReserve.data MathUtils.secondsPerYear =
        .ok r'.data.variableBorrowIndex ∧
      getNormalizedIncome fullFactorReserve.data MathUtils.secondsPerYear =
        .ok r'.data.liquidityIndex) ↔
    (debtStandsStill fullFactorReserve.data MathUtils.secondsPerYear ∨
      (fullFactorReserve.data.lastUpdateTimestamp = uint40 MathUtils.secondsPerYear ↔
        fullFactorReserve.data.currentLiquidityRate = 0)) ∧
    (incomeStandsStill fullFactorReserve.data MathUtils.secondsPerYear ∨
      fullFactorReserve.data.lastUpdateTimestamp ≠ uint40 MathUtils.secondsPerYear ∨
      fullFactorReserve.data.currentLiquidityRate = 0)) := by
  obtain ⟨r', hupdate, -⟩ := map_ok.mp fullFactorReserve_update
  exact ⟨r', hupdate, view_agrees_with_update_iff (by decide) (by decide) (by decide)
    (by decide) hupdate⟩

end ReserveLogic

end Moola
