import Moola.Machine

/-! The borrowing power a view advertises, against the collateral check of a borrow. The
view multiplies the collateral by the ltv and the check divides the debt by it, each
rounded half up. Where the product is rounded up by half of the ltv or more, the last
unit advertised is refused. -/

namespace Moola

open Guard PercentageMath

open ValidationLogic GenericLogic

/-- A borrow that passes its validation has passed this check at the account's data. -/
theorem ValidationLogic.validateBorrow_checksCollateral {env : Env} {w : World}
    {asset user : Address} {amount value mode : ℕ}
    (h : validateBorrow env w asset user amount value mode = .ok ()) :
    ∃ data, calculateUserAccountData env w user = .ok data ∧
      checkCollateral data.totalCollateralInETH data.totalDebtInETH data.avgLtv value =
        .ok () := by
  simp only [validateBorrow, bind_ok, exists_unit, require_ok] at h
  obtain ⟨-, -, -, -, -, data, hdata, -, -, hcheck, -⟩ := h
  exact ⟨data, hdata, hcheck⟩

/-- Every advertised value can be borrowed, and none more than one unit above it. -/
def PowerBorrowable (collateral debt ltv available : ℕ) : Prop :=
  (∀ x, 0 < x → x ≤ available → checkCollateral collateral debt ltv x = .ok ()) ∧
    ∀ x, available + 1 < x → checkCollateral collateral debt ltv x ≠ .ok ()

/-- The share of the collateral is rounded down, or up by less than half of the ltv, and
then half of the ltv still fits into a word. -/
def ShareCovered (collateral ltv : ℕ) : Prop :=
  collateral * ltv % 10000 < 5000 ∨
    10000 < collateral * ltv % 10000 + (ltv + 1) / 2 ∧
      collateral * ltv + (10000 - collateral * ltv % 10000) + ltv / 2 ≤ maxUint256

instance (collateral ltv : ℕ) : Decidable (ShareCovered collateral ltv) := by
  unfold ShareCovered
  infer_instance

variable {collateral debt ltv available x : ℕ}

theorem checkCollateral_ok (hltv : 0 < ltv) (hmax : ltv ≤ 10000) :
    checkCollateral collateral debt ltv x = .ok () ↔
      (debt + x) * 10000 + ltv / 2 ≤ maxUint256 ∧
        (debt + x) * 10000 + ltv / 2 < collateral * ltv + ltv := by
  have hhalf : 5000 ≤ maxUint256 := by norm_num [maxUint256]
  have hdiv (n : ℕ) : (n + ltv / 2) / ltv ≤ collateral ↔ n + ltv / 2 < collateral * ltv + ltv := by
    rw [← Nat.lt_succ_iff, Nat.div_lt_iff_lt_mul hltv, Nat.succ_mul]
  simp only [checkCollateral, bind_ok, SafeMath.add_ok, percentDiv_ok, require_ok,
    percentageFactor, HalfUp.div]
  constructor
  · rintro ⟨_, ⟨-, rfl⟩, _, ⟨-, hroom, rfl⟩, hle⟩
    have := (hdiv _).mp hle
    omega
  · rintro ⟨hroom, hlt⟩
    have hsum : debt + x ≤ maxUint256 := by omega
    have hscaled : (debt + x) * 10000 ≤ maxUint256 - ltv / 2 := Nat.le_sub_of_add_le hroom
    exact ⟨_, ⟨hsum, rfl⟩, _, ⟨hltv.ne', hscaled, rfl⟩, (hdiv _).mpr hlt⟩

theorem calculateAvailableBorrowsETH_ok
    (h : calculateAvailableBorrowsETH collateral debt ltv = .ok available) :
    collateral * ltv + 5000 ≤ maxUint256 ∧
      available = (collateral * ltv + 5000) / 10000 - debt := by
  simp only [calculateAvailableBorrowsETH, bind_ok, percentMul_ok] at h
  obtain ⟨_, ⟨hroom, rfl⟩, h⟩ := h
  have hhalf : halfPercent ≤ maxUint256 := by norm_num [halfPercent, percentageFactor, maxUint256]
  have hshare : percentProduct collateral ltv = (collateral * ltv + 5000) / 10000 := rfl
  rw [hshare] at h
  rw [show halfPercent = 5000 from rfl] at hroom hhalf
  refine ⟨by omega, ?_⟩
  split at h
  case isTrue hlt =>
    rw [pure_ok] at h
    omega
  case isFalse => exact (SafeMath.sub_ok.mp h).2.symm

/-- The whole share can be borrowed against just when it is covered. -/
theorem share_passes_iff (hltv : 0 < ltv) (hmax : ltv ≤ 10000)
    (hroom : collateral * ltv + 5000 ≤ maxUint256) :
    ((collateral * ltv + 5000) / 10000 * 10000 + ltv / 2 ≤ maxUint256 ∧
      (collateral * ltv + 5000) / 10000 * 10000 + ltv / 2 < collateral * ltv + ltv) ↔
    ShareCovered collateral ltv := by
  unfold ShareCovered
  generalize collateral * ltv = product at hroom ⊢
  have hsplit := Nat.div_add_mod product 10000
  by_cases hdown : product % 10000 < 5000
  · have hshare : (product + 5000) / 10000 * 10000 = product - product % 10000 := by omega
    rw [hshare]
    omega
  · have hshare : (product + 5000) / 10000 * 10000 = product + (10000 - product % 10000) := by
      omega
    rw [hshare]
    omega

/-- The advertised power can be borrowed if and only if there is none, or the share of the
collateral that it comes from is covered. -/
theorem advertised_borrowable_iff (hltv : 0 < ltv) (hmax : ltv ≤ 10000)
    (h : calculateAvailableBorrowsETH collateral debt ltv = .ok available) :
    PowerBorrowable collateral debt ltv available ↔
      collateral * ltv + 5000 < (debt + 1) * 10000 ∨ ShareCovered collateral ltv := by
  obtain ⟨hroom, havailable⟩ := calculateAvailableBorrowsETH_ok h
  have hpasses := share_passes_iff hltv hmax hroom
  have hrefused : ∀ x, available + 1 < x → checkCollateral collateral debt ltv x ≠ .ok () := by
    intro x hx hcheck
    have hlt := ((checkCollateral_ok hltv hmax).mp hcheck).2
    omega
  constructor
  · rintro ⟨hall, -⟩
    by_cases hnone : collateral * ltv + 5000 < (debt + 1) * 10000
    · exact .inl hnone
    · have hcheck := (checkCollateral_ok hltv hmax).mp (hall available (by omega) le_rfl)
      have hwhole : debt + available = (collateral * ltv + 5000) / 10000 := by omega
      rw [hwhole] at hcheck
      exact .inr (hpasses.mp hcheck)
  · intro hcond
    refine ⟨fun x hpos hx => (checkCollateral_ok hltv hmax).mpr ?_, hrefused⟩
    rcases hcond with hnone | hcovered
    · exact absurd hx (by omega)
    · obtain ⟨hword, hlt⟩ := hpasses.mpr hcovered
      have hle : (debt + x) * 10000 + ltv / 2 ≤
          (collateral * ltv + 5000) / 10000 * 10000 + ltv / 2 := by
        rw [havailable] at hx
        exact Nat.add_le_add_right (Nat.mul_le_mul_right _ (by omega)) _
      exact ⟨hle.trans hword, hle.trans_lt hlt⟩

def roundedUpRun : List Transaction :=
  sampleListing 40 1 9 ++ sampleListing 40 2 9 ++
    [⟨sampleEnv 40, 11, .deposit 1 2 11⟩, ⟨sampleEnv 40, 12, .deposit 2 700 12⟩]

theorem roundedUpRun_refused : (do
    let w ← runAll sampleStart roundedUpRun
    let data ← calculateUserAccountData (sampleEnv 40) w 11
    let available ← calculateAvailableBorrowsETH data.totalCollateralInETH data.totalDebtInETH
      data.avgLtv
    let refused := (exec (sampleEnv 40) w 11 (.borrow 2 available 2 11)).map fun _ => ()
    return (data.totalCollateralInETH, data.totalDebtInETH, data.avgLtv, available, refused)) =
    .ok (2, 0, 7500, 2, .error .vlCollateralCannotCoverNewBorrow) := by
  decide +kernel

theorem roundedUpRun_state : ∃ w data, Reachable ⟨w, 40, []⟩ ∧
    calculateUserAccountData (sampleEnv 40) w 11 = .ok data ∧
    data.totalCollateralInETH = 2 ∧ data.totalDebtInETH = 0 ∧ data.avgLtv = 7500 ∧
    calculateAvailableBorrowsETH 2 0 7500 = .ok 2 := by
  obtain ⟨w, hw, hrest⟩ := bind_ok.mp roundedUpRun_refused
  obtain ⟨data, hdata, hrest⟩ := bind_ok.mp hrest
  obtain ⟨available, havailable, hrest⟩ := bind_ok.mp hrest
  simp only [pure_ok, Prod.mk.injEq] at hrest
  obtain ⟨hcollateral, hdebt, hltv, rfl, -⟩ := hrest
  rw [hcollateral, hdebt, hltv] at havailable
  exact ⟨w, data, .sample (by decide) hw, hdata, hcollateral, hdebt, hltv, havailable⟩

/-- The two units are advertised and refused. -/
theorem advertised_power_refused : ¬ ∀ (m : Machine) (env : Env) (user : Address)
    (data : AccountData) (available : ℕ), Reachable m → env.timestamp = m.time →
    calculateUserAccountData env m.world user = .ok data → 0 < data.avgLtv →
    data.avgLtv ≤ 10000 →
    calculateAvailableBorrowsETH data.totalCollateralInETH data.totalDebtInETH data.avgLtv =
      .ok available →
    PowerBorrowable data.totalCollateralInETH data.totalDebtInETH data.avgLtv available := by
  intro hadvertised
  obtain ⟨w, data, hreach, hdata, hcollateral, hdebt, hltv, havailable⟩ := roundedUpRun_state
  have hall := hadvertised _ (sampleEnv 40) 11 data 2 hreach rfl hdata (by omega) (by omega)
    (by rw [hcollateral, hdebt, hltv, havailable])
  rw [hcollateral, hdebt, hltv] at hall
  exact absurd (hall.1 2 (by norm_num) le_rfl) (by decide)

theorem advertised_borrowable_iff_rounded :
    PowerBorrowable 2 0 7500 2 ↔ 2 * 7500 + 5000 < (0 + 1) * 10000 ∨ ShareCovered 2 7500 :=
  advertised_borrowable_iff (by norm_num) (by norm_num) (by rfl)

end Moola
