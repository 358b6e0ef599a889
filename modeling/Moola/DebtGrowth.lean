import Moola.Compounding
import Moola.Earnings
import Moola.Lib.Growth
import Moola.RateCurve
import Moola.Rates

/-! How fast a debt can grow. No strategy asks more than the maximum that it advertises, and a
reserve that is updated more often charges no more than continuous compounding at that rate, but
for the rounding: at most one unit of the index in a second. -/

namespace Moola

open Guard WadRayMath

namespace DefaultReserveInterestRateStrategy

/-- The strategy advertises less than a rate, by what its curve may round up. -/
def Capped (cap : ℕ) (s : DefaultReserveInterestRateStrategy) : Prop :=
  ∃ advertised, s.getMaxVariableBorrowRate = .ok advertised ∧
    advertised + 1 + ray / (2 * s.optimalUtilizationRate) ≤ cap

variable {s : DefaultReserveInterestRateStrategy} {market available debt utilization stable
  variableRate cap : ℕ}

theorem utilizationRate_le_ray (h : utilizationRate available debt = .ok utilization) :
    utilization ≤ ray := by
  unfold utilizationRate at h
  split at h
  case isTrue =>
    have hzero : 0 = utilization := pure_ok.mp h
    omega
  case isFalse =>
    simp only [bind_ok, SafeMath.add_ok, rayDiv_ok] at h
    obtain ⟨_, ⟨-, rfl⟩, -, -, rfl⟩ := h
    exact rayQuotient_le_ray (by omega) (Nat.le_add_left _ _)

/-- Beyond the optimal utilisation both slopes are used up at most once, below it the first. -/
theorem variableRate_le (h : s.borrowRates market utilization = .ok (stable, variableRate))
    (hle : utilization ≤ ray) : variableRate ≤ s.baseVariableBorrowRate + s.variableRateSlope1 +
      s.variableRateSlope2 + 1 + ray / (2 * s.optimalUtilizationRate) := by
  rcases borrowRates_ok h with ⟨habove, -, rfl⟩ | ⟨hbelow, hpos, -, rfl⟩
  · have hexcess := s.constructed
    have hratio : rayQuotient (utilization - s.optimalUtilizationRate) s.excessUtilizationRate ≤
        ray := rayQuotient_le_ray (by omega) (by omega)
    have hslope : rayProduct s.variableRateSlope2 (rayQuotient
        (utilization - s.optimalUtilizationRate) s.excessUtilizationRate) ≤
          s.variableRateSlope2 := by
      calc _ ≤ rayProduct s.variableRateSlope2 ray := rayProduct_mono le_rfl hratio
        _ = s.variableRateSlope2 := rayProduct_ray_right _
    exact Nat.le_add_right_of_le (by omega)
  · have hslope : rayQuotient (rayProduct utilization s.variableRateSlope1)
        s.optimalUtilizationRate ≤
          s.variableRateSlope1 + 1 + ray / (2 * s.optimalUtilizationRate) :=
      slope_at_optimal_le hpos hbelow
    omega

theorem Capped.variableBorrowRate_le {cash stableDebt variableDebt avgRate factor : ℕ}
    {rates : InterestRates} (hs : s.Capped cap) (h : s.calculateInterestRates market cash
      stableDebt variableDebt avgRate factor = .ok rates) : rates.variableBorrowRate ≤ cap := by
  obtain ⟨advertised, hadvertised, hcap⟩ := hs
  obtain ⟨utilization, hutilization, hrates⟩ := calculateInterestRates_ok h
  have hle := variableRate_le hrates (utilizationRate_le_ray hutilization)
  simp only [getMaxVariableBorrowRate, bind_ok, SafeMath.add_ok] at hadvertised
  obtain ⟨_, ⟨-, rfl⟩, -, rfl⟩ := hadvertised
  omega

end DefaultReserveInterestRateStrategy

def Env.Capped (cap : ℕ) (env : Env) : Prop :=
  ∀ a s, env.strategy a = some s → s.Capped cap

noncomputable def perSecond (rate : ℕ) : ℝ := rate / (MathUtils.secondsPerYear * ray)

/-- What the rounding of the powers of a rate adds to the exponent, for each cubed second. -/
noncomputable def roundingError : ℝ := 1 / (12 * ray)

namespace MathUtils

variable {rate cap n v : ℕ}

theorem ray_pos_real : (0 : ℝ) < ray := by exact_mod_cast ray_pos

theorem perSecond_nonneg (rate : ℕ) : 0 ≤ perSecond rate := by
  unfold perSecond
  positivity

theorem roundingError_nonneg : 0 ≤ roundingError := by
  unfold roundingError
  positivity

theorem rayProduct_div_le (a b : ℕ) :
    (rayProduct a b : ℝ) / ray ≤ a / ray * (b / ray) + 1 / (2 * ray) := by
  have hR := ray_pos_real
  have h : 2 * (ray * rayProduct a b) ≤ 2 * (a * b) + ray := HalfUp.twice_lower _ _
  have h' : 2 * ((ray : ℝ) * rayProduct a b) ≤ 2 * (a * b) + ray := by exact_mod_cast h
  have hsum : (a : ℝ) / ray * (b / ray) + 1 / (2 * ray) =
      (2 * (a * b) + ray) / (2 * ray * ray) := by
    field_simp
  rw [hsum, div_le_div_iff₀ hR (by positivity)]
  linarith [mul_le_mul_of_nonneg_right h' hR.le]

/-- The factor of a rate that is capped grows at most as the exponential at the cap. -/
theorem compounded_le_exp (hrate : rate ≤ cap) (n : ℕ) :
    ((ray + compoundedExcess rate n : ℕ) : ℝ) / ray ≤
      Real.exp (perSecond cap * n + roundingError * n ^ 3) := by
  have hR := ray_pos_real
  set r := rate / secondsPerYear
  set p₂ := rayProduct r r
  set p₃ := rayProduct p₂ r
  have hexpansion : ((ray + compoundedExcess rate n : ℕ) : ℝ) / ray =
      Growth.expansion (r / ray) (p₂ / ray) (p₃ / ray) n := by
    rw [compoundedExcess_eq, Growth.expansion]
    push_cast
    field_simp
    ring
  have hsquare : (p₂ : ℝ) / ray ≤ (r / ray) ^ 2 + 1 / (2 * ray) := by
    rw [sq]
    exact rayProduct_div_le r r
  have hfloor : (r : ℝ) / ray ≤ perSecond cap := by
    have hr : r * secondsPerYear ≤ cap := (Nat.div_mul_le_self _ _).trans hrate
    have hr' : (r : ℝ) * secondsPerYear ≤ cap := by exact_mod_cast hr
    have hyear : (0 : ℝ) < secondsPerYear := by norm_num [secondsPerYear]
    rw [perSecond, div_le_div_iff₀ hR (by positivity)]
    linarith [mul_le_mul_of_nonneg_right hr' hR.le]
  rw [hexpansion]
  refine (Growth.expansion_le_exp (by positivity) (by positivity) hsquare
    (rayProduct_div_le p₂ r) n).trans (Real.exp_le_exp_of_le ?_)
  have hexponent := mul_le_mul_of_nonneg_left hfloor (Nat.cast_nonneg (α := ℝ) n)
  have herror : 1 / (2 * (ray : ℝ)) / 6 = roundingError := by
    rw [roundingError]
    ring
  rw [herror]
  linarith

theorem within_of_factor (hrate : rate ≤ cap) (n v : ℕ) :
    Growth.Within (perSecond cap) roundingError n v
      (rayProduct (ray + compoundedExcess rate n) v : ℕ) := by
  by_cases hn : n = 0
  · rw [hn, compoundedExcess_zero, Nat.add_zero, rayProduct_ray_left]
    exact .of_le (perSecond_nonneg _) roundingError_nonneg (Nat.cast_nonneg _) le_rfl 0
  · refine .of_factor (Nat.cast_nonneg _) hn (compounded_le_exp hrate n) (perSecond_nonneg _)
      roundingError_nonneg ?_
    have hR := ray_pos_real
    have h : 2 * (ray * rayProduct (ray + compoundedExcess rate n) v) ≤
        2 * ((ray + compoundedExcess rate n) * v) + ray := HalfUp.twice_lower _ _
    have h' : 2 * ((ray : ℝ) * rayProduct (ray + compoundedExcess rate n) v) ≤
        2 * ((ray + compoundedExcess rate n : ℕ) * v) + ray := by exact_mod_cast h
    rw [div_mul_eq_mul_div, div_add_one hR.ne', le_div_iff₀ hR]
    linarith

end MathUtils

namespace Reserve

/-- The variable rate stays below a cap, and the borrow index grows as the cap allows in the time
between the updates. -/
structure GrowsWithin (cap : ℕ) (r r' : Reserve) : Prop where
  rate : r'.data.currentVariableBorrowRate ≤ cap
  later : r.data.lastUpdateTimestamp ≤ r'.data.lastUpdateTimestamp
  index : Growth.Within (perSecond cap) roundingError
    (r'.data.lastUpdateTimestamp - r.data.lastUpdateTimestamp) r.data.variableBorrowIndex
    r'.data.variableBorrowIndex

variable {cap : ℕ} {env : Env} {asset : Address} {r r₁ r' : Reserve} {a : Action}
  {actions : List Action}

theorem GrowsWithin.of_same (hrate : r'.data.currentVariableBorrowRate ≤ cap)
    (hlast : r'.data.lastUpdateTimestamp = r.data.lastUpdateTimestamp)
    (hindex : r'.data.variableBorrowIndex = r.data.variableBorrowIndex) : GrowsWithin cap r r' where
  rate := hrate
  later := hlast.ge
  index := .of_le (MathUtils.perSecond_nonneg _) MathUtils.roundingError_nonneg
    (Nat.cast_nonneg _) (by rw [hindex]) _

theorem GrowsWithin.trans (h₁ : GrowsWithin cap r r₁) (h₂ : GrowsWithin cap r₁ r') :
    GrowsWithin cap r r' where
  rate := h₂.rate
  later := h₁.later.trans h₂.later
  index := by
    have hindex := h₁.index.trans (MathUtils.perSecond_nonneg _) MathUtils.roundingError_nonneg
      (Nat.cast_nonneg _) h₂.index
    rwa [← Nat.sub_add_sub_cancel h₂.later h₁.later, Nat.add_comm]

theorem updateState_grows {impl : PoolImpl} {now : ℕ} (hnow : now < 2 ^ 40)
    (hlast : r.data.lastUpdateTimestamp ≤ now) (hrate : r.data.currentVariableBorrowRate ≤ cap)
    (h : LendingPool.updateState impl now r = .ok r') : GrowsWithin cap r r' := by
  obtain ⟨start, hstart, he⟩ := LendingPool.updateState_eq impl now r
  rw [he] at h
  obtain ⟨-, -, minted, rfl, -⟩ := ReserveLogic.updateStateFrom_ok h
  refine ⟨hrate, ?_, ?_⟩
  · simpa [uint40_of_lt hnow] using hlast
  simp only [withALedger_data, withData_data, ReserveData.withIndexes_variableBorrowIndex,
    ReserveData.withIndexes_lastUpdateTimestamp, uint40_of_lt hnow]
  unfold ReserveLogic.accruedVariableBorrowIndex
  have hnone := Growth.Within.of_le (MathUtils.perSecond_nonneg cap) MathUtils.roundingError_nonneg
    (Nat.cast_nonneg r.data.variableBorrowIndex) le_rfl (now - r.data.lastUpdateTimestamp)
  split
  case isTrue => exact hnone
  case isFalse =>
    rcases hstart with rfl | rfl
    · exact MathUtils.within_of_factor hrate _ _
    · rw [uint40_of_lt hnow, Nat.sub_self, MathUtils.compoundedExcess_zero, Nat.add_zero,
        rayProduct_ray_left]
      exact hnone

theorem updateInterestRates_capped {added taken : ℕ} (hcap : env.Capped cap)
    (h : ReserveLogic.updateInterestRates env asset added taken r = .ok r') :
    r'.data.currentVariableBorrowRate ≤ cap := by
  obtain ⟨rates, hrates, -, rfl⟩ := ReserveLogic.updateInterestRates_rates h
  simp only [ReserveLogic.ratesAt, bind_ok] at hrates
  obtain ⟨_, -, _, -, _, -, hrates⟩ := hrates
  split at hrates
  case h_1 => cases hrates
  case h_2 strategy hstrategy => exact (hcap _ _ hstrategy).variableBorrowRate_le hrates

theorem apply_grows (hcap : env.Capped cap) (hnow : env.timestamp < 2 ^ 40)
    (hlast : r.data.lastUpdateTimestamp ≤ env.timestamp)
    (hrate : r.data.currentVariableBorrowRate ≤ cap) (h : r.apply env asset a = .ok r') :
    GrowsWithin cap r r' := by
  by_cases hdata : a.KeepsData
  · rw [← apply_data h hdata] at hrate
    exact .of_same hrate (by rw [apply_data h hdata]) (by rw [apply_data h hdata])
  cases a with
  | updateState impl => exact updateState_grows hnow hlast hrate h
  | updateInterestRates added taken =>
    have hrates := updateInterestRates_capped hcap h
    obtain ⟨rates, rfl⟩ := ReserveLogic.updateInterestRates_ok h
    exact .of_same hrates rfl rfl
  | cumulateToLiquidityIndex total premium =>
    obtain ⟨-, ratio, -, rfl⟩ := ReserveLogic.cumulateToLiquidityIndex_ok h
    refine .of_same ?_ ?_ ?_ <;> rw [withData_data]
    exact hrate
  | setLiquidityIndex index =>
    rw [← Except.ok.inj h]
    exact .of_same hrate rfl rfl
  | setConfiguration configuration =>
    rw [← Except.ok.inj h]
    exact .of_same hrate rfl rfl
  | setStrategy strategy =>
    rw [← Except.ok.inj h]
    exact .of_same hrate rfl rfl
  | _ => exact absurd trivial hdata

theorem run_grows (hcap : env.Capped cap) (hnow : env.timestamp < 2 ^ 40)
    (hlast : r.data.lastUpdateTimestamp ≤ env.timestamp)
    (hrate : r.data.currentVariableBorrowRate ≤ cap) (h : r.run env asset actions = .ok r') :
    GrowsWithin cap r r' := by
  induction actions generalizing r with
  | nil =>
    rw [run, Except.ok.injEq] at h
    exact .of_same (h ▸ hrate) (by rw [h]) (by rw [h])
  | cons a l ih =>
    obtain ⟨r₁, h₁, hrest⟩ := bind_ok.mp h
    have hfirst := apply_grows hcap hnow hlast hrate h₁
    have hlast₁ : r₁.data.lastUpdateTimestamp ≤ env.timestamp := by
      rcases (apply_evolves h₁).lastUpdateTimestamp with he | he
      · exact he ▸ hlast
      · exact he ▸ uint40_le _
    exact hfirst.trans (ih hlast₁ hfirst.rate hrest)

end Reserve

def Machine.Event.InEnv (allowed : Env → Prop) : Machine.Event → Prop
  | .call env _ _ => allowed env
  | .flashLoanTake .. => True
  | .flashLoanSettle env _ => allowed env

abbrev StepUnder (allowed : Env → Prop) : Machine → Machine → Prop :=
  StepIf fun _ e => e.InEnv allowed

abbrev RunUnder (allowed : Env → Prop) : Machine → Machine → Prop :=
  Relation.ReflTransGen (StepUnder allowed)

theorem StepUnder.call {allowed : Env → Prop} {m : Machine} {env : Env} {w : World}
    (sender : Address) (c : Call) (ha : allowed env) (htime : env.timestamp = m.time)
    (h : exec env m.world sender c = .ok w) : StepUnder allowed m { m with world := w } :=
  .fires (e := .call env sender c) ha (.call htime h)

structure World.GrowsWithin (cap : ℕ) (w w' : World) : Prop where
  rate : ∀ x, (w'.reserves x).data.currentVariableBorrowRate ≤ cap
  reserves : ∀ x, (w.reserves x).data.aTokenAddress ≠ 0 →
    (w'.reserves x).data.aTokenAddress ≠ 0 ∧
      (w.reserves x).GrowsWithin cap (w'.reserves x)

namespace World.GrowsWithin

variable {cap now : ℕ} {env : Env} {w w₁ w' : World} {sender asset : Address}
  {l : Address → List Action}

theorem of_reserves (hrate : ∀ x, (w.reserves x).data.currentVariableBorrowRate ≤ cap)
    (h : w'.reserves = w.reserves) : GrowsWithin cap w w' where
  rate := h ▸ hrate
  reserves x hx := by
    rw [h]
    exact ⟨hx, .of_same (hrate x) rfl rfl⟩

theorem trans (h₁ : GrowsWithin cap w w₁) (h₂ : GrowsWithin cap w₁ w') : GrowsWithin cap w w' where
  rate := h₂.rate
  reserves x hx := by
    obtain ⟨hlisted, hfirst⟩ := h₁.reserves x hx
    obtain ⟨hlisted', hrest⟩ := h₂.reserves x hlisted
    exact ⟨hlisted', hfirst.trans hrest⟩

theorem of_effect (hcap : env.Capped cap) (hnow : env.timestamp < 2 ^ 40)
    (hclock : ∀ x, (w.reserves x).data.lastUpdateTimestamp ≤ env.timestamp)
    (hrate : ∀ x, (w.reserves x).data.currentVariableBorrowRate ≤ cap) (h : Effect env l w w') :
    GrowsWithin cap w w' where
  rate x := (Reserve.run_grows hcap hnow (hclock x) (hrate x) (h.run x)).rate
  reserves x hx := by
    rw [(Reserve.run_evolves (h.run x)).aTokenAddress]
    exact ⟨hx, Reserve.run_grows hcap hnow (hclock x) (hrate x) (h.run x)⟩

theorem initReserve {proxies : LendingPool.Proxies} {strategy : Address} (hw : w.WellFormed)
    (hrate : ∀ x, (w.reserves x).data.currentVariableBorrowRate ≤ cap)
    (h : LendingPool.initReserve env w sender asset proxies strategy = .ok w') :
    GrowsWithin cap w w' := by
  obtain ⟨-, hnew, -, rfl⟩ := hw.initReserve_ok h
  constructor
  case rate =>
    intro x
    by_cases hx : x = asset
    · subst hx
      simp only [write_self]
      exact hrate x
    · simp only [write_of_ne _ _ hx]
      exact hrate x
  case reserves =>
    intro x hlisted
    have hx : x ≠ asset := fun he => hlisted (he ▸ hnew)
    simp only [write_of_ne _ _ hx]
    exact ⟨hlisted, .of_same (hrate x) rfl rfl⟩

end World.GrowsWithin

variable {cap : ℕ} {m m' : Machine}

theorem StepUnder.grows (hw : m.world.WellFormed) (hclock : m.ClockBelow)
    (hrate : ∀ x, (m.world.reserves x).data.currentVariableBorrowRate ≤ cap)
    (h : StepUnder (Env.Capped cap) m m') (hnow : m'.time < 2 ^ 40) :
    m.world.GrowsWithin cap m'.world := by
  have hlast : ∀ x, (m.world.reserves x).data.lastUpdateTimestamp ≤ m.time :=
    fun x => (hclock x).lastUpdateTimestamp
  cases h with
  | fires hcap hfires =>
    cases hfires with
    | call htime h =>
      rcases exec_effect h with ⟨l, heffect⟩ | ⟨asset, p, strategy, rfl⟩ | ⟨impl, rfl⟩
      · exact .of_effect hcap (htime ▸ hnow) (htime ▸ hlast) hrate heffect
      · exact .initReserve hw hrate h
      · rw [← Except.ok.inj h]
        exact .of_reserves hrate rfl
    | flashLoanTake h =>
      simp only [LendingPool.flashLoanTake, bind_ok, exists_unit] at h
      obtain ⟨-, -, -, h⟩ := h
      -- nothing is read from outside, so any environment of this block will do
      let env : Env := { sampleEnv m.time with strategy := fun _ => none }
      have hcap : env.Capped cap := fun _ _ hs => by cases hs
      obtain ⟨l, -, heffect⟩ := LendingPool.takeAll_effect env h
      exact .of_effect hcap hnow hlast hrate heffect
    | flashLoanSettle htime _ h =>
      obtain ⟨l, -, heffect⟩ := LendingPool.settleAll_makes h
      exact .of_effect hcap (htime ▸ hnow) (htime ▸ hlast) hrate heffect
  | tick => exact .of_reserves hrate rfl

theorem RunUnder.grows (hm : Reachable m)
    (hrate : ∀ x, (m.world.reserves x).data.currentVariableBorrowRate ≤ cap)
    (h : RunUnder (Env.Capped cap) m m') (hnow : m'.time < 2 ^ 40) :
    Reachable m' ∧ m.world.GrowsWithin cap m'.world := by
  induction h with
  | refl => exact ⟨hm, .of_reserves hrate rfl⟩
  | tail _ hs ih =>
    obtain ⟨hreachable, hrun⟩ := ih (hs.time_le.trans_lt hnow)
    exact ⟨.step hreachable hs.step, hrun.trans
      (hs.grows hreachable.wellFormed hreachable.clock hrun.rate hnow)⟩

theorem within_of_view {impl : PoolImpl} {now index : ℕ} {d : ReserveData}
    (hrate : d.currentVariableBorrowRate ≤ cap)
    (h : LendingPool.getReserveNormalizedVariableDebt impl d now = .ok index) :
    Growth.Within (perSecond cap) roundingError (now - d.lastUpdateTimestamp)
      d.variableBorrowIndex index := by
  have hnone := Growth.Within.of_le (MathUtils.perSecond_nonneg cap) MathUtils.roundingError_nonneg
    (Nat.cast_nonneg d.variableBorrowIndex) le_rfl (now - d.lastUpdateTimestamp)
  have haccrues (h : ReserveLogic.getNormalizedDebt d now = .ok index) :
      Growth.Within (perSecond cap) roundingError (now - d.lastUpdateTimestamp)
        d.variableBorrowIndex index := by
    unfold ReserveLogic.getNormalizedDebt at h
    split at h
    case isTrue => rwa [← Except.ok.inj h]
    case isFalse =>
      obtain ⟨c, hc, h⟩ := bind_ok.mp h
      obtain ⟨-, rfl⟩ := MathUtils.calculateCompoundedInterest_ok hc
      obtain ⟨-, rfl⟩ := rayMul_ok.mp h
      exact MathUtils.within_of_factor hrate _ _
  cases impl
  case withUpdateLiquidityIndex => rwa [← Except.ok.inj h]
  all_goals exact haccrues h

/-- Whoever updates a reserve and however often, over a time `t` its variable debt grows at most
as the exponential at the advertised maximum rate, with one unit of the index for each second and
the rounding of the powers of the rate. -/
theorem debt_grows_within (hm : Reachable m)
    (hrate : ∀ x, (m.world.reserves x).data.currentVariableBorrowRate ≤ cap)
    (h : RunUnder (Env.Capped cap) m m') (hnow : m'.time < 2 ^ 40) {asset index t : ℕ}
    (hlisted : (m.world.reserves asset).data.aTokenAddress ≠ 0)
    (hview : LendingPool.getReserveNormalizedVariableDebt m'.world.impl
      (m'.world.reserves asset).data m'.time = .ok index)
    (ht : t = m'.time - (m.world.reserves asset).data.lastUpdateTimestamp) :
    (m'.world.reserves asset).data.currentVariableBorrowRate ≤ cap ∧
      (index : ℝ) ≤ ((m.world.reserves asset).data.variableBorrowIndex + t) *
        Real.exp (perSecond cap * t + roundingError * t ^ 3) := by
  obtain ⟨hreachable, hrun⟩ := RunUnder.grows hm hrate h hnow
  obtain ⟨-, hgrows⟩ := hrun.reserves asset hlisted
  have hlast := (hreachable.clock asset).lastUpdateTimestamp
  have hshown := hgrows.index.trans (MathUtils.perSecond_nonneg _) MathUtils.roundingError_nonneg
    (Nat.cast_nonneg _) (within_of_view hgrows.rate hview)
  rw [← Nat.sub_add_sub_cancel hlast hgrows.later, Nat.add_comm] at ht
  rw [← ht] at hshown
  exact ⟨hgrows.rate, hshown⟩

theorem RunUnder.runAll {allowed : Env → Prop} {time : ℕ} {ts : List Transaction} {w w' : World}
    (hts : ∀ t ∈ ts, allowed t.env ∧ t.env.timestamp = time) (h : Moola.runAll w ts = .ok w') :
    RunUnder allowed ⟨w, time, []⟩ ⟨w', time, []⟩ := by
  refine runAll_preserves (P := fun w' => RunUnder allowed ⟨w, time, []⟩ ⟨w', time, []⟩) ?_ .refl h
  intro t ht w₁ w₂ hw₁ hexec
  exact hw₁.tail (.call t.sender t.call (hts t ht).1 (hts t ht).2 hexec)

theorem sampleEnv_capped (timestamp : ℕ) : (sampleEnv timestamp).Capped (5 * 10 ^ 25 + 1) := by
  intro a s hs
  obtain rfl : sampleStrategy = s := by simpa [sampleEnv] using hs
  exact ⟨5 * 10 ^ 25, by decide, by decide⟩

theorem lending_owes : (do
    let w ← Moola.runAll sampleStart lending
    let w₁ ← exec (sampleEnv 40) w 11 (.borrow 1 100 2 11)
    let index ← LendingPool.getReserveNormalizedVariableDebt w₁.impl (w₁.reserves 1).data 31536040
    return (decide ((w.reserves 1).data.aTokenAddress = 0),
      (w.reserves 1).data.lastUpdateTimestamp, (w.reserves 1).data.variableBorrowIndex,
      index)) = .ok (false, 40, 10 ^ 27, 1051270908731986166777656000) := by
  decide +kernel

theorem debt_grows_within_sample : ∃ m m' index, Reachable m ∧
    RunUnder (Env.Capped (5 * 10 ^ 25 + 1)) m m' ∧ m'.time = m.time + 31536000 ∧
    LendingPool.getReserveNormalizedVariableDebt m'.world.impl (m'.world.reserves 1).data m'.time =
      .ok index ∧
    index = 1051270908731986166777656000 ∧
    (index : ℝ) ≤ (10 ^ 27 + (31536000 : ℕ)) * Real.exp (perSecond (5 * 10 ^ 25 + 1) *
      (31536000 : ℕ) + roundingError * (31536000 : ℕ) ^ 3) := by
  obtain ⟨w, hlending, hrest⟩ := bind_ok.mp lending_owes
  obtain ⟨w₁, h₁, hrest⟩ := bind_ok.mp hrest
  obtain ⟨index, hview, hrest⟩ := bind_ok.mp hrest
  simp only [pure_ok, Prod.mk.injEq, decide_eq_false_iff_not] at hrest
  obtain ⟨hlisted, hlast, hindex, hshown⟩ := hrest
  have henvs : ∀ t ∈ lending,
      Env.Capped (5 * 10 ^ 25 + 1) t.env ∧ t.env.timestamp = 40 := by
    intro t ht
    have he : t.env = sampleEnv 40 := by
      revert t
      simp [lending, sampleListing]
    exact he ▸ ⟨sampleEnv_capped 40, rfl⟩
  have hm : Reachable ⟨w, 40, []⟩ := .sample (fun t ht => (henvs t ht).2) hlending
  have hstart : RunUnder (Env.Capped (5 * 10 ^ 25 + 1)) ⟨sampleStart, 40, []⟩ ⟨w, 40, []⟩ :=
    .runAll henvs hlending
  have hrate : ∀ x, (w.reserves x).data.currentVariableBorrowRate ≤ 5 * 10 ^ 25 + 1 :=
    (RunUnder.grows (.initial _ _ _ _) (fun _ => Nat.zero_le _) hstart (by norm_num)).2.rate
  have hborrow : StepUnder (Env.Capped (5 * 10 ^ 25 + 1)) ⟨w, 40, []⟩ ⟨w₁, 40, []⟩ :=
    .call 11 (.borrow 1 100 2 11) (sampleEnv_capped 40) rfl h₁
  have hrun : RunUnder (Env.Capped (5 * 10 ^ 25 + 1)) ⟨w, 40, []⟩ ⟨w₁, 31536040, []⟩ :=
    (Relation.ReflTransGen.single hborrow).tail (.tick 31536040 (by norm_num) rfl)
  have htime : 31536000 = 31536040 - (w.reserves 1).data.lastUpdateTimestamp := by omega
  have hgrown := (debt_grows_within hm hrate hrun (by norm_num) hlisted hview htime).2
  rw [hindex, Nat.cast_pow, Nat.cast_ofNat] at hgrown
  exact ⟨_, _, index, hm, hrun, by norm_num, hview, hshown, hgrown⟩

end Moola
