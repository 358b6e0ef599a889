import Mathlib.Data.List.Nodup
import Mathlib.Data.List.Range
import Moola.WithdrawalCheck

/-! The reserve list and the ids of the reserves. A reserve counts as listed when its id
is not zero or it stands in front of the list, so the first reserve and an unlisted
asset have one id. What keeps the encoding sound is that `initReserve` adds to the list
only assets that had no aToken; then the list and the ids are inverse to each other, and
the loop over a user's account is one visit to each reserve. -/

namespace Moola

open Guard WadRayMath LendingPool

/-- The addresses that `initReserve` is called with, whatever they are, and the contracts
found behind them. -/
structure ReserveInit where
  asset : Address
  aTokenAddress : Address
  stableDebtAddress : Address
  variableDebtAddress : Address
  interestRateStrategyAddress : Address
  aToken : AToken
  stableDebtToken : StableDebtToken
  variableDebtToken : VariableDebtToken

def ReserveLogic.init (r : Reserve) (p : ReserveInit) : Tx Reserve := do
  require (r.data.aTokenAddress = 0) .rlReserveAlreadyInitialized
  return {
    data := { r.data with
      liquidityIndex := ray
      variableBorrowIndex := ray
      aTokenAddress := p.aTokenAddress
      stableDebtTokenAddress := p.stableDebtAddress
      variableDebtTokenAddress := p.variableDebtAddress
      interestRateStrategyAddress := p.interestRateStrategyAddress }
    aToken := p.aToken
    stableDebtToken := p.stableDebtToken
    variableDebtToken := p.variableDebtToken
    underlying := r.underlying }

/-- `initReserve` at any addresses. -/
def initReserveAt (env : Env) (w : World) (sender : Address) (p : ReserveInit) : Tx World := do
  onlyLendingPoolConfigurator env sender
  require (env.isContract p.asset = true) .lpNotContract
  let w ← w.onReserve p.asset fun r => ReserveLogic.init r p
  addReserveToList w p.asset

/-- The configurator passes the proxies that it has just deployed. -/
@[simps asset]
def ReserveInit.ofProxies (asset : Address) (p : Proxies) (strategy : Address) : ReserveInit where
  asset := asset
  aTokenAddress := p.aToken
  stableDebtAddress := p.stableDebtToken
  variableDebtAddress := p.variableDebtToken
  interestRateStrategyAddress := strategy
  aToken := ⟨Ledger.empty, fun _ _ => 0, p.treasury⟩
  stableDebtToken := ⟨fun _ => 0, 0, 0, fun _ => 0, fun _ => 0, 0, fun _ _ => 0⟩
  variableDebtToken := ⟨Ledger.empty, fun _ _ => 0⟩

structure InitCall where
  env : Env
  sender : Address
  init : ReserveInit

def InitCall.attempt (w : World) (t : InitCall) : World :=
  match initReserveAt t.env w t.sender t.init with
  | .ok w' => w'
  | .error _ => w

def World.listed (w : World) : List Address := (List.range w.reservesCount).map w.reservesList

namespace GenericLogic

/-- What the loop does for one reserve, at the flags of its own id. -/
def visit (env : Env) (w : World) (user asset : Address) (vars : AccountTotals) :
    Tx AccountTotals := do
  let userConfig := w.usersConfig user
  let r := w.reserves asset
  let used ← userConfig.isUsingAsCollateralOrBorrowing r.data.id
  if used = false then return vars
  else
    let price := env.getAssetPrice asset
    let collateral ← userConfig.isUsingAsCollateral r.data.id
    let vars ← applyIf (r.data.configuration.getLiquidationThreshold ≠ 0 ∧ collateral = true)
      (addCollateral env w r price user) vars
    let borrowing ← userConfig.isBorrowing r.data.id
    applyIf (borrowing = true) (addDebt env w r price user) vars

end GenericLogic

/-- The list holds each initialized reserve once, at its id. -/
structure World.Numbered (w : World) : Prop where
  count_le : w.reservesCount ≤ maxNumberOfReserves
  injective : ∀ i j, i < w.reservesCount → j < w.reservesCount →
    w.reservesList i = w.reservesList j → i = j
  id : ∀ i, i < w.reservesCount → (w.reserves (w.reservesList i)).data.id = i
  mem_listed : ∀ a, a ∈ w.listed ↔ (w.reserves a).data.aTokenAddress ≠ 0

/-- The loop over the account of a user is one visit to each reserve of the list, and asks
for no flag outside the bitmap. -/
structure World.VisitsEach (env : Env) (w : World) (user : Address) : Prop where
  once : w.listed.Nodup
  loop : GenericLogic.accountTotals env w user w.reservesCount =
    w.listed.foldlM (fun vars asset => GenericLogic.visit env w user asset vars) ⟨0, 0, 0, 0⟩
  inRange : GenericLogic.calculateUserAccountData env w user ≠ .error .ulInvalidIndex

/-- What `initReserve` keeps: the list and the ids are inverse to each other, and assets
without an aToken have left no trace in either. -/
structure World.Numbering (w : World) : Prop where
  count_le : w.reservesCount ≤ maxNumberOfReserves
  listed : ∀ a, (w.reserves a).data.aTokenAddress ≠ 0 →
    (w.reserves a).data.id < w.reservesCount ∧ w.reservesList (w.reserves a).data.id = a
  initialized : ∀ i < w.reservesCount, (w.reserves (w.reservesList i)).data.aTokenAddress ≠ 0 ∧
    (w.reserves (w.reservesList i)).data.id = i
  unlisted : ∀ i, w.reservesCount ≤ i → w.reservesList i = 0
  blank : ∀ a, (w.reserves a).data.aTokenAddress = 0 → (w.reserves a).data.id = 0

variable {env : Env} {w w' : World} {sender user : Address} {p : ReserveInit} {t : InitCall}

theorem initReserve_eq (env : Env) (w : World) (sender asset : Address) (p : Proxies)
    (strategy : Address) : initReserve env w sender asset p strategy =
      initReserveAt env w sender (.ofProxies asset p strategy) := by
  by_cases ha : (w.reserves asset).data.aTokenAddress = 0
  · simp only [initReserve, initReserveAt, World.onReserve, ReserveLogic.init,
      ReserveInit.ofProxies_asset, require_pos _ ha, ok_bind]
    rfl
  · simp [initReserve, initReserveAt, World.onReserve, ReserveLogic.init, require, ha]

namespace World

theorem mem_listed {a : Address} :
    a ∈ w.listed ↔ ∃ i, i < w.reservesCount ∧ w.reservesList i = a := by
  simp [listed]

theorem WellFormed.numbering (hw : WellFormed w) : w.Numbering where
  count_le := hw.count_le
  listed := hw.listed
  initialized := hw.initialized
  unlisted := hw.unlisted
  blank a ha := (hw.blank a ha).id

namespace Numbering

/-- A successful call puts its reserve at the end of the list: a reserve that had no aToken
is not in front of the list, and its id is still zero. -/
theorem initReserveAt_ok (hw : Numbering w) (h : initReserveAt env w sender p = .ok w') :
    w.reservesCount < maxNumberOfReserves ∧ (w.reserves p.asset).data.aTokenAddress = 0 ∧
      w'.reservesCount = w.reservesCount + 1 ∧
      w'.reservesList = write w.reservesList w.reservesCount p.asset ∧
      (w'.reserves p.asset).data.id = w.reservesCount ∧
      (w'.reserves p.asset).data.aTokenAddress = p.aTokenAddress ∧
      ∀ a, a ≠ p.asset → w'.reserves a = w.reserves a := by
  simp only [initReserveAt, bind_ok, exists_unit, require_ok, onReserve_ok] at h
  obtain ⟨-, hcontract, w₁, ⟨r, hr, rfl⟩, h⟩ := h
  simp only [ReserveLogic.init, bind_unit_ok, require_ok, pure_ok] at hr
  obtain ⟨hnew, rfl⟩ := hr
  have hzero : p.asset ≠ 0 := by
    intro h0
    rw [h0, env.zero_not_contract] at hcontract
    cases hcontract
  have hfirst : w.reservesList 0 ≠ p.asset := by
    intro he
    rcases Nat.eq_zero_or_pos w.reservesCount with h0 | hpos
    · exact hzero (he.symm.trans (hw.unlisted 0 h0.le))
    · exact (hw.initialized 0 hpos).1 (he ▸ hnew)
  have hid := hw.blank p.asset hnew
  simp only [addReserveToList, bind_unit_ok, setReserve_reservesCount,
    setReserve_reserves_self, setReserve_reservesList, setReserve_setReserve] at h
  obtain ⟨hcount, h⟩ := h
  have hsmall : w.reservesCount < 128 := require_ok.mp hcount
  have hfits : uint8 w.reservesCount = w.reservesCount := Nat.mod_eq_of_lt (by omega)
  rw [if_neg (by simp [hid, hfirst]), pure_ok, hfits] at h
  subst h
  refine ⟨hsmall, hnew, rfl, rfl, ?_, ?_, fun a ha => setReserve_reserves_of_ne ha⟩
  · rw [setReserve_reserves_self, Reserve.withData_data]
  · rw [setReserve_reserves_self, Reserve.withData_data]

theorem initReserveAt (hw : Numbering w) (ha : p.aTokenAddress ≠ 0)
    (h : initReserveAt env w sender p = .ok w') : Numbering w' := by
  obtain ⟨hsmall, hnew, hcount, hlist, hid, haToken, hothers⟩ := hw.initReserveAt_ok h
  have hne : ∀ i < w.reservesCount, w.reservesList i ≠ p.asset :=
    fun i hi he => (hw.initialized i hi).1 (he ▸ hnew)
  constructor
  case count_le => omega
  case listed =>
    intro a haa
    by_cases he : a = p.asset
    · rw [he, hid, hcount, hlist, write_self]
      exact ⟨Nat.lt_succ_self _, rfl⟩
    · rw [hothers a he] at haa ⊢
      obtain ⟨hlt, hlisted⟩ := hw.listed a haa
      rw [hcount, hlist, write_of_ne _ _ hlt.ne]
      exact ⟨by omega, hlisted⟩
  case initialized =>
    intro i hi
    by_cases he : i = w.reservesCount
    · rw [hlist, he, write_self, hid, haToken]
      exact ⟨ha, rfl⟩
    · have hlt : i < w.reservesCount := by omega
      rw [hlist, write_of_ne _ _ he, hothers _ (hne i hlt)]
      exact hw.initialized i hlt
  case unlisted =>
    intro i hi
    rw [hlist, write_of_ne _ _ (show i ≠ w.reservesCount by omega)]
    exact hw.unlisted i (by omega)
  case blank =>
    intro a haa
    by_cases he : a = p.asset
    · rw [he, haToken] at haa
      exact absurd haa ha
    · rw [hothers a he] at haa ⊢
      exact hw.blank a haa

theorem attempt (hw : Numbering w) (ha : t.init.aTokenAddress ≠ 0) :
    Numbering (InitCall.attempt w t) := by
  unfold InitCall.attempt
  split
  case h_1 w' h => exact hw.initReserveAt ha h
  case h_2 => exact hw

theorem attempts (hw : Numbering w) {ts : List InitCall}
    (hts : ∀ t ∈ ts, t.init.aTokenAddress ≠ 0) : Numbering (ts.foldl InitCall.attempt w) := by
  induction ts generalizing w with
  | nil => exact hw
  | cons t ts ih =>
    exact ih (hw.attempt (hts t List.mem_cons_self)) fun t' ht' =>
      hts t' (List.mem_cons_of_mem t ht')

theorem numbered (hw : Numbering w) : w.Numbered where
  count_le := hw.count_le
  injective i j hi hj he := by
    rw [← (hw.initialized i hi).2, ← (hw.initialized j hj).2, he]
  id i hi := (hw.initialized i hi).2
  mem_listed a := by
    rw [World.mem_listed]
    constructor
    · rintro ⟨i, hi, rfl⟩
      exact (hw.initialized i hi).1
    · exact fun ha => ⟨_, hw.listed a ha⟩

theorem withUsersConfig (hw : Numbering w) (usersConfig : Address → UserConfigurationMap) :
    Numbering { w with usersConfig } :=
  ⟨hw.count_le, hw.listed, hw.initialized, hw.unlisted, hw.blank⟩

end Numbering

end World

def Revert.InRange (e : Revert) : Prop := e ≠ .ulInvalidIndex

theorem Revert.IsOverflow.inRange {e : Revert} (h : e.IsOverflow) : e.InRange := by
  rcases h with rfl | rfl | rfl <;> simp [Revert.InRange]

namespace GenericLogic

variable {r : Reserve} {n i : ℕ} {vars : AccountTotals}

theorem sub_inRange {a b : ℕ} : FailsOnly Revert.InRange (SafeMath.sub a b) := by
  intro e he
  rw [← (SafeMath.sub_error.mp he).2]
  simp [Revert.InRange]

theorem rayMul_inRange {a b : ℕ} : FailsOnly Revert.InRange (rayMul a b) :=
  rayMul_fails.mono fun _ => Revert.IsOverflow.inRange

/-- A clock that runs backwards is caught before anything else. -/
theorem calculateLinearInterest_inRange {rate last now : ℕ} :
    FailsOnly Revert.InRange (MathUtils.calculateLinearInterest rate last now) := by
  by_cases h : last ≤ now
  · exact (MathUtils.calculateLinearInterest_fails h).mono fun _ => Revert.IsOverflow.inRange
  · exact .bind sub_inRange fun _ hexp => absurd (SafeMath.sub_ok.mp hexp).1 h

theorem calculateCompoundedInterest_inRange {rate last now : ℕ} :
    FailsOnly Revert.InRange (MathUtils.calculateCompoundedInterest rate last now) := by
  by_cases h : last ≤ now
  · exact (MathUtils.calculateCompoundedInterest_fails h).mono fun _ => Revert.IsOverflow.inRange
  · exact .bind sub_inRange fun _ hexp => absurd (SafeMath.sub_ok.mp hexp).1 h

theorem normalizedIncome_inRange {impl : PoolImpl} {d : ReserveData} {now : ℕ} :
    FailsOnly Revert.InRange (getReserveNormalizedIncome impl d now) := by
  have haccrues : FailsOnly Revert.InRange (ReserveLogic.getNormalizedIncome d now) := by
    unfold ReserveLogic.getNormalizedIncome
    split
    case isTrue => exact .ok _
    case isFalse => exact .bind calculateLinearInterest_inRange fun _ _ => rayMul_inRange
  cases impl
  case withUpdateLiquidityIndex => exact .ok _
  all_goals exact haccrues

theorem normalizedVariableDebt_inRange {impl : PoolImpl} {d : ReserveData} {now : ℕ} :
    FailsOnly Revert.InRange (getReserveNormalizedVariableDebt impl d now) := by
  have haccrues : FailsOnly Revert.InRange (ReserveLogic.getNormalizedDebt d now) := by
    unfold ReserveLogic.getNormalizedDebt
    split
    case isTrue => exact .ok _
    case isFalse => exact .bind calculateCompoundedInterest_inRange fun _ _ => rayMul_inRange
  cases impl
  case withUpdateLiquidityIndex => exact .ok _
  all_goals exact haccrues

theorem deployed_inRange {a : Address} :
    FailsOnly Revert.InRange (require (a ≠ 0) .notAContract) :=
  .require fun _ => by simp [Revert.InRange]

theorem ReadsFail.inRange (env : Env) (w : World) (user : Address) (r : Reserve) :
    ReadsFail Revert.InRange env w user r where
  aToken := .bind_unit deployed_inRange fun _ =>
    .bind normalizedIncome_inRange fun _ _ => rayMul_inRange
  stableDebt := by
    refine .bind_unit deployed_inRange fun _ => ?_
    unfold StableDebtToken.accrued
    split
    case isTrue => exact .pure _
    case isFalse => exact .bind calculateCompoundedInterest_inRange fun _ _ => rayMul_inRange
  variableDebt := by
    refine .bind_unit deployed_inRange fun _ => ?_
    dsimp only
    split
    case isTrue => exact .pure _
    case isFalse => exact .bind normalizedVariableDebt_inRange fun _ _ => rayMul_inRange

theorem calculateUserAccountData_inRange (hn : w.reservesCount ≤ 128) :
    FailsOnly Revert.InRange (calculateUserAccountData env w user) :=
  calculateUserAccountData_fails (fun _ => Revert.IsOverflow.inRange) hn
    fun _ _ => .inRange env w user _

/-- At its own id a step of the loop is the visit to the reserve. -/
theorem accountStep_eq_visit (h : (w.reserves (w.reservesList i)).data.id = i) :
    accountStep env w user i vars = visit env w user (w.reservesList i) vars := by
  simp only [accountStep, visit, h]

theorem accountTotals_eq_visits (hn : ∀ i < n, (w.reserves (w.reservesList i)).data.id = i) :
    accountTotals env w user n = ((List.range n).map w.reservesList).foldlM
      (fun vars asset => visit env w user asset vars) ⟨0, 0, 0, 0⟩ := by
  induction n with
  | zero => rfl
  | succ n ih =>
    rw [accountTotals, ih fun i hi => hn i (by omega), List.range_succ, List.map_append,
      List.foldlM_append]
    simp only [List.map_cons, List.map_nil, List.foldlM_cons, List.foldlM_nil, bind_pure]
    simp only [accountStep_eq_visit (hn n (Nat.lt_succ_self n))]

end GenericLogic

theorem World.Numbered.listed_nodup (hw : w.Numbered) : w.listed.Nodup := by
  refine List.Nodup.map_on ?_ List.nodup_range
  intro i hi j hj
  exact hw.injective i j (List.mem_range.mp hi) (List.mem_range.mp hj)

theorem World.Numbered.visitsEach (hw : w.Numbered) (env : Env) (user : Address) :
    w.VisitsEach env user where
  once := hw.listed_nodup
  loop := GenericLogic.accountTotals_eq_visits hw.id
  inRange h := GenericLogic.calculateUserAccountData_inRange hw.count_le _ h rfl

/-- However `initReserve` is called on a new pool, as long as every aToken has an address:
the list and the ids are a bijection, and over any flags of the users the loop of
`calculateUserAccountData` visits each reserve once. -/
theorem reserves_numbered (underlying : Address → ERC20) (impl : PoolImpl) (self : Address)
    (ts : List InitCall)
    (hts : ∀ t ∈ ts, t.init.asset ≠ 0 ∧ t.init.aTokenAddress ≠ 0) :
    let w := ts.foldl InitCall.attempt (initialWorld underlying impl self)
    w.Numbered ∧ ∀ env usersConfig user, World.VisitsEach env { w with usersConfig } user := by
  have hstart := (World.WellFormed.initial underlying impl self).numbering
  have hnumbering := hstart.attempts fun t ht => (hts t ht).2
  exact ⟨hnumbering.numbered, fun env usersConfig user =>
    (hnumbering.withUsersConfig usersConfig).numbered.visitsEach env user⟩

def sampleInit (asset : Address) : InitCall :=
  ⟨sampleEnv 0, 8, .ofProxies asset (sampleProxies 9) 104⟩

/-- The second call of three reverts. -/
theorem reserves_numbered_repeated :
    let w := ([1, 1, 2].map sampleInit).foldl InitCall.attempt sampleStart
    w.listed = [1, 2] ∧ w.Numbered ∧ w.VisitsEach (sampleEnv 0) 11 := by
  have h := reserves_numbered (fun _ => sampleUnderlying) .lendingPool 99
    ([1, 1, 2].map sampleInit) (by decide)
  exact ⟨by decide +kernel, h.1, h.2 (sampleEnv 0) _ 11⟩

theorem Reachable.visitsEach {m : Machine} (hm : Reachable m) (env : Env) (user : Address) :
    m.world.VisitsEach env user := hm.wellFormed.numbering.numbered.visitsEach env user

end Moola
