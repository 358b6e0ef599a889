import Moola.ConfigurationFields
import Moola.Configurator
import Moola.Roles

/-! The rest of LendingPoolConfigurator, and the pool as it is governed: the configuration of a
reserve changes through the functions of the configurator only. Each of them is one or more calls
on the pool, so governed runs are runs of the pool; and what the configurator accepts keeps the
parameters of every reserve sound. -/

namespace Moola

open Guard WadRayMath PercentageMath

namespace LendingPoolConfigurator

variable (env : Env) (w : World)

/-- What `_initReserve` reads, with the proxies that it deploys. -/
structure InitReserveInput where
  underlyingAsset : Address
  proxies : LendingPool.Proxies
  underlyingAssetDecimals : UInt8
  interestRateStrategyAddress : Address

def initReserve (input : InitReserveInput) : Tx World := do
  let w ← LendingPool.initReserve env w env.lendingPoolConfigurator input.underlyingAsset
    input.proxies input.interestRateStrategyAddress
  let currentConfig ← (w.reserves input.underlyingAsset).data.configuration.setDecimals
    input.underlyingAssetDecimals.toNat
  let currentConfig := currentConfig.setActive true
  let currentConfig := currentConfig.setFrozen false
  LendingPool.setConfiguration env w env.lendingPoolConfigurator input.underlyingAsset
    currentConfig.data

def initReserves : World → List InitReserveInput → Tx World
  | w, [] => .ok w
  | w, input :: inputs => do
    let w ← initReserve env w input
    initReserves w inputs

def batchInitReserve (sender : Address) (input : List InitReserveInput) : Tx World := do
  onlyPoolAdmin env sender
  initReserves env w input

/-- What most functions of the configurator do: read the configuration, change it in memory and
store it. -/
def updateConfiguration (sender asset : Address)
    (change : ReserveConfigurationMap → ReserveConfigurationMap) : Tx World := do
  onlyPoolAdmin env sender
  LendingPool.setConfiguration env w env.lendingPoolConfigurator asset
    (change (w.reserves asset).data.configuration).data

def enableBorrowingOnReserve (sender asset : Address) (stableBorrowRateEnabled : Bool) : Tx World :=
  updateConfiguration env w sender asset fun c =>
    (c.setBorrowingEnabled true).setStableRateBorrowingEnabled stableBorrowRateEnabled

def disableBorrowingOnReserve (sender asset : Address) : Tx World :=
  updateConfiguration env w sender asset fun c => c.setBorrowingEnabled false

def enableReserveStableRate (sender asset : Address) : Tx World :=
  updateConfiguration env w sender asset fun c => c.setStableRateBorrowingEnabled true

def disableReserveStableRate (sender asset : Address) : Tx World :=
  updateConfiguration env w sender asset fun c => c.setStableRateBorrowingEnabled false

def activateReserve (sender asset : Address) : Tx World :=
  updateConfiguration env w sender asset fun c => c.setActive true

def deactivateReserve (sender asset : Address) : Tx World := do
  onlyPoolAdmin env sender
  checkNoLiquidity (w.reserves asset)
  LendingPool.setConfiguration env w env.lendingPoolConfigurator asset
    ((w.reserves asset).data.configuration.setActive false).data

def unfreezeReserve (sender asset : Address) : Tx World :=
  updateConfiguration env w sender asset fun c => c.setFrozen false

def setReserveInterestRateStrategyAddress (sender asset rateStrategyAddress : Address) :
    Tx World := do
  onlyPoolAdmin env sender
  LendingPool.setReserveInterestRateStrategyAddress env w env.lendingPoolConfigurator asset
    rateStrategyAddress

def onlyEmergencyAdmin (emergencyAdmin sender : Address) : Tx Unit :=
  require (emergencyAdmin = sender) .lpcCallerNotEmergencyAdmin

def setPoolPause (emergencyAdmin sender : Address) (val : Bool) : Tx World := do
  onlyEmergencyAdmin emergencyAdmin sender
  LendingPool.setPause env w env.lendingPoolConfigurator val

/-- The external functions that configure reserves. The three that upgrade a token are not here. -/
inductive Command
  | batchInitReserve (input : List InitReserveInput)
  | enableBorrowingOnReserve (asset : Address) (stableBorrowRateEnabled : Bool)
  | disableBorrowingOnReserve (asset : Address)
  | configureReserveAsCollateral (asset : Address) (ltv liquidationThreshold liquidationBonus : ℕ)
  | enableReserveStableRate (asset : Address)
  | disableReserveStableRate (asset : Address)
  | activateReserve (asset : Address)
  | deactivateReserve (asset : Address)
  | freezeReserve (asset : Address)
  | unfreezeReserve (asset : Address)
  | setReserveFactor (asset : Address) (reserveFactor : ℕ)
  | setReserveInterestRateStrategyAddress (asset rateStrategyAddress : Address)
  | setPoolPause (val : Bool)

def Command.execute (emergencyAdmin sender : Address) : Command → Tx World
  | .batchInitReserve input => LendingPoolConfigurator.batchInitReserve env w sender input
  | .enableBorrowingOnReserve asset stable =>
    LendingPoolConfigurator.enableBorrowingOnReserve env w sender asset stable
  | .disableBorrowingOnReserve asset =>
    LendingPoolConfigurator.disableBorrowingOnReserve env w sender asset
  | .configureReserveAsCollateral asset ltv threshold bonus =>
    LendingPoolConfigurator.configureReserveAsCollateral env w sender asset ltv threshold bonus
  | .enableReserveStableRate asset =>
    LendingPoolConfigurator.enableReserveStableRate env w sender asset
  | .disableReserveStableRate asset =>
    LendingPoolConfigurator.disableReserveStableRate env w sender asset
  | .activateReserve asset => LendingPoolConfigurator.activateReserve env w sender asset
  | .deactivateReserve asset => LendingPoolConfigurator.deactivateReserve env w sender asset
  | .freezeReserve asset => LendingPoolConfigurator.freezeReserve env w sender asset
  | .unfreezeReserve asset => LendingPoolConfigurator.unfreezeReserve env w sender asset
  | .setReserveFactor asset factor =>
    LendingPoolConfigurator.setReserveFactor env w sender asset factor
  | .setReserveInterestRateStrategyAddress asset strategy =>
    LendingPoolConfigurator.setReserveInterestRateStrategyAddress env w sender asset strategy
  | .setPoolPause val => LendingPoolConfigurator.setPoolPause env w emergencyAdmin sender val

variable {env w} {w' : World} {sender asset : Address}

open ReserveConfigurationMap (Setter)

theorem setConfiguration_ok {configuration : BitVec 256}
    (h : LendingPool.setConfiguration env w sender asset configuration = .ok w') :
    w' = w.setReserve asset ((w.reserves asset).withData
      { (w.reserves asset).data with configuration := ⟨configuration⟩ }) := by
  simp only [LendingPool.setConfiguration, bind_unit_ok, pure_ok] at h
  exact h.2.symm

theorem poolInitReserve_ok {p : LendingPool.Proxies} {strategy : Address}
    (h : LendingPool.initReserve env w sender asset p strategy = .ok w') :
    (w.reserves asset).data.aTokenAddress = 0 ∧
    (w'.reserves asset).data.configuration = (w.reserves asset).data.configuration ∧
    (w'.reserves asset).data.aTokenAddress = p.aToken ∧
    ∀ x, x ≠ asset → w'.reserves x = w.reserves x := by
  simp only [LendingPool.initReserve, bind_ok, exists_unit, require_ok] at h
  obtain ⟨-, -, hnew, h⟩ := h
  simp only [LendingPool.addReserveToList, bind_unit_ok] at h
  obtain ⟨-, h⟩ := h
  refine ⟨hnew, ?_⟩
  split at h <;> rw [← pure_ok.mp h]
  · exact ⟨by simp [LendingPool.initializedReserve], by simp [LendingPool.initializedReserve],
      fun x hx => World.setReserve_reserves_of_ne hx⟩
  · refine ⟨by simp [LendingPool.initializedReserve], by simp [LendingPool.initializedReserve],
      fun x hx => ?_⟩
    simp only [World.setReserve_setReserve]
    exact World.setReserve_reserves_of_ne hx

def Stores (env : Env) (w : World) (asset : Address) (ss : List Setter) (w' : World) : Prop :=
  ∃ c, (w.reserves asset).data.configuration.applyAll ss = .ok c ∧
    LendingPool.setConfiguration env w env.lendingPoolConfigurator asset c.data = .ok w'

theorem initReserve_ok {input : InitReserveInput} (h : initReserve env w input = .ok w') :
    ∃ w₁, LendingPool.initReserve env w env.lendingPoolConfigurator input.underlyingAsset
        input.proxies input.interestRateStrategyAddress = .ok w₁ ∧
      Stores env w₁ input.underlyingAsset
        [.decimals input.underlyingAssetDecimals.toNat, .active true, .frozen false] w' := by
  simp only [initReserve, bind_ok] at h
  obtain ⟨w₁, h₁, config, hconfig, h⟩ := h
  exact ⟨w₁, h₁, _, bind_ok.mpr ⟨config, hconfig, rfl⟩, h⟩

theorem updateConfiguration_stores {change : ReserveConfigurationMap → ReserveConfigurationMap}
    {ss : List Setter} (h : updateConfiguration env w sender asset change = .ok w')
    (hss : ∀ c, ReserveConfigurationMap.applyAll c ss = .ok (change c)) :
    Stores env w asset ss w' :=
  ⟨_, hss _, (bind_unit_ok.mp h).2⟩

theorem setReserveFactor_stores {factor : ℕ}
    (h : setReserveFactor env w sender asset factor = .ok w') :
    Stores env w asset [.reserveFactor factor] w' := by
  simp only [setReserveFactor, bind_ok, exists_unit] at h
  obtain ⟨-, c, hc, h⟩ := h
  exact ⟨c, bind_ok.mpr ⟨c, hc, rfl⟩, h⟩

theorem freezeReserve_stores (h : freezeReserve env w sender asset = .ok w') :
    Stores env w asset [.frozen true] w' :=
  ⟨_, rfl, (bind_unit_ok.mp h).2⟩

theorem configureReserveAsCollateral_stores {ltv threshold bonus : ℕ}
    (h : configureReserveAsCollateral env w sender asset ltv threshold bonus = .ok w') :
    validateCollateral (w.reserves asset) ltv threshold bonus = .ok () ∧
      Stores env w asset [.ltv ltv, .liquidationThreshold threshold, .liquidationBonus bonus]
        w' := by
  simp only [configureReserveAsCollateral, bind_ok, exists_unit] at h
  obtain ⟨-, hvalid, c₁, h₁, c₂, h₂, c₃, h₃, h⟩ := h
  exact ⟨hvalid, c₃, bind_ok.mpr ⟨c₁, h₁, bind_ok.mpr ⟨c₂, h₂, bind_ok.mpr ⟨c₃, h₃, rfl⟩⟩⟩, h⟩

def Harmless (s : Setter) : Prop :=
  s.field ≠ .ltv ∧ s.field ≠ .liquidationThreshold ∧ s.field ≠ .liquidationBonus ∧
    s.field ≠ .decimals

theorem Command.execute_cases {c : Command} {emergencyAdmin : Address}
    (h : c.execute env w emergencyAdmin sender = .ok w') :
    (∃ input, c = .batchInitReserve input ∧ initReserves env w input = .ok w') ∨
    (∃ asset ss, (∀ s ∈ ss, Harmless s) ∧ Stores env w asset ss w') ∨
    (∃ asset ltv threshold bonus,
      validateCollateral (w.reserves asset) ltv threshold bonus = .ok () ∧
      Stores env w asset
        [.ltv ltv, .liquidationThreshold threshold, .liquidationBonus bonus] w') ∨
    (∃ asset strategy, LendingPool.setReserveInterestRateStrategyAddress env w
      env.lendingPoolConfigurator asset strategy = .ok w') ∨
    ∃ val, LendingPool.setPause env w env.lendingPoolConfigurator val = .ok w' := by
  cases c with
  | batchInitReserve input => exact .inl ⟨input, rfl, (bind_unit_ok.mp h).2⟩
  | enableBorrowingOnReserve asset stable =>
    rw [execute, LendingPoolConfigurator.enableBorrowingOnReserve] at h
    exact .inr (.inl ⟨asset, [.borrowingEnabled true, .stableRateBorrowingEnabled stable],
      by simp [Harmless, Setter.field], updateConfiguration_stores h fun _ => rfl⟩)
  | disableBorrowingOnReserve asset =>
    rw [execute, LendingPoolConfigurator.disableBorrowingOnReserve] at h
    exact .inr (.inl ⟨asset, [.borrowingEnabled false], by simp [Harmless, Setter.field],
      updateConfiguration_stores h fun _ => rfl⟩)
  | configureReserveAsCollateral asset ltv threshold bonus =>
    exact .inr (.inr (.inl ⟨asset, ltv, threshold, bonus, configureReserveAsCollateral_stores h⟩))
  | enableReserveStableRate asset =>
    rw [execute, LendingPoolConfigurator.enableReserveStableRate] at h
    exact .inr (.inl ⟨asset, [.stableRateBorrowingEnabled true],
      by simp [Harmless, Setter.field], updateConfiguration_stores h fun _ => rfl⟩)
  | disableReserveStableRate asset =>
    rw [execute, LendingPoolConfigurator.disableReserveStableRate] at h
    exact .inr (.inl ⟨asset, [.stableRateBorrowingEnabled false],
      by simp [Harmless, Setter.field], updateConfiguration_stores h fun _ => rfl⟩)
  | activateReserve asset =>
    rw [execute, LendingPoolConfigurator.activateReserve] at h
    exact .inr (.inl ⟨asset, [.active true], by simp [Harmless, Setter.field],
      updateConfiguration_stores h fun _ => rfl⟩)
  | deactivateReserve asset =>
    simp only [execute, LendingPoolConfigurator.deactivateReserve, bind_ok, exists_unit] at h
    exact .inr (.inl ⟨asset, [.active false], by simp [Harmless, Setter.field], _, rfl, h.2.2⟩)
  | freezeReserve asset =>
    exact .inr (.inl ⟨asset, [.frozen true], by simp [Harmless, Setter.field],
      freezeReserve_stores h⟩)
  | unfreezeReserve asset =>
    rw [execute, LendingPoolConfigurator.unfreezeReserve] at h
    exact .inr (.inl ⟨asset, [.frozen false], by simp [Harmless, Setter.field],
      updateConfiguration_stores h fun _ => rfl⟩)
  | setReserveFactor asset factor =>
    exact .inr (.inl ⟨asset, [.reserveFactor factor], by simp [Harmless, Setter.field],
      setReserveFactor_stores h⟩)
  | setReserveInterestRateStrategyAddress asset strategy =>
    exact .inr (.inr (.inr (.inl ⟨asset, strategy, (bind_unit_ok.mp h).2⟩)))
  | setPoolPause val => exact .inr (.inr (.inr (.inr ⟨val, (bind_unit_ok.mp h).2⟩)))

def PoolCalls (env : Env) (w w' : World) : Prop :=
  ∃ calls : List Call,
    runAll w (calls.map fun c => ⟨env, env.lendingPoolConfigurator, c⟩) = .ok w'

namespace PoolCalls

variable {w₁ : World}

theorem single (c : Call) (h : exec env w env.lendingPoolConfigurator c = .ok w') :
    PoolCalls env w w' :=
  ⟨[c], bind_ok.mpr ⟨w', h, rfl⟩⟩

theorem trans (h : PoolCalls env w w₁) (h' : PoolCalls env w₁ w') : PoolCalls env w w' := by
  obtain ⟨calls, hrun⟩ := h
  obtain ⟨calls', hrun'⟩ := h'
  refine ⟨calls ++ calls', ?_⟩
  induction calls generalizing w with
  | nil =>
    rw [← Except.ok.inj hrun] at hrun'
    exact hrun'
  | cons c calls ih =>
    obtain ⟨w₂, h₂, hrest⟩ := bind_ok.mp hrun
    exact bind_ok.mpr ⟨w₂, h₂, ih hrest⟩

theorem of_stores {ss : List Setter} (h : Stores env w asset ss w') : PoolCalls env w w' := by
  obtain ⟨c, -, h⟩ := h
  exact single (.setConfiguration asset c.data) h

theorem of_initReserves {inputs : List InitReserveInput}
    (h : initReserves env w inputs = .ok w') : PoolCalls env w w' := by
  induction inputs generalizing w with
  | nil => exact ⟨[], h⟩
  | cons input inputs ih =>
    obtain ⟨w₂, h₂, h⟩ := bind_ok.mp h
    obtain ⟨w₁, h₁, hstores⟩ := initReserve_ok h₂
    have hinit := single (.initReserve input.underlyingAsset input.proxies
      input.interestRateStrategyAddress) h₁
    exact (hinit.trans (of_stores hstores)).trans (ih h)

theorem of_execute {c : Command} {emergencyAdmin : Address}
    (h : c.execute env w emergencyAdmin sender = .ok w') : PoolCalls env w w' := by
  rcases Command.execute_cases h with ⟨input, -, h⟩ | ⟨x, ss, -, h⟩ | ⟨x, _, _, _, -, h⟩ |
    ⟨x, strategy, h⟩ | ⟨val, h⟩
  · exact of_initReserves h
  · exact of_stores h
  · exact of_stores h
  · exact single (.setReserveInterestRateStrategyAddress x strategy) h
  · exact single (.setPause val) h

theorem steps {time : ℕ} {loans : List PendingLoan} (htime : env.timestamp = time)
    (h : PoolCalls env w w') :
    Relation.ReflTransGen Step ⟨w, time, loans⟩ ⟨w', time, loans⟩ := by
  obtain ⟨calls, h⟩ := h
  induction calls generalizing w with
  | nil => rw [Except.ok.inj h]
  | cons c calls ih =>
    obtain ⟨w₁, h₁, h⟩ := bind_ok.mp h
    exact .head (.call env.lendingPoolConfigurator c htime h₁) (ih h)

end PoolCalls

end LendingPoolConfigurator

namespace ReserveConfigurationMap

variable {self c : ReserveConfigurationMap} {ss : List Setter} {f : Field}

/-- The risk parameters that the configurator accepts. -/
structure Sound (c : ReserveConfigurationMap) : Prop where
  ltv_le : c.getLtv ≤ c.getLiquidationThreshold
  disabled : c.getLiquidationThreshold = 0 → c.getLiquidationBonus = 0
  bonus : c.getLiquidationThreshold ≠ 0 → percentageFactor < c.getLiquidationBonus
  cover : c.getLiquidationThreshold ≠ 0 →
    percentProduct c.getLiquidationThreshold c.getLiquidationBonus ≤ percentageFactor

/-- No threshold reaches one hundred percent, as the bonus has to fit above it. -/
theorem Sound.threshold_lt (h : c.Sound) : c.getLiquidationThreshold < percentageFactor := by
  by_contra hge
  have hge := Nat.not_lt.mp hge
  have hne : c.getLiquidationThreshold ≠ 0 := by
    have := percentageFactor_pos
    omega
  have hbig : percentageFactor + 1 ≤
      percentProduct c.getLiquidationThreshold c.getLiquidationBonus := by
    refine HalfUp.le_of_mul_le percentageFactor_pos ?_
    rw [Nat.mul_comm]
    exact (Nat.mul_le_mul_left _ (h.bonus hne)).trans (Nat.mul_le_mul_right _ hge)
  have := h.cover hne
  omega

theorem Sound.congr (h : self.Sound) (hltv : c.get .ltv = self.get .ltv)
    (hthreshold : c.get .liquidationThreshold = self.get .liquidationThreshold)
    (hbonus : c.get .liquidationBonus = self.get .liquidationBonus) : c.Sound := by
  simp only [get] at hltv hthreshold hbonus
  constructor
  case ltv_le => rw [hltv, hthreshold]; exact h.ltv_le
  case disabled => rw [hthreshold, hbonus]; exact h.disabled
  case bonus => rw [hthreshold, hbonus]; exact h.bonus
  case cover => rw [hthreshold, hbonus]; exact h.cover

theorem get_applyAll_of_ne (h : self.applyAll ss = .ok c) (hf : ∀ s ∈ ss, s.field ≠ f) :
    c.get f = self.get f := by
  induction ss generalizing self with
  | nil => rw [← Except.ok.inj h]
  | cons s ss ih =>
    obtain ⟨c₁, h₁, h⟩ := bind_ok.mp h
    rw [ih h fun s' hs' => hf s' (List.mem_cons_of_mem s hs'), Setter.get_apply h₁,
      Function.update_of_ne (hf s List.mem_cons_self).symm]

end ReserveConfigurationMap

open LendingPoolConfigurator ReserveConfigurationMap

variable {env : Env} {w w' : World} {sender asset : Address}

theorem sound_of_validateCollateral {self c : ReserveConfigurationMap} {r : Reserve}
    {ltv threshold bonus : ℕ} (hvalid : validateCollateral r ltv threshold bonus = .ok ())
    (h : self.applyAll [.ltv ltv, .liquidationThreshold threshold, .liquidationBonus bonus] =
      .ok c) : c.Sound := by
  have hget := get_applyAll h
  have hltv : c.getLtv = ltv := congrFun hget .ltv
  have hthreshold : c.getLiquidationThreshold = threshold := congrFun hget .liquidationThreshold
  have hbonus : c.getLiquidationBonus = bonus := congrFun hget .liquidationBonus
  simp only [validateCollateral, bind_unit_ok, require_ok] at hvalid
  obtain ⟨hle, hvalid⟩ := hvalid
  constructor
  case ltv_le => rw [hltv, hthreshold]; exact hle
  all_goals
    rw [hthreshold, hbonus]
    intro hzero
    simp only [hzero, ne_eq, not_true_eq_false, not_false_eq_true, if_true, if_false, bind_ok,
      exists_unit, require_ok, percentMul_ok] at hvalid
  case disabled => exact hvalid.1
  case bonus => exact hvalid.1
  case cover =>
    obtain ⟨-, product, ⟨-, rfl⟩, hproduct⟩ := hvalid
    exact hproduct

namespace Reserve

/-- What governed steps keep of a reserve: sound parameters, and once it is listed its token and
its decimals. -/
structure Governed (r r' : Reserve) : Prop where
  sound : r.data.configuration.Sound → r'.data.configuration.Sound
  listed : r.data.aTokenAddress ≠ 0 → r'.data.aTokenAddress = r.data.aTokenAddress
  decimals : r.data.aTokenAddress ≠ 0 →
    r'.data.configuration.getDecimals = r.data.configuration.getDecimals

namespace Governed

variable {r r₁ r' : Reserve}

theorem refl (r : Reserve) : Governed r r := ⟨id, fun _ => rfl, fun _ => rfl⟩

theorem trans (h₁ : Governed r r₁) (h₂ : Governed r₁ r') : Governed r r' where
  sound h := h₂.sound (h₁.sound h)
  listed h := by
    have hmiddle : r₁.data.aTokenAddress ≠ 0 := by rw [h₁.listed h]; exact h
    rw [h₂.listed hmiddle, h₁.listed h]
  decimals h := by
    have hmiddle : r₁.data.aTokenAddress ≠ 0 := by rw [h₁.listed h]; exact h
    rw [h₂.decimals hmiddle, h₁.decimals h]

theorem of_sameTerms (h : r.SameTerms r') : Governed r r' where
  sound hr := by rw [h.configuration]; exact hr
  listed _ := h.aTokenAddress
  decimals _ := by rw [h.configuration]

end Governed

end Reserve

theorem LendingPoolConfigurator.Stores.reserves {ss : List Setter} (h : Stores env w asset ss w') :
    ∃ c, (w.reserves asset).data.configuration.applyAll ss = .ok c ∧
      w'.reserves asset = (w.reserves asset).withData
        { (w.reserves asset).data with configuration := c } ∧
      ∀ x, x ≠ asset → w'.reserves x = w.reserves x := by
  obtain ⟨c, hc, h⟩ := h
  rw [LendingPoolConfigurator.setConfiguration_ok h]
  exact ⟨c, hc, World.setReserve_reserves_self, fun x hx => World.setReserve_reserves_of_ne hx⟩

theorem LendingPoolConfigurator.Stores.governed {ss : List Setter} (h : Stores env w asset ss w')
    (hsound : ∀ c, (w.reserves asset).data.configuration.applyAll ss = .ok c →
      (w.reserves asset).data.configuration.Sound → c.Sound)
    (hdecimals : ∀ s ∈ ss, s.field ≠ .decimals) (x : Address) :
    (w.reserves x).Governed (w'.reserves x) := by
  obtain ⟨c, hc, hasset, hothers⟩ := h.reserves
  by_cases hx : x = asset
  · subst hx
    rw [hasset]
    exact ⟨hsound c hc, fun _ => rfl, fun _ => get_applyAll_of_ne hc hdecimals⟩
  · rw [hothers x hx]
    exact .refl _

theorem sound_of_harmless {self c : ReserveConfigurationMap} {ss : List Setter}
    (hss : ∀ s ∈ ss, Harmless s) (h : self.applyAll ss = .ok c) (hself : self.Sound) : c.Sound :=
  hself.congr (get_applyAll_of_ne h fun s hs => (hss s hs).1)
    (get_applyAll_of_ne h fun s hs => (hss s hs).2.1)
    (get_applyAll_of_ne h fun s hs => (hss s hs).2.2.1)

structure Reserve.ListedWith (input : InitReserveInput) (r : Reserve) : Prop where
  aTokenAddress : r.data.aTokenAddress = input.proxies.aToken
  decimals : r.data.configuration.getDecimals = input.underlyingAssetDecimals.toNat

theorem Reserve.ListedWith.governed {input : InitReserveInput} {r r' : Reserve}
    (h : r.ListedWith input) (hg : r.Governed r') : r'.ListedWith input := by
  have hlisted : r.data.aTokenAddress ≠ 0 := by
    rw [h.aTokenAddress]
    exact input.proxies.aToken_ne_zero
  exact ⟨(hg.listed hlisted).trans h.aTokenAddress, (hg.decimals hlisted).trans h.decimals⟩

theorem initReserve_governed {input : InitReserveInput}
    (h : LendingPoolConfigurator.initReserve env w input = .ok w') :
    (∀ x, (w.reserves x).Governed (w'.reserves x)) ∧
      (w'.reserves input.underlyingAsset).ListedWith input := by
  obtain ⟨w₁, h₁, hstores⟩ := LendingPoolConfigurator.initReserve_ok h
  obtain ⟨hnew, hconfig, htoken, hothers₁⟩ := poolInitReserve_ok h₁
  obtain ⟨c, hc, hasset, hothers⟩ := hstores.reserves
  rw [hconfig] at hc
  have hdecimals : c.getDecimals = input.underlyingAssetDecimals.toNat :=
    congrFun (get_applyAll hc) .decimals
  refine ⟨fun x => ?_, ?_, ?_⟩
  · by_cases hx : x = input.underlyingAsset
    · subst hx
      rw [hasset]
      refine ⟨fun hsound => hsound.congr ?_ ?_ ?_, fun h0 => absurd hnew h0,
        fun h0 => absurd hnew h0⟩
      · exact get_applyAll_of_ne hc (by simp [Setter.field])
      · exact get_applyAll_of_ne hc (by simp [Setter.field])
      · exact get_applyAll_of_ne hc (by simp [Setter.field])
    · rw [hothers x hx, hothers₁ x hx]
      exact .refl _
  · rw [hasset]
    exact htoken
  · rw [hasset]
    exact hdecimals

theorem initReserves_governed {inputs : List InitReserveInput}
    (h : initReserves env w inputs = .ok w') :
    (∀ x, (w.reserves x).Governed (w'.reserves x)) ∧
      ∀ input ∈ inputs, (w'.reserves input.underlyingAsset).ListedWith input := by
  induction inputs generalizing w with
  | nil =>
    rw [← Except.ok.inj h]
    exact ⟨fun _ => .refl _, by simp⟩
  | cons input inputs ih =>
    obtain ⟨w₁, h₁, h⟩ := bind_ok.mp h
    obtain ⟨hgoverned, hlisted⟩ := initReserve_governed h₁
    obtain ⟨hrest, hinputs⟩ := ih h
    refine ⟨fun x => (hgoverned x).trans (hrest x), fun input' hmem => ?_⟩
    rcases List.mem_cons.mp hmem with rfl | hmem
    · exact hlisted.governed (hrest _)
    · exact hinputs input' hmem

theorem execute_governed {c : Command} {emergencyAdmin : Address}
    (h : c.execute env w emergencyAdmin sender = .ok w') (x : Address) :
    (w.reserves x).Governed (w'.reserves x) := by
  rcases Command.execute_cases h with ⟨input, -, h⟩ | ⟨asset, ss, hss, h⟩ |
    ⟨asset, ltv, threshold, bonus, hvalid, h⟩ | ⟨asset, strategy, h⟩ | ⟨val, h⟩
  · exact (initReserves_governed h).1 x
  · exact h.governed (fun c => sound_of_harmless hss) (fun s hs => (hss s hs).2.2.2) x
  · exact h.governed (fun c hc _ => sound_of_validateCollateral hvalid hc)
      (by simp [Setter.field]) x
  · simp only [LendingPool.setReserveInterestRateStrategyAddress, bind_ok, exists_unit,
      pure_ok] at h
    obtain ⟨-, rfl⟩ := h
    by_cases hx : x = asset
    · subst hx
      rw [World.setReserve_reserves_self]
      exact ⟨id, fun _ => rfl, fun _ => rfl⟩
    · rw [World.setReserve_reserves_of_ne hx]
      exact .refl _
  · simp only [LendingPool.setPause, bind_ok, exists_unit, pure_ok] at h
    obtain ⟨-, rfl⟩ := h
    exact .refl _

def NotByConfigurator (env : Env) (sender : Address) (c : Call) : Prop :=
  c.onlyConfigurator = true → sender ≠ env.lendingPoolConfigurator

/-- The pool as it is governed: its users, its admins and the owner of the addresses provider do
what they like, and the configurator does what its functions do. -/
inductive GovernedStep : Machine → Machine → Prop
  | market {m m' : Machine} : StepBy NotByConfigurator m m' → GovernedStep m m'
  | command {m : Machine} {env : Env} {w : World} (emergencyAdmin sender : Address) (c : Command) :
      env.timestamp = m.time → c.execute env m.world emergencyAdmin sender = .ok w →
      GovernedStep m { m with world := w }

abbrev GovernedRun : Machine → Machine → Prop := Relation.ReflTransGen GovernedStep

def GovernedReachable (m : Machine) : Prop :=
  ∃ underlying impl self time, GovernedRun ⟨initialWorld underlying impl self, time, []⟩ m

theorem GovernedStep.simulated {m m' : Machine} (h : GovernedStep m m') :
    Relation.ReflTransGen Step m m' := by
  cases h with
  | market h => exact .single h.step
  | command emergencyAdmin sender c htime h => exact (PoolCalls.of_execute h).steps htime

theorem GovernedRun.simulated {m m' : Machine} (h : GovernedRun m m') :
    Relation.ReflTransGen Step m m' :=
  Relation.reflTransGen_closed (fun _ _ => GovernedStep.simulated) m m' h

theorem StepBy.governed {m m' : Machine} (h : StepBy NotByConfigurator m m') (x : Address) :
    (m.world.reserves x).Governed (m'.world.reserves x) := by
  cases h with
  | fires hc hfires =>
    cases hfires with
    | @call env sender c w _ h =>
      by_cases howner : ∃ impl, c = .setLendingPoolImpl impl
      · obtain ⟨impl, rfl⟩ := howner
        rw [← Except.ok.inj h]
        exact .refl _
      · have huser : ByUser env sender c := ⟨hc, fun impl himpl => howner ⟨impl, himpl⟩⟩
        exact .of_sameTerms ((World.SameTerms.exec huser h).reserves x)
    | flashLoanTake h => exact .of_sameTerms ((World.SameTerms.flashLoanTake h).reserves x)
    | flashLoanSettle _ _ h => exact .of_sameTerms ((World.SameTerms.flashLoanSettle h).reserves x)
  | tick => exact .refl _

theorem GovernedRun.governed {m m' : Machine} (h : GovernedRun m m') (x : Address) :
    (m.world.reserves x).Governed (m'.world.reserves x) := by
  induction h with
  | refl => exact .refl _
  | tail _ hs ih =>
    refine ih.trans ?_
    cases hs with
    | market h => exact h.governed x
    | command emergencyAdmin sender c _ h => exact execute_governed h x

theorem sound_zero : (⟨0⟩ : ReserveConfigurationMap).Sound where
  ltv_le := by decide
  disabled := by decide
  bonus h := absurd (by decide) h
  cover h := absurd (by decide) h

/-- Every state of a governed run is a state of the pool, and there the parameters of all assets
are sound: the ltv is at most the threshold, the threshold is below one hundred percent, an asset
with a threshold has a bonus above one hundred percent that fits above it, and an asset without one
has no bonus. -/
theorem governed_parameters_sound {m : Machine} (h : GovernedReachable m) :
    Reachable m ∧ ∀ asset, (m.world.reserves asset).data.configuration.Sound ∧
      (m.world.reserves asset).data.configuration.getLiquidationThreshold < percentageFactor := by
  obtain ⟨underlying, impl, self, time, hrun⟩ := h
  constructor
  · have hsteps := hrun.simulated
    clear hrun
    induction hsteps with
    | refl => exact .initial underlying impl self time
    | tail _ hs ih => exact .step ih hs
  · intro asset
    have hsound := (hrun.governed asset).sound sound_zero
    exact ⟨hsound, hsound.threshold_lt⟩

/-- Whatever happens after a listing, the asset keeps the aToken that was deployed for it and the
decimals that it was listed with. -/
theorem listing_is_kept {m m' : Machine} {emergencyAdmin : Address}
    {inputs : List InitReserveInput} (hlist : (Command.batchInitReserve inputs).execute env m.world
      emergencyAdmin sender = .ok w) (hrun : GovernedRun { m with world := w } m') :
    ∀ input ∈ inputs, (m'.world.reserves input.underlyingAsset).ListedWith input := by
  intro input hinput
  obtain ⟨-, hlist⟩ := bind_unit_ok.mp hlist
  exact ((initReserves_governed hlist).2 input hinput).governed (hrun.governed _)

def sampleInput : InitReserveInput := ⟨1, sampleProxies 9, 2, 104⟩

theorem governed_sample_runs : (do
    let w ← (Command.batchInitReserve [sampleInput]).execute (sampleEnv 40) sampleStart 0 7
    let w' ← (Command.configureReserveAsCollateral 1 6500 7000 10500).execute (sampleEnv 40) w 0 7
    return (w'.reserves 1).data.configuration.getLiquidationThreshold) = .ok 7000 := by
  decide +kernel

theorem governed_sample : ∃ w w', (Command.batchInitReserve [sampleInput]).execute (sampleEnv 40)
      sampleStart 0 7 = .ok w ∧
    GovernedReachable ⟨w', 40, []⟩ ∧ GovernedRun ⟨w, 40, []⟩ ⟨w', 40, []⟩ ∧
    (w'.reserves 1).data.configuration.getLiquidationThreshold = 7000 := by
  obtain ⟨w, h₁, hrest⟩ := bind_ok.mp governed_sample_runs
  obtain ⟨w', h₂, hrest⟩ := bind_ok.mp hrest
  have hlist : GovernedStep ⟨sampleStart, 40, []⟩ ⟨w, 40, []⟩ := .command 0 7 _ rfl h₁
  have hconfigure : GovernedStep ⟨w, 40, []⟩ ⟨w', 40, []⟩ := .command 0 7 _ rfl h₂
  exact ⟨w, w', h₁, ⟨_, _, _, _, (Relation.ReflTransGen.single hlist).tail hconfigure⟩,
    .single hconfigure, pure_ok.mp hrest⟩

theorem governed_parameters_sound_sample : ∃ w : World,
    (w.reserves 1).data.configuration.getLiquidationThreshold = 7000 ∧
      (w.reserves 1).data.configuration.Sound := by
  obtain ⟨-, w', -, hreach, -, hthreshold⟩ := governed_sample
  exact ⟨w', hthreshold, ((governed_parameters_sound hreach).2 1).1⟩

theorem listing_is_kept_sample : ∃ w' : World,
    (w'.reserves 1).data.configuration.getLiquidationThreshold = 7000 ∧
      (w'.reserves 1).ListedWith sampleInput := by
  obtain ⟨w, w', hlist, -, hrun, hthreshold⟩ := governed_sample
  exact ⟨w', hthreshold, listing_is_kept (m := ⟨sampleStart, 40, []⟩) hlist hrun sampleInput
    (by simp)⟩

end Moola
