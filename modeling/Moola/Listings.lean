import Moola.Administration

/-! The scripts that list MOO and cREAL. Each is a contract that is made the admin of the pool,
lists its asset through the configurator and destroys itself. -/

namespace Moola

open Guard WadRayMath LendingPoolConfigurator

/-- The constants of a script that the pool stores. -/
structure ListingScript where
  assetAddress : Address
  stableBorrowRateEnabled : Bool
  underlyingAssetDecimals : UInt8
  interestRateStrategyAddress : Address
  treasury : Address
  baseLTV : ℕ
  liquidationThreshold : ℕ
  liquidationBonus : ℕ
  reserveFactor : ℕ

namespace ListingScript

structure State where
  world : World
  owner : Address
  destructed : Bool

section

variable (s : ListingScript) (env : Env) (deployed : LendingPool.Proxies) (script : Address)

def input : InitReserveInput where
  underlyingAsset := s.assetAddress
  proxies := { deployed with treasury := s.treasury }
  underlyingAssetDecimals := s.underlyingAssetDecimals
  interestRateStrategyAddress := s.interestRateStrategyAddress

def createReserve (w : World) : Tx World :=
  batchInitReserve env w script [s.input deployed]

def enableCollateral (w : World) : Tx World :=
  configureReserveAsCollateral env w script s.assetAddress s.baseLTV s.liquidationThreshold
    s.liquidationBonus

def enableBorrowing (w : World) : Tx World :=
  enableBorrowingOnReserve env w script s.assetAddress s.stableBorrowRateEnabled

def setReserveFactor (w : World) : Tx World :=
  LendingPoolConfigurator.setReserveFactor env w script s.assetAddress s.reserveFactor

/-- A call of a contract that is destroyed finds no code, and does nothing. -/
def execute (c : State) (sender : Address) : Tx State :=
  if c.destructed = true then .ok c
  else do
    require (c.owner = sender) .ownableCallerIsNotTheOwner
    let w ← s.createReserve env deployed script c.world
    let w ← s.enableCollateral env script w
    let w ← s.enableBorrowing env script w
    let w ← s.setReserveFactor env script w
    return { c with world := w, destructed := true }

end

def mooConfiguratorCelo : ListingScript where
  assetAddress := 0x17700282592D6917F6A73D0bF8AcCf4D578c131e
  stableBorrowRateEnabled := true
  underlyingAssetDecimals := 18
  interestRateStrategyAddress := 0x801443470c119F2eac65F13886D9e293CdecE2DF
  treasury := 0x313bc86D3D6e86ba164B2B451cB0D9CfA7943e5c
  baseLTV := 5000
  liquidationThreshold := 6500
  liquidationBonus := 11000
  reserveFactor := 1000

def mooConfiguratorAlfajores : ListingScript where
  assetAddress := 0x17700282592D6917F6A73D0bF8AcCf4D578c131e
  stableBorrowRateEnabled := true
  underlyingAssetDecimals := 18
  interestRateStrategyAddress := 0x3C06Fb2f5Ab65b0e35F91073d88afE2b017D04b8
  treasury := 0x643C574128c7C56A1835e021Ad0EcC2592E72624
  baseLTV := 5000
  liquidationThreshold := 6500
  liquidationBonus := 11000
  reserveFactor := 1000

def crealConfiguratorCelo : ListingScript where
  assetAddress := 0xe8537a3d056DA446677B9E9d6c5dB704EaAb4787
  stableBorrowRateEnabled := true
  underlyingAssetDecimals := 18
  interestRateStrategyAddress := 0xb3072f5F0d5e8B9036aEC29F37baB70E86EA0018
  treasury := 0x313bc86D3D6e86ba164B2B451cB0D9CfA7943e5c
  baseLTV := 7500
  liquidationThreshold := 8000
  liquidationBonus := 10500
  reserveFactor := 1000

def crealConfiguratorAlfajores : ListingScript where
  assetAddress := 0xE4D517785D091D3c54818832dB6094bcc2744545
  stableBorrowRateEnabled := true
  underlyingAssetDecimals := 18
  interestRateStrategyAddress := 0x5B41b0c78659636c6664f08F7cCb620ceA3F1206
  treasury := 0x643C574128c7C56A1835e021Ad0EcC2592E72624
  baseLTV := 7500
  liquidationThreshold := 8000
  liquidationBonus := 10500
  reserveFactor := 1000

def scripts : List ListingScript :=
  [mooConfiguratorCelo, mooConfiguratorAlfajores, crealConfiguratorCelo, crealConfiguratorAlfajores]

def parameters (s : ListingScript) : ReserveConfigurationMap.Field → ℕ
  | .ltv => s.baseLTV
  | .liquidationThreshold => s.liquidationThreshold
  | .liquidationBonus => s.liquidationBonus
  | .decimals => s.underlyingAssetDecimals.toNat
  | .active => 1
  | .frozen => 0
  | .borrowingEnabled => 1
  | .stableRateBorrowingEnabled => s.stableBorrowRateEnabled.toNat
  | .reserveFactor => s.reserveFactor

variable {s : ListingScript} {env : Env} {deployed : LendingPool.Proxies}
  {script sender asset : Address} {w w₁ w' : World} {c c' : State}

/-- The reserve is new, but for its place in the list, and configured as the script says. -/
structure Market (s : ListingScript) (deployed : LendingPool.Proxies) (r r' : Reserve) : Prop where
  parameters : r'.data.configuration.get = s.parameters
  fresh : ∃ id configuration, r' =
    (LendingPool.initializedReserve r (s.input deployed).proxies
      s.interestRateStrategyAddress).withData
        { (LendingPool.initializedReserve r (s.input deployed).proxies
            s.interestRateStrategyAddress).data with
          id := id
          configuration := configuration }

/-- Whatever the prices are, a manager that takes the share of the treasury covers all of a debt
that is at its limit, if the asset is its only collateral. -/
def CoversDebts (w : World) (asset : Address) : Prop :=
  ∀ (env : Env) (debtAsset : Address) (debtToCover balance collateral covered : ℕ),
    env.getAssetPrice debtAsset * debtToCover *
        tokenUnit (w.reserves asset).data.configuration.getDecimals * 10000 ≤
      balance * (env.getAssetPrice asset *
        tokenUnit (w.reserves debtAsset).data.configuration.getDecimals) *
          (w.reserves asset).data.configuration.getLiquidationThreshold →
    CollateralManager.availableCollateral env w asset debtAsset
        ((w.reserves asset).data.configuration.getLiquidationBonus +
          CollateralManager.liquidationReservePercent) debtToCover balance =
      .ok (collateral, covered) → covered = debtToCover ∧ collateral ≤ balance

theorem poolInitReserve_reserve {p : LendingPool.Proxies} {strategy : Address}
    (h : LendingPool.initReserve env w sender asset p strategy = .ok w') :
    ∃ id, w'.reserves asset =
      (LendingPool.initializedReserve (w.reserves asset) p strategy).withData
        { (LendingPool.initializedReserve (w.reserves asset) p strategy).data with id := id } := by
  simp only [LendingPool.initReserve, LendingPool.addReserveToList, bind_ok, exists_unit] at h
  obtain ⟨-, -, -, -, h⟩ := h
  split at h
  case isTrue =>
    rw [← pure_ok.mp h, World.setReserve_reserves_self]
    exact ⟨(w.reserves asset).data.id, rfl⟩
  case isFalse =>
    rw [← pure_ok.mp h]
    simp only [World.setReserve_reserves_self]
    exact ⟨_, rfl⟩

structure Configures (w : World) (asset : Address) (ss : List ReserveConfigurationMap.Setter)
    (w' : World) : Prop where
  own : ∃ c, (w.reserves asset).data.configuration.applyAll ss = .ok c ∧
    w'.reserves asset = (w.reserves asset).withData
      { (w.reserves asset).data with configuration := c }
  others : ∀ x, x ≠ asset → w'.reserves x = w.reserves x

namespace Configures

variable {ss ss' : List ReserveConfigurationMap.Setter}

theorem of_stores (h : Stores env w asset ss w') : Configures w asset ss w' := by
  obtain ⟨c, hc, h⟩ := h
  rw [setConfiguration_ok h]
  exact ⟨⟨c, hc, World.setReserve_reserves_self⟩, fun x hx => World.setReserve_reserves_of_ne hx⟩

theorem trans (h₁ : Configures w asset ss w₁) (h₂ : Configures w₁ asset ss' w') :
    Configures w asset (ss ++ ss') w' := by
  obtain ⟨⟨c, hc, hown⟩, hothers⟩ := h₁
  obtain ⟨⟨d, hd, hown'⟩, hothers'⟩ := h₂
  rw [hown] at hd hown'
  refine ⟨⟨d, ReserveConfigurationMap.applyAll_append hc hd, hown'⟩, fun x hx => ?_⟩
  rw [hothers' x hx, hothers x hx]

end Configures

def setters (s : ListingScript) : List ReserveConfigurationMap.Setter :=
  [.decimals s.underlyingAssetDecimals.toNat, .active true, .frozen false, .ltv s.baseLTV,
    .liquidationThreshold s.liquidationThreshold, .liquidationBonus s.liquidationBonus,
    .borrowingEnabled true, .stableRateBorrowingEnabled s.stableBorrowRateEnabled,
    .reserveFactor s.reserveFactor]

theorem get_setters {self c : ReserveConfigurationMap} (h : self.applyAll s.setters = .ok c) :
    c.get = s.parameters := by
  rw [ReserveConfigurationMap.get_applyAll h]
  funext f
  cases f <;> rfl

theorem execute_ok (halive : c.destructed = false)
    (h : s.execute env deployed script c sender = .ok c') :
    c.owner = sender ∧ ∃ w₁ w₂ w₃ w₄, s.createReserve env deployed script c.world = .ok w₁ ∧
      s.enableCollateral env script w₁ = .ok w₂ ∧ s.enableBorrowing env script w₂ = .ok w₃ ∧
      s.setReserveFactor env script w₃ = .ok w₄ ∧
      c' = { c with world := w₄, destructed := true } := by
  rw [execute, if_neg (by simp [halive])] at h
  simp only [bind_ok, exists_unit, require_ok, pure_ok] at h
  obtain ⟨howner, w₁, h₁, w₂, h₂, w₃, h₃, w₄, h₄, rfl⟩ := h
  exact ⟨howner, w₁, w₂, w₃, w₄, h₁, h₂, h₃, h₄, rfl⟩

theorem createReserve_ok (h : s.createReserve env deployed script w = .ok w') :
    env.poolAdmin = script ∧ ∃ w₁,
      LendingPool.initReserve env w env.lendingPoolConfigurator s.assetAddress
        (s.input deployed).proxies s.interestRateStrategyAddress = .ok w₁ ∧
      Configures w₁ s.assetAddress
        [.decimals s.underlyingAssetDecimals.toNat, .active true, .frozen false] w' := by
  simp only [createReserve, batchInitReserve, onlyPoolAdmin, bind_ok, exists_unit, require_ok,
    initReserves] at h
  obtain ⟨hadmin, w₂, h, hlast⟩ := h
  obtain rfl := Except.ok.inj hlast
  obtain ⟨w₁, h₁, hstores⟩ := initReserve_ok h
  exact ⟨hadmin, w₁, h₁, .of_stores hstores⟩

theorem configures {w₂ w₃ : World} (h₁ : Configures w s.assetAddress
      [.decimals s.underlyingAssetDecimals.toNat, .active true, .frozen false] w₁)
    (h₂ : s.enableCollateral env script w₁ = .ok w₂)
    (h₃ : s.enableBorrowing env script w₂ = .ok w₃)
    (h₄ : s.setReserveFactor env script w₃ = .ok w') :
    Configures w s.assetAddress s.setters w' := by
  rw [enableBorrowing, enableBorrowingOnReserve] at h₃
  have hcollateral := Configures.of_stores (configureReserveAsCollateral_stores h₂).2
  have hborrowing : Configures w₂ s.assetAddress [.borrowingEnabled true,
      .stableRateBorrowingEnabled s.stableBorrowRateEnabled] w₃ :=
    .of_stores (updateConfiguration_stores h₃ fun _ => rfl)
  have hfactor := Configures.of_stores (setReserveFactor_stores h₄)
  exact ((h₁.trans hcollateral).trans hborrowing).trans hfactor

theorem execute_governed {loans : List PendingLoan} (halive : c.destructed = false)
    (h : s.execute env deployed script c sender = .ok c') :
    GovernedRun ⟨c.world, env.timestamp, loans⟩ ⟨c'.world, env.timestamp, loans⟩ := by
  obtain ⟨-, w₁, w₂, w₃, w₄, h₁, h₂, h₃, h₄, rfl⟩ := execute_ok halive h
  -- no command of a script reads the emergency admin
  have hcreate : GovernedStep ⟨c.world, env.timestamp, loans⟩ ⟨w₁, env.timestamp, loans⟩ :=
    .command 0 script (.batchInitReserve [s.input deployed]) rfl h₁
  have hcollateral : GovernedStep ⟨w₁, env.timestamp, loans⟩ ⟨w₂, env.timestamp, loans⟩ :=
    .command 0 script (.configureReserveAsCollateral s.assetAddress s.baseLTV
      s.liquidationThreshold s.liquidationBonus) rfl h₂
  have hborrowing : GovernedStep ⟨w₂, env.timestamp, loans⟩ ⟨w₃, env.timestamp, loans⟩ :=
    .command 0 script (.enableBorrowingOnReserve s.assetAddress s.stableBorrowRateEnabled) rfl h₃
  have hfactor : GovernedStep ⟨w₃, env.timestamp, loans⟩ ⟨w₄, env.timestamp, loans⟩ :=
    .command 0 script (.setReserveFactor s.assetAddress s.reserveFactor) rfl h₄
  exact (((Relation.ReflTransGen.single hcreate).tail hcollateral).tail hborrowing).tail hfactor

theorem execute_market (halive : c.destructed = false)
    (h : s.execute env deployed script c sender = .ok c') :
    env.poolAdmin = script ∧ (c.world.reserves s.assetAddress).data.aTokenAddress = 0 ∧
      s.Market deployed (c.world.reserves s.assetAddress) (c'.world.reserves s.assetAddress) ∧
      ∀ x, x ≠ s.assetAddress → c'.world.reserves x = c.world.reserves x := by
  obtain ⟨-, w₁, w₂, w₃, w₄, h₁, h₂, h₃, h₄, rfl⟩ := execute_ok halive h
  obtain ⟨hadmin, w₀, h₀, hfirst⟩ := createReserve_ok h₁
  obtain ⟨hnew, -, -, hothers⟩ := poolInitReserve_ok h₀
  obtain ⟨id, hfresh⟩ := poolInitReserve_reserve h₀
  obtain ⟨⟨d, hd, hown⟩, hothers'⟩ := configures hfirst h₂ h₃ h₄
  refine ⟨hadmin, hnew, ⟨?_, id, d, ?_⟩, fun x hx => (hothers' x hx).trans (hothers x hx)⟩
  · rw [hown, Reserve.withData_data, get_setters hd]
  · rw [hown, hfresh]
    rfl

theorem covers_scripts : ∀ s ∈ scripts, s.liquidationThreshold *
    (s.liquidationBonus + CollateralManager.liquidationReservePercent) ≤ 10 ^ 8 := by
  decide

theorem Market.coversDebts {r : Reserve} (hs : s ∈ scripts)
    (h : s.Market deployed r (w.reserves s.assetAddress)) : CoversDebts w s.assetAddress := by
  have hthreshold : (w.reserves s.assetAddress).data.configuration.getLiquidationThreshold =
      s.liquidationThreshold := congrFun h.parameters .liquidationThreshold
  have hbonus : (w.reserves s.assetAddress).data.configuration.getLiquidationBonus =
      s.liquidationBonus := congrFun h.parameters .liquidationBonus
  intro env debtAsset debtToCover balance collateral covered hlimit havailable
  rw [hthreshold] at hlimit
  rw [hbonus] at havailable
  exact CollateralManager.availableCollateral_covers (covers_scripts s hs) hlimit havailable

end ListingScript

open ListingScript

variable {s : ListingScript} {env : Env} {deployed : LendingPool.Proxies} {script sender : Address}
  {c c' : State}

/-- A script that runs was called by its owner, is the admin of the pool, and lists an asset that
was not listed: all nine parameters of the configuration are the constants of the script, whatever
the word was before, the reserve is new and every other reserve stays. It is a run of the
governed pool, after which the contract is gone; and the parameters of all four scripts leave enough
collateral to liquidate a position at its limit in full. -/
theorem script_lists (hs : s ∈ scripts) (halive : c.destructed = false)
    (h : s.execute env deployed script c sender = .ok c') :
    (c.owner = sender ∧ env.poolAdmin = script ∧
      (c.world.reserves s.assetAddress).data.aTokenAddress = 0) ∧
    s.Market deployed (c.world.reserves s.assetAddress) (c'.world.reserves s.assetAddress) ∧
    (∀ x, x ≠ s.assetAddress → c'.world.reserves x = c.world.reserves x) ∧
    c'.destructed = true ∧
    (∀ loans, GovernedRun ⟨c.world, env.timestamp, loans⟩ ⟨c'.world, env.timestamp, loans⟩) ∧
    CoversDebts c'.world s.assetAddress := by
  obtain ⟨hadmin, hnew, hmarket, hothers⟩ := execute_market halive h
  obtain ⟨howner, _, _, _, _, -, -, -, -, he⟩ := execute_ok halive h
  have hgone : c'.destructed = true := by rw [he]
  exact ⟨⟨howner, hadmin, hnew⟩, hmarket, hothers, hgone,
    fun _ => ListingScript.execute_governed halive h, hmarket.coversDebts hs⟩

def mooEnv : Env := { sampleEnv 40 with poolAdmin := 55 }

theorem mooListing_runs : (do
    let c ← mooConfiguratorCelo.execute mooEnv (sampleProxies 9) 55 ⟨sampleStart, 12, false⟩ 12
    return ((c.world.reserves mooConfiguratorCelo.assetAddress).aToken.treasury,
      (c.world.reserves mooConfiguratorCelo.assetAddress).data.configuration.getLtv)) =
    .ok (0x313bc86D3D6e86ba164B2B451cB0D9CfA7943e5c, 5000) := by
  decide +kernel

theorem script_lists_sample : ∃ c : State, c.destructed = true ∧
    (c.world.reserves mooConfiguratorCelo.assetAddress).data.configuration.getLtv = 5000 ∧
    GovernedReachable ⟨c.world, 40, []⟩ ∧ CoversDebts c.world mooConfiguratorCelo.assetAddress := by
  obtain ⟨c, h, hrest⟩ := bind_ok.mp mooListing_runs
  simp only [pure_ok, Prod.mk.injEq] at hrest
  obtain ⟨-, -, -, hgone, hrun, hcovers⟩ := script_lists (by simp [scripts]) rfl h
  exact ⟨c, hgone, hrest.2, ⟨_, _, _, _, hrun []⟩, hcovers⟩

end Moola
