import Moola.Effects

/-! The frame of the pool: which reserves are listed where, and what of a reserve no
call can undo. It holds in every run. -/

namespace Moola

open Guard WadRayMath

def Action.KeepsData : Action → Prop
  | .updateState _ | .updateInterestRates .. | .cumulateToLiquidityIndex .. => False
  | .setLiquidityIndex _ | .setConfiguration _ | .setStrategy _ => False
  | _ => True

namespace Reserve

/-- What no call on a reserve takes back: its tokens and its place in the list stay, the
borrow index grows, the time of the last update is one the type holds, a token without
an address is left alone, and the address zero gets no aTokens. -/
structure Evolves (now : ℕ) (r r' : Reserve) : Prop where
  aTokenAddress : r'.data.aTokenAddress = r.data.aTokenAddress
  stableDebtTokenAddress : r'.data.stableDebtTokenAddress = r.data.stableDebtTokenAddress
  variableDebtTokenAddress : r'.data.variableDebtTokenAddress = r.data.variableDebtTokenAddress
  id : r'.data.id = r.data.id
  variableBorrowIndex : r.data.variableBorrowIndex ≤ r'.data.variableBorrowIndex
  lastUpdateTimestamp : r'.data.lastUpdateTimestamp = r.data.lastUpdateTimestamp ∨
    r'.data.lastUpdateTimestamp = uint40 now
  stableDebts : r.data.stableDebtTokenAddress = 0 →
    r'.stableDebtToken.balances = r.stableDebtToken.balances
  variableDebts : r.data.variableDebtTokenAddress = 0 →
    r'.variableDebtToken.ledger = r.variableDebtToken.ledger
  zeroHolder : r.aToken.ledger.balances 0 = 0 → r'.aToken.ledger.balances 0 = 0

namespace Evolves

variable {now : ℕ} {r r₁ r' : Reserve}

theorem refl (r : Reserve) : Evolves now r r :=
  ⟨rfl, rfl, rfl, rfl, le_rfl, .inl rfl, fun _ => rfl, fun _ => rfl, fun h => h⟩

theorem trans (h₁ : Evolves now r r₁) (h₂ : Evolves now r₁ r') : Evolves now r r' where
  aTokenAddress := h₂.aTokenAddress.trans h₁.aTokenAddress
  stableDebtTokenAddress := h₂.stableDebtTokenAddress.trans h₁.stableDebtTokenAddress
  variableDebtTokenAddress := h₂.variableDebtTokenAddress.trans h₁.variableDebtTokenAddress
  id := h₂.id.trans h₁.id
  variableBorrowIndex := h₁.variableBorrowIndex.trans h₂.variableBorrowIndex
  lastUpdateTimestamp := by
    rcases h₂.lastUpdateTimestamp with h | h
    · rw [h]
      exact h₁.lastUpdateTimestamp
    · exact .inr h
  stableDebts h := (h₂.stableDebts (h₁.stableDebtTokenAddress.trans h)).trans (h₁.stableDebts h)
  variableDebts h :=
    (h₂.variableDebts (h₁.variableDebtTokenAddress.trans h)).trans (h₁.variableDebts h)
  zeroHolder h := h₂.zeroHolder (h₁.zeroHolder h)

theorem of_eq (hd : r'.data = r.data)
    (hs : r'.stableDebtToken.balances = r.stableDebtToken.balances)
    (hv : r'.variableDebtToken.ledger = r.variableDebtToken.ledger)
    (hz : r.aToken.ledger.balances 0 = 0 → r'.aToken.ledger.balances 0 = 0) :
    Evolves now r r' := by
  constructor
  case zeroHolder => exact hz
  all_goals simp [hd, hs, hv]

end Evolves

structure Blank (r : Reserve) : Prop where
  id : r.data.id = 0
  stableDebtTokenAddress : r.data.stableDebtTokenAddress = 0
  variableDebtTokenAddress : r.data.variableDebtTokenAddress = 0
  stableDebts : ∀ u, r.stableDebtToken.balances u = 0
  variableDebts : ∀ u, r.variableDebtToken.ledger.balances u = 0

theorem Blank.evolves {now : ℕ} {r r' : Reserve} (hr : r.Blank) (h : Evolves now r r') :
    r'.Blank where
  id := h.id.trans hr.id
  stableDebtTokenAddress := h.stableDebtTokenAddress.trans hr.stableDebtTokenAddress
  variableDebtTokenAddress := h.variableDebtTokenAddress.trans hr.variableDebtTokenAddress
  stableDebts u := by
    rw [h.stableDebts hr.stableDebtTokenAddress]
    exact hr.stableDebts u
  variableDebts u := by
    rw [h.variableDebts hr.variableDebtTokenAddress]
    exact hr.variableDebts u

variable {env : Env} {asset : Address} {r r' : Reserve} {a : Action} {actions : List Action}

theorem mintDebt_data {mode : InterestRateMode} {user onBehalfOf : Address} {amount : ℕ}
    {first : Bool} (h : LendingPool.mintDebt env r mode user onBehalfOf amount = .ok (r', first)) :
    r'.data = r.data := by
  unfold LendingPool.mintDebt at h
  split at h
  case isTrue =>
    obtain ⟨-, _, _, t, -, -, -, -, rfl, -⟩ := StableDebtToken.mint_ok h
    rfl
  case isFalse =>
    obtain ⟨-, -, -, -, -, _, -, rfl⟩ := VariableDebtToken.mint_ok h
    rfl

theorem burnDebt_data {mode : InterestRateMode} {user : Address} {amount : ℕ}
    (h : LendingPool.burnDebt env r mode user amount = .ok r') : r'.data = r.data := by
  unfold LendingPool.burnDebt at h
  split at h
  case isTrue =>
    obtain ⟨-, _, t, -, -, rfl, -⟩ := StableDebtToken.burn_ok h
    rfl
  case isFalse =>
    obtain ⟨-, -, -, -, _, rfl⟩ := VariableDebtToken.burn_ok h
    rfl

theorem apply_data (h : r.apply env asset a = .ok r') (ha : a.KeepsData) : r'.data = r.data := by
  cases a with
  | pull spender sender amount =>
    obtain ⟨t, -, rfl⟩ := map_ok.mp h
    rfl
  | mint owner amount =>
    obtain ⟨⟨r₁, first⟩, h₁, rfl⟩ := map_ok.mp h
    obtain ⟨-, -, -, -, rfl⟩ := AToken.mint_ok h₁
    rfl
  | burn owner receiver amount =>
    obtain ⟨-, -, -, hs, _, rfl⟩ := AToken.burn_ok h
    rfl
  | move i sender recipient amount =>
    obtain ⟨⟨r₁, before⟩, h₁, rfl⟩ := map_ok.mp h
    obtain ⟨-, -, -, _, -, -, -, hs, rfl⟩ := AToken.move_ok h₁
    rfl
  | transferUnderlyingTo receiver amount =>
    obtain ⟨-, _, rfl⟩ := AToken.transferUnderlyingTo_ok h
    rfl
  | mintDebt mode sender onBehalfOf amount =>
    obtain ⟨⟨r₁, first⟩, h₁, rfl⟩ := map_ok.mp h
    exact mintDebt_data h₁
  | burnDebt mode owner amount => exact burnDebt_data h
  | approve owner spender amount =>
    simp only [apply, AToken.approve, bind_ok, exists_unit, pure_ok] at h
    obtain ⟨-, -, -, rfl⟩ := h
    rfl
  | updateState => exact absurd ha id
  | updateInterestRates => exact absurd ha id
  | cumulateToLiquidityIndex => exact absurd ha id
  | setLiquidityIndex => exact absurd ha id
  | setConfiguration => exact absurd ha id
  | setStrategy => exact absurd ha id
  | _ =>
    rw [← Except.ok.inj h]
    rfl

theorem mintDebt_evolves {mode : InterestRateMode} {user onBehalfOf : Address} {amount : ℕ}
    {first : Bool} {now : ℕ}
    (h : LendingPool.mintDebt env r mode user onBehalfOf amount = .ok (r', first)) :
    Evolves now r r' := by
  unfold LendingPool.mintDebt at h
  split at h
  case isTrue =>
    obtain ⟨ha, _, _, t, -, -, -, -, rfl, -⟩ := StableDebtToken.mint_ok h
    constructor <;> simp [ha]
  case isFalse =>
    obtain ⟨ha, -, -, -, -, _, -, rfl⟩ := VariableDebtToken.mint_ok h
    constructor <;> simp [ha]

theorem burnDebt_evolves {mode : InterestRateMode} {user : Address} {amount now : ℕ}
    (h : LendingPool.burnDebt env r mode user amount = .ok r') : Evolves now r r' := by
  unfold LendingPool.burnDebt at h
  split at h
  case isTrue =>
    obtain ⟨ha, _, t, -, -, rfl, -⟩ := StableDebtToken.burn_ok h
    constructor <;> simp [ha]
  case isFalse =>
    obtain ⟨ha, -, -, -, _, rfl⟩ := VariableDebtToken.burn_ok h
    constructor <;> simp [ha]

theorem updateState_evolves {impl : PoolImpl} {now : ℕ}
    (h : LendingPool.updateState impl now r = .ok r') : Evolves now r r' := by
  obtain ⟨start, -, he⟩ := LendingPool.updateState_eq impl now r
  rw [he] at h
  obtain ⟨ha, -, minted, rfl, -, hzero, -⟩ := ReserveLogic.updateStateFrom_ok h
  constructor <;> simp [ReserveLogic.le_accruedVariableBorrowIndex]
  intro h0
  split
  case isTrue ht => simp [h0, hzero ht.symm]
  case isFalse => exact h0

theorem apply_evolves (h : r.apply env asset a = .ok r') : Evolves env.timestamp r r' := by
  cases a with
  | updateState impl => exact updateState_evolves h
  | updateInterestRates added taken =>
    obtain ⟨rates, rfl⟩ := ReserveLogic.updateInterestRates_ok h
    constructor <;> simp
  | pull spender sender amount =>
    obtain ⟨t, -, rfl⟩ := map_ok.mp h
    exact .of_eq rfl rfl rfl id
  | mint user amount =>
    obtain ⟨⟨r₁, first⟩, h₁, rfl⟩ := map_ok.mp h
    obtain ⟨hu, -, -, -, rfl⟩ := AToken.mint_ok h₁
    exact .of_eq rfl rfl rfl fun h0 => by simp [hu.symm, h0]
  | burn user receiver amount =>
    obtain ⟨-, -, -, _, _, rfl⟩ := AToken.burn_ok h
    exact .of_eq rfl rfl rfl fun h0 => by simp [h0]
  | move impl sender recipient amount =>
    obtain ⟨⟨r₁, before⟩, h₁, rfl⟩ := map_ok.mp h
    obtain ⟨-, -, hrecipient, _, -, -, -, _, rfl⟩ := AToken.move_ok h₁
    exact .of_eq rfl rfl rfl fun h0 => by simp [Ledger.move_balances, hrecipient.symm, h0]
  | transferUnderlyingTo receiver amount =>
    obtain ⟨-, _, rfl⟩ := AToken.transferUnderlyingTo_ok h
    exact .of_eq rfl rfl rfl id
  | mintDebt mode user onBehalfOf amount =>
    obtain ⟨⟨r₁, first⟩, h₁, rfl⟩ := map_ok.mp h
    exact mintDebt_evolves h₁
  | burnDebt mode user amount => exact burnDebt_evolves h
  | cumulateToLiquidityIndex total premium =>
    obtain ⟨-, _, -, rfl⟩ := ReserveLogic.cumulateToLiquidityIndex_ok h
    constructor <;> simp
  | approve owner spender amount =>
    simp only [apply, AToken.approve, bind_ok, exists_unit, pure_ok] at h
    obtain ⟨-, -, -, rfl⟩ := h
    exact .of_eq rfl rfl rfl id
  | setUnderlying t =>
    rw [← Except.ok.inj h]
    exact .of_eq rfl rfl rfl id
  | approveStableDelegation delegator delegatee amount =>
    rw [← Except.ok.inj h]
    exact .of_eq rfl rfl rfl id
  | approveVariableDelegation delegator delegatee amount =>
    rw [← Except.ok.inj h]
    exact .of_eq rfl rfl rfl id
  | setLiquidityIndex index =>
    rw [← Except.ok.inj h]
    constructor <;> simp
  | setConfiguration configuration =>
    rw [← Except.ok.inj h]
    constructor <;> simp
  | setStrategy strategy =>
    rw [← Except.ok.inj h]
    constructor <;> simp

theorem run_evolves (h : r.run env asset actions = .ok r') : Evolves env.timestamp r r' :=
  run_induction h Evolves.refl (fun _ _ _ h₁ h₂ => h₁.trans h₂) fun _ _ _ _ => apply_evolves

def ReachesDebtTokens : Action → Prop
  | .mintDebt .. | .burnDebt .. => True
  | .approveStableDelegation .. | .approveVariableDelegation .. => True
  | _ => False

theorem apply_debtTokens (h : r.apply env asset a = .ok r') (ha : ¬ReachesDebtTokens a) :
    r'.stableDebtToken = r.stableDebtToken ∧ r'.variableDebtToken = r.variableDebtToken := by
  cases a with
  | updateState impl =>
    obtain ⟨start, -, he⟩ := LendingPool.updateState_eq impl env.timestamp r
    rw [apply, he] at h
    obtain ⟨-, -, minted, rfl, -⟩ := ReserveLogic.updateStateFrom_ok h
    exact ⟨rfl, rfl⟩
  | updateInterestRates added taken =>
    obtain ⟨rates, rfl⟩ := ReserveLogic.updateInterestRates_ok h
    exact ⟨rfl, rfl⟩
  | pull spender sender amount =>
    obtain ⟨t, -, rfl⟩ := map_ok.mp h
    exact ⟨rfl, rfl⟩
  | mint user amount =>
    obtain ⟨⟨r₁, first⟩, h₁, rfl⟩ := map_ok.mp h
    obtain ⟨-, -, -, -, rfl⟩ := AToken.mint_ok h₁
    exact ⟨rfl, rfl⟩
  | burn user receiver amount =>
    obtain ⟨-, -, -, _, _, rfl⟩ := AToken.burn_ok h
    exact ⟨rfl, rfl⟩
  | move impl sender recipient amount =>
    obtain ⟨⟨r₁, before⟩, h₁, rfl⟩ := map_ok.mp h
    obtain ⟨-, -, -, _, -, -, -, _, rfl⟩ := AToken.move_ok h₁
    exact ⟨rfl, rfl⟩
  | transferUnderlyingTo receiver amount =>
    obtain ⟨-, _, rfl⟩ := AToken.transferUnderlyingTo_ok h
    exact ⟨rfl, rfl⟩
  | mintDebt mode user onBehalfOf amount => exact absurd trivial ha
  | burnDebt mode user amount => exact absurd trivial ha
  | cumulateToLiquidityIndex total premium =>
    obtain ⟨-, _, -, rfl⟩ := ReserveLogic.cumulateToLiquidityIndex_ok h
    simp only [withData_stableDebtToken, withData_variableDebtToken, and_self]
  | setLiquidityIndex index =>
    rw [← Except.ok.inj h]
    simp only [withData_stableDebtToken, withData_variableDebtToken, and_self]
  | approve owner spender amount =>
    simp only [apply, AToken.approve, bind_ok, exists_unit, pure_ok] at h
    obtain ⟨-, -, -, rfl⟩ := h
    exact ⟨rfl, rfl⟩
  | approveStableDelegation delegator delegatee amount => exact absurd trivial ha
  | approveVariableDelegation delegator delegatee amount => exact absurd trivial ha
  | _ =>
    rw [← Except.ok.inj h]
    exact ⟨rfl, rfl⟩

end Reserve

namespace World

/-- The list of the reserves is a numbering of the initialized ones, these have borrow
indexes of at least one ray, and what is not initialized has no debts. -/
structure WellFormed (w : World) : Prop where
  count_le : w.reservesCount ≤ maxNumberOfReserves
  listed : ∀ a, (w.reserves a).data.aTokenAddress ≠ 0 →
    (w.reserves a).data.id < w.reservesCount ∧ w.reservesList (w.reserves a).data.id = a
  initialized : ∀ i < w.reservesCount, (w.reserves (w.reservesList i)).data.aTokenAddress ≠ 0 ∧
    (w.reserves (w.reservesList i)).data.id = i
  unlisted : ∀ i, w.reservesCount ≤ i → w.reservesList i = 0
  noZero : (w.reserves 0).data.aTokenAddress = 0
  blank : ∀ a, (w.reserves a).data.aTokenAddress = 0 → (w.reserves a).Blank
  indexed : ∀ a, (w.reserves a).data.aTokenAddress ≠ 0 →
    ray ≤ (w.reserves a).data.variableBorrowIndex
  updated : ∀ a, (w.reserves a).data.lastUpdateTimestamp < 2 ^ 40
  noZeroHolder : ∀ a, (w.reserves a).aToken.ledger.balances 0 = 0

namespace WellFormed

variable {env : Env} {w w' : World} {l : Address → List Action}

theorem initial (underlying : Address → ERC20) (impl : PoolImpl) (self : Address) :
    WellFormed (initialWorld underlying impl self) where
  count_le := Nat.zero_le _
  listed _ h := absurd rfl h
  initialized _ h := absurd h (Nat.not_lt_zero _)
  unlisted _ _ := rfl
  noZero := rfl
  blank _ _ := ⟨rfl, rfl, rfl, fun _ => rfl, fun _ => rfl⟩
  indexed _ h := absurd rfl h
  updated _ := by norm_num [initialWorld, emptyReserve]
  noZeroHolder _ := rfl

theorem effect (hw : WellFormed w) (h : Effect env l w w') : WellFormed w' := by
  have hev : ∀ a, (w.reserves a).Evolves env.timestamp (w'.reserves a) :=
    fun a => Reserve.run_evolves (h.run a)
  constructor
  case count_le => rw [h.reservesCount]; exact hw.count_le
  case listed =>
    intro a ha
    rw [(hev a).aTokenAddress] at ha
    rw [(hev a).id, h.reservesCount, h.reservesList]
    exact hw.listed a ha
  case initialized =>
    intro i hi
    rw [h.reservesCount] at hi
    rw [h.reservesList, (hev _).aTokenAddress, (hev _).id]
    exact hw.initialized i hi
  case unlisted =>
    intro i hi
    rw [h.reservesCount] at hi
    rw [h.reservesList]
    exact hw.unlisted i hi
  case noZero => rw [(hev 0).aTokenAddress]; exact hw.noZero
  case blank =>
    intro a ha
    rw [(hev a).aTokenAddress] at ha
    exact (hw.blank a ha).evolves (hev a)
  case indexed =>
    intro a ha
    rw [(hev a).aTokenAddress] at ha
    exact (hw.indexed a ha).trans (hev a).variableBorrowIndex
  case updated =>
    intro a
    rcases (hev a).lastUpdateTimestamp with ht | ht
    · rw [ht]
      exact hw.updated a
    · rw [ht]
      exact uint40_lt _
  case noZeroHolder => exact fun a => (hev a).zeroHolder (hw.noZeroHolder a)

theorem initReserve_ok {sender asset strategy : Address} {p : LendingPool.Proxies}
    (hw : WellFormed w) (h : LendingPool.initReserve env w sender asset p strategy = .ok w') :
    asset ≠ 0 ∧ (w.reserves asset).data.aTokenAddress = 0 ∧ w.reservesCount < 128 ∧
      w' = { w with
        reserves := write w.reserves asset
          ((LendingPool.initializedReserve (w.reserves asset) p strategy).withData
            { (LendingPool.initializedReserve (w.reserves asset) p strategy).data with
              id := w.reservesCount })
        reservesList := write w.reservesList w.reservesCount asset
        reservesCount := w.reservesCount + 1 } := by
  simp only [LendingPool.initReserve, bind_ok, exists_unit, require_ok] at h
  obtain ⟨-, hcontract, hnew, h⟩ := h
  have hzero : asset ≠ 0 := by
    rintro rfl
    rw [env.zero_not_contract] at hcontract
    cases hcontract
  simp only [LendingPool.addReserveToList, bind_unit_ok, World.setReserve_reservesCount,
    World.setReserve_reserves_self, World.setReserve_reservesList] at h
  obtain ⟨hcount, h⟩ := h
  have hfirst : w.reservesList 0 ≠ asset := by
    intro he
    by_cases hpos : 0 < w.reservesCount
    · exact (hw.initialized 0 hpos).1 (he ▸ hnew)
    · exact hzero (he.symm.trans (hw.unlisted 0 (by omega)))
  have hid : (LendingPool.initializedReserve (w.reserves asset) p strategy).data.id = 0 :=
    (hw.blank asset hnew).id
  rw [if_neg (by simp [hid, hfirst]), pure_ok] at h
  have hsmall : w.reservesCount < 128 := require_ok.mp hcount
  have hfits : uint8 w.reservesCount = w.reservesCount := Nat.mod_eq_of_lt (by omega)
  refine ⟨hzero, hnew, hsmall, h.symm.trans ?_⟩
  simp only [World.setReserve_setReserve, hfits]
  rfl

theorem initReserve {sender asset strategy : Address} {p : LendingPool.Proxies}
    (hw : WellFormed w) (h : LendingPool.initReserve env w sender asset p strategy = .ok w') :
    WellFormed w' := by
  obtain ⟨hzero, hnew, hsmall, rfl⟩ := initReserve_ok hw h
  have hne : ∀ i < w.reservesCount, w.reservesList i ≠ asset := by
    intro i hi he
    exact (hw.initialized i hi).1 (he ▸ hnew)
  constructor
  case count_le => exact hsmall
  case listed =>
    intro a ha
    by_cases he : a = asset
    · subst he
      simp
    · simp only [write_of_ne _ _ he] at ha ⊢
      obtain ⟨hlt, hlist⟩ := hw.listed a ha
      exact ⟨by omega, by rw [write_of_ne _ _ hlt.ne, hlist]⟩
  case initialized =>
    intro i hi
    by_cases he : i = w.reservesCount
    · subst he
      simp [LendingPool.initializedReserve, p.aToken_ne_zero]
    · have hlt : i < w.reservesCount := by
        simp only at hi
        omega
      simp only [write_of_ne _ _ he, write_of_ne _ _ (hne i hlt)]
      exact hw.initialized i hlt
  case unlisted =>
    intro i hi
    simp only at hi ⊢
    rw [write_of_ne _ _ (show i ≠ w.reservesCount by omega)]
    exact hw.unlisted i (by omega)
  case noZero =>
    simp only [write_of_ne _ _ hzero.symm]
    exact hw.noZero
  case indexed =>
    intro a ha
    by_cases he : a = asset
    · subst he
      simp [LendingPool.initializedReserve]
    · simp only [write_of_ne _ _ he] at ha ⊢
      exact hw.indexed a ha
  case updated =>
    intro a
    by_cases he : a = asset
    · subst he
      simpa [LendingPool.initializedReserve] using hw.updated a
    · simp only [write_of_ne _ _ he]
      exact hw.updated a
  case noZeroHolder =>
    intro a
    by_cases he : a = asset
    · subst he
      simp [LendingPool.initializedReserve, Ledger.empty]
    · simp only [write_of_ne _ _ he]
      exact hw.noZeroHolder a
  case blank =>
    intro a ha
    by_cases he : a = asset
    · subst he
      exact absurd ha (by simp [LendingPool.initializedReserve, p.aToken_ne_zero])
    · simp only [write_of_ne _ _ he] at ha ⊢
      exact hw.blank a ha

theorem exec {sender : Address} {c : Call} (hw : WellFormed w)
    (h : Moola.exec env w sender c = .ok w') : WellFormed w' := by
  rcases exec_effect h with ⟨l, heffect⟩ | ⟨asset, p, strategy, rfl⟩ | ⟨impl, rfl⟩
  · exact hw.effect heffect
  · exact hw.initReserve h
  · rw [← Except.ok.inj h]
    exact { hw with }

theorem exec_impl {sender : Address} {c : Call} (hw : WellFormed w)
    (hc : ∀ impl, c ≠ .setLendingPoolImpl impl) (h : Moola.exec env w sender c = .ok w') :
    w'.impl = w.impl := by
  rcases exec_effect h with ⟨l, heffect⟩ | ⟨asset, p, strategy, rfl⟩ | ⟨impl, rfl⟩
  · exact heffect.impl
  · obtain ⟨-, -, -, rfl⟩ := hw.initReserve_ok h
    rfl
  · exact absurd rfl (hc impl)

end WellFormed

end World

theorem World.WellFormed.step {m m' : Machine} (hm : m.world.WellFormed) (h : Step m m') :
    m'.world.WellFormed := by
  obtain ⟨-, hfires⟩ | ⟨later, -, -⟩ := h
  · obtain ⟨env, l, -, -, heffect⟩ | ⟨env, sender, asset, p, strategy, -, hnew⟩ |
      ⟨env, sender, impl, -, himpl⟩ := hfires.makes
    · exact hm.effect heffect
    · exact hm.initReserve hnew
    · rw [himpl]
      exact { hm with }
  · exact hm

theorem Reachable.wellFormed {m : Machine} (h : Reachable m) : m.world.WellFormed :=
  @Reachable.invariant (fun m => m.world.WellFormed)
    (fun underlying impl self _ => World.WellFormed.initial underlying impl self)
    (fun _ _ hm hs => hm.step hs) m h

def World.Deployed (w : World) : Prop :=
  ∀ a, (w.reserves a).data.aTokenAddress ≠ 0 →
    (w.reserves a).data.stableDebtTokenAddress ≠ 0 ∧
      (w.reserves a).data.variableDebtTokenAddress ≠ 0

theorem Effect.deployed {env : Env} {l : Address → List Action} {w w' : World}
    (h : Effect env l w w') (hw : w.Deployed) : w'.Deployed := by
  intro a ha
  have hev := Reserve.run_evolves (h.run a)
  rw [hev.aTokenAddress] at ha
  rw [hev.stableDebtTokenAddress, hev.variableDebtTokenAddress]
  exact hw a ha

theorem World.Deployed.step {m m' : Machine} (hm : m.world.WellFormed) (hd : m.world.Deployed)
    (h : Step m m') : m'.world.Deployed := by
  obtain ⟨-, hfires⟩ | ⟨later, -, -⟩ := h
  · obtain ⟨env, l, -, -, heffect⟩ | ⟨env, sender, asset, p, strategy, -, hnew⟩ |
      ⟨env, sender, impl, -, himpl⟩ := hfires.makes
    · exact heffect.deployed hd
    · obtain ⟨-, -, -, hlisted⟩ := hm.initReserve_ok hnew
      rw [hlisted]
      intro a ha
      by_cases he : a = asset
      · subst he
        simp [LendingPool.initializedReserve, p.stableDebtToken_ne_zero,
          p.variableDebtToken_ne_zero]
      · simp only [write_of_ne _ _ he] at ha ⊢
        exact hd a ha
    · rw [himpl]
      exact hd
  · exact hd

theorem Reachable.deployed {m : Machine} (h : Reachable m) : m.world.Deployed := by
  induction h with
  | initial underlying impl self time => exact fun a ha => absurd rfl ha
  | step hm hs ih => exact ih.step hm.wellFormed hs

end Moola
