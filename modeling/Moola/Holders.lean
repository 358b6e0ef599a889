import Moola.Clock

/-! Whose the tokens are. In every run finitely many accounts have all aTokens and all scaled
variable debt of a reserve: nothing that was minted is lost, and nothing is counted twice. -/

namespace Moola

open Guard WadRayMath
open scoped BigOperators

namespace Reserve

structure Owned (r : Reserve) (holders : Finset Address) : Prop where
  deposits : r.aToken.ledger.Owned holders
  debts : r.variableDebtToken.ledger.Owned holders

variable {env : Env} {asset : Address} {r r' : Reserve} {s t : Finset Address} {a : Action}
  {actions : List Action}

namespace Owned

theorem mono (h : r.Owned s) (hs : s ⊆ t) : r.Owned t := ⟨h.deposits.mono hs, h.debts.mono hs⟩

theorem withData (h : r.Owned s) (d : ReserveData) : (r.withData d).Owned s :=
  ⟨h.deposits, h.debts⟩

theorem withStable (h : r.Owned s) (t : StableDebtToken) : (r.withStable t).Owned s :=
  ⟨h.deposits, h.debts⟩

theorem withUnderlying (h : r.Owned s) (t : ERC20) : (r.withUnderlying t).Owned s :=
  ⟨h.deposits, h.debts⟩

theorem withALedger (h : r.Owned s) {x : Address} {l : Ledger Address}
    (hl : l.Owned (insert x s)) : (r.withALedger l).Owned (insert x s) :=
  ⟨hl, h.debts.mono (Finset.subset_insert x s)⟩

theorem withDebts (h : r.Owned s) {x : Address} {t : VariableDebtToken}
    (ht : t.ledger.Owned (insert x s)) :
    Owned { r with variableDebtToken := t } (insert x s) :=
  ⟨h.deposits.mono (Finset.subset_insert x s), ht⟩

theorem mintDebt {mode : InterestRateMode} {user onBehalfOf : Address} {amount : ℕ} {first : Bool}
    (hr : r.Owned s)
    (h : LendingPool.mintDebt env r mode user onBehalfOf amount = .ok (r', first)) :
    ∃ t, r'.Owned t := by
  unfold LendingPool.mintDebt at h
  split at h
  case isTrue =>
    obtain ⟨-, _, _, t, -, -, -, -, rfl, -⟩ := StableDebtToken.mint_ok h
    exact ⟨_, hr.withStable t⟩
  case isFalse =>
    obtain ⟨-, -, -, -, -, _, -, rfl⟩ := VariableDebtToken.mint_ok h
    exact ⟨_, hr.withDebts hr.debts.credit⟩

theorem burnDebt {mode : InterestRateMode} {user : Address} {amount : ℕ} (hr : r.Owned s)
    (h : LendingPool.burnDebt env r mode user amount = .ok r') : ∃ t, r'.Owned t := by
  unfold LendingPool.burnDebt at h
  split at h
  case isTrue =>
    obtain ⟨-, _, t, -, -, rfl, -⟩ := StableDebtToken.burn_ok h
    exact ⟨_, hr.withStable t⟩
  case isFalse =>
    obtain ⟨-, -, -, -, hs, rfl⟩ := VariableDebtToken.burn_ok h
    exact ⟨_, hr.withDebts (hr.debts.debit hs)⟩

theorem apply (hr : r.Owned s) (h : r.apply env asset a = .ok r') : ∃ t, r'.Owned t := by
  cases a with
  | updateState impl =>
    obtain ⟨start, -, he⟩ := LendingPool.updateState_eq impl env.timestamp r
    rw [Reserve.apply, he] at h
    obtain ⟨-, -, minted, rfl, -⟩ := ReserveLogic.updateStateFrom_ok h
    exact ⟨_, (hr.withData _).withALedger hr.deposits.credit⟩
  | updateInterestRates added taken =>
    obtain ⟨rates, rfl⟩ := ReserveLogic.updateInterestRates_ok h
    exact ⟨_, hr.withData _⟩
  | pull spender sender amount =>
    obtain ⟨t, -, rfl⟩ := map_ok.mp h
    exact ⟨_, hr.withUnderlying t⟩
  | mint user amount =>
    obtain ⟨⟨r₁, first⟩, h₁, rfl⟩ := map_ok.mp h
    obtain ⟨-, -, -, -, rfl⟩ := AToken.mint_ok h₁
    exact ⟨_, hr.withALedger hr.deposits.credit⟩
  | burn user receiver amount =>
    obtain ⟨-, -, -, hs, _, rfl⟩ := AToken.burn_ok h
    exact ⟨_, (hr.withALedger (hr.deposits.debit hs)).withUnderlying _⟩
  | move impl sender recipient amount =>
    obtain ⟨⟨r₁, before⟩, h₁, rfl⟩ := map_ok.mp h
    obtain ⟨-, -, -, _, -, -, -, hs, rfl⟩ := AToken.move_ok h₁
    exact ⟨_, (hr.mono (Finset.subset_insert sender s)).withALedger (hr.deposits.move hs)⟩
  | transferUnderlyingTo receiver amount =>
    obtain ⟨-, _, rfl⟩ := AToken.transferUnderlyingTo_ok h
    exact ⟨_, hr.withUnderlying _⟩
  | mintDebt mode user onBehalfOf amount =>
    obtain ⟨⟨r₁, first⟩, h₁, rfl⟩ := map_ok.mp h
    exact hr.mintDebt h₁
  | burnDebt mode user amount => exact hr.burnDebt h
  | cumulateToLiquidityIndex total premium =>
    obtain ⟨-, _, -, rfl⟩ := ReserveLogic.cumulateToLiquidityIndex_ok h
    exact ⟨_, hr.withData _⟩
  | approve owner spender amount =>
    simp only [Reserve.apply, AToken.approve, bind_ok, exists_unit, pure_ok] at h
    obtain ⟨-, -, -, rfl⟩ := h
    exact ⟨s, hr.deposits, hr.debts⟩
  | approveStableDelegation delegator delegatee amount =>
    rw [← Except.ok.inj h]
    exact ⟨_, hr.withStable _⟩
  | approveVariableDelegation delegator delegatee amount =>
    rw [← Except.ok.inj h]
    exact ⟨s, hr.deposits, hr.debts⟩
  | setUnderlying t =>
    rw [← Except.ok.inj h]
    exact ⟨_, hr.withUnderlying t⟩
  | setLiquidityIndex index =>
    rw [← Except.ok.inj h]
    exact ⟨_, hr.withData _⟩
  | setConfiguration configuration =>
    rw [← Except.ok.inj h]
    exact ⟨_, hr.withData _⟩
  | setStrategy strategy =>
    rw [← Except.ok.inj h]
    exact ⟨_, hr.withData _⟩

theorem run (hr : r.Owned s) (h : r.run env asset actions = .ok r') : ∃ t, r'.Owned t := by
  induction actions generalizing r s with
  | nil =>
    rw [Reserve.run, Except.ok.injEq] at h
    exact ⟨s, h ▸ hr⟩
  | cons a l ih =>
    obtain ⟨r₁, h₁, hrest⟩ := bind_ok.mp h
    obtain ⟨t, ht⟩ := hr.apply h₁
    exact ih ht hrest

end Owned

end Reserve

def World.Owned (w : World) : Prop := ∀ x, ∃ holders, (w.reserves x).Owned holders

variable {env : Env} {w w' : World} {m m' : Machine}

theorem Effect.owned {l : Address → List Action} (h : Effect env l w w') (hw : w.Owned) :
    w'.Owned := by
  intro x
  obtain ⟨holders, hx⟩ := hw x
  exact hx.run (h.run x)

theorem initReserve_owned {sender asset strategy : Address} {p : LendingPool.Proxies}
    (hwf : w.WellFormed) (hw : w.Owned)
    (h : LendingPool.initReserve env w sender asset p strategy = .ok w') : w'.Owned := by
  obtain ⟨-, -, -, rfl⟩ := hwf.initReserve_ok h
  intro x
  by_cases hx : x = asset
  · subst hx
    simp only [write_self]
    exact ⟨∅, .empty, .empty⟩
  · simp only [write_of_ne _ _ hx]
    exact hw x

theorem Step.owned (hwf : m.world.WellFormed) (hw : m.world.Owned) (h : Step m m') :
    m'.world.Owned := by
  obtain ⟨-, hfires⟩ | ⟨later, -, -⟩ := h
  · obtain ⟨env, l, -, -, heffect⟩ | ⟨env, sender, asset, p, strategy, -, hnew⟩ |
      ⟨env, sender, impl, -, himpl⟩ := hfires.makes
    · exact heffect.owned hw
    · exact initReserve_owned hwf hw hnew
    · rw [himpl]
      exact hw
  · exact hw

theorem Reachable.owned (h : Reachable m) : m.world.Owned := by
  induction h with
  | initial underlying impl self time => exact fun x => ⟨∅, .empty, .empty⟩
  | step hm hs ih => exact hs.owned hm.wellFormed ih

theorem shown_adds_up {l : Ledger Address} {holders : Finset Address} (hl : l.Owned holders)
    {index : ℕ} {shown : Address → ℕ}
    (hshown : ∀ u ∈ holders, shown u = rayProduct (l.balances u) index) :
    2 * |∑ u ∈ holders, (shown u : ℤ) - rayProduct l.totalSupply index| ≤ holders.card + 1 := by
  have hparts := HalfUp.abs_sum_div_sub_le holders (fun u => l.balances u * index) ray_pos
  have hwhole : ∑ u ∈ holders, l.balances u * index = l.totalSupply * index := by
    rw [← Finset.sum_mul, hl]
  rw [hwhole] at hparts
  rwa [Finset.sum_congr rfl fun u hu => congrArg Nat.cast (hshown u hu)]

namespace Reserve.Owned

variable {r : Reserve} {holders : Finset Address} {impl : PoolImpl} {now total : ℕ}
  {shown : Address → ℕ}

theorem deposits_add_up (hr : r.Owned holders)
    (hshown : ∀ u ∈ holders, AToken.balanceOf impl now r u = .ok (shown u))
    (htotal : AToken.totalSupply impl now r = .ok total) :
    2 * |∑ u ∈ holders, (shown u : ℤ) - total| ≤ holders.card + 1 := by
  rcases AToken.totalSupply_ok htotal with ⟨hnone, rfl⟩ | ⟨-, index, hindex, rfl⟩
  · -- nobody has anything, so every index shows nothing
    have hzero : ∀ u ∈ holders, shown u = rayProduct (r.aToken.ledger.balances u) 0 := by
      intro u hu
      have hbalance : r.aToken.ledger.balances u = 0 :=
        Nat.eq_zero_of_le_zero (hnone ▸ r.aToken.ledger.balance_le u)
      obtain ⟨-, _, -, -, he⟩ := AToken.balanceOf_ok.mp (hshown u hu)
      rw [← he, hbalance, rayProduct_zero_left, rayProduct_zero_left]
    have h := shown_adds_up hr.deposits hzero
    rwa [hnone, rayProduct_zero_left] at h
  · refine shown_adds_up hr.deposits fun u hu => ?_
    obtain ⟨-, index', hindex', -, he⟩ := AToken.balanceOf_ok.mp (hshown u hu)
    obtain rfl := Except.ok.inj (hindex.symm.trans hindex')
    exact he.symm

theorem debts_add_up (hr : r.Owned holders)
    (hshown : ∀ u ∈ holders, VariableDebtToken.balanceOf impl now r u = .ok (shown u))
    (htotal : VariableDebtToken.totalSupply impl now r = .ok total) :
    2 * |∑ u ∈ holders, (shown u : ℤ) - total| ≤ holders.card + 1 := by
  simp only [VariableDebtToken.totalSupply, scaledBy, bind_ok, exists_unit, rayMul_ok] at htotal
  obtain ⟨-, index, hindex, -, rfl⟩ := htotal
  refine shown_adds_up hr.debts fun u hu => ?_
  obtain ⟨-, ⟨hzero, he⟩ | ⟨-, index', hindex', he⟩⟩ := VariableDebtToken.balanceOf_ok (hshown u hu)
  · rw [he, hzero, rayProduct_zero_left]
  · obtain rfl := Except.ok.inj (hindex.symm.trans hindex')
    exact he

end Reserve.Owned

/-- In every state of every run the scaled supplies of the aToken and of the variable debt token
are exactly what their holders have, and the balances that are shown to the holders at any time
add up to the supply that is shown, but for the half unit that each is rounded by. -/
theorem balances_add_up (h : Reachable m) (asset : Address) : ∃ holders : Finset Address,
    (m.world.reserves asset).Owned holders ∧
    ∀ (impl : PoolImpl) (now : ℕ) (shown : Address → ℕ) (total : ℕ),
      ((∀ u ∈ holders, AToken.balanceOf impl now (m.world.reserves asset) u = .ok (shown u)) ∧
          AToken.totalSupply impl now (m.world.reserves asset) = .ok total ∨
        (∀ u ∈ holders,
            VariableDebtToken.balanceOf impl now (m.world.reserves asset) u = .ok (shown u)) ∧
          VariableDebtToken.totalSupply impl now (m.world.reserves asset) = .ok total) →
      2 * |∑ u ∈ holders, (shown u : ℤ) - total| ≤ holders.card + 1 := by
  obtain ⟨holders, hr⟩ := h.owned asset
  refine ⟨holders, hr, ?_⟩
  rintro impl now shown total (⟨hshown, htotal⟩ | ⟨hshown, htotal⟩)
  · exact hr.deposits_add_up hshown htotal
  · exact hr.debts_add_up hshown htotal

def twoHolders : List Transaction :=
  sampleListing 40 1 9 ++ [⟨sampleEnv 40, 12, .deposit 1 500 12⟩,
    ⟨sampleEnv 40, 11, .deposit 1 200 11⟩, ⟨sampleEnv 40, 11, .borrow 1 100 2 11⟩]

theorem twoHolders_runs : (do
    let w ← runAll sampleStart twoHolders
    return ((w.reserves 1).aToken.ledger.totalSupply,
      (w.reserves 1).variableDebtToken.ledger.totalSupply)) = .ok (700, 100) := by
  decide +kernel

theorem balances_add_up_sample : ∃ (m : Machine) (holders : Finset Address), Reachable m ∧
    ∑ u ∈ holders, (m.world.reserves 1).aToken.ledger.balances u = 700 ∧
    ∑ u ∈ holders, (m.world.reserves 1).variableDebtToken.ledger.balances u = 100 := by
  obtain ⟨w, hw, hrest⟩ := bind_ok.mp twoHolders_runs
  simp only [pure_ok, Prod.mk.injEq] at hrest
  have htime : ∀ t ∈ twoHolders, t.env.timestamp = 40 := by decide
  have hm : Reachable ⟨w, 40, []⟩ := .sample htime hw
  obtain ⟨holders, hr, -⟩ := balances_add_up hm 1
  exact ⟨_, holders, hm, hr.deposits.trans hrest.1, hr.debts.trans hrest.2⟩

end Moola
