import Moola.BalanceSheet

/-! The loss written down on the liquidity index, holder by holder: everybody's balance
falls by the same share, up to two units of rounding, and nothing else of the reserve
moves. -/

namespace Moola

open Guard WadRayMath

namespace LendingPool

/-- Everything but the liquidity index of the asset is as it was, the debts included. -/
structure OnlyIndexWritten (w w' : World) (asset : Address) : Prop where
  data : (w'.reserves asset).data =
    { (w.reserves asset).data with liquidityIndex := (w'.reserves asset).data.liquidityIndex }
  aToken : (w'.reserves asset).aToken = (w.reserves asset).aToken
  others : ∀ x, x ≠ asset → w'.reserves x = w.reserves x
  stableDebt : ∀ now x user, StableDebtToken.balanceOf now (w'.reserves x) user =
    StableDebtToken.balanceOf now (w.reserves x) user
  variableDebt : ∀ now x user, VariableDebtToken.balanceOf w'.impl now (w'.reserves x) user =
    VariableDebtToken.balanceOf w.impl now (w.reserves x) user

/-- What one holder has before and after a loss on a total supply. -/
def SharesLoss (b b' loss total : ℕ) : Prop :=
  b' ≤ b ∧ |(b' : ℚ) - b * (total - loss) / total| ≤ 2

variable {env : Env} {w w' : World} {sender asset user : Address} {loss total b index : ℕ}

theorem variableDebt_of_liquidityIndex (impl : PoolImpl) (now : ℕ) (r : Reserve) (index : ℕ)
    (user : Address) :
    VariableDebtToken.balanceOf impl now
        (r.withData { r.data with liquidityIndex := index }) user =
      VariableDebtToken.balanceOf impl now r user := by
  cases impl <;> rfl

theorem setLiquidityIndex_onlyIndex (w : World) (asset : Address) (index : ℕ) :
    OnlyIndexWritten w (w.setReserve asset ((w.reserves asset).withData
      { (w.reserves asset).data with liquidityIndex := index })) asset := by
  refine ⟨?_, ?_, fun x hx => World.setReserve_reserves_of_ne hx, fun now x user => ?_,
    fun now x user => ?_⟩
  · simp only [World.setReserve_reserves_self, Reserve.withData_data]
  · simp only [World.setReserve_reserves_self, Reserve.withData_aToken]
  · by_cases hx : x = asset
    · subst hx
      rw [World.setReserve_reserves_self]
      rfl
    · rw [World.setReserve_reserves_of_ne hx]
  · rw [World.setReserve_impl]
    by_cases hx : x = asset
    · subst hx
      rw [World.setReserve_reserves_self, variableDebt_of_liquidityIndex]
    · rw [World.setReserve_reserves_of_ne hx]

theorem updateLiquidtyIndexForLoss_onlyIndex
    (h : updateLiquidtyIndexForLoss env w sender asset loss = .ok w') :
    OnlyIndexWritten w w' asset := by
  obtain ⟨-, total, ratio, -, -, -, -, hw⟩ := updateLiquidtyIndexForLoss_ok h
  rw [hw]
  exact setLiquidityIndex_onlyIndex w asset _

/-- A loss is shared by all holders in proportion to their balances. -/
theorem loss_shared (hscaled : (w.reserves asset).aToken.ledger.totalSupply ≤ 10 ^ 27)
    (htotal : AToken.totalSupply w.impl env.timestamp (w.reserves asset) = .ok total)
    (hsupply : total ≤ 10 ^ 27)
    (h : updateLiquidtyIndexForLoss env w sender asset loss = .ok w') :
    (∀ user b, AToken.balanceOf w.impl env.timestamp (w.reserves asset) user = .ok b →
      ∃ b', AToken.balanceOf w'.impl env.timestamp (w'.reserves asset) user = .ok b' ∧
        SharesLoss b b' loss total) ∧
    OnlyIndexWritten w w' asset := by
  refine ⟨fun user b hb => ?_, updateLiquidtyIndexForLoss_onlyIndex h⟩
  rw [← ray_eq] at hscaled hsupply
  obtain ⟨himpl, total', ratio, htotal', hne, hratio, hle, hw⟩ :=
    updateLiquidtyIndexForLoss_ok h
  obtain rfl := Except.ok.inj (htotal.symm.trans htotal')
  obtain ⟨ha, index, hindex, hroom, rfl⟩ := AToken.balanceOf_ok.mp hb
  rw [himpl] at hindex htotal
  obtain rfl : (w.reserves asset).data.liquidityIndex = index := Except.ok.inj hindex
  have hsupplied := totalSupply_eq_supplied htotal
  have hholder := (w.reserves asset).aToken.ledger.balance_le user
  have hbalance : rayProduct ((w.reserves asset).aToken.ledger.balances user)
      (w.reserves asset).data.liquidityIndex ≤ ray := by
    calc rayProduct ((w.reserves asset).aToken.ledger.balances user)
          (w.reserves asset).data.liquidityIndex
        ≤ (w.reserves asset).supplied := rayProduct_mono hholder le_rfl
      _ ≤ ray := hsupplied ▸ hsupply
  -- the index only falls, so the balance afterwards fits as well
  have hfalls : rayProduct (ray - ratio) (w.reserves asset).data.liquidityIndex ≤
      (w.reserves asset).data.liquidityIndex := by
    calc rayProduct (ray - ratio) (w.reserves asset).data.liquidityIndex
        ≤ rayProduct ray (w.reserves asset).data.liquidityIndex :=
          rayProduct_mono (Nat.sub_le _ _) le_rfl
      _ = (w.reserves asset).data.liquidityIndex := rayProduct_ray_left _
  have herror := share_write_down_error (hholder.trans hscaled) hbalance hne hratio hle
  generalize rayProduct (ray - ratio) (w.reserves asset).data.liquidityIndex = index'
    at hfalls herror hw
  subst hw
  refine ⟨rayProduct ((w.reserves asset).aToken.ledger.balances user) index', ?_,
    rayProduct_mono le_rfl hfalls, herror⟩
  rw [World.setReserve_impl, World.setReserve_reserves_self, AToken.balanceOf_ok,
    Reserve.withData_aToken, Reserve.withData_data, himpl]
  exact ⟨ha, index', rfl, (Nat.mul_le_mul_left _ hfalls).trans hroom, rfl⟩

theorem indebtedWorld_loss : (do
    let total ← AToken.totalSupply .withUpdateLiquidityIndex 50 (MoolaFix.indebtedWorld.reserves 1)
    let b ← AToken.balanceOf .withUpdateLiquidityIndex 50 (MoolaFix.indebtedWorld.reserves 1) 11
    let w' ← updateLiquidtyIndexForLoss (sampleEnv 50) MoolaFix.indebtedWorld 7 1 38
    let b' ← AToken.balanceOf w'.impl 50 (w'.reserves 1) 11
    return (total, b, b')) = .ok (100, 100, 62) := by
  decide +kernel

theorem loss_shared_indebted : ∃ (w' : World) (b b' : ℕ),
    updateLiquidtyIndexForLoss (sampleEnv 50) MoolaFix.indebtedWorld 7 1 38 = .ok w' ∧
    SharesLoss b b' 38 100 ∧ OnlyIndexWritten MoolaFix.indebtedWorld w' 1 := by
  obtain ⟨total, htotal, hrest⟩ := bind_ok.mp indebtedWorld_loss
  obtain ⟨b, hb, hrest⟩ := bind_ok.mp hrest
  obtain ⟨w', hw', hrest⟩ := bind_ok.mp hrest
  obtain ⟨_, -, hrest⟩ := bind_ok.mp hrest
  simp only [pure_ok, Prod.mk.injEq] at hrest
  obtain ⟨rfl, -⟩ := hrest
  obtain ⟨hshared, honly⟩ := loss_shared (by decide) htotal (by norm_num) hw'
  obtain ⟨b', -, hshare⟩ := hshared 11 b hb
  exact ⟨w', b, b', hw', hshare, honly⟩

end LendingPool

end Moola
