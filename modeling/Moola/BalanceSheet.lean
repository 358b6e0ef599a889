import Moola.Machine
import Moola.WriteOff

/-! The balance sheet of a reserve over the loss write-off: what suppliers are owed,
against the cash and the variable debt that back it. -/

namespace Moola

open Guard WadRayMath

namespace Reserve

/-- What the suppliers are owed at the stored index, which is the total supply of the
aToken while no interest runs. -/
def supplied (r : Reserve) : ℕ := rayProduct r.aToken.ledger.totalSupply r.data.liquidityIndex

def variableDebt (r : Reserve) : ℕ :=
  rayProduct r.variableDebtToken.ledger.totalSupply r.data.variableBorrowIndex

/-- Total supply less cash less total variable debt. -/
def uncovered (r : Reserve) : ℤ := r.supplied - r.cash - r.variableDebt

end Reserve

theorem totalSupply_eq_supplied {r : Reserve} {now t : ℕ}
    (h : AToken.totalSupply .withUpdateLiquidityIndex now r = .ok t) : t = r.supplied := by
  rcases AToken.totalSupply_ok h with ⟨hzero, rfl⟩ | ⟨-, index, hindex, rfl⟩
  · simp [Reserve.supplied, hzero]
  · rw [← Except.ok.inj hindex]
    rfl

/-- Writing a loss down on the index lowers the total supply by the loss, up to two units:
the supply is a share of itself. -/
theorem loss_write_down_error {s index loss ratio : ℕ} (hs : s ≤ ray)
    (hT : rayProduct s index ≤ ray) (hpos : rayProduct s index ≠ 0)
    (hratio : ratio = rayQuotient (loss * wadRayRatio) (rayProduct s index * wadRayRatio))
    (hle : ratio ≤ ray) :
    |(rayProduct s index : ℚ) - rayProduct s (rayProduct (ray - ratio) index) - loss| ≤ 2 := by
  have hshare := share_write_down_error hs hT hpos hratio hle
  have hT0 : (rayProduct s index : ℚ) ≠ 0 := by exact_mod_cast hpos
  rwa [mul_div_cancel_left₀ _ hT0, abs_sub_comm, sub_right_comm] at hshare

namespace MoolaFix

variable {env : Env} {sender asset : Address} {w w' : World} {s s' : BadDebtBurnt}

/-- The whole write-off of an asset: whatever was burned, from whatever accounts, and
then written down on the index, moves the balance sheet by at most three units and half
a scaled unit for each account burned. -/
theorem writeOffBadDebt_balances {entries : List Debt} (htime : env.timestamp < 2 ^ 40)
    (hfactor : (w.reserves asset).data.configuration.getReserveFactor = 0)
    (hstable : ∀ a, (w.reserves asset).stableDebtToken.balances a = 0)
    (hscaled : (w.reserves asset).aToken.ledger.totalSupply ≤ 10 ^ 27)
    (hsupply : (w.reserves asset).supplied ≤ 10 ^ 27)
    (hloop : writeOffBadDebt env sender asset ⟨w, 0, 0⟩ entries = .ok s)
    (hloss : LendingPool.updateLiquidtyIndexForLoss env s.world sender asset s.badDebtBurnt =
      .ok w') :
    |(((w'.reserves asset).uncovered - (w.reserves asset).uncovered : ℤ) : ℚ)| ≤
      3 + s.accountsBurned * (w.reserves asset).data.variableBorrowIndex / (2 * 10 ^ 27) := by
  rw [← ray_eq] at hscaled hsupply
  have hoff := writeOffBadDebt_ok htime hloop hfactor hstable (WrittenOff.refl w asset)
  obtain ⟨himpl, total, ratio, htotal, hne, hratio, hle, rfl⟩ :=
    LendingPool.updateLiquidtyIndexForLoss_ok hloss
  rw [himpl] at htotal
  have hsupplied : (s.world.reserves asset).supplied = (w.reserves asset).supplied := by
    rw [Reserve.supplied, hoff.aLedger, hoff.liquidityIndex, Reserve.supplied]
  obtain rfl := (totalSupply_eq_supplied htotal).trans hsupplied
  have hwrite := abs_le.mp (loss_write_down_error hscaled hsupply hne hratio hle)
  have hworth := abs_le.mp hoff.worth
  have hdebt := abs_le.mp (abs_rayProduct_sub
    (w.reserves asset).variableDebtToken.ledger.totalSupply
    (w.reserves asset).data.variableBorrowIndex)
  have hdebt' := abs_le.mp (abs_rayProduct_sub
    (s.world.reserves asset).variableDebtToken.ledger.totalSupply
    (w.reserves asset).data.variableBorrowIndex)
  have hcash := hoff.cash
  rw [Reserve.cash, Reserve.cash] at hcash
  simp only [Reserve.uncovered, Reserve.supplied, Reserve.variableDebt, Reserve.cash,
    World.setReserve_reserves_self, Reserve.withData_data, Reserve.withData_aToken,
    Reserve.withData_variableDebtToken, Reserve.withData_underlying, hoff.aLedger,
    hoff.liquidityIndex, hoff.variableBorrowIndex, hcash] at hwrite ⊢
  push_cast
  rw [show (10 : ℚ) ^ 27 = ray by rw [ray_eq]; norm_num, abs_le]
  constructor
  · linear_combination hwrite.2 + hworth.1 + hdebt.1 + hdebt'.2
  · linear_combination hwrite.1 + hworth.2 + hdebt.2 + hdebt'.1

def indebtedReserve : Reserve where
  data := ⟨⟨1#256 <<< 56⟩, ray, 3 * 10 ^ 27 / 2, 10 ^ 25, 10 ^ 26, 0, 40, 101, 102, 103, 104, 0⟩
  aToken := ⟨Ledger.empty.credit 11 100, fun _ _ => 0, 12⟩
  stableDebtToken := ⟨fun _ => 0, 0, 0, fun _ => 0, fun _ => 0, 0, fun _ _ => 0⟩
  variableDebtToken := ⟨(Ledger.empty.credit 13 25).credit 14 11, fun _ _ => 0⟩
  underlying := ⟨Ledger.empty.credit 101 50, fun _ _ => 0⟩

def indebtedWorld : World :=
  { initialWorld (fun _ => indebtedReserve.underlying) .withUpdateLiquidityIndex 99 with
    reserves := fun _ => indebtedReserve }

theorem indebtedWorld_writeOff : (do
    let s ← writeOffBadDebt (sampleEnv 50) 7 1 ⟨indebtedWorld, 0, 0⟩ [⟨13, 20⟩, ⟨14, 90⟩, ⟨13, 1⟩]
    let w' ← LendingPool.updateLiquidtyIndexForLoss (sampleEnv 50) s.world 7 1 s.badDebtBurnt
    return (s.accountsBurned, (w'.reserves 1).supplied)) = .ok (3, 62) := by
  decide +kernel

theorem writeOffBadDebt_balances_indebted : ∃ (s : BadDebtBurnt) (w' : World),
    writeOffBadDebt (sampleEnv 50) 7 1 ⟨indebtedWorld, 0, 0⟩ [⟨13, 20⟩, ⟨14, 90⟩, ⟨13, 1⟩] =
      .ok s ∧ s.accountsBurned = 3 ∧
    |(((w'.reserves 1).uncovered - (indebtedWorld.reserves 1).uncovered : ℤ) : ℚ)| ≤
      3 + s.accountsBurned * (indebtedWorld.reserves 1).data.variableBorrowIndex /
        (2 * 10 ^ 27) := by
  obtain ⟨s, hs, hrest⟩ := bind_ok.mp indebtedWorld_writeOff
  obtain ⟨w', hw', hrest⟩ := bind_ok.mp hrest
  rw [pure_ok, Prod.mk.injEq] at hrest
  exact ⟨s, w', hs, hrest.1, writeOffBadDebt_balances (by decide) (by decide) (fun _ => rfl)
    (by decide) (by decide +kernel) hs hw'⟩

def slowReserve : Reserve := indebtedReserve.withData
  { indebtedReserve.data with
    currentLiquidityRate := 10 ^ 22, currentVariableBorrowRate := 10 ^ 23 }

def slowWorld : World := { indebtedWorld with reserves := fun _ => slowReserve }

theorem slowWorld_writeOff : (do
    let s ← writeOffBadDebt (sampleEnv (2 ^ 40 + 50)) 7 1 ⟨slowWorld, 0, 0⟩ [⟨13, 20⟩]
    let w' ← LendingPool.updateLiquidtyIndexForLoss (sampleEnv (2 ^ 40 + 50)) s.world 7 1
      s.badDebtBurnt
    return (s.accountsBurned, (w'.reserves 1).uncovered)) = .ok (1, -490) := by
  decide +kernel

/-- Past the range of `uint40` the stored time is behind every block, and the update within
the write-off accrues the block's whole time: the balance sheet goes from -4 to -490. -/
theorem writeOffBadDebt_unbalanced :
    ¬ ∀ (env : Env) (sender asset : Address) (w w' : World) (s : BadDebtBurnt)
      (entries : List Debt),
      (w.reserves asset).data.configuration.getReserveFactor = 0 →
      (∀ a, (w.reserves asset).stableDebtToken.balances a = 0) →
      (w.reserves asset).aToken.ledger.totalSupply ≤ 10 ^ 27 →
      (w.reserves asset).supplied ≤ 10 ^ 27 →
      writeOffBadDebt env sender asset ⟨w, 0, 0⟩ entries = .ok s →
      LendingPool.updateLiquidtyIndexForLoss env s.world sender asset s.badDebtBurnt = .ok w' →
      |(((w'.reserves asset).uncovered - (w.reserves asset).uncovered : ℤ) : ℚ)| ≤
        3 + s.accountsBurned * (w.reserves asset).data.variableBorrowIndex / (2 * 10 ^ 27) := by
  intro hbalances
  obtain ⟨s, hs, hrest⟩ := bind_ok.mp slowWorld_writeOff
  obtain ⟨w', hw', hrest⟩ := bind_ok.mp hrest
  rw [pure_ok, Prod.mk.injEq] at hrest
  have hbound := hbalances _ 7 1 _ _ _ _ (by decide) (fun _ => rfl) (by decide)
    (by decide +kernel) hs hw'
  have hbefore : (slowWorld.reserves 1).uncovered = -4 := by decide +kernel
  have hindex : (slowWorld.reserves 1).data.variableBorrowIndex = 3 * 10 ^ 27 / 2 := by
    decide +kernel
  rw [hrest.1, hrest.2, hbefore, hindex] at hbound
  norm_num at hbound

end MoolaFix

end Moola
