import Mathlib.Tactic.LinearCombination
import Moola.LendingPool
import Moola.Rounding

/-! The loss write-off of MoolaFix: bad debt is burned account by account, and the sum
of what was burned is written down on the liquidity index. -/

namespace Moola

open Guard WadRayMath

namespace MoolaFix

structure Debt where
  account : Address
  debt : ℕ

variable (env : Env) (sender asset : Address)

def writeOffMode (w : World) (accountDebt amountLeft rateMode : ℕ) (account : Address) :
    Tx (World × ℕ) :=
  if accountDebt > 0 then
    LendingPool.writeOff env w sender asset amountLeft rateMode account
  else .ok (w, 0)

def burnOneAccountBadDebt (w : World) (account : Address) (totalAmount : ℕ) :
    Tx (World × ℕ) := do
  if totalAmount = 0 then return (w, 0)
  else
    let accountVariableDebt ←
      VariableDebtToken.balanceOf w.impl env.timestamp (w.reserves asset) account
    let (w, variableBurnt) ←
      writeOffMode env sender asset w accountVariableDebt totalAmount 2 account
    let amountLeft ← SafeMath.sub totalAmount variableBurnt
    if amountLeft > 0 then
      let accountStableDebt ←
        StableDebtToken.balanceOf env.timestamp (w.reserves asset) account
      let (w, stableBurnt) ←
        writeOffMode env sender asset w accountStableDebt amountLeft 1 account
      let totalBurnt ← SafeMath.add variableBurnt stableBurnt
      return (w, totalBurnt)
    else return (w, variableBurnt)

/-- The state of the loop; `accountsBurned` counts the entries that burned something. -/
structure BadDebtBurnt where
  world : World
  badDebtBurnt : ℕ
  accountsBurned : ℕ

def writeOffBadDebt : BadDebtBurnt → List Debt → Tx BadDebtBurnt
  | s, [] => .ok s
  | s, entry :: entries => do
    let (w, burnt) ← burnOneAccountBadDebt env sender asset s.world entry.account entry.debt
    let badDebtBurnt ← SafeMath.add s.badDebtBurnt burnt
    writeOffBadDebt ⟨w, badDebtBurnt, if burnt = 0 then s.accountsBurned else s.accountsBurned + 1⟩
      entries

variable {env sender asset}

/-- What a write-off of variable debt keeps: everything but the variable debt, the flags
and the rates; and `total` is worth the scaled debt that is gone, up to half a scaled
unit for each of `n` burns. -/
structure WrittenOff (w w' : World) (asset : Address) (total n : ℕ) : Prop where
  impl : w'.impl = w.impl
  liquidityIndex : (w'.reserves asset).data.liquidityIndex =
    (w.reserves asset).data.liquidityIndex
  variableBorrowIndex : (w'.reserves asset).data.variableBorrowIndex =
    (w.reserves asset).data.variableBorrowIndex
  configuration : (w'.reserves asset).data.configuration = (w.reserves asset).data.configuration
  aLedger : (w'.reserves asset).aToken.ledger = (w.reserves asset).aToken.ledger
  cash : (w'.reserves asset).cash = (w.reserves asset).cash
  stable : (w'.reserves asset).stableDebtToken = (w.reserves asset).stableDebtToken
  worth : |((w.reserves asset).variableDebtToken.ledger.totalSupply -
      (w'.reserves asset).variableDebtToken.ledger.totalSupply : ℚ) *
        (w.reserves asset).data.variableBorrowIndex / ray - total| ≤
      n * ((w.reserves asset).data.variableBorrowIndex / (2 * ray))

theorem WrittenOff.refl (w : World) (asset : Address) : WrittenOff w w asset 0 0 :=
  ⟨rfl, rfl, rfl, rfl, rfl, rfl, rfl, by simp⟩

theorem WrittenOff.trans {w w₁ w₂ : World} {a b n m : ℕ} (h₁ : WrittenOff w w₁ asset a n)
    (h₂ : WrittenOff w₁ w₂ asset b m) : WrittenOff w w₂ asset (a + b) (n + m) where
  impl := h₂.impl.trans h₁.impl
  liquidityIndex := h₂.liquidityIndex.trans h₁.liquidityIndex
  variableBorrowIndex := h₂.variableBorrowIndex.trans h₁.variableBorrowIndex
  configuration := h₂.configuration.trans h₁.configuration
  aLedger := h₂.aLedger.trans h₁.aLedger
  cash := h₂.cash.trans h₁.cash
  stable := h₂.stable.trans h₁.stable
  worth := by
    have e₁ := abs_le.mp h₁.worth
    have e₂ := abs_le.mp h₂.worth
    rw [h₁.variableBorrowIndex] at e₂
    push_cast
    rw [abs_le]
    constructor
    · linear_combination e₁.1 + e₂.1
    · linear_combination e₁.2 + e₂.2

variable {w w' : World} {account : Address} {amount burnt : ℕ}

theorem writeOff_variable (htime : env.timestamp < 2 ^ 40)
    (hfactor : (w.reserves asset).data.configuration.getReserveFactor = 0)
    (h : LendingPool.writeOff env w sender asset amount 2 account = .ok (w', burnt)) :
    burnt ≠ 0 ∧ WrittenOff w w' asset burnt 1 := by
  obtain ⟨himpl, p, hp, rfl, rfl⟩ := LendingPool.writeOff_ok h
  obtain ⟨_, _, mode, r₁, r₂, -, -, hmode, -, -, h₁, h₂, h₃, -, hw⟩ := LendingPool.payback_ok hp
  obtain rfl : mode = .variable := (Except.ok.inj hmode).symm
  rw [himpl] at h₁
  obtain ⟨-, -, minted, rfl, hnone, -⟩ := ReserveLogic.updateStateFrom_ok h₁
  rw [hnone hfactor, uint40_of_lt htime, Nat.sub_self, ReserveLogic.accruedLiquidityIndex_zero,
    ReserveLogic.accruedVariableBorrowIndex_zero, Ledger.credit_zero] at h₂
  obtain ⟨-, -, hindex, hscaled, hle, rfl⟩ := VariableDebtToken.burn_ok h₂
  obtain ⟨rates, hr⟩ := ReserveLogic.updateInterestRates_ok h₃
  have hreserves : p.world.reserves = w.reserves ∧ p.world.impl = w.impl := by
    rcases applyIf_ok.mp hw with ⟨-, hset⟩ | ⟨-, rfl⟩
    · obtain ⟨-, hset⟩ := LendingPool.setBorrowing_ok.mp hset
      simp [← hset]
    · exact ⟨rfl, rfl⟩
  have hburnt : p.paybackAmount ≠ 0 := by
    intro h0
    exact hscaled (by simp [h0, rayQuotient])
  refine ⟨hburnt, hreserves.2, ?_, ?_, ?_, ?_, ?_, ?_, ?_⟩
  all_goals rw [World.setReserve_reserves_self, hr]
  · simp
  · simp
  · simp
  · simp
  · simp [Reserve.cash]
  · simp
  · have hsupply := hle.trans (Ledger.balance_le _ _)
    have herror := abs_rayQuotient_mul_sub p.paybackAmount (Nat.pos_of_ne_zero hindex)
    simp only [Reserve.withData_variableDebtToken, Reserve.withDebtLedger_variableDebtToken_ledger,
      Reserve.withALedger_variableDebtToken, Ledger.debit_totalSupply,
      Reserve.withALedger_data, Reserve.withData_data,
      ReserveData.withIndexes_variableBorrowIndex] at hsupply herror ⊢
    rw [Nat.cast_sub hsupply, sub_sub_cancel]
    simpa using herror

theorem burnOneAccountBadDebt_ok (htime : env.timestamp < 2 ^ 40)
    (hfactor : (w.reserves asset).data.configuration.getReserveFactor = 0)
    (hstable : ∀ a, (w.reserves asset).stableDebtToken.balances a = 0)
    (h : burnOneAccountBadDebt env sender asset w account amount = .ok (w', burnt)) :
    WrittenOff w w' asset burnt (if burnt = 0 then 0 else 1) := by
  unfold burnOneAccountBadDebt at h
  split at h
  case isTrue =>
    simp only [pure_ok, Prod.mk.injEq] at h
    obtain ⟨rfl, rfl⟩ := h
    exact WrittenOff.refl _ _
  case isFalse =>
    simp only [bind_ok, SafeMath.sub_ok] at h
    obtain ⟨debt, -, ⟨w₁, variableBurnt⟩, hmode, left, -, h⟩ := h
    have hvariable : WrittenOff w w₁ asset variableBurnt (if variableBurnt = 0 then 0 else 1) := by
      unfold writeOffMode at hmode
      split at hmode
      case isTrue =>
        obtain ⟨hne, hoff⟩ := writeOff_variable htime hfactor hmode
        rwa [if_neg hne]
      case isFalse =>
        obtain ⟨rfl, rfl⟩ := Prod.mk.inj (Except.ok.inj hmode)
        exact WrittenOff.refl _ _
    split at h
    case isFalse =>
      simp only [pure_ok, Prod.mk.injEq] at h
      obtain ⟨rfl, rfl⟩ := h
      exact hvariable
    case isTrue =>
      simp only [bind_ok, StableDebtToken.balanceOf_ok, SafeMath.add_ok, pure_ok,
        Prod.mk.injEq] at h
      obtain ⟨stableDebt, ⟨-, hdebt⟩, ⟨w₂, stableBurnt⟩, hmode, _, ⟨-, rfl⟩, rfl, rfl⟩ := h
      have hzero : stableDebt = 0 := by
        rw [hvariable.stable, StableDebtToken.accrued_zero (hstable account)] at hdebt
        exact (Except.ok.inj hdebt).symm
      simp only [writeOffMode, hzero, gt_iff_lt, lt_self_iff_false, if_false] at hmode
      obtain ⟨rfl, rfl⟩ := Prod.mk.inj (Except.ok.inj hmode)
      exact hvariable

/-- The loop: the total is worth the scaled debt that is gone, up to half a scaled unit
for each account burned. -/
theorem writeOffBadDebt_ok (htime : env.timestamp < 2 ^ 40) {entries : List Debt} :
    ∀ {s s' : BadDebtBurnt},
    writeOffBadDebt env sender asset s entries = .ok s' →
    (s.world.reserves asset).data.configuration.getReserveFactor = 0 →
    (∀ a, (s.world.reserves asset).stableDebtToken.balances a = 0) →
    WrittenOff w s.world asset s.badDebtBurnt s.accountsBurned →
    WrittenOff w s'.world asset s'.badDebtBurnt s'.accountsBurned := by
  induction entries with
  | nil =>
    intro s s' h _ _ hs
    rw [← Except.ok.inj h]
    exact hs
  | cons entry entries ih =>
    intro s s' h hfactor hstable hs
    simp only [writeOffBadDebt, bind_ok, SafeMath.add_ok] at h
    obtain ⟨⟨w₁, burnt⟩, hburn, _, ⟨-, rfl⟩, h⟩ := h
    have hone := burnOneAccountBadDebt_ok htime hfactor hstable hburn
    have hcount : (if burnt = 0 then s.accountsBurned else s.accountsBurned + 1) =
        s.accountsBurned + if burnt = 0 then 0 else 1 := by
      split <;> rfl
    refine ih h ?_ ?_ ?_
    · rw [hone.configuration]
      exact hfactor
    · rw [hone.stable]
      exact hstable
    · simp only [hcount]
      exact hs.trans hone

end MoolaFix

end Moola
