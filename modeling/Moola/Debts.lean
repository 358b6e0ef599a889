import Moola.Evolution

/-! Who owes in a reserve, and that the borrowing flag shows it. A debt begins with a mint
of debt only, and the flag is cleared only by a payback that leaves nothing. -/

namespace Moola

open Guard WadRayMath

namespace Reserve

def HasDebt (r : Reserve) (user : Address) : Prop :=
  r.variableDebtToken.ledger.balances user ≠ 0 ∨ r.stableDebtToken.balances user ≠ 0

variable {env : Env} {asset user : Address} {r r' : Reserve} {a : Action} {actions : List Action}

theorem hasDebt_congr (hv : r'.variableDebtToken.ledger = r.variableDebtToken.ledger)
    (hs : r'.stableDebtToken.balances = r.stableDebtToken.balances) :
    r'.HasDebt user ↔ r.HasDebt user := by
  rw [HasDebt, HasDebt, hv, hs]

theorem withData_hasDebt (d : ReserveData) : (r.withData d).HasDebt user ↔ r.HasDebt user :=
  Iff.rfl

theorem Blank.not_hasDebt (h : r.Blank) : ¬r.HasDebt user := by
  rintro (hv | hs)
  · exact hv (h.variableDebts user)
  · exact hs (h.stableDebts user)

theorem mintDebt_hasDebt {mode : InterestRateMode} {sender onBehalfOf : Address} {amount : ℕ}
    {first : Bool}
    (h : LendingPool.mintDebt env r mode sender onBehalfOf amount = .ok (r', first))
    (hu : r'.HasDebt user) : r.HasDebt user ∨ user = onBehalfOf := by
  by_cases he : user = onBehalfOf
  · exact .inr he
  · left
    unfold LendingPool.mintDebt at h
    split at h
    case isTrue =>
      obtain ⟨-, _, _, t, -, -, -, -, rfl, hb, -⟩ := StableDebtToken.mint_ok h
      simpa [HasDebt, hb, write_of_ne _ _ he] using hu
    case isFalse =>
      obtain ⟨-, -, -, -, -, _, -, rfl⟩ := VariableDebtToken.mint_ok h
      simpa [HasDebt, he] using hu

theorem hasDebt_of_not_first {mode : InterestRateMode} {sender onBehalfOf : Address}
    {amount : ℕ}
    (h : LendingPool.mintDebt env r mode sender onBehalfOf amount = .ok (r', false)) :
    r.HasDebt onBehalfOf := by
  unfold LendingPool.mintDebt at h
  split at h
  case isTrue =>
    obtain ⟨-, current, _, t, hcurrent, -, hfirst, -⟩ := StableDebtToken.mint_ok h
    right
    intro h0
    rw [StableDebtToken.accrued_zero h0, Except.ok.injEq] at hcurrent
    simp [← hcurrent] at hfirst
  case isFalse =>
    obtain ⟨-, -, -, -, hfirst, -⟩ := VariableDebtToken.mint_ok h
    left
    simpa using hfirst

theorem burnDebt_hasDebt {mode : InterestRateMode} {owner : Address} {amount : ℕ}
    (h : LendingPool.burnDebt env r mode owner amount = .ok r') (hu : r'.HasDebt user) :
    r.HasDebt user := by
  unfold LendingPool.burnDebt at h
  split at h
  case isTrue =>
    obtain ⟨-, current, t, hcurrent, hle, rfl, hb, -⟩ := StableDebtToken.burn_ok h
    rcases hu with hv | hs
    · exact .inl hv
    · right
      simp only [withStable_stableDebtToken, hb, write_apply] at hs
      split at hs
      case isTrue he =>
        subst he
        intro h0
        rw [StableDebtToken.accrued_zero h0, Except.ok.injEq] at hcurrent
        omega
      case isFalse => exact hs
  case isFalse =>
    obtain ⟨-, -, -, -, hs, rfl⟩ := VariableDebtToken.burn_ok h
    rcases hu with hv | hs'
    · left
      have hle := r.variableDebtToken.ledger.debit_balances_le _ _ hs user
      simp only [withDebtLedger_variableDebtToken_ledger] at hv
      omega
    · exact .inr hs'

theorem apply_hasDebt (h : r.apply env asset a = .ok r') (hu : r'.HasDebt user) :
    r.HasDebt user ∨ ∃ mode sender amount, a = .mintDebt mode sender user amount := by
  by_cases hreaches : ReachesDebtTokens a
  · cases a with
    | mintDebt mode sender onBehalfOf amount =>
      obtain ⟨⟨r₁, first⟩, h₁, rfl⟩ := map_ok.mp h
      rcases mintDebt_hasDebt h₁ hu with hu | rfl
      · exact .inl hu
      · exact .inr ⟨mode, sender, amount, rfl⟩
    | burnDebt mode owner amount => exact .inl (burnDebt_hasDebt h hu)
    | approveStableDelegation delegator delegatee amount =>
      rw [← Except.ok.inj h] at hu
      exact .inl ((hasDebt_congr rfl rfl).mp hu)
    | approveVariableDelegation delegator delegatee amount =>
      rw [← Except.ok.inj h] at hu
      exact .inl ((hasDebt_congr rfl rfl).mp hu)
    | _ => exact absurd hreaches id
  · obtain ⟨hs, hv⟩ := apply_debtTokens h hreaches
    exact .inl ((hasDebt_congr (by rw [hv]) (by rw [hs])).mp hu)

theorem run_hasDebt (h : r.run env asset actions = .ok r') (hu : r'.HasDebt user) :
    r.HasDebt user ∨ ∃ mode sender amount, .mintDebt mode sender user amount ∈ actions := by
  induction actions generalizing r with
  | nil =>
    rw [run, Except.ok.injEq] at h
    exact .inl (h ▸ hu)
  | cons a actions ih =>
    obtain ⟨r₁, h₁, h⟩ := bind_ok.mp h
    rcases ih h with h₂ | ⟨mode, sender, amount, hmem⟩
    · rcases apply_hasDebt h₁ h₂ with h₃ | ⟨mode, sender, amount, rfl⟩
      · exact .inl h₃
      · exact .inr ⟨mode, sender, amount, List.mem_cons_self⟩
    · exact .inr ⟨mode, sender, amount, List.mem_cons_of_mem a hmem⟩

end Reserve

namespace LendingPool

variable {env : Env} {w w' : World} {sender asset onBehalfOf user : Address}
  {amount rateMode n : ℕ}

/-- At a time that the pool can store, the view of the debt is no lower than what the
update of the block will store. -/
theorem variableBorrowIndex_le_view {impl : PoolImpl} {now view : ℕ} {r r' : Reserve}
    (hnow : now < 2 ^ 40) (hview : getReserveNormalizedVariableDebt impl r.data now = .ok view)
    (h : updateState impl now r = .ok r') : r'.data.variableBorrowIndex ≤ view := by
  have haccrual : ∀ start, ReserveLogic.updateStateFrom start now r = .ok r' →
      r'.data.variableBorrowIndex = ReserveLogic.accruedVariableBorrowIndex r.data
        r.variableDebtToken.ledger.totalSupply (now - start) := by
    intro start h
    obtain ⟨-, -, minted, rfl, -⟩ := ReserveLogic.updateStateFrom_ok h
    rfl
  have hstored : ReserveLogic.updateState now r = .ok r' →
      ReserveLogic.getNormalizedDebt r.data now = .ok view →
      r'.data.variableBorrowIndex ≤ view := by
    intro h hview
    rw [haccrual _ h]
    unfold ReserveLogic.getNormalizedDebt at hview
    split at hview
    case isTrue hfresh =>
      rw [hfresh, uint40_of_lt hnow, Nat.sub_self, ReserveLogic.accruedVariableBorrowIndex_zero]
      exact (Except.ok.inj hview).le
    case isFalse =>
      obtain ⟨f, hf, hview⟩ := bind_ok.mp hview
      obtain ⟨-, rfl⟩ := MathUtils.calculateCompoundedInterest_ok hf
      obtain ⟨-, rfl⟩ := rayMul_ok.mp hview
      unfold ReserveLogic.accruedVariableBorrowIndex
      split
      case isTrue => exact le_rayProduct_left (Nat.le_add_right _ _)
      case isFalse => rfl
  cases impl
  case withUpdateLiquidityIndex =>
    have hindex : r.data.variableBorrowIndex = view := Except.ok.inj hview
    rw [haccrual _ h, uint40_of_lt hnow, Nat.sub_self,
      ReserveLogic.accruedVariableBorrowIndex_zero, hindex]
  case lendingPool => exact hstored h hview
  case withGracePeriod => exact hstored h hview

theorem variableBorrowIndex_le_updateState {impl : PoolImpl} {now : ℕ} {r r' : Reserve}
    (h : updateState impl now r = .ok r') :
    r.data.variableBorrowIndex ≤ r'.data.variableBorrowIndex :=
  (Reserve.updateState_evolves h).variableBorrowIndex

theorem updateState_debts {impl : PoolImpl} {now : ℕ} {r r' : Reserve}
    (h : updateState impl now r = .ok r') :
    r'.variableDebtToken = r.variableDebtToken ∧ r'.stableDebtToken = r.stableDebtToken := by
  obtain ⟨start, -, he⟩ := updateState_eq impl now r
  rw [he] at h
  obtain ⟨-, -, minted, rfl, -⟩ := ReserveLogic.updateStateFrom_ok h
  exact ⟨rfl, rfl⟩

theorem scaledDebt_eq_zero {impl : PoolImpl} {now : ℕ} {r r' : Reserve} (hnow : now < 2 ^ 40)
    (hindex : ray ≤ r.data.variableBorrowIndex) (h : updateState impl now r = .ok r')
    (hb : VariableDebtToken.balanceOf impl now r user = .ok 0) :
    r.variableDebtToken.ledger.balances user = 0 := by
  obtain ⟨-, ⟨h0, -⟩ | ⟨hne, view, hview, hz⟩⟩ := VariableDebtToken.balanceOf_ok hb
  · exact h0
  · have hle := variableBorrowIndex_le_view hnow hview h
    have hmono := variableBorrowIndex_le_updateState h
    have hpos := rayProduct_pos (Nat.pos_of_ne_zero hne) (hindex.trans (hmono.trans hle))
    omega

theorem scaledDebt_le_shown {impl : PoolImpl} {now n : ℕ} {r r' : Reserve} (hnow : now < 2 ^ 40)
    (hindex : ray ≤ r.data.variableBorrowIndex) (h : updateState impl now r = .ok r')
    (hb : VariableDebtToken.balanceOf impl now r user = .ok n) :
    r.variableDebtToken.ledger.balances user ≤ rayQuotient n r'.data.variableBorrowIndex := by
  obtain ⟨-, ⟨h0, -⟩ | ⟨-, view, hview, rfl⟩⟩ := VariableDebtToken.balanceOf_ok hb
  · omega
  · have hnew := hindex.trans (variableBorrowIndex_le_updateState h)
    calc r.variableDebtToken.ledger.balances user
        = rayQuotient (rayProduct (r.variableDebtToken.ledger.balances user)
            r'.data.variableBorrowIndex) r'.data.variableBorrowIndex :=
          (rayQuotient_rayProduct _ hnew).symm
      _ ≤ _ := HalfUp.mono _ (Nat.mul_le_mul_right ray
          (rayProduct_mono le_rfl (variableBorrowIndex_le_view hnow hview h)))

theorem payback_clears {p : Payback} (hw : w.WellFormed) (htime : env.timestamp < 2 ^ 40)
    (h : payback env w sender asset amount rateMode onBehalfOf = .ok p)
    {stableDebt variableDebt : ℕ}
    (hs : StableDebtToken.balanceOf env.timestamp (w.reserves asset) onBehalfOf = .ok stableDebt)
    (hv : VariableDebtToken.balanceOf w.impl env.timestamp (w.reserves asset) onBehalfOf =
      .ok variableDebt)
    (hall : stableDebt + variableDebt - p.paybackAmount = 0) :
    ¬p.reserve.HasDebt onBehalfOf := by
  obtain ⟨s, v, mode, r₁, r₂, hs', hv', -, hvalid, hamount, h₁, h₂, h₃, hle, -⟩ := payback_ok h
  obtain rfl := Except.ok.inj (hs.symm.trans hs')
  obtain rfl := Except.ok.inj (hv.symm.trans hv')
  obtain ⟨hdebt₁, hstable₁⟩ := updateState_debts h₁
  obtain ⟨rates, hr₃⟩ := ReserveLogic.updateInterestRates_ok h₃
  obtain ⟨-, hacc⟩ := StableDebtToken.balanceOf_ok.mp hs
  rw [hr₃, Reserve.withData_hasDebt]
  by_cases ha : (w.reserves asset).data.aTokenAddress = 0
  · -- a reserve without tokens has no debts to begin with
    intro hd
    have hbefore : (w.reserves asset).HasDebt onBehalfOf :=
      (Reserve.hasDebt_congr (by rw [hdebt₁]) (by rw [hstable₁])).mp
        (Reserve.burnDebt_hasDebt h₂ hd)
    exact (hw.blank asset ha).not_hasDebt hbefore
  have hindex := hw.indexed asset ha
  have hpay : p.paybackAmount ≤ if mode = .stable then stableDebt else variableDebt := by
    rw [hamount]
    exact Nat.min_le_right _ _
  unfold burnDebt at h₂
  split_ifs at h₂ hpay with hmode
  · obtain ⟨-, current, t, hcurrent, -, rfl, hb, -⟩ := StableDebtToken.burn_ok h₂
    rw [hstable₁] at hcurrent
    obtain rfl := Except.ok.inj (hacc.symm.trans hcurrent)
    rintro (hvd | hsd)
    · simp only [Reserve.withStable_variableDebtToken, hdebt₁] at hvd
      exact hvd (scaledDebt_eq_zero htime hindex h₁ (by rw [hv]; congr 1; omega))
    · simp only [Reserve.withStable_stableDebtToken, hb, write_self] at hsd
      omega
  · obtain ⟨-, -, -, -, hburn, rfl⟩ := VariableDebtToken.burn_ok h₂
    rintro (hvd | hsd)
    · have hshown := scaledDebt_le_shown htime hindex h₁ hv
      have hequal : p.paybackAmount = variableDebt := by omega
      simp only [Reserve.withDebtLedger_variableDebtToken_ledger, Ledger.debit_balances,
        if_true, hdebt₁, hequal] at hvd
      omega
    · simp only [Reserve.withDebtLedger_stableDebtToken, hstable₁] at hsd
      have hzero : stableDebt = 0 := by omega
      exact hsd (StableDebtToken.balance_eq_zero_of_accrued (hzero ▸ hacc))

theorem swapBorrowRateMode_hasDebt (h : swapBorrowRateMode env w sender asset rateMode = .ok w') :
    (w.reserves asset).HasDebt sender := by
  obtain ⟨stableDebt, variableDebt, mode, _, _, _, _, _, hs, hv, hvalid, -⟩ :=
    swapBorrowRateMode_ok h
  simp only [ValidationLogic.validateSwapRateMode, bind_unit_ok, require_ok] at hvalid
  obtain ⟨-, -, hvalid⟩ := hvalid
  cases mode with
  | none => cases hvalid
  | stable =>
    right
    intro h0
    have hzero := (StableDebtToken.balanceOf_ok.mp hs).2
    rw [StableDebtToken.accrued_zero h0, Except.ok.injEq] at hzero
    have hpos := require_ok.mp hvalid
    omega
  | _ =>
    left
    intro h0
    simp only [bind_unit_ok, require_ok] at hvalid
    obtain ⟨-, ⟨-, rfl⟩ | ⟨hne, -⟩⟩ := VariableDebtToken.balanceOf_ok hv
    · exact absurd hvalid.1 (lt_irrefl 0)
    · exact hne h0

theorem rebalanceStableBorrowRate_hasDebt
    (h : rebalanceStableBorrowRate env w asset user = .ok w') :
    (w.reserves asset).HasDebt user := by
  obtain ⟨n, r₁, r₂, r₃, r₄, first, hn, h₁, h₂, h₃, -⟩ := rebalanceStableBorrowRate_ok h
  have hshown := (StableDebtToken.balanceOf_ok.mp hn).2
  rw [← (updateState_debts h₁).2] at hshown
  obtain ⟨-, current, t, hcurrent, -, rfl, hb, -⟩ := StableDebtToken.burn_ok h₂
  obtain rfl := Except.ok.inj (hshown.symm.trans hcurrent)
  obtain ⟨-, left, _, t', hleft, -, -, hpos, -⟩ := StableDebtToken.mint_ok h₃
  rw [StableDebtToken.accrued_zero (by simp [hb]), Except.ok.injEq] at hleft
  right
  intro h0
  rw [(updateState_debts h₁).2, StableDebtToken.accrued_zero h0, Except.ok.injEq] at hshown
  omega

def SameBorrowing (w w' : World) : Prop :=
  ∀ u j, (w'.usersConfig u).borrowing j = (w.usersConfig u).borrowing j

theorem SameBorrowing.trans {w₁ : World} (h₁ : SameBorrowing w w₁) (h₂ : SameBorrowing w₁ w') :
    SameBorrowing w w' :=
  fun u j => (h₂ u j).trans (h₁ u j)

theorem finalizeTransfer_sameBorrowing {recipient : Address} {before : AToken.BalancesBefore}
    (h : finalizeTransfer env w asset sender recipient amount before = .ok w') :
    SameBorrowing w w' := by
  obtain ⟨-, ⟨-, rfl⟩ | ⟨-, w₁, -, h₁, h₂⟩⟩ := finalizeTransfer_ok h
  · exact fun _ _ => rfl
  · exact SameBorrowing.trans (applyIf_setUsingAsCollateral_ok h₁).2
      (applyIf_setUsingAsCollateral_ok h₂).2

end LendingPool

theorem AToken.transfer_sameBorrowing {env : Env} {w w' : World}
    {sender asset recipient : Address} {amount : ℕ}
    (h : AToken.transfer env w sender asset recipient amount = .ok w') :
    LendingPool.SameBorrowing w w' := by
  obtain ⟨r, before, -, h⟩ := AToken.transfer_ok h
  intro u j
  rw [LendingPool.finalizeTransfer_sameBorrowing h u j, World.setReserve_usersConfig]

namespace CollateralManager

variable {env : Env} {w w' : World} {manager : CollateralManager} {amount : ℕ}
  {sender collateralAsset debtAsset user : Address} {receiveAToken : Bool} {l : Liquidation}

theorem clearSeizedCollateral_sameBorrowing
    (h : clearSeizedCollateral w collateralAsset user l = .ok w') :
    LendingPool.SameBorrowing w w' :=
  (LendingPool.applyIf_setUsingAsCollateral_ok h).2

theorem seize_sameBorrowing
    (h : seize env w sender collateralAsset user amount receiveAToken = .ok w') :
    LendingPool.SameBorrowing w w' := by
  rcases seize_ok h with ⟨-, balance, r, -, hflag⟩ | ⟨-, r₁, r₂, r₃, -, -, -, rfl⟩
  · exact (LendingPool.applyIf_setUsingAsCollateral_ok hflag).2
  · exact fun _ _ => rfl

theorem liquidateCollateral_sameBorrowing
    (h : liquidateCollateral env w manager sender collateralAsset user l receiveAToken = .ok w') :
    LendingPool.SameBorrowing w w' := by
  obtain ⟨amount, w₁, w₂, w₃, ⟨h₁, h₂, h₃, -, -⟩ | ⟨rfl, -, h₂, h₃⟩⟩ := liquidateCollateral_ok h
  · have htreasury : LendingPool.SameBorrowing w₂ w' := by
      rcases seizeForTreasury_ok h₃ with ⟨-, r, -, rfl⟩ | ⟨-, rfl⟩ <;> exact fun _ _ => rfl
    exact ((clearSeizedCollateral_sameBorrowing h₁).trans (seize_sameBorrowing h₂)).trans htreasury
  · exact (seize_sameBorrowing h₂).trans (clearSeizedCollateral_sameBorrowing h₃)

theorem liquidationCall_sameBorrowing {debtToCover : ℕ}
    (h : LendingPool.liquidationCall env w sender collateralAsset debtAsset user debtToCover
      receiveAToken = .ok w') : LendingPool.SameBorrowing w w' := by
  obtain ⟨l, w₁, w₂, -, h₁, h₂, h₃⟩ :=
    CollateralManager.liquidationCall_ok (LendingPool.liquidationCall_ok h)
  obtain ⟨r, -, rfl⟩ := World.onReserve_ok.mp h₁
  obtain ⟨t, -, rfl⟩ := payDebt_ok h₃
  intro u j
  rw [World.setReserve_usersConfig, liquidateCollateral_sameBorrowing h₂ u j,
    World.setReserve_usersConfig]

end CollateralManager

end Moola
