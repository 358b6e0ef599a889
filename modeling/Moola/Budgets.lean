import Moola.Permits

/-! What others can spend of an account: its aTokens up to what it approved, and debt in its name
up to what it delegated. Both budgets hold over whole runs, flash loans and signed approvals
included. -/

namespace Moola

open Guard LendingPool

/-- Neither an approval nor a debt that is opened in the name of somebody else. -/
def Action.Plain : Action → Prop
  | .approve .. | .approveStableDelegation .. | .approveVariableDelegation .. => False
  | .mintDebt _ user onBehalfOf _ => user = onBehalfOf
  | _ => True

namespace Reserve

structure SameApprovals (r r' : Reserve) : Prop where
  aTokens : r'.aToken.allowances = r.aToken.allowances
  debts : ∀ mode, r'.borrowAllowances mode = r.borrowAllowances mode

variable {env : Env} {asset : Address} {r r₁ r' : Reserve} {a : Action} {actions : List Action}

theorem SameApprovals.refl (r : Reserve) : SameApprovals r r := ⟨rfl, fun _ => rfl⟩

theorem SameApprovals.trans (h₁ : SameApprovals r r₁) (h₂ : SameApprovals r₁ r') :
    SameApprovals r r' :=
  ⟨h₂.aTokens.trans h₁.aTokens, fun mode => (h₂.debts mode).trans (h₁.debts mode)⟩

theorem updateState_allowances {impl : PoolImpl} {now : ℕ}
    (h : LendingPool.updateState impl now r = .ok r') :
    r'.aToken.allowances = r.aToken.allowances := by
  obtain ⟨start, -, he⟩ := LendingPool.updateState_eq impl now r
  rw [he] at h
  obtain ⟨-, -, minted, rfl, -⟩ := ReserveLogic.updateStateFrom_ok h
  rfl

theorem burnDebt_aToken {mode : InterestRateMode} {user : Address} {amount : ℕ}
    (h : LendingPool.burnDebt env r mode user amount = .ok r') : r'.aToken = r.aToken := by
  unfold LendingPool.burnDebt at h
  split at h
  case isTrue =>
    obtain ⟨-, _, t, -, -, rfl, -⟩ := StableDebtToken.burn_ok h
    rfl
  case isFalse =>
    obtain ⟨-, -, -, -, hs, rfl⟩ := VariableDebtToken.burn_ok h
    rfl

theorem apply_allowances (h : r.apply env asset a = .ok r')
    (ha : ∀ owner spender amount, a ≠ .approve owner spender amount) :
    r'.aToken.allowances = r.aToken.allowances := by
  cases a with
  | updateState impl => exact updateState_allowances h
  | updateInterestRates added taken =>
    obtain ⟨rates, rfl⟩ := ReserveLogic.updateInterestRates_ok h
    rw [withData_aToken]
  | pull spender sender amount =>
    obtain ⟨t, -, rfl⟩ := map_ok.mp h
    rfl
  | mint user amount =>
    obtain ⟨⟨r₁, first⟩, h₁, rfl⟩ := map_ok.mp h
    obtain ⟨-, -, -, -, rfl⟩ := AToken.mint_ok h₁
    rfl
  | burn owner receiver amount =>
    obtain ⟨-, -, -, hs, _, rfl⟩ := AToken.burn_ok h
    rfl
  | move impl sender recipient amount =>
    obtain ⟨⟨r₁, before⟩, h₁, rfl⟩ := map_ok.mp h
    obtain ⟨-, -, -, _, -, -, -, hs, rfl⟩ := AToken.move_ok h₁
    rfl
  | transferUnderlyingTo receiver amount =>
    obtain ⟨-, _, rfl⟩ := AToken.transferUnderlyingTo_ok h
    rfl
  | mintDebt mode sender onBehalfOf amount =>
    obtain ⟨⟨r₁, first⟩, h₁, rfl⟩ := map_ok.mp h
    rw [mintDebt_aToken h₁]
  | burnDebt mode owner amount => rw [burnDebt_aToken h]
  | cumulateToLiquidityIndex total premium =>
    obtain ⟨-, _, -, rfl⟩ := ReserveLogic.cumulateToLiquidityIndex_ok h
    rw [withData_aToken]
  | approve owner spender amount => exact absurd rfl (ha owner spender amount)
  | _ =>
    rw [← Except.ok.inj h]
    rfl

theorem run_allowances (h : r.run env asset actions = .ok r')
    (ha : ∀ a ∈ actions, ∀ owner spender amount, a ≠ .approve owner spender amount) :
    r'.aToken.allowances = r.aToken.allowances :=
  @run_induction _ _ _ _ (fun r r' => r'.aToken.allowances = r.aToken.allowances) _ h
    (fun _ => rfl) (fun _ _ _ h₁ h₂ => h₂.trans h₁) fun a hmem _ _ h =>
      apply_allowances h (ha a hmem)

theorem mintDebt_budget {m : InterestRateMode} {sender onBehalfOf delegator delegatee : Address}
    {amount : ℕ} {first : Bool}
    (h : LendingPool.mintDebt env r m sender onBehalfOf amount = .ok (r', first))
    (hm : m ≠ .none) (hne : delegatee ≠ delegator) (mode : InterestRateMode) :
    r'.borrowAllowances mode delegator delegatee +
        (if onBehalfOf = delegator ∧ sender = delegatee ∧ mode = m then amount else 0) =
      r.borrowAllowances mode delegator delegatee := by
  by_cases hpair : onBehalfOf = delegator ∧ sender = delegatee
  · obtain ⟨rfl, rfl⟩ := hpair
    simpa using mintDebt_spends h hm hne mode
  · have hother : ¬(delegator = onBehalfOf ∧ delegatee = sender) :=
      fun he => hpair ⟨he.1.symm, he.2.symm⟩
    rw [if_neg fun he => hpair ⟨he.1, he.2.1⟩, Nat.add_zero]
    unfold LendingPool.mintDebt at h
    split at h
    case isTrue =>
      obtain ⟨-, _, al, t, -, hal, -, -, rfl, -, -, -, ht⟩ := StableDebtToken.mint_ok h
      obtain ⟨-, rfl⟩ | ⟨-, -, rfl⟩ := spendBorrowAllowance_ok hal <;>
        cases mode <;> simp [borrowAllowances, ht, write₂_apply, hother]
    case isFalse =>
      obtain ⟨-, -, -, -, -, al, hal, rfl⟩ := VariableDebtToken.mint_ok h
      obtain ⟨-, rfl⟩ | ⟨-, -, rfl⟩ := spendBorrowAllowance_ok hal <;>
        cases mode <;> simp [borrowAllowances, write₂_apply, hother]

theorem mintDebt_own {m : InterestRateMode} {user : Address} {amount : ℕ} {first : Bool}
    (h : LendingPool.mintDebt env r m user user amount = .ok (r', first))
    (mode : InterestRateMode) : r'.borrowAllowances mode = r.borrowAllowances mode := by
  unfold LendingPool.mintDebt at h
  split at h
  case isTrue =>
    obtain ⟨-, _, al, t, -, hal, -, -, rfl, -, -, -, ht⟩ := StableDebtToken.mint_ok h
    obtain ⟨-, rfl⟩ | ⟨hne, -⟩ := spendBorrowAllowance_ok hal
    · exact borrowAllowances_congr ht rfl
    · exact absurd rfl hne
  case isFalse =>
    obtain ⟨-, -, -, -, -, al, hal, rfl⟩ := VariableDebtToken.mint_ok h
    obtain ⟨-, rfl⟩ | ⟨hne, -⟩ := spendBorrowAllowance_ok hal
    · exact borrowAllowances_congr rfl rfl
    · exact absurd rfl hne

theorem apply_sameApprovals (h : r.apply env asset a = .ok r') (ha : a.Plain) :
    SameApprovals r r' where
  aTokens := apply_allowances h fun _ _ _ he => by simp [he, Action.Plain] at ha
  debts mode := by
    by_cases hspends : SpendsAllowance a
    · cases a with
      | mintDebt m user onBehalfOf amount =>
        obtain rfl : user = onBehalfOf := ha
        obtain ⟨⟨r₁, first⟩, h₁, rfl⟩ := map_ok.mp h
        exact mintDebt_own h₁ mode
      | approveStableDelegation => exact absurd ha id
      | approveVariableDelegation => exact absurd ha id
      | _ => exact absurd hspends id
    · exact apply_borrowAllowances h hspends

theorem run_sameApprovals (h : r.run env asset actions = .ok r') (ha : ∀ a ∈ actions, a.Plain) :
    SameApprovals r r' :=
  run_induction h SameApprovals.refl (fun _ _ _ h₁ h₂ => h₁.trans h₂) fun a hmem _ _ h =>
    apply_sameApprovals h (ha a hmem)

end Reserve

variable {env : Env} {w w₁ w' : World} {sender asset owner spender delegator delegatee : Address}
  {l : Address → List Action} {actions : List Action} {c : Call} {mode : InterestRateMode}

def Call.Approves : Call → Prop
  | .borrow .. | .transferFrom .. | .approve .. | .approveStableDelegation ..
  | .approveVariableDelegation .. | .initReserve .. => True
  | _ => False

def World.SameApprovals (w w' : World) : Prop :=
  ∀ x, (w.reserves x).SameApprovals (w'.reserves x)

namespace World.SameApprovals

theorem of_reserves (h : w'.reserves = w.reserves) : SameApprovals w w' := fun x => by
  rw [h]
  exact .refl _

theorem trans (h₁ : SameApprovals w w₁) (h₂ : SameApprovals w₁ w') : SameApprovals w w' :=
  fun x => (h₁ x).trans (h₂ x)

theorem of_effect (h : Effect env l w w') (hl : ∀ x, ∀ a ∈ l x, a.Plain) : SameApprovals w w' :=
  fun x => Reserve.run_sameApprovals (h.run x) (hl x)

theorem of_onAsset (h : Effect env (onAsset asset actions) w w')
    (hl : ∀ a ∈ actions, a.Plain) : SameApprovals w w' :=
  of_effect h fun _ a ha => hl a (mem_onAsset.mp ha).2

theorem plain_debtActions {user : Address} {liquidation : CollateralManager.Liquidation}
    {a : Action} (ha : a ∈ CollateralManager.debtActions user liquidation) : a.Plain := by
  unfold CollateralManager.debtActions at ha
  split_ifs at ha <;> simp at ha
  case pos => rw [ha]; exact trivial
  case pos => obtain rfl | rfl := ha <;> exact trivial
  case neg => rw [ha]; exact trivial

theorem plain_seizeActions {impl : PoolImpl} {user : Address} {amount : ℕ} {receiveAToken : Bool}
    {a : Action} (ha : a ∈ CollateralManager.seizeActions impl sender user amount receiveAToken) :
    a.Plain := by
  unfold CollateralManager.seizeActions at ha
  split_ifs at ha
  case pos =>
    rw [List.mem_singleton.mp ha]
    exact trivial
  case neg =>
    simp only [List.mem_cons, List.not_mem_nil, or_false] at ha
    obtain rfl | rfl | rfl := ha <;> exact trivial

theorem liquidationCall {collateralAsset debtAsset user : Address} {debtToCover : ℕ}
    {receiveAToken : Bool} (h : LendingPool.liquidationCall env w sender collateralAsset debtAsset
      user debtToCover receiveAToken = .ok w') : SameApprovals w w' := by
  obtain ⟨liquidation, amount, treasury, -, heffect, htreasury⟩ :=
    LendingPool.liquidationCall_effect h
  refine of_effect heffect fun x a ha => ?_
  simp only [List.mem_append, mem_onAsset, List.mem_cons, List.not_mem_nil, or_false] at ha
  rcases ha with (⟨-, (rfl | ha) | rfl⟩ | ⟨-, ha⟩ | ⟨-, ha⟩) | ⟨-, rfl⟩
  · exact trivial
  · exact plain_debtActions ha
  · exact trivial
  · exact plain_seizeActions ha
  · obtain rfl | ⟨recipient, n, rfl⟩ := htreasury
    · simp at ha
    · rw [List.mem_singleton.mp ha]
      exact trivial
  · exact trivial

theorem exec (h : exec env w sender c = .ok w') (hc : ¬c.Approves) : SameApprovals w w' := by
  rcases exec_makes h with ⟨l, hmakes, heffect⟩ | ⟨asset, proxies, strategy, rfl⟩ | ⟨impl, rfl⟩
  case inr.inl => exact absurd trivial hc
  case inr.inr =>
    rw [← Except.ok.inj h]
    exact of_reserves rfl
  cases hmakes with
  | liquidationCall => exact liquidationCall h
  | setUserUseReserveAsCollateral => exact of_effect heffect (by simp)
  | setPause => exact of_effect heffect (by simp)
  | borrow => exact absurd trivial hc
  | transferFrom => exact absurd trivial hc
  | approve => exact absurd trivial hc
  | approveStableDelegation => exact absurd trivial hc
  | approveVariableDelegation => exact absurd trivial hc
  | _ => exact of_onAsset heffect (by simp [Action.Plain])

theorem flashLoanTake {loan : FlashLoan} {premiums : List ℕ}
    (h : LendingPool.flashLoanTake w loan = .ok (w', premiums)) : SameApprovals w w' := by
  simp only [LendingPool.flashLoanTake, bind_ok, exists_unit] at h
  obtain ⟨-, -, -, h⟩ := h
  refine LendingPool.takeAll_relates (fun _ => of_reserves rfl) (fun _ _ _ h₁ h₂ => h₁.trans h₂)
    (fun w w₁ asset amount premium hone x => ?_) h
  obtain ⟨r, hr, rfl⟩ := LendingPool.takeOne_ok hone
  obtain ⟨-, _, rfl⟩ := AToken.transferUnderlyingTo_ok hr
  by_cases hx : x = asset
  · subst hx
    rw [World.setReserve_reserves_self]
    exact ⟨rfl, fun _ => Reserve.borrowAllowances_congr rfl rfl⟩
  · rw [World.setReserve_reserves_of_ne hx]
    exact .refl _

end World.SameApprovals

theorem initReserve_approvals {env : Env} {p : Proxies} {strategy : Address}
    (h : LendingPool.initReserve env w sender asset p strategy = .ok w') (x : Address) :
    (w.reserves x).SameApprovals (w'.reserves x) ∨
      (w'.reserves x).aToken.allowances = (fun _ _ => 0) ∧
        ∀ mode, (w'.reserves x).borrowAllowances mode = fun _ _ => 0 := by
  simp only [LendingPool.initReserve, addReserveToList, bind_ok, exists_unit] at h
  obtain ⟨-, -, -, -, h⟩ := h
  by_cases hx : x = asset
  · subst hx
    right
    split at h <;> rw [← pure_ok.mp h]
    · refine ⟨by simp [initializedReserve], fun mode => ?_⟩
      cases mode <;> simp [Reserve.borrowAllowances, initializedReserve]
    · refine ⟨by simp [initializedReserve], fun mode => ?_⟩
      cases mode <;> simp [Reserve.borrowAllowances, initializedReserve]
  · left
    have hsame : w'.reserves x = w.reserves x := by
      split at h <;> rw [← pure_ok.mp h]
      · exact World.setReserve_reserves_of_ne hx
      · simp only [World.setReserve_setReserve]
        exact World.setReserve_reserves_of_ne hx
    rw [hsame]
    exact .refl _

theorem AToken.approve_ok {r r' : Reserve} {amount : ℕ}
    (h : AToken.approve r owner spender amount = .ok r') :
    r' = { r with aToken := { r.aToken with
      allowances := write₂ r.aToken.allowances owner spender amount } } := by
  simp only [AToken.approve, bind_ok, exists_unit, pure_ok] at h
  obtain ⟨-, -, -, rfl⟩ := h
  rfl

theorem onReserve_approve {o p : Address} {amount : ℕ}
    (h : w.onReserve asset (fun r => AToken.approve r o p amount) = .ok w') (x : Address) :
    (w'.reserves x).aToken.allowances owner spender =
      if asset = x ∧ o = owner ∧ p = spender then amount
      else (w.reserves x).aToken.allowances owner spender := by
  obtain ⟨r, hr, rfl⟩ := World.onReserve_ok.mp h
  obtain rfl := AToken.approve_ok hr
  by_cases hx : asset = x
  · subst hx
    simp only [World.setReserve_reserves_self, write₂_apply, true_and, eq_comm]
  · rw [World.setReserve_reserves_of_ne (Ne.symm hx), if_neg fun he => hx he.1]

theorem onReserve_approve_debts {o p : Address} {amount : ℕ}
    (h : w.onReserve asset (fun r => AToken.approve r o p amount) = .ok w') (x : Address) :
    (w'.reserves x).borrowAllowances mode = (w.reserves x).borrowAllowances mode := by
  obtain ⟨r, hr, rfl⟩ := World.onReserve_ok.mp h
  obtain rfl := AToken.approve_ok hr
  by_cases hx : asset = x
  · subst hx
    rw [World.setReserve_reserves_self]
    exact Reserve.borrowAllowances_congr rfl rfl
  · rw [World.setReserve_reserves_of_ne (Ne.symm hx)]

theorem transferFrom_approvals {o recipient : Address} {amount : ℕ}
    (h : AToken.transferFrom env w sender asset o recipient amount = .ok w') :
    ∃ w₁, w.SameApprovals w₁ ∧ amount ≤ (w.reserves asset).aToken.allowances o sender ∧
      w₁.onReserve asset (fun r => AToken.approve r o sender
        ((w.reserves asset).aToken.allowances o sender - amount)) = .ok w' := by
  simp only [AToken.transferFrom, bind_ok, SafeMath.sub_ok, pure_ok] at h
  obtain ⟨w₁, h₁, _, ⟨hle, rfl⟩, r, hr, rfl⟩ := h
  have hsame : w.SameApprovals w₁ :=
    .of_onAsset (AToken.transfer_effect h₁) (by simp [Action.Plain])
  rw [(hsame asset).aTokens] at hle hr
  exact ⟨w₁, hsame, hle, World.onReserve_ok.mpr ⟨r, hr, rfl⟩⟩

theorem transferFrom_budget {o recipient : Address} {amount : ℕ}
    (h : AToken.transferFrom env w sender asset o recipient amount = .ok w') (x : Address) :
    (w'.reserves x).aToken.allowances owner spender +
        (if asset = x ∧ o = owner ∧ sender = spender then amount else 0) =
      (w.reserves x).aToken.allowances owner spender := by
  obtain ⟨w₁, hsame, hle, happrove⟩ := transferFrom_approvals h
  rw [onReserve_approve happrove x, (hsame x).aTokens]
  split
  case isTrue he =>
    obtain ⟨rfl, rfl, rfl⟩ := he
    exact Nat.sub_add_cancel hle
  case isFalse => rfl

theorem transferFrom_debts {o recipient : Address} {amount : ℕ}
    (h : AToken.transferFrom env w sender asset o recipient amount = .ok w') (x : Address) :
    (w'.reserves x).borrowAllowances mode = (w.reserves x).borrowAllowances mode := by
  obtain ⟨w₁, hsame, -, happrove⟩ := transferFrom_approvals h
  exact (onReserve_approve_debts happrove x).trans ((hsame x).debts mode)

theorem executeBorrow_aTokens {onBehalfOf : Address} {amount rateMode : ℕ} {release : Bool}
    (h : executeBorrow env w sender asset onBehalfOf amount rateMode release = .ok w')
    (x : Address) : (w'.reserves x).aToken.allowances = (w.reserves x).aToken.allowances := by
  obtain ⟨m, -, heffect⟩ := executeBorrow_effect h
  refine Reserve.run_allowances (heffect.run x) fun a ha => ?_
  obtain ⟨-, ha⟩ := mem_onAsset.mp ha
  cases release <;>
    simp only [borrowActions, Bool.false_eq_true, if_true, if_false, List.append_nil,
      List.cons_append, List.nil_append, List.mem_cons, List.not_mem_nil, or_false] at ha
  · obtain rfl | rfl | rfl := ha <;> simp
  · obtain rfl | rfl | rfl | rfl := ha <;> simp

theorem executeBorrow_budget {onBehalfOf : Address} {amount rateMode : ℕ} {release : Bool}
    (hne : delegatee ≠ delegator)
    (h : executeBorrow env w sender asset onBehalfOf amount rateMode release = .ok w')
    (x : Address) (mode : InterestRateMode) :
    (w'.reserves x).borrowAllowances mode delegator delegatee +
        (if asset = x ∧ onBehalfOf = delegator ∧ sender = delegatee ∧
          InterestRateMode.ofUint rateMode = .ok mode then amount else 0) =
      (w.reserves x).borrowAllowances mode delegator delegatee := by
  obtain ⟨value, -, -, -, -, -, -, -, -, hvalid, -⟩ := executeBorrow_ok h
  obtain ⟨m, hmode, heffect⟩ := executeBorrow_effect h
  simp only [ValidationLogic.validateBorrow, bind_ok, exists_unit, require_ok] at hvalid
  obtain ⟨-, -, -, -, hselected, -⟩ := hvalid
  have hm : m ≠ .none := by
    rintro rfl
    obtain rfl | rfl := hselected <;> cases hmode
  have hrun := heffect.run x
  by_cases hx : asset = x
  · subst hx
    simp only [onAsset, if_true, borrowActions, List.cons_append, List.nil_append, Reserve.run,
      bind_ok] at hrun
    obtain ⟨r₁, h₁, r₂, h₂, r₃, h₃, h₄⟩ := hrun
    obtain ⟨⟨_, first⟩, hmint, rfl⟩ := map_ok.mp h₂
    have hbudget := Reserve.mintDebt_budget hmint hm hne mode
    have hlast : ∀ a ∈ if release = true then [Action.transferUnderlyingTo sender amount] else [],
        a.Plain := by
      cases release <;> simp [Action.Plain]
    rw [(Reserve.apply_sameApprovals h₁ trivial).debts] at hbudget
    rw [(Reserve.run_sameApprovals h₄ hlast).debts,
      (Reserve.apply_sameApprovals h₃ trivial).debts, ← hbudget]
    simp [hmode, eq_comm]
  · rw [onAsset, if_neg (Ne.symm hx)] at hrun
    rw [← Except.ok.inj hrun, if_neg fun he => hx he.1, Nat.add_zero]

theorem settleOne_budget {loan : FlashLoan} {amount premium m : ℕ} (hne : delegatee ≠ delegator)
    (h : settleOne env w sender loan asset amount premium m = .ok w') (x : Address)
    (hmode : mode ≠ .none) :
    (w'.reserves x).borrowAllowances mode delegator delegatee +
        (if loan.onBehalfOf = delegator ∧ sender = delegatee then
          if asset = x ∧ InterestRateMode.ofUint m = .ok mode then amount else 0
        else 0) =
      (w.reserves x).borrowAllowances mode delegator delegatee := by
  simp only [settleOne, bind_ok] at h
  obtain ⟨returned, -, m', hm', h⟩ := h
  split at h
  case isTrue hnone =>
    obtain ⟨total, heffect⟩ := returnOne_effect h
    have hsame : w.SameApprovals w' := .of_onAsset heffect (by simp [Action.Plain])
    have hzero : ¬(asset = x ∧ InterestRateMode.ofUint m = .ok mode) := by
      rintro ⟨-, he⟩
      rw [hm', Except.ok.injEq] at he
      exact hmode (he.symm.trans hnone)
    rw [(hsame x).debts, if_neg hzero, ite_self, Nat.add_zero]
  case isFalse =>
    rw [← executeBorrow_budget hne h x mode]
    congr 1
    split_ifs <;> simp_all

theorem settleAll_budget {loan : FlashLoan} {assets : List Address}
    {amounts premiums modes : List ℕ} (hne : delegatee ≠ delegator)
    (h : settleAll env sender loan w assets amounts premiums modes = .ok w') (x : Address)
    (hmode : mode ≠ .none) :
    (w'.reserves x).borrowAllowances mode delegator delegatee +
        (if loan.onBehalfOf = delegator ∧ sender = delegatee then
          borrowedAmount x mode assets amounts modes else 0) =
      (w.reserves x).borrowAllowances mode delegator delegatee := by
  induction assets generalizing w amounts premiums modes with
  | nil =>
    obtain rfl : w = w' := by simpa [settleAll] using h
    simp [borrowedAmount]
  | cons asset assets ih =>
    obtain ⟨amount, amounts', premium, premiums', m, modes', w₁, rfl, rfl, rfl, h₁, h₂⟩ :=
      settleAll_cons_ok h
    have hfirst := settleOne_budget hne h₁ x hmode
    have hrest := ih h₂
    rw [borrowedAmount]
    split at hfirst
    case isTrue hpair =>
      rw [if_pos hpair] at hrest ⊢
      omega
    case isFalse hpair =>
      rw [if_neg hpair] at hrest ⊢
      omega

theorem settleAll_aTokens {loan : FlashLoan} {assets : List Address}
    {amounts premiums modes : List ℕ}
    (h : settleAll env sender loan w assets amounts premiums modes = .ok w') (x : Address) :
    (w'.reserves x).aToken.allowances = (w.reserves x).aToken.allowances := by
  refine settleAll_relates (R := fun w w' =>
    (w'.reserves x).aToken.allowances = (w.reserves x).aToken.allowances)
    (fun _ => rfl) (fun _ _ _ h₁ h₂ => h₂.trans h₁) (fun w w₁ asset amount premium m hone => ?_) h
  rcases settleOne_ok hone with hone | hone
  · obtain ⟨total, heffect⟩ := returnOne_effect hone
    have hsame : w.SameApprovals w₁ := .of_onAsset heffect (by simp [Action.Plain])
    exact (hsame x).aTokens
  · exact executeBorrow_aTokens hone x

namespace Event

/-- What the spender moves out of the owner's aTokens. -/
def moved (asset owner spender : Address) : Event → ℕ
  | .pool (.call _ sender (.transferFrom a o _ amount)) =>
    if a = asset ∧ o = owner ∧ sender = spender then amount else 0
  | _ => 0

/-- What the owner adds, himself or by a signature, to what the spender may move. -/
def approved (asset owner spender : Address) : Event → ℕ
  | .pool (.call _ sender (.approve a p amount)) =>
    if a = asset ∧ sender = owner ∧ p = spender then amount else 0
  | .increaseAllowance _ sender a p addedValue =>
    if a = asset ∧ sender = owner ∧ p = spender then addedValue else 0
  | .permit _ p _ => if p.asset = asset ∧ p.owner = owner ∧ p.spender = spender then p.value else 0
  | _ => 0

/-- What the delegatee borrows in the name of the delegator, with flash loans that are left open. -/
def borrowed (asset : Address) (mode : InterestRateMode) (delegator delegatee : Address) :
    Event → ℕ
  | .pool (.call _ sender (.borrow a amount rateMode onBehalfOf)) =>
    if a = asset ∧ onBehalfOf = delegator ∧ sender = delegatee ∧
      InterestRateMode.ofUint rateMode = .ok mode then amount else 0
  | .pool (.flashLoanSettle _ pending) =>
    if pending.loan.onBehalfOf = delegator ∧ pending.sender = delegatee then
      borrowedAmount asset mode pending.loan.assets pending.loan.amounts pending.loan.modes
    else 0
  | _ => 0

/-- What the delegator allows the delegatee to borrow. -/
def delegated (asset : Address) (mode : InterestRateMode) (delegator delegatee : Address) :
    Event → ℕ
  | .pool (.call _ sender (.approveStableDelegation a d amount)) =>
    if mode = .stable ∧ a = asset ∧ sender = delegator ∧ d = delegatee then amount else 0
  | .pool (.call _ sender (.approveVariableDelegation a d amount)) =>
    if mode = .variable ∧ a = asset ∧ sender = delegator ∧ d = delegatee then amount else 0
  | _ => 0

end Event

theorem onReserve_map {f : Reserve → Reserve} (h : w.onReserve asset (fun r => .ok (f r)) = .ok w')
    (x : Address) : w'.reserves x = if asset = x then f (w.reserves x) else w.reserves x := by
  obtain ⟨r, hr, rfl⟩ := World.onReserve_ok.mp h
  obtain rfl := Except.ok.inj hr
  by_cases hx : asset = x
  · subst hx
    rw [if_pos rfl, World.setReserve_reserves_self]
  · rw [if_neg hx, World.setReserve_reserves_of_ne (Ne.symm hx)]

theorem approveStableDelegation_budget (r : Reserve) (d e : Address) (amount : ℕ) :
    (Moola.approveStableDelegation r d e amount).borrowAllowances mode delegator delegatee ≤
      r.borrowAllowances mode delegator delegatee +
        if mode = .stable ∧ d = delegator ∧ e = delegatee then amount else 0 := by
  cases mode with
  | stable =>
    simp only [Reserve.borrowAllowances, Moola.approveStableDelegation, Reserve.withStable,
      write₂_apply, true_and, @eq_comm _ delegator, @eq_comm _ delegatee]
    split <;> omega
  | _ => exact Nat.le_add_right _ _

theorem approveVariableDelegation_budget (r : Reserve) (d e : Address) (amount : ℕ) :
    (Moola.approveVariableDelegation r d e amount).borrowAllowances mode delegator delegatee ≤
      r.borrowAllowances mode delegator delegatee +
        if mode = .variable ∧ d = delegator ∧ e = delegatee then amount else 0 := by
  cases mode with
  | none => exact Nat.le_add_right _ _
  | stable => exact Nat.le_add_right _ _
  | _ =>
    simp only [Reserve.borrowAllowances, Moola.approveVariableDelegation, write₂_apply, true_and,
      @eq_comm _ delegator, @eq_comm _ delegatee]
    split <;> omega

theorem exec_moved (h : exec env w sender c = .ok w') (x owner spender : Address) :
    (Event.pool (.call env sender c)).moved x owner spender +
        (w'.reserves x).aToken.allowances owner spender ≤
      (w.reserves x).aToken.allowances owner spender +
        (Event.pool (.call env sender c)).approved x owner spender := by
  cases c with
  | borrow asset amount rateMode onBehalfOf =>
    rw [executeBorrow_aTokens (borrow_ok h) x]
    exact (Nat.zero_add _).le
  | transferFrom asset o recipient amount =>
    rw [← transferFrom_budget h x]
    exact (Nat.add_comm _ _).le
  | approve asset p amount =>
    rw [exec] at h
    rw [onReserve_approve h x]
    simp only [Event.moved, Event.approved]
    split <;> omega
  | approveStableDelegation asset d amount =>
    rw [exec] at h
    rw [onReserve_map h x]
    split <;> exact (Nat.zero_add _).le
  | approveVariableDelegation asset d amount =>
    rw [exec] at h
    rw [onReserve_map h x]
    split <;> exact (Nat.zero_add _).le
  | initReserve asset proxies strategy =>
    obtain hsame | ⟨hnone, -⟩ := initReserve_approvals h x
    · rw [hsame.aTokens]
      exact (Nat.zero_add _).le
    · rw [hnone]
      exact Nat.zero_le _
  | _ =>
    rw [(World.SameApprovals.exec h id x).aTokens]
    exact (Nat.zero_add _).le

theorem exec_borrowed (h : exec env w sender c = .ok w') (hne : delegatee ≠ delegator)
    (x : Address) (mode : InterestRateMode) :
    (Event.pool (.call env sender c)).borrowed x mode delegator delegatee +
        (w'.reserves x).borrowAllowances mode delegator delegatee ≤
      (w.reserves x).borrowAllowances mode delegator delegatee +
        (Event.pool (.call env sender c)).delegated x mode delegator delegatee := by
  cases c with
  | borrow asset amount rateMode onBehalfOf =>
    rw [← executeBorrow_budget hne (borrow_ok h) x mode]
    exact (Nat.add_comm _ _).le
  | transferFrom asset o recipient amount =>
    rw [transferFrom_debts h x]
    exact (Nat.zero_add _).le
  | approve asset p amount =>
    rw [exec] at h
    rw [onReserve_approve_debts h x]
    exact (Nat.zero_add _).le
  | approveStableDelegation asset d amount =>
    rw [exec] at h
    have hbudget := @approveStableDelegation_budget delegator delegatee mode (w.reserves x) sender d
      amount
    rw [onReserve_map h x]
    simp only [Event.borrowed, Event.delegated, Nat.zero_add]
    split
    case isTrue hx => simpa [hx] using hbudget
    case isFalse => exact Nat.le_add_right _ _
  | approveVariableDelegation asset d amount =>
    rw [exec] at h
    have hbudget := @approveVariableDelegation_budget delegator delegatee mode (w.reserves x) sender
      d amount
    rw [onReserve_map h x]
    simp only [Event.borrowed, Event.delegated, Nat.zero_add]
    split
    case isTrue hx => simpa [hx] using hbudget
    case isFalse => exact Nat.le_add_right _ _
  | initReserve asset proxies strategy =>
    obtain hsame | ⟨-, hnone⟩ := initReserve_approvals h x
    · rw [hsame.debts]
      exact (Nat.zero_add _).le
    · rw [hnone]
      exact Nat.zero_le _
  | _ =>
    rw [(World.SameApprovals.exec h id x).debts]
    exact (Nat.zero_add _).le

namespace PermitMachine

def allowance (s : PermitMachine) (asset owner spender : Address) : ℕ :=
  (s.world.reserves asset).aToken.allowances owner spender

def borrowAllowance (s : PermitMachine) (asset : Address) (mode : InterestRateMode)
    (delegator delegatee : Address) : ℕ :=
  (s.world.reserves asset).borrowAllowances mode delegator delegatee

variable {recover : Recover} {s s' : PermitMachine} {e : Event} {events : List Event}

theorem Tick.world (h : Tick s s') : s'.world = s.world := by
  obtain ⟨later, -, -, rfl⟩ := h
  rfl

theorem Fires.moved (h : Fires recover e s s') (asset owner spender : Address) :
    e.moved asset owner spender + s'.allowance asset owner spender ≤
      s.allowance asset owner spender + e.approved asset owner spender := by
  cases h with
  | pool h =>
    cases h with
    | call htime h => exact exec_moved h asset owner spender
    | flashLoanTake h =>
      rw [allowance, allowance, (World.SameApprovals.flashLoanTake h asset).aTokens]
      exact (Nat.zero_add _).le
    | flashLoanSettle htime hloans h =>
      rw [allowance, allowance, settleAll_aTokens h asset]
      exact (Nat.zero_add _).le
  | @increaseAllowance s env sender a p addedValue r htime h =>
    simp only [allowance, onReserve_approve (increaseAllowance_approves h) asset, Event.moved,
      Event.approved]
    split
    case isTrue he =>
      obtain ⟨rfl, rfl, rfl⟩ := he
      exact (Nat.zero_add _).le
    case isFalse => exact (Nat.zero_add _).le
  | @decreaseAllowance s env sender a p subtractedValue r htime h =>
    simp only [allowance, onReserve_approve (decreaseAllowance_approves h) asset, Event.moved,
      Event.approved]
    split
    case isTrue he =>
      obtain ⟨rfl, rfl, rfl⟩ := he
      exact (Nat.zero_add _).trans_le (Nat.sub_le _ _)
    case isFalse => exact (Nat.zero_add _).le
  | permit htime h =>
    simp only [allowance, onReserve_approve (permit_ok h).2.2.1 asset, Event.moved,
      Event.approved]
    split <;> omega

theorem Fires.borrowed (h : Fires recover e s s') (asset : Address) (hmode : mode ≠ .none)
    (hne : delegatee ≠ delegator) :
    e.borrowed asset mode delegator delegatee +
        s'.borrowAllowance asset mode delegator delegatee ≤
      s.borrowAllowance asset mode delegator delegatee +
        e.delegated asset mode delegator delegatee := by
  cases h with
  | pool h =>
    cases h with
    | call htime h => exact exec_borrowed h hne asset mode
    | flashLoanTake h =>
      rw [borrowAllowance, borrowAllowance, (World.SameApprovals.flashLoanTake h asset).debts]
      exact (Nat.zero_add _).le
    | flashLoanSettle htime hloans h =>
      rw [borrowAllowance, borrowAllowance, ← settleAll_budget hne h asset hmode]
      exact (Nat.add_comm _ _).le
  | @increaseAllowance s env sender a p addedValue r htime h =>
    rw [borrowAllowance, borrowAllowance,
      onReserve_approve_debts (increaseAllowance_approves h) asset]
    exact (Nat.zero_add _).le
  | @decreaseAllowance s env sender a p subtractedValue r htime h =>
    rw [borrowAllowance, borrowAllowance,
      onReserve_approve_debts (decreaseAllowance_approves h) asset]
    exact (Nat.zero_add _).le
  | permit htime h =>
    rw [borrowAllowance, borrowAllowance, onReserve_approve_debts (permit_ok h).2.2.1 asset]
    exact (Nat.zero_add _).le

theorem Runs.of_runAll (recover : Recover) {w w' : World} {ts : List Transaction}
    {loans : List PendingLoan} {time : ℕ} {nonces : Address → Address → ℕ}
    (hts : ∀ t ∈ ts, t.env.timestamp = time) (h : runAll w ts = .ok w') :
    Runs recover (ts.map fun t => .pool (.call t.env t.sender t.call)) ⟨⟨w, time, loans⟩, nonces⟩
      ⟨⟨w', time, loans⟩, nonces⟩ := by
  induction ts generalizing w with
  | nil =>
    obtain rfl := Except.ok.inj h
    exact .done _
  | cons t ts ih =>
    obtain ⟨w₁, h₁, h⟩ := bind_ok.mp h
    have hcall : Machine.Fires ⟨w, time, loans⟩ _ ⟨w₁, time, loans⟩ :=
      .call (hts t List.mem_cons_self) h₁
    have hfirst := @Fires.pool recover ⟨⟨w, time, loans⟩, nonces⟩ _ _ hcall
    exact .labelled hfirst (ih (fun t' ht' => hts t' (List.mem_cons_of_mem t ht')) h)

/-- What a spender moves out of an account's aTokens, over any run, was approved. -/
theorem transfers_within_approvals (h : Runs recover events s s') (asset owner spender : Address) :
    (events.map (Event.moved asset owner spender)).sum + s'.allowance asset owner spender ≤
      s.allowance asset owner spender + (events.map (Event.approved asset owner spender)).sum :=
  h.within_budget (fun s => s.allowance asset owner spender) (Event.approved asset owner spender)
    (Event.moved asset owner spender)
    (fun _ _ htick => by rw [allowance, allowance, htick.world])
    fun _ _ _ hfires => hfires.moved asset owner spender

def spending : List Transaction :=
  sampleListing 40 1 9 ++ [⟨sampleEnv 40, 12, .deposit 1 500 12⟩,
    ⟨sampleEnv 40, 12, .approve 1 11 100⟩, ⟨sampleEnv 40, 11, .transferFrom 1 12 13 60⟩]

theorem spending_runs : (do
    let w ← runAll sampleStart spending
    return (w.reserves 1).aToken.allowances 12 11) = .ok 40 := by
  decide +kernel

theorem transfers_within_approvals_sample : ∃ s s' events, Runs sampleRecover events s s' ∧
    s'.allowance 1 12 11 = 40 ∧ (events.map (Event.moved 1 12 11)).sum = 60 ∧
    (events.map (Event.moved 1 12 11)).sum + s'.allowance 1 12 11 ≤
      s.allowance 1 12 11 + (events.map (Event.approved 1 12 11)).sum := by
  obtain ⟨w, hw, hrest⟩ := bind_ok.mp spending_runs
  have hruns : Runs sampleRecover _ ⟨⟨sampleStart, 40, []⟩, fun _ _ => 0⟩ _ :=
    Runs.of_runAll sampleRecover (by simp [spending, sampleListing, sampleEnv]) hw
  exact ⟨_, _, _, hruns, pure_ok.mp hrest, rfl, transfers_within_approvals hruns 1 12 11⟩

/-- The debt that a delegatee opens in the name of an account, over any run, was delegated. -/
theorem debts_within_delegations (h : Runs recover events s s') (asset : Address)
    (hmode : mode ≠ .none) (hne : delegatee ≠ delegator) :
    (events.map (Event.borrowed asset mode delegator delegatee)).sum +
        s'.borrowAllowance asset mode delegator delegatee ≤
      s.borrowAllowance asset mode delegator delegatee +
        (events.map (Event.delegated asset mode delegator delegatee)).sum :=
  h.within_budget (fun s => s.borrowAllowance asset mode delegator delegatee)
    (Event.delegated asset mode delegator delegatee)
    (Event.borrowed asset mode delegator delegatee)
    (fun _ _ htick => by rw [borrowAllowance, borrowAllowance, htick.world])
    fun _ _ _ hfires => hfires.borrowed asset hmode hne

def borrowing : List Transaction := delegation ++ [⟨sampleEnv 40, 11, .borrow 1 60 2 12⟩]

theorem borrowing_runs : (do
    let w ← runAll sampleStart borrowing
    return (w.reserves 1).borrowAllowances .variable 12 11) = .ok 40 := by
  decide +kernel

theorem debts_within_delegations_sample : ∃ s s' events, Runs sampleRecover events s s' ∧
    s'.borrowAllowance 1 .variable 12 11 = 40 ∧
    (events.map (Event.borrowed 1 .variable 12 11)).sum = 60 ∧
    (events.map (Event.borrowed 1 .variable 12 11)).sum +
        s'.borrowAllowance 1 .variable 12 11 ≤
      s.borrowAllowance 1 .variable 12 11 +
        (events.map (Event.delegated 1 .variable 12 11)).sum := by
  obtain ⟨w, hw, hrest⟩ := bind_ok.mp borrowing_runs
  have hruns : Runs sampleRecover _ ⟨⟨sampleStart, 40, []⟩, fun _ _ => 0⟩ _ :=
    Runs.of_runAll sampleRecover (by simp [borrowing, delegation, sampleListing, sampleEnv]) hw
  exact ⟨_, _, _, hruns, pure_ok.mp hrest, rfl,
    debts_within_delegations hruns 1 (by decide) (by decide)⟩

end PermitMachine

end Moola
