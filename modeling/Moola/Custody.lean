import Moola.Roles

/-! Whose aTokens move. Where an account acts in the pool for itself, nobody else loses aTokens,
and only the treasury gets any. -/

namespace Moola

open Guard WadRayMath

namespace Reserve

variable {env : Env} {asset user : Address} {r r' : Reserve} {a : Action} {actions : List Action}

def GivesTo (user : Address) : Action → Prop
  | .mint recipient _ => recipient = user
  | .move _ _ recipient _ => recipient = user
  | _ => False

theorem updateState_gives {impl : PoolImpl} {now : ℕ} (hu : user ≠ r.aToken.treasury)
    (h : LendingPool.updateState impl now r = .ok r') :
    r'.aToken.ledger.balances user ≤ r.aToken.ledger.balances user := by
  obtain ⟨start, -, he⟩ := LendingPool.updateState_eq impl now r
  rw [he] at h
  obtain ⟨-, -, minted, rfl, -⟩ := ReserveLogic.updateStateFrom_ok h
  simp [hu]

theorem apply_gives (h : r.apply env asset a = .ok r') (ha : ¬GivesTo user a)
    (hu : user ≠ r.aToken.treasury) :
    r'.aToken.ledger.balances user ≤ r.aToken.ledger.balances user := by
  cases a with
  | updateState impl => exact updateState_gives hu h
  | updateInterestRates added taken =>
    obtain ⟨rates, rfl⟩ := ReserveLogic.updateInterestRates_ok h
    exact le_rfl
  | pull spender sender amount =>
    obtain ⟨t, -, rfl⟩ := map_ok.mp h
    exact le_rfl
  | mint recipient amount =>
    obtain ⟨⟨r₁, first⟩, h₁, rfl⟩ := map_ok.mp h
    obtain ⟨-, -, -, -, rfl⟩ := AToken.mint_ok h₁
    have hne : user ≠ recipient := fun he => ha he.symm
    simp [hne]
  | burn owner receiver amount =>
    obtain ⟨-, -, -, hs, _, rfl⟩ := AToken.burn_ok h
    exact Ledger.debit_balances_le _ _ _ hs user
  | move impl sender recipient amount =>
    obtain ⟨⟨r₁, before⟩, h₁, rfl⟩ := map_ok.mp h
    obtain ⟨-, -, -, _, -, -, -, hs, rfl⟩ := AToken.move_ok h₁
    have hne : user ≠ recipient := fun he => ha he.symm
    simp only [withALedger_aToken_ledger, Ledger.move_balances, if_neg hne, Nat.add_zero]
    split
    case isTrue => exact Nat.sub_le _ _
    case isFalse => exact le_rfl
  | transferUnderlyingTo receiver amount =>
    obtain ⟨-, _, rfl⟩ := AToken.transferUnderlyingTo_ok h
    exact le_rfl
  | mintDebt mode sender onBehalfOf amount =>
    obtain ⟨⟨r₁, first⟩, h₁, rfl⟩ := map_ok.mp h
    rw [mintDebt_aToken h₁]
  | burnDebt mode owner amount =>
    rw [apply, LendingPool.burnDebt] at h
    split at h
    case isTrue =>
      obtain ⟨-, _, t, -, -, rfl, -⟩ := StableDebtToken.burn_ok h
      exact le_rfl
    case isFalse =>
      obtain ⟨-, -, -, -, hs, rfl⟩ := VariableDebtToken.burn_ok h
      exact le_rfl
  | cumulateToLiquidityIndex total premium =>
    obtain ⟨-, _, -, rfl⟩ := ReserveLogic.cumulateToLiquidityIndex_ok h
    exact le_rfl
  | approve owner spender amount =>
    simp only [apply, AToken.approve, bind_ok, exists_unit, pure_ok] at h
    obtain ⟨-, -, -, rfl⟩ := h
    exact le_rfl
  | _ =>
    rw [← Except.ok.inj h]
    exact le_rfl

theorem run_gives (h : r.run env asset actions = .ok r') (ha : ∀ a ∈ actions, ¬GivesTo user a)
    (hterms : ∀ a ∈ actions, ¬a.Administrative) (hu : user ≠ r.aToken.treasury) :
    r'.aToken.ledger.balances user ≤ r.aToken.ledger.balances user := by
  have hkept : r.SameTerms r' ∧ (user ≠ r.aToken.treasury →
      r'.aToken.ledger.balances user ≤ r.aToken.ledger.balances user) := by
    refine @run_induction _ _ _ _ (fun r r' => r.SameTerms r' ∧ (user ≠ r.aToken.treasury →
      r'.aToken.ledger.balances user ≤ r.aToken.ledger.balances user)) _ h
      (fun r => ⟨.refl r, fun _ => le_rfl⟩) ?_ ?_
    · rintro r₁ r₂ r₃ ⟨hsame₁, h₁⟩ ⟨hsame₂, h₂⟩
      exact ⟨hsame₁.trans hsame₂, fun hu => (h₂ (hsame₁.treasury ▸ hu)).trans (h₁ hu)⟩
    · exact fun a hmem _ _ h =>
        ⟨apply_sameTerms h (hterms a hmem), fun hu => apply_gives h (ha a hmem) hu⟩
  exact hkept.2 hu

end Reserve

variable {env : Env} {w w₁ w' : World} {account user asset : Address} {amount n : ℕ}
  {l : Address → List Action}

/-- Nobody but the account loses aTokens. -/
def World.KeepsDeposits (account : Address) (w w' : World) : Prop :=
  ∀ user ≠ account, ∀ x,
    (w.reserves x).aToken.ledger.balances user ≤ (w'.reserves x).aToken.ledger.balances user

/-- Nobody but the account loses aTokens, and nobody but the treasury and the account gets
any. -/
structure World.LeavesDeposits (account : Address) (w w' : World) : Prop where
  keeps : w.KeepsDeposits account w'
  treasury : ∀ x, (w'.reserves x).aToken.treasury = (w.reserves x).aToken.treasury
  gives : ∀ user ≠ account, ∀ x, user ≠ (w.reserves x).aToken.treasury →
    (w'.reserves x).aToken.ledger.balances user ≤ (w.reserves x).aToken.ledger.balances user

namespace World.LeavesDeposits

theorem of_ledgers (h : ∀ x, (w'.reserves x).aToken.ledger = (w.reserves x).aToken.ledger)
    (ht : ∀ x, (w'.reserves x).aToken.treasury = (w.reserves x).aToken.treasury) :
    w.LeavesDeposits account w' where
  keeps _ _ x := by rw [h]
  treasury := ht
  gives _ _ x _ := by rw [h]

theorem refl (w : World) : w.LeavesDeposits account w := of_ledgers (fun _ => rfl) fun _ => rfl

theorem trans (h₁ : w.LeavesDeposits account w₁) (h₂ : w₁.LeavesDeposits account w') :
    w.LeavesDeposits account w' where
  keeps user hne x := (h₁.keeps user hne x).trans (h₂.keeps user hne x)
  treasury x := (h₂.treasury x).trans (h₁.treasury x)
  gives user hne x hu :=
    (h₂.gives user hne x (h₁.treasury x ▸ hu)).trans (h₁.gives user hne x hu)

theorem of_onReserve {f : Reserve → Tx Reserve} (h : w.onReserve asset f = .ok w')
    (hf : ∀ r r', f r = .ok r' →
      r'.aToken.ledger = r.aToken.ledger ∧ r'.aToken.treasury = r.aToken.treasury) :
    w.LeavesDeposits account w' := by
  obtain ⟨r, hr, rfl⟩ := World.onReserve_ok.mp h
  have hreserve : ∀ x, ((w.setReserve asset r).reserves x).aToken.ledger =
      (w.reserves x).aToken.ledger ∧
      ((w.setReserve asset r).reserves x).aToken.treasury = (w.reserves x).aToken.treasury := by
    intro x
    by_cases hx : x = asset
    · rw [hx, World.setReserve_reserves_self]
      exact hf _ r hr
    · rw [World.setReserve_reserves_of_ne hx]
      exact ⟨rfl, rfl⟩
  exact of_ledgers (fun x => (hreserve x).1) fun x => (hreserve x).2

end World.LeavesDeposits

structure Action.Own (account : Address) (a : Action) : Prop where
  terms : ¬a.Administrative
  takes : ∀ user ≠ account, ¬Reserve.TakesFrom user a
  gives : ∀ user ≠ account, ¬Reserve.GivesTo user a

theorem Effect.keepsDeposits (h : Effect env l w w')
    (hl : ∀ x, ∀ a ∈ l x, ∀ user ≠ account, ¬Reserve.TakesFrom user a) :
    w.KeepsDeposits account w' :=
  fun user hne => h.deposit fun x a ha => hl x a ha user hne

theorem Effect.leavesDeposits (h : Effect env l w w') (hl : ∀ x, ∀ a ∈ l x, a.Own account) :
    w.LeavesDeposits account w' where
  keeps := h.keepsDeposits fun x a ha => (hl x a ha).takes
  treasury x := (Reserve.run_sameTerms (h.run x) fun a ha => (hl x a ha).terms).treasury
  gives user hne x hu := Reserve.run_gives (h.run x) (fun a ha => (hl x a ha).gives user hne)
    (fun a ha => (hl x a ha).terms) hu

namespace LendingPool

theorem deposit_keepsDeposits {sender onBehalfOf : Address}
    (h : deposit env w sender asset amount onBehalfOf = .ok w') : w.KeepsDeposits account w' := by
  refine (deposit_effect h).keepsDeposits fun x a ha user hne => ?_
  simp only [mem_onAsset, List.mem_cons, List.not_mem_nil, or_false] at ha
  obtain ⟨-, rfl | rfl | rfl | rfl⟩ := ha <;> exact id

theorem withdraw_leavesDeposits {receiver : Address}
    (h : withdraw env w account asset amount receiver = .ok (w', n)) :
    w.LeavesDeposits account w' := by
  refine (withdraw_effect h).leavesDeposits fun x a ha => ?_
  simp only [mem_onAsset, List.mem_cons, List.not_mem_nil, or_false] at ha
  obtain ⟨-, rfl | rfl | rfl⟩ := ha
  · exact ⟨id, fun _ _ => id, fun _ _ => id⟩
  · exact ⟨id, fun _ _ => id, fun _ _ => id⟩
  · exact ⟨id, fun user hne he => hne he.symm, fun _ _ => id⟩

theorem repay_leavesDeposits {sender onBehalfOf : Address} {rateMode : ℕ}
    (h : repay env w sender asset amount rateMode onBehalfOf = .ok (w', n)) :
    w.LeavesDeposits account w' := by
  obtain ⟨mode, -, heffect⟩ := repay_effect h
  refine heffect.leavesDeposits fun x a ha => ?_
  simp only [mem_onAsset, List.mem_cons, List.not_mem_nil, or_false] at ha
  obtain ⟨-, rfl | rfl | rfl | rfl⟩ := ha <;> exact ⟨id, fun _ _ => id, fun _ _ => id⟩

theorem flashLoanTake_leavesDeposits {loan : FlashLoan} {premiums : List ℕ}
    (h : flashLoanTake w loan = .ok (w', premiums)) : w.LeavesDeposits account w' := by
  simp only [flashLoanTake, bind_ok, exists_unit] at h
  obtain ⟨-, -, -, h⟩ := h
  refine takeAll_relates (R := World.LeavesDeposits account) .refl (fun _ _ _ => .trans) ?_ h
  intro w w₁ asset amount premium hone
  refine (takeOne_effect (sampleEnv 0) hone).leavesDeposits fun x a ha => ?_
  rw [List.mem_singleton.mp (mem_onAsset.mp ha).2]
  exact ⟨id, fun _ _ => id, fun _ _ => id⟩

theorem flashLoanSettle_leavesDeposits {sender : Address} {loan : FlashLoan}
    {premiums : List ℕ} (h : flashLoanSettle env w sender loan premiums = .ok w') :
    w.LeavesDeposits account w' := by
  refine settleAll_relates (R := World.LeavesDeposits account) .refl (fun _ _ _ => .trans) ?_ h
  intro w w₁ asset amount premium mode hone
  rcases settleOne_ok hone with hone | hone
  · obtain ⟨total, heffect⟩ := returnOne_effect hone
    refine heffect.leavesDeposits fun x a ha => ?_
    simp only [mem_onAsset, List.mem_cons, List.not_mem_nil, or_false] at ha
    obtain ⟨-, rfl | rfl | rfl | rfl⟩ := ha <;> exact ⟨id, fun _ _ => id, fun _ _ => id⟩
  · obtain ⟨m, -, heffect⟩ := executeBorrow_effect hone
    refine heffect.leavesDeposits fun x a ha => ?_
    simp only [mem_onAsset, borrowActions, Bool.false_eq_true, if_false, List.append_nil,
      List.mem_cons, List.not_mem_nil, or_false] at ha
    obtain ⟨-, rfl | rfl | rfl⟩ := ha <;> exact ⟨id, fun _ _ => id, fun _ _ => id⟩

end LendingPool

theorem AToken.transfer_keepsDeposits {recipient : Address}
    (h : transfer env w account asset recipient amount = .ok w') :
    w.KeepsDeposits account w' := by
  refine (transfer_effect h).keepsDeposits fun x a ha user hne => ?_
  rw [List.mem_singleton.mp (mem_onAsset.mp ha).2]
  exact fun he => hne he.symm

end Moola
