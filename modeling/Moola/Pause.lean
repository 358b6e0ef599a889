import Moola.Roles

/-! The pause. What enters the pool reverts while it is on, transfers of aTokens and flash loans
among it, so the positions of all accounts stand still. Two functions of the pool admin do not
look at it. -/

namespace Moola

open Guard LendingPool

structure ByHolder (env : Env) (sender : Address) (c : Call) : Prop extends
    ByUser env sender c where
  notAdmin : (∃ asset amount rateMode onBehalfOf, c = .writeOff asset amount rateMode onBehalfOf) ∨
    (∃ asset amount, c = .updateLiquidtyIndexForLoss asset amount) → sender ≠ env.poolAdmin

variable {env : Env} {w w' : World} {sender : Address} {c : Call}

theorem whenNotPaused_ok {α : Type} {f : Unit → Tx α} {a : α}
    (h : whenNotPaused w >>= f = .ok a) : w.paused = false := by
  simp only [whenNotPaused, bind_unit_ok, require_ok] at h
  exact h.1

theorem transfer_not_paused {asset recipient : Address} {amount : ℕ}
    (h : AToken.transfer env w sender asset recipient amount = .ok w') : w.paused = false := by
  obtain ⟨r, before, -, h⟩ := AToken.transfer_ok h
  exact World.setReserve_paused.symm.trans (whenNotPaused_ok h)

theorem exec_ok_while_paused (hpaused : w.paused = true) (h : exec env w sender c = .ok w') :
    c.reachesPool = false ∨ c.onlyConfigurator = true ∨
      (∃ asset amount rateMode onBehalfOf,
        c = .writeOff asset amount rateMode onBehalfOf ∧ sender = env.poolAdmin) ∨
      ∃ asset amount, c = .updateLiquidtyIndexForLoss asset amount ∧ sender = env.poolAdmin := by
  have hnot : w.paused ≠ false := by simp [hpaused]
  cases c with
  | deposit => exact absurd (whenNotPaused_ok h) hnot
  | withdraw =>
    obtain ⟨⟨w₁, n⟩, h₁, -⟩ := map_ok.mp h
    obtain ⟨b, hb, -⟩ := bind_ok.mp h₁
    exact absurd (whenNotPaused_ok hb) hnot
  | borrow => exact absurd (whenNotPaused_ok h) hnot
  | repay =>
    obtain ⟨⟨w₁, n⟩, h₁, -⟩ := map_ok.mp h
    exact absurd (whenNotPaused_ok h₁) hnot
  | swapBorrowRateMode => exact absurd (whenNotPaused_ok h) hnot
  | rebalanceStableBorrowRate => exact absurd (whenNotPaused_ok h) hnot
  | setUserUseReserveAsCollateral => exact absurd (whenNotPaused_ok h) hnot
  | liquidationCall => exact absurd (whenNotPaused_ok h) hnot
  | transfer => exact absurd (transfer_not_paused h) hnot
  | transferFrom =>
    obtain ⟨w₁, r, h₁, -⟩ := AToken.transferFrom_ok h
    exact absurd (transfer_not_paused h₁) hnot
  | writeOff asset amount rateMode onBehalfOf =>
    obtain ⟨⟨w₁, n⟩, h₁, -⟩ := map_ok.mp h
    simp only [writeOff, onlyLendingPoolAdmin, bind_ok, exists_unit, require_ok] at h₁
    exact .inr (.inr (.inl ⟨asset, amount, rateMode, onBehalfOf, rfl, h₁.1.2.symm⟩))
  | updateLiquidtyIndexForLoss asset amount =>
    simp only [exec, updateLiquidtyIndexForLoss, onlyLendingPoolAdmin, bind_ok, exists_unit,
      require_ok] at h
    exact .inr (.inr (.inr ⟨asset, amount, rfl, h.1.2.symm⟩))
  | initReserve => exact .inr (.inl rfl)
  | setReserveInterestRateStrategyAddress => exact .inr (.inl rfl)
  | setConfiguration => exact .inr (.inl rfl)
  | setPause => exact .inr (.inl rfl)
  | _ => exact .inl rfl

theorem exec_holder_while_paused (hc : ByHolder env sender c) (hpaused : w.paused = true)
    (h : exec env w sender c = .ok w') : w.SamePositions w' := by
  rcases exec_ok_while_paused hpaused h with hout | hadmin | ⟨_, _, _, _, rfl, hs⟩ | ⟨_, _, rfl, hs⟩
  · exact exec_outside_pool hout hc.notOwner h
  · have hsender := hc.notConfigurator hadmin
    cases c with
    | initReserve => exact absurd (onlyConfigurator_ok h).symm hsender
    | setReserveInterestRateStrategyAddress => exact absurd (onlyConfigurator_ok h).symm hsender
    | setConfiguration => exact absurd (onlyConfigurator_ok h).symm hsender
    | setPause => exact absurd (onlyConfigurator_ok h).symm hsender
    | _ => cases hadmin
  · exact absurd hs (hc.notAdmin (.inl ⟨_, _, _, _, rfl⟩))
  · exact absurd hs (hc.notAdmin (.inr ⟨_, _, rfl⟩))

theorem flashLoanTake_not_paused {loan : FlashLoan} {premiums : List ℕ}
    (h : flashLoanTake w loan = .ok (w', premiums)) : w.paused = false := whenNotPaused_ok h

theorem StepBy.while_paused {m m' : Machine} (h : StepBy ByHolder m m')
    (hpaused : m.world.paused = true) (hloans : m.loans = []) :
    m.world.SamePositions m'.world ∧ m'.loans = [] := by
  cases h with
  | fires hc hfires =>
    cases hfires with
    | call _ h => exact ⟨exec_holder_while_paused hc hpaused h, hloans⟩
    | flashLoanTake h =>
      rw [flashLoanTake_not_paused h] at hpaused
      cases hpaused
    | flashLoanSettle _ hpending _ =>
      rw [hloans] at hpending
      cases hpending
  | tick later _ _ => exact ⟨.refl _, hloans⟩

/-- While the pool is paused, whatever its users and holders do and however long it takes, the
pause stays on, and neither a position, an index, a rate nor a flag moves. -/
theorem paused_run_keeps_positions {m m' : Machine} (hrun : RunBy ByHolder m m')
    (hpaused : m.world.paused = true) (hloans : m.loans = []) :
    m.world.SameTerms m'.world ∧ m.world.SamePositions m'.world ∧ m'.loans = [] := by
  induction hrun with
  | refl => exact ⟨.refl _, .refl _, hloans⟩
  | tail _ hs ih =>
    obtain ⟨hterms, hpositions, hnone⟩ := ih
    have hstep := World.SameTerms.step (hs.mono fun _ _ _ hc => hc.toByUser)
    obtain ⟨hmoved, hnone'⟩ := hs.while_paused (hterms.paused.trans hpaused) hnone
    exact ⟨hterms.trans hstep, hpositions.trans hmoved, hnone'⟩

def pausedStart : List Transaction :=
  sampleListing 40 1 9 ++
    [⟨sampleEnv 40, 11, .deposit 1 100 11⟩, ⟨sampleEnv 40, 8, .setPause true⟩]

theorem paused_sample_runs : (do
    let w ← runAll sampleStart pausedStart
    let w₁ ← exec (sampleEnv 40) w 12 (.underlyingTransfer 1 13 5)
    return (w.paused, (w.reserves 1).aToken.ledger.balances 11,
      (w₁.reserves 1).underlying.ledger.balances 13)) = .ok (true, 100, 1005) := by
  decide +kernel

theorem paused_run_keeps_positions_sample : ∃ w w₁ : World,
    w.SamePositions w₁ ∧ (w₁.reserves 1).underlying.ledger.balances 13 = 1005 := by
  obtain ⟨w, -, hrest⟩ := bind_ok.mp paused_sample_runs
  obtain ⟨w₁, h₁, hrest⟩ := bind_ok.mp hrest
  simp only [pure_ok, Prod.mk.injEq] at hrest
  obtain ⟨hpaused, -, hmoved⟩ := hrest
  have hholder : ByHolder (sampleEnv 40) 12 (.underlyingTransfer 1 13 5) :=
    ⟨.of_user rfl (by simp), by simp⟩
  have hstep : StepBy ByHolder ⟨w, 40, []⟩ ⟨w₁, 40, []⟩ := .call 12 _ hholder rfl h₁
  exact ⟨w, w₁, (paused_run_keeps_positions (.single hstep) hpaused rfl).2.1, hmoved⟩

end Moola
