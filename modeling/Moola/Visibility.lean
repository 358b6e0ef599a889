import Moola.Debts

/-! The borrowing flags show every debt, in every run. A borrow sets the flag when the
token says that there was no debt before, a payback clears it when nothing is left, and no
other operation touches it or opens a debt. -/

namespace Moola

open Guard WadRayMath

/-- Every debt is shown by the borrowing flag of its owner. -/
def World.DebtsVisible (w : World) : Prop :=
  ∀ a u, (w.reserves a).HasDebt u → (w.usersConfig u).borrowing (w.reserves a).data.id = true

/-- The calls that may change a borrowing flag: loans, and what is paid back or written off. -/
def Call.WritesBorrowing : Call → Prop
  | .borrow .. | .repay .. | .writeOff .. => True
  | _ => False

theorem Call.Makes.sameBorrowing {env : Env} {w w' : World} {sender : Address} {c : Call}
    {l : Address → List Action} (hl : c.Makes w sender l) (hc : ¬c.WritesBorrowing)
    (h : exec env w sender c = .ok w') : LendingPool.SameBorrowing w w' := by
  cases hl with
  | borrow | repay | writeOff => exact absurd trivial hc
  | deposit =>
    obtain ⟨r₁, r₂, t, r₃, first, -, -, -, -, hflag⟩ := LendingPool.deposit_ok h
    exact (LendingPool.applyIf_setUsingAsCollateral_ok hflag).2
  | withdraw n =>
    obtain ⟨⟨w₁, n⟩, h₁, rfl⟩ := map_ok.mp h
    obtain ⟨b, r, hb, -, -, rfl⟩ := LendingPool.withdraw_ok h₁
    obtain ⟨balance, r₁, -, -, -, -, -, hflag⟩ := LendingPool.beforeBurn_ok hb
    exact (LendingPool.applyIf_setUsingAsCollateral_ok hflag).2
  | swapBorrowRateMode burned minted n =>
    obtain ⟨_, _, _, _, _, _, _, _, -, -, -, -, -, -, rfl⟩ := LendingPool.swapBorrowRateMode_ok h
    exact fun _ _ => rfl
  | rebalanceStableBorrowRate n =>
    obtain ⟨_, _, _, _, _, _, -, -, -, -, -, rfl⟩ := LendingPool.rebalanceStableBorrowRate_ok h
    exact fun _ _ => rfl
  | @setUserUseReserveAsCollateral asset use =>
    obtain ⟨-, h⟩ := LendingPool.setUserUseReserveAsCollateral_ok h
    have hflag : applyIf True (fun w => LendingPool.setUsingAsCollateral w sender
        (w.reserves asset).data.id use) w = .ok w' := by rw [applyIf, if_pos trivial, h]
    exact (LendingPool.applyIf_setUsingAsCollateral_ok hflag).2
  | liquidationCall => exact CollateralManager.liquidationCall_sameBorrowing h
  | transfer => exact AToken.transfer_sameBorrowing h
  | transferFrom allowance =>
    obtain ⟨w₁, r, h₁, -, -, rfl⟩ := AToken.transferFrom_ok h
    exact fun u j => AToken.transfer_sameBorrowing h₁ u j
  | setReserveInterestRateStrategyAddress =>
    simp only [exec, LendingPool.setReserveInterestRateStrategyAddress, bind_ok, exists_unit,
      pure_ok] at h
    obtain ⟨-, rfl⟩ := h
    exact fun _ _ => rfl
  | setConfiguration =>
    simp only [exec, LendingPool.setConfiguration, bind_ok, exists_unit, pure_ok] at h
    obtain ⟨-, rfl⟩ := h
    exact fun _ _ => rfl
  | setPause =>
    simp only [exec, LendingPool.setPause, bind_ok, exists_unit, pure_ok] at h
    obtain ⟨-, rfl⟩ := h
    exact fun _ _ => rfl
  | updateLiquidtyIndexForLoss index =>
    obtain ⟨-, total, ratio, -, -, -, -, rfl⟩ := LendingPool.updateLiquidtyIndexForLoss_ok h
    exact fun _ _ => rfl
  | _ => exact fun u j => by rw [(exec_outside_pool rfl (by simp) h).usersConfig]

namespace World.DebtsVisible

variable {env : Env} {w w' : World} {l : Address → List Action}
  {sender asset onBehalfOf user : Address} {amount rateMode n : ℕ}

theorem of_effect (hw : w.DebtsVisible) (h : Effect env l w w')
    (hflags : ∀ u j, (w.usersConfig u).borrowing j = true → (w'.usersConfig u).borrowing j = true)
    (hmint : ∀ a mode minter u amount, .mintDebt mode minter u amount ∈ l a →
      (w'.reserves a).HasDebt u → (w.reserves a).HasDebt u) : w'.DebtsVisible := by
  intro a u hu
  have hbefore : (w.reserves a).HasDebt u := by
    rcases Reserve.run_hasDebt (h.run a) hu with hu' | ⟨mode, minter, m, hmem⟩
    · exact hu'
    · exact hmint a mode minter u m hmem hu
  rw [(Reserve.run_evolves (h.run a)).id]
  exact hflags u _ (hw a u hbefore)

theorem of_no_mint (hw : w.DebtsVisible) (h : Effect env l w w')
    (hflags : ∀ u j, (w'.usersConfig u).borrowing j = (w.usersConfig u).borrowing j)
    (hmint : ∀ a mode minter u amount, .mintDebt mode minter u amount ∉ l a) :
    w'.DebtsVisible := by
  refine hw.of_effect h (fun u j hb => (hflags u j).trans hb) ?_
  intro a mode minter u m hmem
  exact absurd hmem (hmint a mode minter u m)

theorem setReserve {r : Reserve} (hv : w.DebtsVisible)
    (hr : ∀ u, r.HasDebt u → (w.reserves asset).HasDebt u)
    (hid : r.data.id = (w.reserves asset).data.id) : (w.setReserve asset r).DebtsVisible := by
  intro a u hu
  rw [World.setReserve_usersConfig]
  by_cases ha : a = asset
  · subst ha
    rw [World.setReserve_reserves_self] at hu ⊢
    rw [hid]
    exact hv a u (hr u hu)
  · rw [World.setReserve_reserves_of_ne ha] at hu ⊢
    exact hv a u hu

theorem of_samePositions (hv : w.DebtsVisible) (h : w.SamePositions w') : w'.DebtsVisible := by
  intro a u hu
  rw [h.usersConfig, (h.reserves a).data]
  exact hv a u ((Reserve.hasDebt_congr (h.reserves a).variableDebts
    (h.reserves a).stableBalances).mp hu)

theorem executeBorrow {release : Bool} (hw : w.DebtsVisible)
    (h : LendingPool.executeBorrow env w user asset onBehalfOf amount rateMode release = .ok w') :
    w'.DebtsVisible := by
  obtain ⟨mode, -, heffect⟩ := LendingPool.executeBorrow_effect h
  obtain ⟨value, r₁, r₂, r₃, r₄, first, mode', w₁, -, -, h₁, -, h₂, hflag, -, -, hw'⟩ :=
    LendingPool.executeBorrow_ok h
  obtain ⟨-, hbits⟩ := LendingPool.applyIf_setBorrowing_ok hflag
  have hid : r₂.data.id = (w.reserves asset).data.id :=
    (Reserve.mintDebt_evolves h₂ : r₁.Evolves 0 r₂).id.trans (Reserve.updateState_evolves h₁).id
  have hbits' : ∀ u j, (w'.usersConfig u).borrowing j =
      if first = true ∧ u = onBehalfOf ∧ j = (w.reserves asset).data.id then true
      else (w.usersConfig u).borrowing j := by
    intro u j
    rw [hw', World.setReserve_usersConfig, hbits, hid]
  intro a u hu
  rw [(Reserve.run_evolves (heffect.run a)).id, hbits']
  split
  case isTrue => rfl
  case isFalse hflag' =>
    refine hw a u ?_
    rcases Reserve.run_hasDebt (heffect.run a) hu with hu' | ⟨mode, minter, m, hmem⟩
    · exact hu'
    · obtain ⟨rfl, hmem⟩ := mem_onAsset.mp hmem
      obtain rfl : u = onBehalfOf := by
        unfold LendingPool.borrowActions at hmem
        split at hmem <;> simp_all
      cases first with
      | true => exact absurd ⟨rfl, rfl, rfl⟩ hflag'
      | false =>
        obtain ⟨hdebt₁, hstable₁⟩ := LendingPool.updateState_debts h₁
        exact (Reserve.hasDebt_congr (by rw [hdebt₁]) (by rw [hstable₁])).mp
          (Reserve.hasDebt_of_not_first h₂)

theorem payback {p : LendingPool.Payback} (hv : w.DebtsVisible) (hw : w.WellFormed)
    (htime : env.timestamp < 2 ^ 40)
    (h : LendingPool.payback env w sender asset amount rateMode onBehalfOf = .ok p)
    {r : Reserve} (hr : ∀ u, r.HasDebt u → p.reserve.HasDebt u)
    (hid : r.data.id = p.reserve.data.id) : (p.world.setReserve asset r).DebtsVisible := by
  obtain ⟨mode, -, hflags, hrun⟩ := LendingPool.payback_effect h
  obtain ⟨s, v, _, r₁, r₂, hs, hdebt, -, -, -, -, -, -, -, hflag⟩ := LendingPool.payback_ok h
  obtain ⟨-, hbits⟩ := LendingPool.applyIf_setBorrowing_ok hflag
  have hid' : p.reserve.data.id = (w.reserves asset).data.id := (Reserve.run_evolves hrun).id
  intro a u hu
  rw [World.setReserve_usersConfig, hbits]
  by_cases ha : a = asset
  · subst ha
    rw [World.setReserve_reserves_self] at hu ⊢
    have hleft := hr u hu
    rw [hid]
    split
    case isTrue hcleared =>
      obtain ⟨hall, rfl, -⟩ := hcleared
      exact absurd hleft (LendingPool.payback_clears hw htime h hs hdebt hall)
    case isFalse =>
      rw [hid']
      refine hv a u ?_
      rcases Reserve.run_hasDebt hrun hleft with hu' | ⟨mode, minter, m, hmem⟩
      · exact hu'
      · simp at hmem
  · rw [World.setReserve_reserves_of_ne ha, hflags.reserves] at hu ⊢
    split
    case isTrue hcleared =>
      -- two initialized reserves do not share an id
      have hinit : (w.reserves a).data.aTokenAddress ≠ 0 :=
        fun h0 => (hw.blank a h0).not_hasDebt hu
      have hasset : (w.reserves asset).data.aTokenAddress ≠ 0 :=
        fun h0 => (StableDebtToken.balanceOf_ok.mp hs).1 (hw.blank asset h0).stableDebtTokenAddress
      refine absurd ?_ ha
      rw [← (hw.listed a hinit).2, hcleared.2.2, hid', (hw.listed asset hasset).2]
    case isFalse => exact hv a u hu

theorem exec {c : Call} (hv : w.DebtsVisible) (hw : w.WellFormed) (htime : env.timestamp < 2 ^ 40)
    (h : Moola.exec env w sender c = .ok w') : w'.DebtsVisible := by
  obtain ⟨l, hl, heffect⟩ | ⟨asset, proxies, strategy, rfl⟩ | ⟨impl, rfl⟩ := exec_makes h
  · have hflags : ¬c.WritesBorrowing → LendingPool.SameBorrowing w w' :=
      fun hc => hl.sameBorrowing hc h
    cases hl with
    | borrow mode => exact hv.executeBorrow (LendingPool.borrow_ok h)
    | repay mode n =>
      obtain ⟨⟨w₁, n⟩, h₁, rfl⟩ := map_ok.mp h
      obtain ⟨p, t, hp, -, -, rfl⟩ := LendingPool.repay_ok h₁
      exact hv.payback hw htime hp (fun _ hd => hd) rfl
    | writeOff mode n =>
      obtain ⟨⟨w₁, n⟩, h₁, rfl⟩ := map_ok.mp h
      obtain ⟨-, p, hp, -, rfl⟩ := LendingPool.writeOff_ok h₁
      exact hv.payback hw htime hp (fun _ hd => hd) rfl
    | @swapBorrowRateMode asset _ burned minted n =>
      refine hv.of_effect heffect (fun u j hb => (hflags not_false u j).trans hb) ?_
      intro a mode minter u m hmem _
      obtain ⟨rfl, -, -, rfl, -⟩ : a = asset ∧ mode = minted ∧ minter = sender ∧ u = sender ∧
          m = n := by simpa using hmem
      exact LendingPool.swapBorrowRateMode_hasDebt h
    | @rebalanceStableBorrowRate asset user n =>
      refine hv.of_effect heffect (fun u j hb => (hflags not_false u j).trans hb) ?_
      intro a mode minter u m hmem _
      obtain ⟨rfl, -, -, rfl, -⟩ : a = asset ∧ mode = .stable ∧ minter = user ∧ u = user ∧
          m = n := by simpa using hmem
      exact LendingPool.rebalanceStableBorrowRate_hasDebt h
    | @liquidationCall _ _ user _ receiveAToken l n treasury htreasury =>
      refine hv.of_no_mint heffect (hflags not_false) ?_
      intro a mode minter u m hmem
      have hdebt : .mintDebt mode minter u m ∉ CollateralManager.debtActions user l := by
        unfold CollateralManager.debtActions
        split_ifs <;> simp
      have hseize : .mintDebt mode minter u m ∉
          CollateralManager.seizeActions w.impl sender user n receiveAToken := by
        unfold CollateralManager.seizeActions
        split <;> simp
      rcases htreasury with rfl | ⟨recipient, k, rfl⟩ <;> simp [hdebt, hseize] at hmem
    | _ => exact hv.of_no_mint heffect (hflags not_false) (by simp)
  · obtain ⟨-, -, -, rfl⟩ := hw.initReserve_ok h
    intro a u hu
    by_cases ha : a = asset
    · subst ha
      simp only [write_self] at hu
      rcases hu with hd | hd
      · exact absurd rfl hd
      · exact absurd rfl hd
    · simp only [write_of_ne _ _ ha] at hu ⊢
      exact hv a u hu
  · rw [← Except.ok.inj h]
    exact hv

theorem takeAll {assets : List Address} {amounts premiums : List ℕ} {receiver : Address}
    (hv : w.DebtsVisible)
    (h : LendingPool.takeAll receiver w assets amounts = .ok (w', premiums)) :
    w'.DebtsVisible := by
  refine LendingPool.takeAll_relates (R := fun w w' => w.DebtsVisible → w'.DebtsVisible)
    (fun _ hv => hv) (fun _ _ _ hfirst hrest hv => hrest (hfirst hv)) ?_ h hv
  intro w w₁ asset amount premium hone hv
  obtain ⟨r, hr, rfl⟩ := LendingPool.takeOne_ok hone
  obtain ⟨-, _, rfl⟩ := AToken.transferUnderlyingTo_ok hr
  exact hv.setReserve (fun _ hd => hd) rfl

theorem settleAll {loan : LendingPool.FlashLoan} {assets : List Address}
    {amounts premiums modes : List ℕ} (hv : w.DebtsVisible)
    (h : LendingPool.settleAll env sender loan w assets amounts premiums modes = .ok w') :
    w'.DebtsVisible := by
  refine LendingPool.settleAll_relates (R := fun w w' => w.DebtsVisible → w'.DebtsVisible)
    (fun _ hv => hv) (fun _ _ _ hfirst hrest hv => hrest (hfirst hv)) ?_ h hv
  intro w w₁ asset amount premium mode hone hv
  rcases LendingPool.settleOne_ok hone with hone | hone
  · obtain ⟨total, heffect⟩ := LendingPool.returnOne_effect hone
    obtain ⟨_, _, _, _, _, -, -, -, -, -, rfl⟩ := LendingPool.returnOne_ok hone
    exact hv.of_no_mint heffect (fun _ _ => rfl) (by simp)
  · exact hv.executeBorrow hone

end World.DebtsVisible

/-- In every run at times that the pool can store, every debt is shown by the borrowing
flag of its owner for the id of its reserve. -/
theorem Reachable.debtsVisible {m : Machine} (h : Reachable m) (htime : m.time < 2 ^ 40) :
    m.world.DebtsVisible := by
  refine (@Reachable.invariant (fun m => m.world.WellFormed ∧
    (m.time < 2 ^ 40 → m.world.DebtsVisible)) ?_ ?_ m h).2 htime
  · intro underlying impl self time
    refine ⟨World.WellFormed.initial underlying impl self, fun _ a u hu => ?_⟩
    rcases hu with hd | hd <;> exact absurd rfl hd
  · rintro m m' ⟨hw, hv⟩ hstep
    refine ⟨hw.step hstep, fun ht => ?_⟩
    cases hstep with
    | fires _ hfires =>
      cases hfires with
      | call henv hc => exact (hv ht).exec hw (henv ▸ ht) hc
      | flashLoanTake hc =>
        simp only [LendingPool.flashLoanTake, bind_ok, exists_unit] at hc
        exact (hv ht).takeAll hc.2.2.2
      | flashLoanSettle henv hpending hc => exact (hv ht).settleAll hc
    | tick later hle hpending => exact hv (hle.trans_lt ht)

def slowEnv (timestamp : ℕ) : Env :=
  { sampleEnv timestamp with
    strategy := fun _ => some { sampleStrategy with baseVariableBorrowRate := 10 ^ 22 } }

def wrapStart : List Transaction :=
  sampleListing 0 1 9 ++
    [⟨slowEnv 0, 12, .deposit 1 100 12⟩, ⟨slowEnv 0, 12, .borrow 1 50 2 12⟩]

/-- At time `2 ^ 40` the stored time looks like that of the block. The debt shows no
interest, the index accrues it, and a repayment of all that is shown leaves a part. -/
theorem wrapStart_hidden : (do
    let w ← runAll sampleStart wrapStart
    let w' ← runAll w [⟨slowEnv (2 ^ 40), 12, .repay 1 maxUint256 2 12⟩]
    return ((w'.usersConfig 12).borrowing (w'.reserves 1).data.id,
      (w'.reserves 1).variableDebtToken.ledger.balances 12)) = .ok (false, 15) := by
  decide +kernel

theorem debt_hidden_after_wrap : ∃ m, Reachable m ∧ m.time = 2 ^ 40 ∧ ¬m.world.DebtsVisible := by
  obtain ⟨w, hrun, hrest⟩ := bind_ok.mp wrapStart_hidden
  obtain ⟨w', hrun', hrest⟩ := bind_ok.mp hrest
  simp only [pure_ok, Prod.mk.injEq] at hrest
  obtain ⟨hbit, hdebt⟩ := hrest
  have htick : Reachable ⟨w, 2 ^ 40, []⟩ :=
    .step (.sample (by decide) hrun) (.tick _ (Nat.zero_le _) rfl)
  refine ⟨⟨w', 2 ^ 40, []⟩, htick.runAll (by simp [slowEnv, sampleEnv]) hrun', rfl, ?_⟩
  intro hvisible
  have hset := hvisible 1 12 (.inl (by rw [hdebt]; decide))
  rw [hbit] at hset
  cases hset

theorem debtsVisible_borrowed : ∃ w, Reachable ⟨w, 0, []⟩ ∧
    (w.reserves 1).HasDebt 12 ∧ w.DebtsVisible := by
  have hrun : (do
      let w ← runAll sampleStart wrapStart
      return (w.reserves 1).variableDebtToken.ledger.balances 12) = .ok 50 := by decide +kernel
  obtain ⟨w, hw, hdebt⟩ := bind_ok.mp hrun
  have hreach : Reachable ⟨w, 0, []⟩ := .sample (by decide) hw
  refine ⟨w, hreach, .inl ?_, Reachable.debtsVisible hreach (show 0 < 2 ^ 40 by norm_num)⟩
  rw [pure_ok.mp hdebt]
  decide

end Moola
