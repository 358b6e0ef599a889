import Moola.Roles

/-! A frozen reserve winds down: it refuses deposits, borrows and swaps, and lets through what
closes positions. No account comes to owe more in it, and the aTokens outside the treasury only
get fewer, in all runs in which the treasury gives none away. -/

namespace Moola

open Guard LendingPool

namespace Reserve

def Frozen (r : Reserve) : Prop := r.data.configuration.getFrozen = true

theorem SameTerms.frozen {r r' : Reserve} (h : SameTerms r r') (hr : r.Frozen) : r'.Frozen := by
  rw [Frozen, h.configuration]
  exact hr

def outside (r : Reserve) : ℕ :=
  r.aToken.ledger.totalSupply - r.aToken.ledger.balances r.aToken.treasury

variable {env : Env} {asset : Address} {r r' : Reserve} {a : Action} {actions : List Action}

theorem outside_congr (h : r'.aToken = r.aToken) : r'.outside = r.outside := by
  rw [outside, outside, h]

@[simp] theorem withData_outside (r : Reserve) (d : ReserveData) :
    (r.withData d).outside = r.outside := rfl

@[simp] theorem withUnderlying_outside (r : Reserve) (t : ERC20) :
    (r.withUnderlying t).outside = r.outside := rfl

theorem updateState_outside {impl : PoolImpl} {now : ℕ}
    (h : LendingPool.updateState impl now r = .ok r') : r'.outside = r.outside := by
  obtain ⟨start, -, he⟩ := LendingPool.updateState_eq impl now r
  rw [he] at h
  obtain ⟨-, -, minted, rfl, -⟩ := ReserveLogic.updateStateFrom_ok h
  have hle := r.aToken.ledger.balance_le r.aToken.treasury
  simp only [outside, withALedger_aToken_ledger, withALedger_aToken_treasury, withData_aToken,
    Ledger.credit_totalSupply, Ledger.credit_balances, if_true]
  omega

theorem burn_outside {user receiver : Address} {amount index : ℕ}
    (hne : user ≠ r.aToken.treasury) (h : AToken.burn r user receiver amount index = .ok r') :
    r'.outside ≤ r.outside := by
  obtain ⟨-, -, -, hs, _, rfl⟩ := AToken.burn_ok h
  simp only [outside, withUnderlying_aToken, withALedger_aToken_ledger,
    withALedger_aToken_treasury, Ledger.debit_totalSupply, Ledger.debit_balances,
    if_neg hne.symm]
  omega

theorem move_outside {impl : PoolImpl} {now amount : ℕ} {sender recipient : Address}
    {before : AToken.BalancesBefore} (hne : sender ≠ r.aToken.treasury)
    (h : AToken.move impl now r sender recipient amount = .ok (r', before)) :
    r'.outside ≤ r.outside := by
  obtain ⟨-, -, -, _, -, -, -, hs, rfl⟩ := AToken.move_ok h
  have hgrows := Ledger.le_move_balances _ sender recipient _ hs hne.symm
  simp only [outside, withALedger_aToken_ledger, withALedger_aToken_treasury,
    Ledger.move_totalSupply]
  omega

/-- Without deposits, and without anything that the treasury gives away, the aTokens outside it
get no more. -/
theorem apply_outside (h : r.apply env asset a = .ok r')
    (hmint : ∀ user amount, a ≠ .mint user amount) (ht : ¬TakesFrom r.aToken.treasury a) :
    r'.outside ≤ r.outside := by
  cases a with
  | updateState impl => exact (updateState_outside h).le
  | updateInterestRates added taken =>
    obtain ⟨rates, rfl⟩ := ReserveLogic.updateInterestRates_ok h
    exact (withData_outside _ _).le
  | pull spender sender amount =>
    obtain ⟨t, -, rfl⟩ := map_ok.mp h
    exact (withUnderlying_outside _ _).le
  | mint user amount => exact absurd rfl (hmint user amount)
  | burn user receiver amount => exact burn_outside ht h
  | move impl sender recipient amount =>
    obtain ⟨⟨r₁, before⟩, h₁, rfl⟩ := map_ok.mp h
    exact move_outside ht h₁
  | transferUnderlyingTo receiver amount =>
    obtain ⟨-, _, rfl⟩ := AToken.transferUnderlyingTo_ok h
    exact (withUnderlying_outside _ _).le
  | mintDebt mode user onBehalfOf amount =>
    obtain ⟨⟨r₁, first⟩, h₁, rfl⟩ := map_ok.mp h
    exact (outside_congr (mintDebt_aToken h₁)).le
  | burnDebt mode user amount =>
    rw [apply, LendingPool.burnDebt] at h
    split at h
    case isTrue =>
      obtain ⟨-, _, t, -, -, rfl, -⟩ := StableDebtToken.burn_ok h
      exact (outside_congr rfl).le
    case isFalse =>
      obtain ⟨-, -, -, -, _, rfl⟩ := VariableDebtToken.burn_ok h
      exact (outside_congr rfl).le
  | cumulateToLiquidityIndex total premium =>
    obtain ⟨-, _, -, rfl⟩ := ReserveLogic.cumulateToLiquidityIndex_ok h
    exact (withData_outside _ _).le
  | approve owner spender amount =>
    simp only [apply, AToken.approve, bind_ok, exists_unit, pure_ok] at h
    obtain ⟨-, -, -, rfl⟩ := h
    exact le_rfl
  | _ =>
    rw [← Except.ok.inj h]
    exact (outside_congr rfl).le

theorem run_outside (h : r.run env asset actions = .ok r')
    (hterms : ∀ a ∈ actions, ¬a.Administrative)
    (hmint : ∀ a ∈ actions, ∀ user amount, a ≠ .mint user amount)
    (ht : ∀ a ∈ actions, ¬TakesFrom r.aToken.treasury a) : r'.outside ≤ r.outside := by
  induction actions generalizing r with
  | nil => rw [← Except.ok.inj h]
  | cons a actions ih =>
    obtain ⟨r₁, h₁, h⟩ := bind_ok.mp h
    have hsame := apply_sameTerms h₁ (hterms a List.mem_cons_self)
    have hfirst := apply_outside h₁ (hmint a List.mem_cons_self) (ht a List.mem_cons_self)
    refine (ih h (fun a' ha' => hterms a' (List.mem_cons_of_mem a ha'))
      (fun a' ha' => hmint a' (List.mem_cons_of_mem a ha')) fun a' ha' => ?_).trans hfirst
    rw [hsame.treasury]
    exact ht a' (List.mem_cons_of_mem a ha')

end Reserve

/-- Nobody owes more in the reserve, and there are no more aTokens outside the treasury if that
gives none away. -/
structure Reserve.Winds (now : ℕ) (keeps : Prop) (r r' : Reserve) : Prop where
  debts : ∀ user mode, r.OwesNoMore now user mode r'
  outside : keeps → r'.outside ≤ r.outside

namespace Reserve.Winds

variable {now : ℕ} {keeps : Prop} {r r₁ r' : Reserve}

theorem refl (r : Reserve) : Winds now keeps r r := ⟨fun _ _ => .refl _, fun _ => le_rfl⟩

theorem trans (h₁ : Winds now keeps r r₁) (h₂ : Winds now keeps r₁ r') : Winds now keeps r r' where
  debts user mode := (h₁.debts user mode).trans (h₂.debts user mode)
  outside hk := (h₂.outside hk).trans (h₁.outside hk)

theorem variableDebts (h : Winds now keeps r r') (user : Address) :
    r'.variableDebtToken.ledger.balances user ≤ r.variableDebtToken.ledger.balances user := by
  obtain ⟨n, hn, hle⟩ := h.debts user .variable _ rfl
  rwa [← Except.ok.inj hn] at hle

end Reserve.Winds

variable {env : Env} {w w₁ w' : World} {sender asset : Address} {c : Call}
  {gives : Address → Prop} {l : Address → List Action}

theorem not_addsDebt_of_not_grows {user : Address} {mode : InterestRateMode} {a : Action}
    (ha : ¬a.Grows) : ¬Reserve.AddsDebt user mode a := by
  cases a with
  | mintDebt => exact absurd trivial ha
  | _ => exact id

theorem Effect.winds (hstored : env.timestamp < 2 ^ 40) (h : Effect env l w w')
    (hl : ∀ x, ∀ a ∈ l x, a.OfUser gives (w.reserves x)) (hfrozen : (w.reserves asset).Frozen) :
    (w.reserves asset).Winds env.timestamp (¬gives (w.reserves asset).aToken.treasury)
      (w'.reserves asset) := by
  have hclosed : ∀ a ∈ l asset, ¬a.Grows := by
    intro a ha hgrows
    have hopen := (hl asset a ha).grows hgrows
    rw [Reserve.Frozen, hopen] at hfrozen
    cases hfrozen
  refine ⟨fun user mode => Reserve.run_owed hstored (h.run asset)
    fun a ha => not_addsDebt_of_not_grows (hclosed a ha), fun hkeeps => ?_⟩
  refine Reserve.run_outside (h.run asset) (fun a ha => (hl asset a ha).terms) ?_
    fun a ha ht => hkeeps ((hl asset a ha).takes _ ht)
  rintro a ha user amount rfl
  exact hclosed _ ha trivial

theorem rebalance_winds {user x : Address} {keeps : Prop} (hstored : env.timestamp < 2 ^ 40)
    (h : rebalanceStableBorrowRate env w x user = .ok w') :
    (w.reserves asset).Winds env.timestamp keeps (w'.reserves asset) := by
  refine ⟨fun owner mode => ?_, fun _ => ?_⟩
  · by_cases hu : owner = user
    · rw [hu]
      exact (World.Spares.rebalance hstored h).debt asset mode
    · obtain ⟨n, -, heffect⟩ := rebalanceStableBorrowRate_effect h
      refine Reserve.run_owed hstored (heffect.run asset) fun a ha => ?_
      simp only [mem_onAsset, List.mem_cons, List.not_mem_nil, or_false] at ha
      obtain ⟨-, rfl | rfl | rfl | rfl⟩ := ha
      · exact id
      · exact id
      · exact fun hadds => hu hadds.1.symm
      · exact id
  · obtain ⟨n, -, heffect⟩ := rebalanceStableBorrowRate_effect h
    refine Reserve.run_outside (heffect.run asset) ?_ ?_ ?_ <;> intro a ha <;>
      simp only [mem_onAsset, List.mem_cons, List.not_mem_nil, or_false] at ha
    · obtain ⟨-, rfl | rfl | rfl | rfl⟩ := ha <;> exact id
    · obtain ⟨-, rfl | rfl | rfl | rfl⟩ := ha <;> simp
    · obtain ⟨-, rfl | rfl | rfl | rfl⟩ := ha <;> exact id

theorem exec_winds (hc : ByUser env sender c) (hstored : env.timestamp < 2 ^ 40)
    (h : exec env w sender c = .ok w') (hfrozen : (w.reserves asset).Frozen) :
    (w.reserves asset).Winds env.timestamp (¬c.Gives sender (w.reserves asset).aToken.treasury)
      (w'.reserves asset) := by
  rcases exec_user hc h with ⟨l, heffect, hl⟩ | ⟨x, user, rfl⟩
  · exact heffect.winds hstored hl hfrozen
  · exact rebalance_winds hstored h

theorem flashLoanTake_winds (env : Env) {loan : FlashLoan} {premiums : List ℕ} {keeps : Prop}
    (hstored : env.timestamp < 2 ^ 40) (h : flashLoanTake w loan = .ok (w', premiums)) :
    (w.reserves asset).Winds env.timestamp keeps (w'.reserves asset) := by
  simp only [flashLoanTake, bind_ok, exists_unit] at h
  obtain ⟨-, -, -, h⟩ := h
  obtain ⟨l, hl, heffect⟩ := takeAll_effect env h
  have hpays : ∀ a ∈ l asset, a.Closing := by
    intro a ha
    obtain ⟨amount, rfl⟩ := hl asset a ha
    exact ⟨id, id, fun _ => id⟩
  refine ⟨fun user mode => Reserve.run_owed hstored (heffect.run asset)
    fun a ha => not_addsDebt_of_not_grows (hpays a ha).grows, fun _ => ?_⟩
  refine Reserve.run_outside (heffect.run asset) (fun a ha => (hpays a ha).terms) ?_
    fun a ha => (hpays a ha).takes _
  rintro a ha user amount rfl
  exact (hpays _ ha).grows trivial

theorem flashLoanSettle_winds {loan : FlashLoan} {premiums : List ℕ} {keeps : Prop}
    (hstored : env.timestamp < 2 ^ 40)
    (h : flashLoanSettle env w sender loan premiums = .ok w')
    (hfrozen : (w.reserves asset).Frozen) :
    (w.reserves asset).Winds env.timestamp keeps (w'.reserves asset) := by
  have hkept := settleAll_relates (R := fun w w' => (w.reserves asset).Frozen →
      (w'.reserves asset).Frozen ∧
        (w.reserves asset).Winds env.timestamp keeps (w'.reserves asset))
    (fun w hw => ⟨hw, .refl _⟩) ?_ ?_ h hfrozen
  · exact hkept.2
  · intro w w₁ w' h₁ h₂ hw
    obtain ⟨hw₁, hfirst⟩ := h₁ hw
    obtain ⟨hw', hrest⟩ := h₂ hw₁
    exact ⟨hw', hfirst.trans hrest⟩
  · intro w w₁ x amount premium mode hone hw
    obtain ⟨l, heffect, hl⟩ := settleOne_user hone
    have hsame := Reserve.run_sameTerms (heffect.run asset) fun a ha => (hl asset a ha).terms
    have hwinds := heffect.winds hstored hl hw
    exact ⟨hsame.frozen hw, hwinds.debts, fun _ => hwinds.outside id⟩

/-- A call of a user by which the treasury gives no aTokens away. -/
def KeepsTreasury (treasury : Address) (env : Env) (sender : Address) (c : Call) : Prop :=
  ByUser env sender c ∧ ¬c.Gives sender treasury

theorem StepBy.winds {m m' : Machine} {treasury : Address}
    (h : StepBy (KeepsTreasury treasury) m m') (hfrozen : (m.world.reserves asset).Frozen)
    (htreasury : (m.world.reserves asset).aToken.treasury = treasury) (htime : m.time < 2 ^ 40) :
    (m.world.reserves asset).Winds m.time True (m'.world.reserves asset) := by
  cases h with
  | fires hc hfires =>
    cases hfires with
    | call hnow h =>
      rw [← hnow] at htime ⊢
      have hwinds := exec_winds hc.1 htime h hfrozen
      rw [htreasury] at hwinds
      exact ⟨hwinds.debts, fun _ => hwinds.outside hc.2⟩
    | flashLoanTake h => exact flashLoanTake_winds (sampleEnv m.time) htime h
    | flashLoanSettle hnow _ h =>
      rw [← hnow] at htime ⊢
      exact flashLoanSettle_winds htime h hfrozen
  | tick => exact .refl _

theorem RunBy.winds {m m' : Machine}
    (hrun : RunBy (KeepsTreasury (m.world.reserves asset).aToken.treasury) m m')
    (hfrozen : (m.world.reserves asset).Frozen) (htime : m'.time < 2 ^ 40) :
    (m.world.reserves asset).SameTerms (m'.world.reserves asset) ∧
    (∀ user, (m'.world.reserves asset).variableDebtToken.ledger.balances user ≤
      (m.world.reserves asset).variableDebtToken.ledger.balances user) ∧
    (m'.world.reserves asset).outside ≤ (m.world.reserves asset).outside := by
  induction hrun with
  | refl => exact ⟨.refl _, fun _ => le_rfl, le_rfl⟩
  | tail _ hs ih =>
    have hbefore := hs.time_le.trans_lt htime
    obtain ⟨hterms, hdebts, houtside⟩ := ih hbefore
    have hwinds := hs.winds (hterms.frozen hfrozen) hterms.treasury hbefore
    have hstep := World.SameTerms.step (hs.mono fun _ _ _ hc => hc.1)
    exact ⟨hterms.trans (hstep.reserves asset),
      fun user => (hwinds.variableDebts user).trans (hdebts user),
      (hwinds.outside trivial).trans houtside⟩

/-- While a reserve is frozen, whatever users and pool admin do, every account owes at most what it
owed in scaled variable debt, the aTokens outside the treasury get no more as long as the treasury
gives none away, and the next step adds to no debt of any kind either. -/
theorem frozen_run_winds_down {m m' : Machine}
    (hrun : RunBy (KeepsTreasury (m.world.reserves asset).aToken.treasury) m m')
    (hfrozen : (m.world.reserves asset).Frozen) (htime : m'.time < 2 ^ 40) :
    (m'.world.reserves asset).Frozen ∧
    (∀ user, (m'.world.reserves asset).variableDebtToken.ledger.balances user ≤
      (m.world.reserves asset).variableDebtToken.ledger.balances user) ∧
    (m'.world.reserves asset).outside ≤ (m.world.reserves asset).outside ∧
    ∀ m'', StepBy (KeepsTreasury (m.world.reserves asset).aToken.treasury) m' m'' →
      ∀ user mode, (m'.world.reserves asset).OwesNoMore m'.time user mode
        (m''.world.reserves asset) := by
  obtain ⟨hterms, hdebts, houtside⟩ := hrun.winds hfrozen htime
  have hstill := hterms.frozen hfrozen
  exact ⟨hstill, hdebts, houtside, fun m'' hs => (hs.winds hstill hterms.treasury htime).debts⟩

def frozenStart : List Transaction :=
  sampleListing 40 1 9 ++ [⟨sampleEnv 40, 11, .deposit 1 100 11⟩,
    ⟨sampleEnv 40, 8, .setConfiguration 1 (sampleConfiguration ||| 1#256 <<< 57)⟩]

theorem frozen_sample_runs : (do
    let w ← runAll sampleStart frozenStart
    let w' ← exec (sampleEnv 40) w 11 (.withdraw 1 40 11)
    return ((w.reserves 1).data.configuration.getFrozen, (w.reserves 1).aToken.treasury,
      (w.reserves 1).outside, (w'.reserves 1).outside)) = .ok (true, 9, 100, 60) := by
  decide +kernel

theorem frozen_run_winds_down_sample : ∃ w w' : World, (w'.reserves 1).outside = 60 ∧
    (w'.reserves 1).Frozen ∧ (w'.reserves 1).outside ≤ (w.reserves 1).outside := by
  obtain ⟨w, -, hrest⟩ := bind_ok.mp frozen_sample_runs
  obtain ⟨w', h, hrest⟩ := bind_ok.mp hrest
  simp only [pure_ok, Prod.mk.injEq] at hrest
  obtain ⟨hfrozen, htreasury, -, houtside⟩ := hrest
  have hkeeps : KeepsTreasury (w.reserves 1).aToken.treasury (sampleEnv 40) 11
      (.withdraw 1 40 11) := ⟨.of_user rfl (by simp), by rw [htreasury]; simp [Call.Gives]⟩
  have hstep : StepBy (KeepsTreasury (w.reserves 1).aToken.treasury) ⟨w, 40, []⟩ ⟨w', 40, []⟩ :=
    .call 11 _ hkeeps rfl h
  obtain ⟨hstill, -, hle, -⟩ := frozen_run_winds_down (m := ⟨w, 40, []⟩)
    (.single hstep) hfrozen (show 40 < 2 ^ 40 by norm_num)
  exact ⟨w, w', houtside, hstill, hle⟩

end Moola
