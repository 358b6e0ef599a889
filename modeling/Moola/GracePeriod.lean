import Moola.Debts

/-! LendingPoolWithGracePeriod. What carries its modifier reverts; deposit and repay are left,
and so is the one function that the modifier was not added to. Without that function no
position shrinks, and flags follow first deposits and full repayments. -/

namespace Moola

open Guard WadRayMath LendingPool

namespace Call

def onlyConfigurator : Call → Bool
  | .initReserve .. | .setReserveInterestRateStrategyAddress .. => true
  | .setConfiguration .. | .setPause .. => true
  | _ => false

def isDepositOrRepay : Call → Bool
  | .deposit .. | .repay .. => true
  | _ => false

/-- A call of the function without the modifier that passes its checks. -/
def TogglesCollateral (env : Env) (w : World) (sender : Address) : Call → Prop
  | .setUserUseReserveAsCollateral asset use => w.paused = false ∧
    ValidationLogic.validateSetUseReserveAsCollateral env w asset sender use = .ok () ∧
      (w.reserves asset).data.id < 128
  | _ => False

end Call

variable {env : Env} {w w' : World} {sender : Address} {c : Call}

theorem disabled_ok {α : Type} {f : Unit → Tx α} {a : α}
    (h : (whenNotPaused w >>= fun _ => disabledDuringGracePeriod w >>= f) = .ok a) :
    w.impl ≠ .withGracePeriod := by
  simp only [disabledDuringGracePeriod, bind_unit_ok, require_ok] at h
  exact h.2.1

theorem onlyConfigurator_ok {α : Type} {f : Unit → Tx α} {a : α}
    (h : onlyLendingPoolConfigurator env sender >>= f = .ok a) :
    env.lendingPoolConfigurator = sender := by
  simp only [onlyLendingPoolConfigurator, bind_unit_ok, require_ok] at h
  exact h.1

theorem onlyAdmin_ok {α : Type} {f : Unit → Tx α} {a : α}
    (h : onlyLendingPoolAdmin env w sender >>= f = .ok a) :
    w.impl ≠ .withGracePeriod := by
  simp only [onlyLendingPoolAdmin, bind_unit_ok, require_ok] at h
  rw [h.1.1]
  decide

theorem transfer_not_grace {asset owner recipient : Address} {amount : ℕ}
    (h : AToken.transfer env w owner asset recipient amount = .ok w') :
    w.impl ≠ .withGracePeriod := by
  obtain ⟨r, before, -, h⟩ := AToken.transfer_ok h
  exact disabled_ok h

theorem exec_ok_in_grace (himpl : w.impl = .withGracePeriod) (hpool : c.reachesPool = true)
    (hsender : c.onlyConfigurator = true → sender ≠ env.lendingPoolConfigurator)
    (hc : c.isDepositOrRepay = false) (h : exec env w sender c = .ok w') :
    c.TogglesCollateral env w sender := by
  cases c with
  | deposit => cases hc
  | repay => cases hc
  | approve => cases hpool
  | approveStableDelegation => cases hpool
  | approveVariableDelegation => cases hpool
  | underlyingTransfer => cases hpool
  | underlyingTransferFrom => cases hpool
  | underlyingApprove => cases hpool
  | setLendingPoolImpl => cases hpool
  | withdraw asset amount receiver =>
    obtain ⟨⟨w₁, n⟩, h₁, -⟩ := map_ok.mp h
    obtain ⟨b, hb, -⟩ := bind_ok.mp h₁
    exact absurd himpl (disabled_ok hb)
  | borrow => exact absurd himpl (disabled_ok h)
  | writeOff =>
    obtain ⟨⟨w₁, n⟩, h₁, -⟩ := map_ok.mp h
    exact absurd himpl (onlyAdmin_ok h₁)
  | swapBorrowRateMode => exact absurd himpl (disabled_ok h)
  | rebalanceStableBorrowRate => exact absurd himpl (disabled_ok h)
  | setUserUseReserveAsCollateral asset use =>
    simp only [exec, setUserUseReserveAsCollateral, whenNotPaused, bind_unit_ok, require_ok,
      setUsingAsCollateral_ok] at h
    exact ⟨h.1, h.2.1, h.2.2.1⟩
  | liquidationCall => exact absurd himpl (disabled_ok h)
  | transfer => exact absurd himpl (transfer_not_grace h)
  | transferFrom =>
    obtain ⟨w₁, r, h₁, -⟩ := AToken.transferFrom_ok h
    exact absurd himpl (transfer_not_grace h₁)
  | initReserve => exact absurd (onlyConfigurator_ok h).symm (hsender rfl)
  | setReserveInterestRateStrategyAddress =>
    exact absurd (onlyConfigurator_ok h).symm (hsender rfl)
  | setConfiguration => exact absurd (onlyConfigurator_ok h).symm (hsender rfl)
  | setPause => exact absurd (onlyConfigurator_ok h).symm (hsender rfl)
  | updateLiquidtyIndexForLoss => exact absurd himpl (onlyAdmin_ok h)

theorem exec_of_toggles (h : c.TogglesCollateral env w sender) :
    ∃ w', exec env w sender c = .ok w' := by
  cases c with
  | setUserUseReserveAsCollateral asset use =>
    obtain ⟨hpaused, hvalid, hid⟩ := h
    refine ⟨w.setUserConfig sender
      ((w.usersConfig sender).writeBit ((w.reserves asset).data.id * 2 + 1) use), ?_⟩
    simp only [exec, setUserUseReserveAsCollateral, whenNotPaused, bind_unit_ok, require_ok,
      setUsingAsCollateral_ok]
    exact ⟨hpaused, hvalid, hid, trivial⟩
  | _ => cases h

/-- In the grace period every call to the pool other than deposit and repay reverts, but
for the collateral flag. -/
theorem exec_reverts_iff (himpl : w.impl = .withGracePeriod) (hpool : c.reachesPool = true)
    (hsender : c.onlyConfigurator = true → sender ≠ env.lendingPoolConfigurator)
    (hc : c.isDepositOrRepay = false) :
    (∃ e, exec env w sender c = .error e) ↔ ¬c.TogglesCollateral env w sender := by
  rw [exists_error_iff]
  constructor
  · intro hfails htoggles
    obtain ⟨w', hw'⟩ := exec_of_toggles htoggles
    exact hfails w' hw'
  · intro hnot w' hw'
    exact hnot (exec_ok_in_grace himpl hpool hsender hc hw')

theorem flashLoan_reverts (himpl : w.impl = .withGracePeriod) (loan : FlashLoan) :
    ∃ e, flashLoanTake w loan = .error e := by
  rw [exists_error_iff]
  intro a ha
  exact disabled_ok ha himpl

namespace Reserve

/-- No scaled aToken balance shrinks and no scaled variable debt grows. -/
structure Eases (r r' : Reserve) : Prop where
  balances : ∀ u, r.aToken.ledger.balances u ≤ r'.aToken.ledger.balances u
  debts : ∀ u, r'.variableDebtToken.ledger.balances u ≤ r.variableDebtToken.ledger.balances u

namespace Eases

variable {r r₁ r' : Reserve}

theorem refl (r : Reserve) : Eases r r := ⟨fun _ => le_rfl, fun _ => le_rfl⟩

theorem trans (h₁ : Eases r r₁) (h₂ : Eases r₁ r') : Eases r r' :=
  ⟨fun u => (h₁.balances u).trans (h₂.balances u), fun u => (h₂.debts u).trans (h₁.debts u)⟩

theorem withData (d : ReserveData) : Eases r (r.withData d) := ⟨fun _ => le_rfl, fun _ => le_rfl⟩

theorem withUnderlying (t : ERC20) : Eases r (r.withUnderlying t) :=
  ⟨fun _ => le_rfl, fun _ => le_rfl⟩

theorem of_samePositions (h : r.SamePositions r') : Eases r r' where
  balances u := by rw [h.aTokens]
  debts u := by rw [h.variableDebts]

end Eases

variable {asset : Address} {r r' : Reserve} {a : Action} {actions : List Action}

theorem updateState_eases {impl : PoolImpl} {now : ℕ}
    (h : LendingPool.updateState impl now r = .ok r') : Eases r r' := by
  obtain ⟨start, -, he⟩ := LendingPool.updateState_eq impl now r
  rw [he] at h
  obtain ⟨-, -, minted, rfl, -⟩ := ReserveLogic.updateStateFrom_ok h
  exact ⟨fun u => r.aToken.ledger.le_credit_balances _ _ u, fun _ => le_rfl⟩

theorem burnDebt_eases {mode : InterestRateMode} {user : Address} {amount : ℕ}
    (h : LendingPool.burnDebt env r mode user amount = .ok r') : Eases r r' := by
  unfold LendingPool.burnDebt at h
  split at h
  case isTrue =>
    obtain ⟨-, _, t, -, -, rfl, -⟩ := StableDebtToken.burn_ok h
    exact ⟨fun _ => le_rfl, fun _ => le_rfl⟩
  case isFalse =>
    obtain ⟨-, -, -, -, hs, rfl⟩ := VariableDebtToken.burn_ok h
    exact ⟨fun _ => le_rfl, fun u => r.variableDebtToken.ledger.debit_balances_le _ _ hs u⟩

def Easing : Action → Prop
  | .updateState _ | .updateInterestRates .. | .pull .. | .mint .. | .burnDebt .. => True
  | _ => False

theorem apply_eases (h : r.apply env asset a = .ok r') (ha : Easing a) : Eases r r' := by
  cases a with
  | updateState impl => exact updateState_eases h
  | updateInterestRates added taken =>
    obtain ⟨rates, rfl⟩ := ReserveLogic.updateInterestRates_ok h
    exact .withData _
  | pull spender sender amount =>
    obtain ⟨t, -, rfl⟩ := map_ok.mp h
    exact .withUnderlying t
  | mint user amount =>
    obtain ⟨⟨r₁, first⟩, h₁, rfl⟩ := map_ok.mp h
    obtain ⟨-, -, -, -, rfl⟩ := AToken.mint_ok h₁
    exact ⟨fun u => r.aToken.ledger.le_credit_balances _ _ u, fun _ => le_rfl⟩
  | burnDebt mode user amount => exact burnDebt_eases h
  | _ => cases ha

theorem run_eases (h : r.run env asset actions = .ok r') (ha : ∀ a ∈ actions, Easing a) :
    Eases r r' :=
  run_induction h Eases.refl (fun _ _ _ h₁ h₂ => h₁.trans h₂) fun a hmem _ _ h =>
    apply_eases h (ha a hmem)

end Reserve

theorem Effect.eases {asset : Address} {actions : List Action}
    (h : Effect env (onAsset asset actions) w w') (hl : ∀ a ∈ actions, Reserve.Easing a)
    (x : Address) : (w.reserves x).Eases (w'.reserves x) :=
  Reserve.run_eases (h.run x) fun a ha => hl a (mem_onAsset.mp ha).2

def Transaction.FirstDeposit (t : Transaction) (w w' : World) (user : Address) (id : ℕ) : Prop :=
  ∃ asset amount, t.call = .deposit asset amount user ∧ (w.reserves asset).data.id = id ∧
    (w.reserves asset).aToken.ledger.balances user = 0 ∧
    (w'.reserves asset).aToken.ledger.balances user ≠ 0

def Transaction.FullRepayment (t : Transaction) (w w' : World) (user : Address) (id : ℕ) :
    Prop :=
  ∃ asset amount mode, t.call = .repay asset amount mode user ∧
    (w.reserves asset).data.id = id ∧ ¬(w'.reserves asset).HasDebt user

/-- What a call may do to the positions of all accounts in the grace period. -/
structure Transaction.KeepsPositions (t : Transaction) (w w' : World) : Prop where
  impl : w'.impl = w.impl
  eases : ∀ a, (w.reserves a).Eases (w'.reserves a)
  collateral : ∀ u i, (w'.usersConfig u).collateral i ≠ (w.usersConfig u).collateral i →
    t.FirstDeposit w w' u i
  borrowing : ∀ u i, (w'.usersConfig u).borrowing i ≠ (w.usersConfig u).borrowing i →
    t.FullRepayment w w' u i

theorem deposit_keepsPositions {t : Transaction} {asset onBehalfOf : Address} {amount : ℕ}
    (hcall : t.call = .deposit asset amount onBehalfOf)
    (h : deposit t.env w t.sender asset amount onBehalfOf = .ok w') : t.KeepsPositions w w' := by
  have heffect := deposit_effect h
  obtain ⟨r₁, r₂, underlying, r₃, first, h₁, h₂, -, h₃, hflag⟩ := deposit_ok h
  obtain ⟨hflags, hbits⟩ := applyIf_setUsingAsCollateral_ok hflag
  have hr₃ : w'.reserves asset = r₃ := by
    rw [hflags.reserves, World.setReserve_reserves_self]
  have hid : r₃.data.id = (w.reserves asset).data.id := by
    rw [← hr₃, (Reserve.run_evolves (heffect.run asset)).id]
  have heases := heffect.eases (by simp [Reserve.Easing])
  refine ⟨heffect.impl, heases, ?_, fun u i hb => absurd (hbits u i) hb⟩
  intro u i hchanged
  rw [applyIf_setUsingAsCollateral_collateral hflag, hid] at hchanged
  split at hchanged
  case isFalse => exact absurd rfl hchanged
  case isTrue hset =>
    obtain ⟨hnone, rfl, rfl⟩ := hset
    obtain ⟨-, -, hunits, hfirst, hr⟩ := AToken.mint_ok h₃
    obtain ⟨rates, rfl⟩ := ReserveLogic.updateInterestRates_ok h₂
    refine ⟨asset, amount, hcall, rfl, ?_, ?_⟩
    · have hzero : r₁.aToken.ledger.balances u = 0 := by simpa [hnone] using hfirst
      exact Nat.le_zero.mp (hzero ▸ (Reserve.updateState_eases h₁).balances u)
    · rw [hr₃, hr, Reserve.withALedger_aToken_ledger, Ledger.credit_balances, if_pos rfl]
      omega

theorem repay_keepsPositions {t : Transaction} {asset onBehalfOf : Address}
    {amount rateMode n : ℕ} (hw : w.WellFormed) (htime : t.env.timestamp < 2 ^ 40)
    (hcall : t.call = .repay asset amount rateMode onBehalfOf)
    (h : repay t.env w t.sender asset amount rateMode onBehalfOf = .ok (w', n)) :
    t.KeepsPositions w w' := by
  obtain ⟨mode, -, heffect⟩ := repay_effect h
  obtain ⟨p, underlying, hp, -, -, rfl⟩ := repay_ok h
  obtain ⟨_, -, -, hrun⟩ := payback_effect hp
  obtain ⟨stableDebt, variableDebt, _, r₁, r₂, hs, hv, -, -, -, -, -, -, -, hflag⟩ :=
    payback_ok hp
  obtain ⟨hflags, hbits⟩ := applyIf_setBorrowing_ok hflag
  have heases := heffect.eases (by simp [Reserve.Easing])
  refine ⟨heffect.impl, heases, ?_, ?_⟩
  · intro u i hchanged
    exact absurd (applyIf_setBorrowing_collateral hflag u i) hchanged
  · intro u i hchanged
    rw [World.setReserve_usersConfig, hbits] at hchanged
    split at hchanged
    case isFalse => exact absurd rfl hchanged
    case isTrue hset =>
      obtain ⟨hall, rfl, rfl⟩ := hset
      refine ⟨asset, amount, rateMode, hcall, (Reserve.run_evolves hrun).id.symm, ?_⟩
      rw [World.setReserve_reserves_self]
      exact payback_clears hw htime hp hs hv hall

theorem Transaction.KeepsPositions.of_samePositions {t : Transaction} (himpl : w'.impl = w.impl)
    (h : w.SamePositions w') : t.KeepsPositions w w' where
  impl := himpl
  eases a := .of_samePositions (h.reserves a)
  collateral u i hb := absurd (by rw [h.usersConfig]) hb
  borrowing u i hb := absurd (by rw [h.usersConfig]) hb

/-- A call that neither the configurator nor the owner of the addresses provider makes, at
a time that the pool can store. -/
structure Transaction.ByUser (t : Transaction) : Prop where
  time : t.env.timestamp < 2 ^ 40
  notConfigurator : t.call.onlyConfigurator = true → t.sender ≠ t.env.lendingPoolConfigurator
  notOwner : ∀ impl, t.call ≠ .setLendingPoolImpl impl

theorem exec_keepsPositions {t : Transaction} (ht : t.ByUser)
    (hflag : ∀ asset use, t.call ≠ .setUserUseReserveAsCollateral asset use)
    (himpl : w.impl = .withGracePeriod) (hw : w.WellFormed)
    (h : exec t.env w t.sender t.call = .ok w') : t.KeepsPositions w w' := by
  by_cases hpool : t.call.reachesPool = true
  case neg =>
    exact .of_samePositions (hw.exec_impl ht.notOwner h)
      (exec_outside_pool (Bool.eq_false_of_not_eq_true hpool) ht.notOwner h)
  cases hc : t.call with
  | deposit asset amount onBehalfOf =>
    rw [hc] at h
    exact deposit_keepsPositions hc h
  | repay asset amount rateMode onBehalfOf =>
    rw [hc] at h
    obtain ⟨⟨w₁, n⟩, h₁, rfl⟩ := map_ok.mp h
    exact repay_keepsPositions hw ht.time hc h₁
  | setUserUseReserveAsCollateral asset use => exact absurd hc (hflag asset use)
  | _ =>
    have htoggles := exec_ok_in_grace himpl hpool ht.notConfigurator (by rw [hc]; rfl) h
    rw [hc] at htoggles
    cases htoggles

theorem runAll_keepsPositions {ts : List Transaction} (hts : ∀ t ∈ ts, t.ByUser)
    (hflag : ∀ t ∈ ts, ∀ asset use, t.call ≠ .setUserUseReserveAsCollateral asset use)
    (himpl : w.impl = .withGracePeriod) (hw : w.WellFormed) (h : runAll w ts = .ok w') :
    w'.impl = .withGracePeriod ∧ (∀ a, (w.reserves a).Eases (w'.reserves a)) ∧
      ∀ ts₁ t ts₂ w₁ w₂, ts = ts₁ ++ t :: ts₂ → runAll w ts₁ = .ok w₁ →
        exec t.env w₁ t.sender t.call = .ok w₂ → t.KeepsPositions w₁ w₂ := by
  induction ts generalizing w with
  | nil =>
    obtain rfl := Except.ok.inj h
    refine ⟨himpl, fun a => .refl _, ?_⟩
    intro ts₁ t ts₂ w₁ w₂ hsplit
    simp at hsplit
  | cons t₀ ts ih =>
    obtain ⟨w₀, h₀, h⟩ := bind_ok.mp h
    have hkeeps := exec_keepsPositions (hts t₀ List.mem_cons_self)
      (hflag t₀ List.mem_cons_self) himpl hw h₀
    obtain ⟨himpl', heases, hrest⟩ := ih (fun t ht => hts t (List.mem_cons_of_mem t₀ ht))
      (fun t ht => hflag t (List.mem_cons_of_mem t₀ ht)) (hkeeps.impl.trans himpl) (hw.exec h₀) h
    refine ⟨himpl', fun a => (hkeeps.eases a).trans (heases a), ?_⟩
    intro ts₁ t ts₂ w₁ w₂ hsplit h₁ h₂
    cases ts₁ with
    | nil =>
      obtain ⟨rfl, -⟩ := List.cons.inj hsplit
      obtain rfl := Except.ok.inj h₁
      obtain rfl := Except.ok.inj (h₀.symm.trans h₂)
      exact hkeeps
    | cons t₁ ts₁ =>
      obtain ⟨rfl, hrest'⟩ := List.cons.inj hsplit
      obtain ⟨w₀', h₀', h₁⟩ := bind_ok.mp h₁
      obtain rfl := Except.ok.inj (h₀.symm.trans h₀')
      exact hrest ts₁ t ts₂ w₁ w₂ hrest' h₁ h₂

/-- In a run of the grace period in which nobody calls the function without the modifier,
nothing but deposit and repay works, no supplied position shrinks and no variable debt
grows, and flags follow first deposits and full repayments. -/
theorem grace_period_run {m : Machine} {ts : List Transaction} (hm : Reachable m)
    (himpl : m.world.impl = .withGracePeriod) (hts : ∀ t ∈ ts, t.ByUser)
    (hflag : ∀ t ∈ ts, ∀ asset use, t.call ≠ .setUserUseReserveAsCollateral asset use)
    (h : runAll m.world ts = .ok w') :
    (∀ env sender c, c.reachesPool = true →
      (c.onlyConfigurator = true → sender ≠ env.lendingPoolConfigurator) →
      c.isDepositOrRepay = false →
      ((∃ e, exec env w' sender c = .error e) ↔ ¬c.TogglesCollateral env w' sender)) ∧
    (∀ loan, ∃ e, flashLoanTake w' loan = .error e) ∧
    (∀ a, (m.world.reserves a).Eases (w'.reserves a)) ∧
    ∀ ts₁ t ts₂ w₁ w₂, ts = ts₁ ++ t :: ts₂ → runAll m.world ts₁ = .ok w₁ →
      exec t.env w₁ t.sender t.call = .ok w₂ → t.KeepsPositions w₁ w₂ := by
  obtain ⟨himpl', heases, hsteps⟩ := runAll_keepsPositions hts hflag himpl hm.wellFormed h
  exact ⟨fun env sender c hpool hsender hc => exec_reverts_iff himpl' hpool hsender hc,
    flashLoan_reverts himpl', heases, hsteps⟩

def graceStart : List Transaction :=
  sampleListing 40 1 9 ++
    [⟨sampleEnv 40, 12, .deposit 1 100 12⟩, ⟨sampleEnv 40, 7, .setLendingPoolImpl .withGracePeriod⟩]

theorem graceStart_toggles : (do
    let w ← runAll sampleStart graceStart
    let w₁ ← exec (sampleEnv 40) w 12 (.setUserUseReserveAsCollateral 1 false)
    let w₂ ← runAll w [⟨sampleEnv 40, 11, .deposit 1 10 11⟩]
    return (w.impl, (w.usersConfig 12).collateral 0, (w₁.usersConfig 12).collateral 0,
      (w₂.reserves 1).aToken.ledger.balances 11)) = .ok (.withGracePeriod, true, false, 10) := by
  decide +kernel

theorem graceStart_state : ∃ w w₁ w₂, Reachable ⟨w, 40, []⟩ ∧ w.impl = .withGracePeriod ∧
    exec (sampleEnv 40) w 12 (.setUserUseReserveAsCollateral 1 false) = .ok w₁ ∧
    runAll w [⟨sampleEnv 40, 11, .deposit 1 10 11⟩] = .ok w₂ := by
  obtain ⟨w, hrun, hrest⟩ := bind_ok.mp graceStart_toggles
  obtain ⟨w₁, h₁, hrest⟩ := bind_ok.mp hrest
  obtain ⟨w₂, h₂, hrest⟩ := bind_ok.mp hrest
  simp only [pure_ok, Prod.mk.injEq] at hrest
  exact ⟨w, w₁, w₂, .sample (by decide) hrun, hrest.1, h₁, h₂⟩

theorem collateral_toggled_in_grace : ¬ ∀ (m : Machine) (env : Env) (sender : Address) (c : Call),
    Reachable m → m.world.impl = .withGracePeriod → env.timestamp = m.time →
    c.reachesPool = true → c.onlyConfigurator = false → c.isDepositOrRepay = false →
    ∃ e, exec env m.world sender c = .error e := by
  intro hdisabled
  obtain ⟨w, w₁, -, hreach, himpl, h₁, -⟩ := graceStart_state
  obtain ⟨e, he⟩ := hdisabled _ (sampleEnv 40) 12 (.setUserUseReserveAsCollateral 1 false) hreach
    himpl rfl rfl rfl rfl
  cases h₁.symm.trans he

theorem grace_period_run_deposit : ∃ w w₂, w.impl = .withGracePeriod ∧
    runAll w [⟨sampleEnv 40, 11, .deposit 1 10 11⟩] = .ok w₂ ∧
    ∀ a, (w.reserves a).Eases (w₂.reserves a) := by
  obtain ⟨w, -, w₂, hreach, himpl, -, h₂⟩ := graceStart_state
  have huser : ∀ t ∈ [(⟨sampleEnv 40, 11, .deposit 1 10 11⟩ : Transaction)], t.ByUser := by
    intro t ht
    obtain rfl := List.mem_singleton.mp ht
    exact ⟨show 40 < 2 ^ 40 by norm_num, nofun, nofun⟩
  have hflag : ∀ t ∈ [(⟨sampleEnv 40, 11, .deposit 1 10 11⟩ : Transaction)],
      ∀ asset use, t.call ≠ .setUserUseReserveAsCollateral asset use := by
    intro t ht
    obtain rfl := List.mem_singleton.mp ht
    exact nofun
  exact ⟨w, w₂, himpl, h₂, (grace_period_run hreach himpl huser hflag h₂).2.2.1⟩

end Moola
