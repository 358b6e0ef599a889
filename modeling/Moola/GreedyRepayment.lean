import Moola.BadDebt
import Moola.NoInterest

/-! The loop of the second round as a greedy allocation: the records are paid in order, each
with its variable debt first, out of what the fix has left, and the pool pulls exactly the
amounts that the records and the balance go down by. -/

namespace Moola

open Guard WadRayMath

namespace MoolaFix

def PaidInMode (env : Env) (fix asset account : Address) (rateMode : ℕ) (w : World) (n : ℕ)
    (w' : World) : Prop :=
  n = 0 ∧ w' = w ∨
    n ≠ 0 ∧ ∃ amount, LendingPool.repay env w fix asset amount rateMode account = .ok (w', n)

/-- Records paid one after the other out of what is left, each up to its debt: `v` of the
variable debt and, with the rest, `s` of the stable debt of its account. Only when nothing
is left the remaining records stay as they are. -/
inductive Greedy (env : Env) (fix asset : Address)
    (variableDebt stableDebt : World → Address → ℕ) :
    World → ℕ → List Entry → World → List Entry → ℕ → Prop
  | done (w : World) (left : ℕ) : Greedy env fix asset variableDebt stableDebt w left [] w [] 0
  | spent (w : World) (es : List Entry) :
      Greedy env fix asset variableDebt stableDebt w 0 es w es 0
  | entry {w w₁ w₂ w' : World} {left x v s total : ℕ} {e e' : Entry} {es es' : List Entry} :
      x = min e.debt left → v = min x (variableDebt w e.account) →
      s = min (x - v) (stableDebt w e.account) →
      PaidInMode env fix asset e.account 2 w v w₁ →
      PaidInMode env fix asset e.account 1 w₁ s w₂ →
      e'.account = e.account → e.debt = e'.debt + (v + s) → v + s ≤ left →
      Greedy env fix asset variableDebt stableDebt w₂ (left - (v + s)) es w' es' total →
      Greedy env fix asset variableDebt stableDebt w left (e :: es) w' (e' :: es')
        (v + s + total)

variable {env : Env} {fix asset account other : Address} {w w₁ w' : World}
  {amount rateMode left n total debt : ℕ} {e : Entry} {es es' : List Entry}

theorem repayMode_paid {variableDebt : ℕ}
    (hdebt : VariableDebtToken.balanceOf w.impl env.timestamp (w.reserves asset) account =
      .ok variableDebt)
    (h : repayMode env fix asset w variableDebt amount 2 account = .ok (w', n)) :
    n = min amount (shownVariableDebt env asset w account) ∧
      PaidInMode env fix asset account 2 w n w' ∧
      shownStableDebt env asset w' account = shownStableDebt env asset w account := by
  rw [shownVariableDebt_of_ok hdebt]
  unfold repayMode at h
  split at h
  case isTrue =>
    obtain ⟨hn, debt, hdebt', hpaid⟩ := (repay_paysBack h).variable_amount
    obtain rfl := Except.ok.inj (hdebt'.symm.trans hdebt)
    exact ⟨hpaid, .inr ⟨hn, amount, h⟩, (repay_paysBack h).reduces_variable_keeps⟩
  case isFalse hnone =>
    obtain ⟨rfl, rfl⟩ := Prod.mk.inj (Except.ok.inj h)
    exact ⟨by omega, .inl ⟨rfl, rfl⟩, rfl⟩

theorem repayMode_stable_paid {stableDebt : ℕ}
    (hdebt : StableDebtToken.balanceOf env.timestamp (w.reserves asset) account = .ok stableDebt)
    (h : repayMode env fix asset w stableDebt amount 1 account = .ok (w', n)) :
    n = min amount (shownStableDebt env asset w account) ∧
      PaidInMode env fix asset account 1 w n w' := by
  unfold repayMode at h
  split at h
  case isTrue =>
    obtain ⟨hn, hpaid⟩ := (repay_paysBack h).stable_amount
    exact ⟨hpaid, .inr ⟨hn, amount, h⟩⟩
  case isFalse hnone =>
    rw [shownStableDebt_of_ok hdebt]
    obtain ⟨rfl, rfl⟩ := Prod.mk.inj (Except.ok.inj h)
    exact ⟨by omega, .inl ⟨rfl, rfl⟩⟩

theorem repayOneAccountBadDebt_paid
    (h : repayOneAccountBadDebt env fix asset w account amount = .ok (w', n)) :
    ∃ w₁ v s, v = min amount (shownVariableDebt env asset w account) ∧
      s = min (amount - v) (shownStableDebt env asset w account) ∧
      PaidInMode env fix asset account 2 w v w₁ ∧ PaidInMode env fix asset account 1 w₁ s w' ∧
      n = v + s := by
  simp only [repayOneAccountBadDebt, bind_ok, SafeMath.sub_ok] at h
  obtain ⟨variableDebt, hvdebt, ⟨w₁, v⟩, hvariable, _, ⟨-, rfl⟩, h⟩ := h
  obtain ⟨hv, hvpaid, hkept⟩ := repayMode_paid hvdebt hvariable
  split at h
  case isTrue =>
    simp only [bind_ok, SafeMath.add_ok, pure_ok, Prod.mk.injEq] at h
    obtain ⟨stableDebt, hsdebt, ⟨w₂, s⟩, hstable, _, ⟨-, rfl⟩, rfl, rfl⟩ := h
    obtain ⟨hs, hspaid⟩ := repayMode_stable_paid hsdebt hstable
    exact ⟨w₁, v, s, hv, hkept ▸ hs, hvpaid, hspaid, rfl⟩
  case isFalse hspent =>
    obtain ⟨rfl, rfl⟩ := Prod.mk.inj (pure_ok.mp h)
    exact ⟨w₁, v, 0, hv, by omega, hvpaid, .inl ⟨rfl, rfl⟩, rfl⟩

/-- The loop is greedy for the debts that each account shows when its turn comes. -/
theorem repayRecords_greedy {es : List Entry} : ∀ {w : World} {left : ℕ} {es' : List Entry},
    repayRecords env fix asset w left es = .ok (w', es') →
    ∃ total, Greedy env fix asset (shownVariableDebt env asset) (shownStableDebt env asset)
      w left es w' es' total := by
  induction es with
  | nil =>
    intro w left es' h
    obtain ⟨rfl, rfl⟩ := Prod.mk.inj (Except.ok.inj h)
    exact ⟨0, .done w left⟩
  | cons e es ih =>
    intro w left es' h
    unfold repayRecords at h
    split at h
    case isTrue hspent =>
      obtain ⟨rfl, rfl⟩ := Prod.mk.inj (Except.ok.inj h)
      rw [hspent]
      exact ⟨0, .spent w (e :: es)⟩
    case isFalse =>
      simp only [bind_ok, SafeMath.sub_ok, pure_ok, Prod.mk.injEq] at h
      obtain ⟨⟨w₂, repaid⟩, hrepay, _, ⟨hle, rfl⟩, e', he, ⟨w₃, es₁⟩, hrest, rfl, rfl⟩ := h
      obtain ⟨w₁, v, s, hv, hs, hvpaid, hspaid, rfl⟩ := repayOneAccountBadDebt_paid hrepay
      obtain ⟨haccount, hdebt⟩ := reduce_ok he
      obtain ⟨total, hgreedy⟩ := ih hrest
      have hcapped : (if e.debt > left then left else e.debt) = min e.debt left := by
        split <;> omega
      rw [hcapped] at hv hs
      exact ⟨v + s + total, .entry rfl hv hs hvpaid hspaid haccount hdebt hle hgreedy⟩

theorem PaidInMode.impl (h : PaidInMode env fix asset account rateMode w n w') :
    w'.impl = w.impl := by
  obtain ⟨rfl, rfl⟩ | ⟨-, amount, hrepay⟩ := h
  · rfl
  · exact (repay_repaid hrepay).2

theorem PaidInMode.balance (h : PaidInMode env fix asset account rateMode w n w')
    (hfix : fix ≠ (w.reserves asset).data.aTokenAddress) :
    (w'.reserves asset).data.aTokenAddress = (w.reserves asset).data.aTokenAddress ∧
      (w.reserves asset).underlying.ledger.balances fix =
        (w'.reserves asset).underlying.ledger.balances fix + n := by
  obtain ⟨rfl, rfl⟩ | ⟨-, amount, hrepay⟩ := h
  · exact ⟨rfl, rfl⟩
  obtain ⟨p, t, hp, rfl, -, hw⟩ := LendingPool.repay_ok hrepay
  obtain ⟨-, -, haddress, -⟩ := payback_reduced hp
  obtain ⟨hle, hledger⟩ := (repay_repaid hrepay).1.charged
  constructor
  · rw [hw, World.setReserve_reserves_self, Reserve.withUnderlying_data, haddress]
  · rw [hledger, Ledger.move_balances, if_pos rfl, if_neg hfix]
    omega

theorem Greedy.balance {variableDebt stableDebt : World → Address → ℕ}
    (h : Greedy env fix asset variableDebt stableDebt w left es w' es' total)
    (hfix : fix ≠ (w.reserves asset).data.aTokenAddress) :
    (w.reserves asset).underlying.ledger.balances fix =
      (w'.reserves asset).underlying.ledger.balances fix + total := by
  induction h with
  | done | spent => rfl
  | entry _ _ _ hvpaid hspaid _ _ _ _ ih =>
    obtain ⟨haddress₁, hbalance₁⟩ := hvpaid.balance hfix
    obtain ⟨haddress₂, hbalance₂⟩ := hspaid.balance (haddress₁ ▸ hfix)
    have hrest := ih (by rwa [haddress₂, haddress₁])
    omega

theorem updateState_variableBorrowIndex {r r' : Reserve} (hnow : env.timestamp < 2 ^ 40)
    (h : LendingPool.updateState .withUpdateLiquidityIndex env.timestamp r = .ok r') :
    r'.data.variableBorrowIndex = r.data.variableBorrowIndex := by
  obtain ⟨-, -, minted, rfl, -⟩ := ReserveLogic.updateStateFrom_ok h
  rw [uint40_of_lt hnow, Nat.sub_self, ReserveLogic.accruedVariableBorrowIndex_zero]
  rfl

/-- Debts of one account in one reserve: what they show follows from these. -/
structure SameDebts (account : Address) (r r' : Reserve) : Prop where
  scaled : r'.variableDebtToken.ledger.balances account =
    r.variableDebtToken.ledger.balances account
  index : r'.data.variableBorrowIndex = r.data.variableBorrowIndex
  principal : r'.stableDebtToken.balances account = r.stableDebtToken.balances account
  rate : r'.stableDebtToken.usersStableRate account = r.stableDebtToken.usersStableRate account
  since : r'.stableDebtToken.timestamps account = r.stableDebtToken.timestamps account
  variableToken : r'.data.variableDebtTokenAddress = r.data.variableDebtTokenAddress
  stableToken : r'.data.stableDebtTokenAddress = r.data.stableDebtTokenAddress

theorem burnDebt_sameDebts {mode : InterestRateMode} {r r' : Reserve} (hother : other ≠ account)
    (h : LendingPool.burnDebt env r mode account amount = .ok r') : SameDebts other r r' := by
  unfold LendingPool.burnDebt at h
  split at h
  case isTrue =>
    obtain ⟨current, supply, total, avgRate, -, -, -, -, rfl⟩ := StableDebtToken.burn_state h
    exact ⟨rfl, rfl, write_of_ne _ _ hother, write_of_ne _ _ hother, write_of_ne _ _ hother, rfl,
      rfl⟩
  case isFalse =>
    obtain ⟨-, -, -, hscaled, hle, rfl⟩ := VariableDebtToken.burn_ok h
    refine ⟨?_, rfl, rfl, rfl, rfl, rfl, rfl⟩
    simp [Reserve.withDebtLedger, hother]

theorem repay_sameDebts (himpl : w.impl = .withUpdateLiquidityIndex)
    (hnow : env.timestamp < 2 ^ 40) (hother : other ≠ account)
    (h : LendingPool.repay env w fix asset amount rateMode account = .ok (w', n)) :
    SameDebts other (w.reserves asset) (w'.reserves asset) := by
  obtain ⟨p, t, hp, rfl, -, rfl⟩ := LendingPool.repay_ok h
  obtain ⟨_, _, mode, r₁, r₂, -, -, -, -, -, h₁, h₂, h₃, -⟩ := LendingPool.payback_ok hp
  obtain ⟨hvtoken, hstoken⟩ := LendingPool.updateState_debts h₁
  have hevolves := Reserve.updateState_evolves h₁
  rw [himpl] at h₁
  have hindex := updateState_variableBorrowIndex hnow h₁
  have hsame := burnDebt_sameDebts hother h₂
  obtain ⟨rates, hr⟩ := ReserveLogic.updateInterestRates_ok h₃
  rw [World.setReserve_reserves_self, hr]
  exact {
    scaled := hsame.scaled.trans (by rw [hvtoken])
    index := hsame.index.trans hindex
    principal := hsame.principal.trans (by rw [hstoken])
    rate := hsame.rate.trans (by rw [hstoken])
    since := hsame.since.trans (by rw [hstoken])
    variableToken := hsame.variableToken.trans hevolves.variableDebtTokenAddress
    stableToken := hsame.stableToken.trans hevolves.stableDebtTokenAddress }

theorem SameDebts.shown (himpl : w.impl = .withUpdateLiquidityIndex) (himpl' : w'.impl = w.impl)
    (h : SameDebts account (w.reserves asset) (w'.reserves asset)) :
    shownVariableDebt env asset w' account = shownVariableDebt env asset w account ∧
      shownStableDebt env asset w' account = shownStableDebt env asset w account := by
  constructor
  · simp only [shownVariableDebt, VariableDebtToken.balanceOf, himpl', himpl, h.variableToken,
      h.scaled, LendingPool.getReserveNormalizedVariableDebt,
      ReserveLogicNoInterest.getNormalizedDebt, h.index]
  · simp only [shownStableDebt, StableDebtToken.balanceOf, StableDebtToken.accrued,
      h.stableToken, h.principal, h.rate, h.since]

theorem PaidInMode.keeps_shown (himpl : w.impl = .withUpdateLiquidityIndex)
    (hnow : env.timestamp < 2 ^ 40) (hother : other ≠ account)
    (h : PaidInMode env fix asset account rateMode w n w') :
    w'.impl = w.impl ∧
      shownVariableDebt env asset w' other = shownVariableDebt env asset w other ∧
      shownStableDebt env asset w' other = shownStableDebt env asset w other := by
  obtain ⟨rfl, rfl⟩ | ⟨-, amount, hrepay⟩ := h
  · exact ⟨rfl, rfl, rfl⟩
  · have himpl' := (repay_repaid hrepay).2
    exact ⟨himpl', (repay_sameDebts himpl hnow hother hrepay).shown himpl himpl'⟩

/-- Under the pool of the fix the loop is greedy for the debts at its start: the accounts are
distinct, so what an entry shows is untouched until its turn. -/
theorem Greedy.of_start {variableDebt stableDebt : Address → ℕ} (hnow : env.timestamp < 2 ^ 40)
    (h : Greedy env fix asset (shownVariableDebt env asset) (shownStableDebt env asset)
      w left es w' es' total)
    (himpl : w.impl = .withUpdateLiquidityIndex) (hdistinct : (es.map (·.account)).Nodup)
    (hstart : ∀ a ∈ es.map (·.account), shownVariableDebt env asset w a = variableDebt a ∧
      shownStableDebt env asset w a = stableDebt a) :
    Greedy env fix asset (fun _ => variableDebt) (fun _ => stableDebt)
      w left es w' es' total := by
  induction h with
  | done w left => exact .done w left
  | spent w es => exact .spent w es
  | @entry w w₁ w₂ w' left x v s total e e' es es' hx hv hs hvpaid hspaid haccount hdebt hle _ ih =>
    rw [List.map_cons, List.nodup_cons] at hdistinct
    obtain ⟨hvstart, hsstart⟩ := hstart e.account List.mem_cons_self
    refine .entry hx (hvstart ▸ hv) (hsstart ▸ hs) hvpaid hspaid haccount hdebt hle ?_
    refine ih ?_ hdistinct.2 fun a ha => ?_
    · rw [hspaid.impl, hvpaid.impl, himpl]
    · have hother : a ≠ e.account := fun hsame => hdistinct.1 (hsame ▸ ha)
      obtain ⟨himpl₁, hv₁, hs₁⟩ := hvpaid.keeps_shown himpl hnow hother
      obtain ⟨-, hv₂, hs₂⟩ := hspaid.keeps_shown (himpl₁.trans himpl) hnow hother
      rw [hv₂, hs₂, hv₁, hs₁]
      exact hstart a (List.mem_cons_of_mem _ ha)

/-- The loop over the records of an asset, on all that the fix holds of it: what is paid leaves
the balance, and each record is paid as the greedy allocation does, for the debts of its turn
and, under the pool of the fix, for the debts at the start. -/
theorem second_round_greedy (env : Env) (fix asset : Address) (w w' : World) (es es' : List Entry)
    (hfix : fix ≠ (w.reserves asset).data.aTokenAddress)
    (h : repayRecords env fix asset w ((w.reserves asset).underlying.ledger.balances fix) es =
      .ok (w', es')) :
    ∃ total, (w.reserves asset).underlying.ledger.balances fix =
        (w'.reserves asset).underlying.ledger.balances fix + total ∧
      Greedy env fix asset (shownVariableDebt env asset) (shownStableDebt env asset) w
        ((w.reserves asset).underlying.ledger.balances fix) es w' es' total ∧
      (w.impl = .withUpdateLiquidityIndex → env.timestamp < 2 ^ 40 →
        (es.map (·.account)).Nodup →
        Greedy env fix asset (fun _ => shownVariableDebt env asset w)
          (fun _ => shownStableDebt env asset w) w
          ((w.reserves asset).underlying.ledger.balances fix) es w' es' total) := by
  obtain ⟨total, hgreedy⟩ := repayRecords_greedy h
  exact ⟨total, hgreedy.balance hfix, hgreedy, fun himpl hnow hdistinct =>
    hgreedy.of_start hnow himpl hdistinct fun _ _ => ⟨rfl, rfl⟩⟩

def twoBorrowers : List Transaction :=
  sampleListing 40 1 9 ++ sampleListing 40 2 9 ++
    [⟨sampleEnv 40, 13, .deposit 1 550 13⟩, ⟨sampleEnv 40, 11, .deposit 2 1000 11⟩,
      ⟨sampleEnv 40, 11, .borrow 1 200 2 11⟩, ⟨sampleEnv 40, 11, .borrow 1 80 1 11⟩,
      ⟨sampleEnv 40, 12, .deposit 2 1000 12⟩, ⟨sampleEnv 40, 12, .borrow 1 250 2 12⟩,
      ⟨sampleEnv 40, 7, .setLendingPoolImpl .withUpdateLiquidityIndex⟩]

def threeRecords : List Entry :=
  [⟨⟨11, 260⟩, by decide⟩, ⟨⟨12, 250⟩, by decide⟩, ⟨⟨14, 5⟩, by decide⟩]

set_option synthInstance.maxSize 256 in
theorem twoBorrowers_repaid : (do
    let w ← runAll sampleStart twoBorrowers
    let (w', es) ← repayRecords (sampleEnv 40) 13 1 w
      ((w.reserves 1).underlying.ledger.balances 13) threeRecords
    return (w.impl, (w.reserves 1).data.aTokenAddress,
      (w.reserves 1).underlying.ledger.balances 13,
      (w'.reserves 1).underlying.ledger.balances 13, es.map fun e : Entry => (e.account, e.debt))) =
    .ok (.withUpdateLiquidityIndex, 101, 450, 0, [(11, 0), (12, 60), (14, 5)]) := by
  decide +kernel

theorem second_round_greedy_twoBorrowers : ∃ w w' es', Reachable ⟨w, 40, []⟩ ∧
    es'.map (fun e => (e.account, e.debt)) = [(11, 0), (12, 60), (14, 5)] ∧
    Greedy (sampleEnv 40) 13 1 (fun _ => shownVariableDebt (sampleEnv 40) 1 w)
      (fun _ => shownStableDebt (sampleEnv 40) 1 w) w 450 threeRecords w' es' 450 := by
  obtain ⟨w, hrun, hrest⟩ := bind_ok.mp twoBorrowers_repaid
  obtain ⟨⟨w', es'⟩, h, hrest⟩ := bind_ok.mp hrest
  simp only [pure_ok, Prod.mk.injEq] at hrest
  obtain ⟨himpl, haddress, hbefore, hafter, hrecords⟩ := hrest
  obtain ⟨total, hbalance, -, hstart⟩ :=
    second_round_greedy _ _ _ _ _ _ _ (by rw [haddress]; decide) h
  rw [hbefore, hafter, Nat.zero_add] at hbalance
  rw [hbefore, ← hbalance] at hstart
  exact ⟨w, w', es', .sample (by decide) hrun, hrecords,
    hstart himpl (by decide) (by decide)⟩

end MoolaFix

end Moola
