import Moola.Adapters
import Moola.FlashLoans
import Moola.GreedyRepayment

/-! RepayDelegationHelper repays for somebody else. It tries both rate modes, each attempt may
revert unnoticed, and deposits the rest. Its transfers all draw on one balance and one
allowance, which end where they began. -/

namespace Moola

open Guard WadRayMath MoolaFix

/-- `-=` on words, which is not checked. -/
def wrappingSub (a b : ℕ) : ℕ := if b ≤ a then a - b else 2 ^ 256 + a - b

namespace RepayDelegationHelper

/-- A call that is tried: after a revert nothing has changed and nothing was paid. -/
def attempt (w : World) : Tx (World × ℕ) → World × ℕ
  | .ok (w', paybackAmount) => (w', paybackAmount)
  | .error _ => (w, 0)

def otherRateMode (rateMode : ℕ) : ℕ := if rateMode = 1 then 2 else 1

section Source

variable (env : Env) (helper sender delegator asset : Address) (w : World) (amount rateMode : ℕ)

/-- The helper takes the tokens of the caller and lets the pool take them. -/
def fund : Tx World := do
  let w ← w.onReserve asset fun r =>
    r.withUnderlying <$> r.underlying.transferFrom helper sender helper amount
  Adapter.approve helper w asset w.self amount

def repayDelegation : Tx World := do
  let w ← fund helper sender asset w amount
  let (w, paybackAmount) :=
    attempt w (LendingPool.repay env w helper asset amount rateMode delegator)
  let remaining := wrappingSub amount paybackAmount
  if remaining > 0 then
    let (w, otherRateModePaybackAmount) := attempt w
      (LendingPool.repay env w helper asset remaining (otherRateMode rateMode) delegator)
    let remaining := wrappingSub remaining otherRateModePaybackAmount
    if remaining > 0 then LendingPool.deposit env w helper asset remaining delegator
    else return w
  else return w

/-- The two attempts, which pay `p₁` and `p₂`, and the deposit of the rest `d`. -/
structure Run (w₁ w₂ w' : World) (p₁ p₂ d : ℕ) : Prop where
  chosen : attempt w (LendingPool.repay env w helper asset amount rateMode delegator) = (w₁, p₁)
  other : amount = p₁ ∧ w₂ = w₁ ∧ p₂ = 0 ∨ amount ≠ p₁ ∧
    attempt w₁ (LendingPool.repay env w₁ helper asset (amount - p₁) (otherRateMode rateMode)
      delegator) = (w₂, p₂)
  rest : d = 0 ∧ w' = w₂ ∨ d ≠ 0 ∧ LendingPool.deposit env w₂ helper asset d delegator = .ok w'
  total : amount = p₁ + p₂ + d

end Source

variable {env : Env} {helper sender delegator asset account payer : Address} {w w₁ w' : World}
  {amount rateMode n n' : ℕ} {call : Tx (World × ℕ)}

theorem attempt_eq (h : attempt w call = (w', n)) :
    call = .ok (w', n) ∨ (∃ e, call = .error e) ∧ w' = w ∧ n = 0 := by
  cases call with
  | ok paid => exact .inl (congrArg Except.ok h)
  | error e =>
    obtain ⟨rfl, rfl⟩ := Prod.mk.inj h
    exact .inr ⟨⟨e, rfl⟩, rfl, rfl⟩

theorem repay_le (h : LendingPool.repay env w payer asset amount rateMode account = .ok (w', n)) :
    n ≤ amount := by
  obtain ⟨p, t, hp, rfl, -⟩ := LendingPool.repay_ok h
  obtain ⟨_, _, _, _, _, -, -, -, -, hpaid, -⟩ := LendingPool.payback_ok hp
  rw [hpaid]
  exact Nat.min_le_left _ _

theorem attempt_le (h : attempt w
    (LendingPool.repay env w payer asset amount rateMode account) = (w', n)) : n ≤ amount := by
  obtain h | ⟨-, -, rfl⟩ := attempt_eq h
  · exact repay_le h
  · exact Nat.zero_le amount

/-- No attempt pays more than is left, so the subtractions do not wrap. -/
theorem repayDelegation_ok
    (h : repayDelegation env helper sender delegator asset w amount rateMode = .ok w') :
    ∃ w₀ w₁ w₂ p₁ p₂ d, fund helper sender asset w amount = .ok w₀ ∧
      Run env helper delegator asset w₀ amount rateMode w₁ w₂ w' p₁ p₂ d := by
  obtain ⟨w₀, hfund, h⟩ := bind_ok.mp h
  obtain ⟨⟨w₁, p₁⟩, hchosen⟩ : ∃ x, attempt w₀
      (LendingPool.repay env w₀ helper asset amount rateMode delegator) = x := ⟨_, rfl⟩
  have hle₁ := attempt_le hchosen
  simp only [hchosen, wrappingSub, if_pos hle₁] at h
  split at h
  case isFalse hnone =>
    obtain rfl := pure_ok.mp h
    exact ⟨w₀, w₁, w₁, p₁, 0, 0, hfund, hchosen, .inl ⟨by omega, rfl, rfl⟩, .inl ⟨rfl, rfl⟩,
      by omega⟩
  case isTrue hleft =>
    obtain ⟨⟨w₂, p₂⟩, hother⟩ : ∃ x, attempt w₁ (LendingPool.repay env w₁ helper asset
      (amount - p₁) (otherRateMode rateMode) delegator) = x := ⟨_, rfl⟩
    have hle₂ := attempt_le hother
    simp only [hother, if_pos hle₂] at h
    split at h
    case isFalse hnone =>
      obtain rfl := pure_ok.mp h
      exact ⟨w₀, w₁, w₂, p₁, p₂, 0, hfund, hchosen, .inr ⟨by omega, hother⟩, .inl ⟨rfl, rfl⟩,
        by omega⟩
    case isTrue hrest =>
      exact ⟨w₀, w₁, w₂, p₁, p₂, amount - p₁ - p₂, hfund, hchosen, .inr ⟨by omega, hother⟩,
        .inr ⟨by omega, h⟩, by omega⟩

structure Paid (asset payer : Address) (n : ℕ) (w w' : World) : Prop where
  self : w'.self = w.self
  aTokenAddress : (w'.reserves asset).data.aTokenAddress = (w.reserves asset).data.aTokenAddress
  balance : (w.reserves asset).underlying.ledger.balances payer =
    (w'.reserves asset).underlying.ledger.balances payer + n
  others : ∀ a, a ≠ payer → a ≠ (w.reserves asset).data.aTokenAddress →
    (w'.reserves asset).underlying.ledger.balances a =
      (w.reserves asset).underlying.ledger.balances a
  allowance : (w.reserves asset).underlying.allowances payer w.self =
    (w'.reserves asset).underlying.allowances payer w.self + n

theorem Paid.refl (asset payer : Address) (w : World) : Paid asset payer 0 w w :=
  ⟨rfl, rfl, rfl, fun _ _ _ => rfl, rfl⟩

theorem Paid.trans (h₁ : Paid asset payer n w w₁) (h₂ : Paid asset payer n' w₁ w') :
    Paid asset payer (n + n') w w' where
  self := h₂.self.trans h₁.self
  aTokenAddress := h₂.aTokenAddress.trans h₁.aTokenAddress
  balance := by
    rw [h₁.balance, h₂.balance]
    omega
  others a ha hpool := (h₂.others a ha (h₁.aTokenAddress ▸ hpool)).trans (h₁.others a ha hpool)
  allowance := by
    have hrest := h₂.allowance
    rw [h₁.self] at hrest
    rw [h₁.allowance, hrest]
    omega

theorem transferFrom_allowance {t t' : ERC20} {spender recipient : Address}
    (h : t.transferFrom spender payer recipient n = .ok t') :
    t.allowances payer spender = t'.allowances payer spender + n := by
  simp only [ERC20.transferFrom, bind_ok, exists_unit, require_ok, pure_ok] at h
  obtain ⟨t₁, h₁, hle, rfl⟩ := h
  obtain ⟨-, -, hn, rfl⟩ := ERC20.transfer_ok.mp h₁
  simp only [write₂_apply, and_self, if_true]
  exact (Nat.sub_add_cancel hle).symm

theorem Paid.ofTransfer (hpayer : payer ≠ (w.reserves asset).data.aTokenAddress)
    (hself : w'.self = w.self)
    (haddress : (w'.reserves asset).data.aTokenAddress = (w.reserves asset).data.aTokenAddress)
    (h : (w.reserves asset).underlying.transferFrom w.self payer
      (w.reserves asset).data.aTokenAddress n = .ok (w'.reserves asset).underlying) :
    Paid asset payer n w w' := by
  obtain ⟨hn, hledger⟩ := ERC20.transferFrom_ok h
  refine ⟨hself, haddress, ?_, fun a ha hpool => ?_, transferFrom_allowance h⟩
  · rw [hledger, Ledger.move_balances, if_pos rfl, if_neg hpayer]
    omega
  · rw [hledger, Ledger.move_balances, if_neg ha, if_neg hpool, Nat.add_zero]

theorem repay_paid (hpayer : payer ≠ (w.reserves asset).data.aTokenAddress)
    (h : LendingPool.repay env w payer asset amount rateMode account = .ok (w', n)) :
    Paid asset payer n w w' := by
  obtain ⟨p, t, hp, rfl, ht, rfl⟩ := LendingPool.repay_ok h
  obtain ⟨-, hunderlying, haddress, hflags⟩ := payback_reduced hp
  refine .ofTransfer hpayer hflags.self ?_ ?_
  · rw [World.setReserve_reserves_self, Reserve.withUnderlying_data, haddress]
  · rw [World.setReserve_reserves_self, ← hunderlying, ← haddress]
    exact ht

theorem deposit_paid (hpayer : payer ≠ (w.reserves asset).data.aTokenAddress)
    (h : LendingPool.deposit env w payer asset amount account = .ok w') :
    Paid asset payer amount w w' := by
  obtain ⟨r₁, r₂, t, r₃, first, h₁, h₂, ht, h₃, h₄⟩ := LendingPool.deposit_ok h
  have hunderlying := Reserve.updateState_underlying h₁
  have haddress := (Reserve.updateState_evolves h₁).aTokenAddress
  obtain ⟨rates, rfl⟩ := ReserveLogic.updateInterestRates_ok h₂
  obtain ⟨-, -, -, -, rfl⟩ := AToken.mint_ok h₃
  obtain ⟨hflags, -⟩ := LendingPool.applyIf_setUsingAsCollateral_ok h₄
  refine .ofTransfer hpayer hflags.self ?_ ?_
  · rw [hflags.reserves, World.setReserve_reserves_self]
    exact haddress
  · rw [hflags.reserves, World.setReserve_reserves_self, ← hunderlying, ← haddress]
    exact ht

theorem attempt_paid (hpayer : payer ≠ (w.reserves asset).data.aTokenAddress)
    (h : attempt w (LendingPool.repay env w payer asset amount rateMode account) = (w', n)) :
    Paid asset payer n w w' := by
  obtain h | ⟨-, rfl, rfl⟩ := attempt_eq h
  · exact repay_paid hpayer h
  · exact .refl asset payer w'

theorem Run.paid {w₂ : World} {p₁ p₂ d : ℕ}
    (hhelper : helper ≠ (w.reserves asset).data.aTokenAddress)
    (h : Run env helper delegator asset w amount rateMode w₁ w₂ w' p₁ p₂ d) :
    Paid asset helper amount w w' := by
  have hchosen := attempt_paid hhelper h.chosen
  have hother : Paid asset helper p₂ w₁ w₂ := by
    obtain ⟨-, rfl, rfl⟩ | ⟨-, hother⟩ := h.other
    · exact .refl asset helper w₂
    · exact attempt_paid (hchosen.aTokenAddress ▸ hhelper) hother
  have hboth := hchosen.trans hother
  have hrest : Paid asset helper d w₂ w' := by
    obtain ⟨rfl, rfl⟩ | ⟨-, hrest⟩ := h.rest
    · exact .refl asset helper w'
    · exact deposit_paid (hboth.aTokenAddress ▸ hhelper) hrest
  rw [h.total]
  exact hboth.trans hrest

theorem fund_ok {w₀ : World} (hsender : sender ≠ helper)
    (h : fund helper sender asset w amount = .ok w₀) :
    (∃ t, w₀ = w.setReserve asset ((w.reserves asset).withUnderlying t)) ∧
      (w₀.reserves asset).underlying.ledger.balances helper =
        (w.reserves asset).underlying.ledger.balances helper + amount ∧
      (w.reserves asset).underlying.ledger.balances sender =
        (w₀.reserves asset).underlying.ledger.balances sender + amount ∧
      (w₀.reserves asset).underlying.allowances helper w₀.self = amount := by
  obtain ⟨w₁, h₁, h⟩ := bind_ok.mp h
  obtain ⟨r, hr, rfl⟩ := World.onReserve_ok.mp h₁
  obtain ⟨t, ht, rfl⟩ := map_ok.mp hr
  obtain ⟨r₁, hr₁, rfl⟩ := World.onReserve_ok.mp h
  obtain rfl := Except.ok.inj hr₁
  obtain ⟨hn, hledger⟩ := ERC20.transferFrom_ok ht
  rw [World.setReserve_reserves_self, World.setReserve_setReserve]
  refine ⟨⟨_, rfl⟩, ?_, ?_, ?_⟩
  all_goals rw [World.setReserve_reserves_self]
  · simp only [Reserve.withUnderlying_underlying, ERC20.approve, hledger, Ledger.move_balances,
      if_neg hsender.symm, if_true]
  · simp only [Reserve.withUnderlying_underlying, ERC20.approve, hledger, Ledger.move_balances,
      if_neg hsender, if_true]
    omega
  · simp [ERC20.approve, write₂_apply]

def scaledDebt (asset account : Address) (w : World) : ℕ :=
  (w.reserves asset).variableDebtToken.ledger.balances account

def variableBorrowIndex (asset : Address) (w : World) : ℕ :=
  (w.reserves asset).data.variableBorrowIndex

/-- Stable debt goes down by `s` as it is shown, and variable debt by `v` as it is scaled, at the
index of the block. -/
structure Reduces (env : Env) (asset account : Address) (s v : ℕ) (w w' : World) : Prop where
  updated : (w.reserves asset).UpdatedIn env.timestamp →
    (w'.reserves asset).UpdatedIn env.timestamp ∧
      variableBorrowIndex asset w' = variableBorrowIndex asset w
  index_le : variableBorrowIndex asset w ≤ variableBorrowIndex asset w'
  stable : shownStableDebt env asset w account = shownStableDebt env asset w' account + s
  scaled : v = 0 ∧ scaledDebt asset account w' = scaledDebt asset account w ∨
    (w'.reserves asset).UpdatedIn env.timestamp ∧ variableBorrowIndex asset w' ≠ 0 ∧
      scaledDebt asset account w = scaledDebt asset account w' +
        rayQuotient v (variableBorrowIndex asset w')

theorem Reduces.refl (env : Env) (asset account : Address) (w : World) :
    Reduces env asset account 0 0 w w :=
  ⟨fun h => ⟨h, rfl⟩, le_rfl, rfl, .inl ⟨rfl, rfl⟩⟩

theorem Reduces.trans {s s' v v' : ℕ} (h₁ : Reduces env asset account s v w w₁)
    (h₂ : Reduces env asset account s' v' w₁ w') (hone : v = 0 ∨ v' = 0) :
    Reduces env asset account (s + s') (v + v') w w' where
  updated h :=
    let ⟨hw₁, hindex₁⟩ := h₁.updated h
    let ⟨hw', hindex'⟩ := h₂.updated hw₁
    ⟨hw', hindex'.trans hindex₁⟩
  index_le := h₁.index_le.trans h₂.index_le
  stable := by
    rw [h₁.stable, h₂.stable]
    omega
  scaled := by
    rcases h₁.scaled with ⟨rfl, hsame⟩ | ⟨hupdated, hindex, hburned⟩
    · rw [Nat.zero_add, ← hsame]
      exact h₂.scaled
    · rcases h₂.scaled with ⟨rfl, hsame⟩ | ⟨hupdated', hindex', hburned'⟩
      · obtain ⟨hw', hindex'⟩ := h₂.updated hupdated
        right
        rw [hindex', hsame, Nat.add_zero]
        exact ⟨hw', hindex, hburned⟩
      · obtain ⟨-, hsame⟩ := h₂.updated hupdated
        right
        rcases hone with rfl | rfl
        · refine ⟨hupdated', hindex', ?_⟩
          rw [hburned, hburned', Nat.zero_add, ← hsame]
          simp [rayQuotient]
        · refine ⟨hupdated', hindex', ?_⟩
          rw [hburned, hburned', Nat.add_zero, hsame]
          simp [rayQuotient]

/-- An operation that begins with an update and leaves the index alone from there on. -/
structure Updates (env : Env) (asset : Address) (w w' : World) : Prop where
  index : (w.reserves asset).UpdatedIn env.timestamp →
    variableBorrowIndex asset w' = variableBorrowIndex asset w
  index_le : variableBorrowIndex asset w ≤ variableBorrowIndex asset w'
  updated : (w'.reserves asset).UpdatedIn env.timestamp

theorem Updates.ofUpdate (htime : env.timestamp < 2 ^ 40) {r₁ : Reserve}
    (h₁ : LendingPool.updateState w.impl env.timestamp (w.reserves asset) = .ok r₁)
    (hupdated : (w'.reserves asset).data.lastUpdateTimestamp = r₁.data.lastUpdateTimestamp)
    (hindex : (w'.reserves asset).data.variableBorrowIndex = r₁.data.variableBorrowIndex) :
    Updates env asset w w' := by
  refine ⟨fun h => ?_, ?_, hupdated.trans (updateState_updatedIn htime h₁).1, htime⟩
  · rw [variableBorrowIndex, hindex, updateState_updated h h₁]
    rfl
  · rw [variableBorrowIndex, variableBorrowIndex, hindex]
    exact LendingPool.variableBorrowIndex_le_updateState h₁

theorem Updates.reduces {s v : ℕ} (h : Updates env asset w w')
    (hstable : shownStableDebt env asset w account = shownStableDebt env asset w' account + s)
    (hscaled : v = 0 ∧ scaledDebt asset account w' = scaledDebt asset account w ∨
      variableBorrowIndex asset w' ≠ 0 ∧ scaledDebt asset account w =
        scaledDebt asset account w' + rayQuotient v (variableBorrowIndex asset w')) :
    Reduces env asset account s v w w' :=
  ⟨fun hw => ⟨h.updated, h.index hw⟩, h.index_le, hstable, hscaled.imp_right fun hburned =>
    ⟨h.updated, hburned⟩⟩

theorem repay_mode (h : LendingPool.repay env w payer asset amount rateMode account = .ok (w', n)) :
    rateMode = 1 ∨ rateMode = 2 := by
  obtain ⟨p, t, hp, -⟩ := LendingPool.repay_ok h
  obtain ⟨_, _, mode, _, _, -, -, hmode, hvalid, -⟩ := LendingPool.payback_ok hp
  simp only [ValidationLogic.validateRepay, bind_ok, exists_unit, require_ok] at hvalid
  obtain ⟨-, -, hdebt, -⟩ := hvalid
  obtain _ | _ | _ | m := rateMode
  · obtain rfl : mode = .none := (Except.ok.inj hmode).symm
    simp at hdebt
  · exact .inl rfl
  · exact .inr rfl
  · cases hmode

def paidIn (mode rateMode n : ℕ) : ℕ := if rateMode = mode then n else 0

theorem repay_reduces (htime : env.timestamp < 2 ^ 40)
    (h : LendingPool.repay env w payer asset amount rateMode account = .ok (w', n)) :
    Reduces env asset account (paidIn 1 rateMode n) (paidIn 2 rateMode n) w w' := by
  have hupdates : Updates env asset w w' := by
    obtain ⟨p, t, hp, -, -, rfl⟩ := LendingPool.repay_ok h
    obtain ⟨_, _, mode, r₁, r₂, -, -, -, -, -, h₁, h₂, h₃, -⟩ := LendingPool.payback_ok hp
    obtain ⟨-, hdata⟩ := burnDebt_reduced h₂
    obtain ⟨rates, hr⟩ := ReserveLogic.updateInterestRates_ok h₃
    refine .ofUpdate htime h₁ ?_ ?_
    all_goals rw [World.setReserve_reserves_self, hr, ← hdata]; rfl
  rcases repay_mode h with rfl | rfl
  · obtain ⟨hstable, htoken⟩ := (repay_paysBack h).reduces_stable htime
    exact hupdates.reduces hstable (.inl ⟨rfl, by rw [scaledDebt, scaledDebt, htoken]⟩)
  · obtain ⟨hscaled, hindex⟩ := (repay_paysBack h).reduces_variable
    exact hupdates.reduces (repay_paysBack h).reduces_variable_keeps.symm (.inr ⟨hindex, hscaled⟩)

theorem attempt_reduces (htime : env.timestamp < 2 ^ 40)
    (h : attempt w (LendingPool.repay env w payer asset amount rateMode account) = (w', n)) :
    Reduces env asset account (paidIn 1 rateMode n) (paidIn 2 rateMode n) w w' := by
  obtain h | ⟨-, rfl, rfl⟩ := attempt_eq h
  · exact repay_reduces htime h
  · simp only [paidIn, ite_self]
    exact .refl env asset account w'

theorem deposit_reduces (htime : env.timestamp < 2 ^ 40) {onBehalfOf : Address}
    (h : LendingPool.deposit env w payer asset amount onBehalfOf = .ok w') :
    Reduces env asset account 0 0 w w' ∧ (w'.reserves asset).UpdatedIn env.timestamp := by
  obtain ⟨r₁, r₂, t, r₃, first, h₁, h₂, ht, h₃, h₄⟩ := LendingPool.deposit_ok h
  obtain ⟨hvtoken, hstoken⟩ := LendingPool.updateState_debts h₁
  have haddress := (Reserve.updateState_evolves h₁).stableDebtTokenAddress
  obtain ⟨rates, rfl⟩ := ReserveLogic.updateInterestRates_ok h₂
  obtain ⟨-, -, -, -, rfl⟩ := AToken.mint_ok h₃
  obtain ⟨hflags, -⟩ := LendingPool.applyIf_setUsingAsCollateral_ok h₄
  have hw' := congrFun hflags.reserves asset
  rw [World.setReserve_reserves_self] at hw'
  have hupdates : Updates env asset w w' :=
    .ofUpdate htime h₁ (by rw [hw']; rfl) (by rw [hw']; rfl)
  refine ⟨hupdates.reduces ?_ (.inl ⟨rfl, ?_⟩), hupdates.updated⟩
  · rw [shownStableDebt, shownStableDebt, StableDebtToken.balanceOf, StableDebtToken.balanceOf, hw',
      ← haddress, ← hstoken]
    rfl
  · rw [scaledDebt, scaledDebt, hw', ← hvtoken]
    rfl

theorem fund_reduces {w₀ : World} (t : ERC20)
    (h : w₀ = w.setReserve asset ((w.reserves asset).withUnderlying t)) :
    Reduces env asset account 0 0 w w₀ := by
  have hw₀ : w₀.reserves asset = (w.reserves asset).withUnderlying t := by
    rw [h, World.setReserve_reserves_self]
  refine ⟨fun hupdated => ⟨?_, ?_⟩, ?_, ?_, .inl ⟨rfl, ?_⟩⟩
  · rw [hw₀]
    exact hupdated
  · rw [variableBorrowIndex, hw₀]
    rfl
  · rw [variableBorrowIndex, variableBorrowIndex, hw₀]
    exact le_rfl
  · rw [shownStableDebt, shownStableDebt, hw₀]
    rfl
  · rw [scaledDebt, scaledDebt, hw₀]
    rfl

def shownDebt (env : Env) (asset : Address) (w : World) (account : Address) (mode : ℕ) : ℕ :=
  if mode = 1 then shownStableDebt env asset w account else shownVariableDebt env asset w account

/-- Debt and index from which a repayment of all that is shown burns all that is scaled. -/
def Clearable (asset account : Address) (w : World) : Prop :=
  scaledDebt asset account w = 0 ∨ ray ≤ variableBorrowIndex asset w

theorem shownVariableDebt_eq_zero (h : scaledDebt asset account w = 0) :
    shownVariableDebt env asset w account = 0 := by
  rw [scaledDebt] at h
  rw [shownVariableDebt, VariableDebtToken.balanceOf, if_pos h]
  by_cases ha : (w.reserves asset).data.variableDebtTokenAddress = 0
  · simp only [ha, require, ne_eq, not_true_eq_false, if_false, error_bind]
    rfl
  · simp only [ha, require, ne_eq, not_false_eq_true, if_true, ok_bind]
    rfl

theorem repay_clears (htime : env.timestamp < 2 ^ 40) (hclearable : Clearable asset account w)
    (h : LendingPool.repay env w payer asset amount rateMode account = .ok (w', n))
    (hlt : n < amount) : (rateMode = 1 → shownStableDebt env asset w' account = 0) ∧
      (rateMode = 2 → scaledDebt asset account w' = 0) := by
  constructor
  · rintro rfl
    obtain ⟨-, hpaid⟩ := (repay_paysBack h).stable_amount
    obtain ⟨hreduced, -⟩ := (repay_paysBack h).reduces_stable htime
    omega
  · rintro rfl
    obtain ⟨hscaled, -⟩ := (repay_paysBack h).reduces_variable
    rw [scaledDebt]
    rcases hclearable with hzero | hindex
    · rw [scaledDebt] at hzero
      omega
    · obtain ⟨-, debt, hdebt, hpaid⟩ := (repay_paysBack h).variable_amount
      obtain rfl : n = debt := by omega
      obtain ⟨p, t, hp, -, -, rfl⟩ := LendingPool.repay_ok h
      obtain ⟨_, _, mode, r₁, r₂, -, -, -, -, -, h₁, h₂, h₃, -⟩ := LendingPool.payback_ok hp
      obtain ⟨-, hdata⟩ := burnDebt_reduced h₂
      obtain ⟨rates, hr⟩ := ReserveLogic.updateInterestRates_ok h₃
      have hall := LendingPool.scaledDebt_le_shown htime hindex h₁ hdebt
      have hindex' : ((p.world.setReserve asset (p.reserve.withUnderlying t)).reserves
          asset).data.variableBorrowIndex = r₁.data.variableBorrowIndex := by
        rw [World.setReserve_reserves_self, hr, ← hdata]
        rfl
      rw [hindex'] at hscaled
      omega

def RevertedOrCleared (call : Tx (World × ℕ)) (debt : ℕ) : Prop :=
  (∃ e, call = .error e) ∨ debt = 0

theorem attempt_clears (htime : env.timestamp < 2 ^ 40) (hclearable : Clearable asset account w)
    (h : attempt w (LendingPool.repay env w payer asset amount rateMode account) = (w₁, n))
    (hlt : n < amount) {s v : ℕ} (hlater : Reduces env asset account s v w₁ w')
    (hnone : rateMode = 2 → v = 0) :
    RevertedOrCleared (LendingPool.repay env w payer asset amount rateMode account)
      (shownDebt env asset w' account rateMode) := by
  obtain h | ⟨hreverted, -, -⟩ := attempt_eq h
  · right
    obtain ⟨hstable, hscaled⟩ := repay_clears htime hclearable h hlt
    rcases repay_mode h with rfl | rfl
    · have hkept := hlater.stable
      rw [hstable rfl] at hkept
      rw [shownDebt, if_pos rfl]
      omega
    · obtain rfl := hnone rfl
      have hnothing : scaledDebt asset account w' = 0 := by
        rcases hlater.scaled with ⟨-, hsame⟩ | ⟨-, -, hsame⟩
        · exact hsame.trans (hscaled rfl)
        · rw [hscaled rfl] at hsame
          omega
      exact shownVariableDebt_eq_zero hnothing
  · exact .inl hreverted

/-- Burned scaled units are worth the amount, up to the rounding of the two values and of the
units. -/
theorem abs_burned_sub {scaled scaled' v index : ℕ} (hindex : index ≠ 0)
    (h : scaled = scaled' + rayQuotient v index) :
    |(rayProduct scaled index : ℚ) - rayProduct scaled' index - v| ≤ 1 + index / (2 * ray) := by
  have e := abs_le.mp (abs_rayProduct_sub scaled index)
  have e' := abs_le.mp (abs_rayProduct_sub scaled' index)
  have eq := abs_le.mp (abs_rayQuotient_mul_sub v (Nat.pos_of_ne_zero hindex))
  have hsplit : (scaled : ℚ) * index / ray =
      scaled' * index / ray + rayQuotient v index * index / ray := by
    rw [h, Nat.cast_add]
    ring
  rw [hsplit] at e
  rw [abs_le]
  constructor <;> linarith

theorem balanceOf_updated {impl : PoolImpl} {now b : ℕ} {r : Reserve} (hr : r.UpdatedIn now)
    (h : VariableDebtToken.balanceOf impl now r account = .ok b) :
    b = rayProduct (r.variableDebtToken.ledger.balances account) r.data.variableBorrowIndex := by
  obtain ⟨-, ⟨hzero, rfl⟩ | ⟨-, index, hindex, rfl⟩⟩ := VariableDebtToken.balanceOf_ok h
  · rw [hzero, rayProduct_zero_left]
  · rw [LendingPool.getReserveNormalizedVariableDebt_fresh
      (hr.1.trans (uint40_of_lt hr.2).symm), Except.ok.injEq] at hindex
    rw [hindex]

theorem Reduces.rounding {s v : ℕ} (h : Reduces env asset account s v w w') :
    |(rayProduct (scaledDebt asset account w) (variableBorrowIndex asset w') : ℚ) -
      rayProduct (scaledDebt asset account w') (variableBorrowIndex asset w') - v| ≤
        1 + variableBorrowIndex asset w' / (2 * ray) := by
  rcases h.scaled with ⟨rfl, hsame⟩ | ⟨-, hindex, hburned⟩
  · rw [hsame, sub_self, Nat.cast_zero, sub_zero, abs_zero]
    positivity
  · exact abs_burned_sub hindex hburned

theorem Reduces.clearable {s v : ℕ} (h : Reduces env asset account s v w w')
    (hw : Clearable asset account w) : Clearable asset account w' := by
  rcases hw with hzero | hindex
  · rcases h.scaled with ⟨-, hsame⟩ | ⟨-, -, hsame⟩
    · exact .inl (hsame.trans hzero)
    · rw [hzero] at hsame
      exact .inl (by omega)
  · exact .inr (hindex.trans h.index_le)

theorem clearable_of_wellFormed (hw : w.WellFormed) : Clearable asset account w := by
  by_cases ha : (w.reserves asset).data.aTokenAddress = 0
  · exact .inl ((hw.blank asset ha).variableDebts account)
  · exact .inr (hw.indexed asset ha)

def paidStable (rateMode p₁ p₂ : ℕ) : ℕ := if rateMode = 1 then p₁ else p₂

def paidVariable (rateMode p₁ p₂ : ℕ) : ℕ := if rateMode = 1 then p₂ else p₁

/-- What the helper did with an amount: `p₁` and `p₂` were repaid and `d` was deposited. -/
structure Accounted (env : Env) (helper sender delegator asset : Address) (amount rateMode : ℕ)
    (w w₀ w₁ w' : World) (p₁ p₂ d : ℕ) : Prop where
  total : amount = p₁ + p₂ + d
  caller : (w.reserves asset).underlying.ledger.balances sender =
    (w'.reserves asset).underlying.ledger.balances sender + amount
  helperBalance : (w'.reserves asset).underlying.ledger.balances helper =
    (w.reserves asset).underlying.ledger.balances helper
  allowance : (w'.reserves asset).underlying.allowances helper w'.self = 0
  stable : shownStableDebt env asset w delegator =
    shownStableDebt env asset w' delegator + paidStable rateMode p₁ p₂
  rounding : |(rayProduct (scaledDebt asset delegator w) (variableBorrowIndex asset w') : ℚ) -
    rayProduct (scaledDebt asset delegator w') (variableBorrowIndex asset w') -
      paidVariable rateMode p₁ p₂| ≤ 1 + variableBorrowIndex asset w' / (2 * ray)
  shown : (w.reserves asset).UpdatedIn env.timestamp → ∀ b b',
    VariableDebtToken.balanceOf w.impl env.timestamp (w.reserves asset) delegator = .ok b →
    VariableDebtToken.balanceOf w'.impl env.timestamp (w'.reserves asset) delegator = .ok b' →
    |(b : ℚ) - b' - paidVariable rateMode p₁ p₂| ≤ 1 + variableBorrowIndex asset w' / (2 * ray)
  chosenDone : d ≠ 0 → RevertedOrCleared
    (LendingPool.repay env w₀ helper asset amount rateMode delegator)
    (shownDebt env asset w' delegator rateMode)
  otherDone : d ≠ 0 → RevertedOrCleared
    (LendingPool.repay env w₁ helper asset (amount - p₁) (otherRateMode rateMode) delegator)
    (shownDebt env asset w' delegator (otherRateMode rateMode))

theorem Run.reduces {w₂ : World} {p₁ p₂ d : ℕ} (htime : env.timestamp < 2 ^ 40)
    (h : Run env helper delegator asset w amount rateMode w₁ w₂ w' p₁ p₂ d) :
    Reduces env asset delegator (paidIn 1 rateMode p₁) (paidIn 2 rateMode p₁) w w₁ ∧
      Reduces env asset delegator (paidIn 1 (otherRateMode rateMode) p₂)
        (paidIn 2 (otherRateMode rateMode) p₂) w₁ w₂ ∧
      Reduces env asset delegator 0 0 w₂ w' := by
  refine ⟨attempt_reduces htime h.chosen, ?_, ?_⟩
  · obtain ⟨-, rfl, rfl⟩ | ⟨-, hother⟩ := h.other
    · simp only [paidIn, ite_self]
      exact .refl env asset delegator w₂
    · exact attempt_reduces htime hother
  · obtain ⟨-, rfl⟩ | ⟨-, hrest⟩ := h.rest
    · exact .refl env asset delegator w'
    · exact (deposit_reduces htime hrest).1

theorem paidIn_other (rateMode p₁ p₂ : ℕ) (hp₁ : rateMode = 1 ∨ rateMode = 2 ∨ p₁ = 0) :
    paidIn 1 rateMode p₁ + paidIn 1 (otherRateMode rateMode) p₂ = paidStable rateMode p₁ p₂ ∧
      paidIn 2 rateMode p₁ + paidIn 2 (otherRateMode rateMode) p₂ =
        paidVariable rateMode p₁ p₂ := by
  rcases hp₁ with rfl | rfl | rfl
  · simp [paidIn, otherRateMode, paidStable, paidVariable]
  · simp [paidIn, otherRateMode, paidStable, paidVariable]
  · by_cases h1 : rateMode = 1
    · simp [paidIn, otherRateMode, paidStable, paidVariable, h1]
    · simp [paidIn, otherRateMode, paidStable, paidVariable, h1]

/-- From every reachable state, whatever the pool makes of the two attempts. -/
theorem repayDelegation_accounted (env : Env) (helper sender delegator asset : Address)
    (m : Machine) (amount rateMode : ℕ) (w' : World) (hm : Reachable m)
    (htime : env.timestamp < 2 ^ 40) (hsender : sender ≠ helper)
    (hpool : sender ≠ (m.world.reserves asset).data.aTokenAddress)
    (hhelper : helper ≠ (m.world.reserves asset).data.aTokenAddress)
    (h : repayDelegation env helper sender delegator asset m.world amount rateMode = .ok w') :
    ∃ w₀ w₁ w₂ p₁ p₂ d, fund helper sender asset m.world amount = .ok w₀ ∧
      Run env helper delegator asset w₀ amount rateMode w₁ w₂ w' p₁ p₂ d ∧
      Accounted env helper sender delegator asset amount rateMode m.world w₀ w₁ w' p₁ p₂ d := by
  obtain ⟨w₀, w₁, w₂, p₁, p₂, d, hfund, hrun⟩ := repayDelegation_ok h
  refine ⟨w₀, w₁, w₂, p₁, p₂, d, hfund, hrun, ?_⟩
  obtain ⟨⟨t, hw₀⟩, hgiven, htaken, hallowed⟩ := fund_ok hsender hfund
  have haddress : (w₀.reserves asset).data.aTokenAddress =
      (m.world.reserves asset).data.aTokenAddress := by
    rw [hw₀, World.setReserve_reserves_self, Reserve.withUnderlying_data]
  have hpaid := hrun.paid (haddress ▸ hhelper)
  have hothers := hpaid.others sender hsender (haddress ▸ hpool)
  have hbalance := hpaid.balance
  have hallowance := hpaid.allowance
  have hreduces₀ : Reduces env asset delegator 0 0 m.world w₀ := fund_reduces t hw₀
  obtain ⟨hreduces₁, hreduces₂, hreduces₃⟩ := hrun.reduces htime
  have hnone : rateMode = 1 ∨ rateMode = 2 ∨ p₁ = 0 := by
    obtain hpaid | ⟨-, -, hzero⟩ := attempt_eq hrun.chosen
    · exact (repay_mode hpaid).imp_right .inl
    · exact .inr (.inr hzero)
  have hone : paidIn 2 rateMode p₁ = 0 ∨ paidIn 2 (otherRateMode rateMode) p₂ = 0 := by
    by_cases h1 : rateMode = 1
    · simp [paidIn, h1]
    · simp [paidIn, otherRateMode, h1]
  have hall := (hreduces₀.trans ((hreduces₁.trans hreduces₂ hone).trans hreduces₃ (.inr rfl))
    (.inl rfl))
  obtain ⟨hs, hv⟩ := paidIn_other rateMode p₁ p₂ hnone
  rw [hs, hv, Nat.zero_add, Nat.zero_add, Nat.add_zero, Nat.add_zero] at hall
  have hclearable₀ := hreduces₀.clearable (clearable_of_wellFormed hm.wellFormed)
  have htotal := hrun.total
  refine ⟨htotal, by omega, by omega, by rw [hpaid.self]; omega, hall.stable, hall.rounding,
    fun hupdated b b' hb hb' => ?_, fun hd => ?_, fun hd => ?_⟩
  · obtain ⟨hupdated', hindex⟩ := hall.updated hupdated
    have hbefore := balanceOf_updated hupdated hb
    have hafter := balanceOf_updated hupdated' hb'
    rw [variableBorrowIndex, variableBorrowIndex] at hindex
    rw [← hindex] at hbefore
    rw [hbefore, hafter]
    exact hall.rounding
  · refine attempt_clears htime hclearable₀ hrun.chosen (by omega) (hreduces₂.trans hreduces₃
      (.inr rfl)) fun h2 => ?_
    simp [paidIn, otherRateMode, h2]
  · obtain ⟨hspent, -, -⟩ | ⟨-, hother⟩ := hrun.other
    · omega
    · exact attempt_clears htime (hreduces₁.clearable hclearable₀) hother (by omega) hreduces₃
        fun _ => rfl

def twoModeLoan : List Transaction :=
  sampleListing 40 1 9 ++ sampleListing 40 2 9 ++
    [⟨sampleEnv 40, 11, .deposit 1 1000 11⟩, ⟨sampleEnv 40, 12, .deposit 2 500 12⟩,
      ⟨sampleEnv 40, 12, .borrow 1 10 2 12⟩, ⟨sampleEnv 40, 12, .borrow 1 5 1 12⟩]

def yearLater : Env := sampleEnv (40 + MathUtils.secondsPerYear)

set_option synthInstance.maxSize 256 in
theorem twoModeLoan_rounds : (do
    let w ← runAll sampleStart twoModeLoan
    let w' ← repayDelegation yearLater 14 13 12 1 w 1 2
    let b ← VariableDebtToken.balanceOf w.impl yearLater.timestamp (w.reserves 1) 12
    let b' ← VariableDebtToken.balanceOf w'.impl yearLater.timestamp (w'.reserves 1) 12
    let s ← StableDebtToken.balanceOf yearLater.timestamp (w.reserves 1) 12
    let s' ← StableDebtToken.balanceOf yearLater.timestamp (w'.reserves 1) 12
    return (b, b', s, s', (w.reserves 1).data.aTokenAddress)) = .ok (11, 9, 5, 5, 101) := by
  decide +kernel

theorem twoModeLoan_sample : ∀ t ∈ twoModeLoan, t.env.timestamp = 40 := by decide

/-- The shown debt goes down by more than was paid. -/
theorem reductions_exceed_amount : ¬ ∀ (env : Env) (helper sender delegator asset : Address)
    (m : Machine) (amount rateMode : ℕ) (w' : World) (b b' s s' : ℕ), Reachable m →
    m.time ≤ env.timestamp → env.timestamp < 2 ^ 40 → sender ≠ helper →
    sender ≠ (m.world.reserves asset).data.aTokenAddress →
    helper ≠ (m.world.reserves asset).data.aTokenAddress →
    repayDelegation env helper sender delegator asset m.world amount rateMode = .ok w' →
    VariableDebtToken.balanceOf m.world.impl env.timestamp (m.world.reserves asset) delegator =
      .ok b →
    VariableDebtToken.balanceOf w'.impl env.timestamp (w'.reserves asset) delegator = .ok b' →
    StableDebtToken.balanceOf env.timestamp (m.world.reserves asset) delegator = .ok s →
    StableDebtToken.balanceOf env.timestamp (w'.reserves asset) delegator = .ok s' →
    ∃ d : ℕ, (amount : ℤ) = (b - b') + (s - s') + d := by
  intro haccounts
  obtain ⟨w, hrun, hrest⟩ := bind_ok.mp twoModeLoan_rounds
  obtain ⟨w', h, hrest⟩ := bind_ok.mp hrest
  obtain ⟨b, hb, hrest⟩ := bind_ok.mp hrest
  obtain ⟨b', hb', hrest⟩ := bind_ok.mp hrest
  obtain ⟨s, hs, hrest⟩ := bind_ok.mp hrest
  obtain ⟨s', hs', hrest⟩ := bind_ok.mp hrest
  simp only [pure_ok, Prod.mk.injEq] at hrest
  obtain ⟨rfl, rfl, rfl, rfl, haddress⟩ := hrest
  obtain ⟨d, hd⟩ := haccounts yearLater 14 13 12 1 ⟨w, 40, []⟩ 1 2 w' 11 9 5 5
    (.sample twoModeLoan_sample hrun) (Nat.le_add_right 40 _) (by decide) (by decide)
    (by rw [haddress]; decide) (by rw [haddress]; decide) h hb hb' hs hs'
  omega

theorem twoModeLoan_repaid : (do
    let w ← runAll sampleStart twoModeLoan
    let w' ← repayDelegation (sampleEnv 40) 14 13 12 1 w 20 2
    let a ← AToken.balanceOf w'.impl 40 (w'.reserves 1) 12
    return (a, (w.reserves 1).data.aTokenAddress)) = .ok (5, 101) := by
  decide +kernel

theorem repayDelegation_accounted_twoModeLoan : ∃ w w₀ w₁ w' p₁ p₂ d, Reachable ⟨w, 40, []⟩ ∧
    repayDelegation (sampleEnv 40) 14 13 12 1 w 20 2 = .ok w' ∧
    AToken.balanceOf w'.impl 40 (w'.reserves 1) 12 = .ok 5 ∧
    Accounted (sampleEnv 40) 14 13 12 1 20 2 w w₀ w₁ w' p₁ p₂ d := by
  obtain ⟨w, hrun, hrest⟩ := bind_ok.mp twoModeLoan_repaid
  obtain ⟨w', h, hrest⟩ := bind_ok.mp hrest
  obtain ⟨a, ha, hrest⟩ := bind_ok.mp hrest
  simp only [pure_ok, Prod.mk.injEq] at hrest
  obtain ⟨rfl, haddress⟩ := hrest
  have hreach : Reachable ⟨w, 40, []⟩ := .sample twoModeLoan_sample hrun
  obtain ⟨w₀, w₁, w₂, p₁, p₂, d, -, -, haccounted⟩ := repayDelegation_accounted _ _ _ _ _
    ⟨w, 40, []⟩ _ _ _ hreach (by decide) (by decide) (by rw [haddress]; decide)
    (by rw [haddress]; decide) h
  exact ⟨w, w₀, w₁, w', p₁, p₂, d, hreach, h, ha, haccounted⟩

end RepayDelegationHelper

end Moola
