import Moola.Indexes

/-! The token contracts of a reserve: AToken, VariableDebtToken and StableDebtToken
over IncentivizedERC20, and the underlying token. A call to an address without code
reverts. Each operation is followed by what its success says. -/

namespace Moola

open Guard WadRayMath

namespace ERC20

/-- `safeTransfer`, called by the holder. -/
def transfer (t : ERC20) (sender recipient : Address) (amount : ℕ) : Tx ERC20 := do
  require (sender ≠ 0) .safeErc20CallFailed
  require (recipient ≠ 0) .safeErc20CallFailed
  if h : amount ≤ t.ledger.balances sender then
    return { t with ledger := t.ledger.move sender recipient amount h }
  else .error .safeErc20CallFailed

def transferFrom (t : ERC20) (spender sender recipient : Address) (amount : ℕ) : Tx ERC20 := do
  let t ← t.transfer sender recipient amount
  require (amount ≤ t.allowances sender spender) .safeErc20CallFailed
  return { t with
    allowances := write₂ t.allowances sender spender (t.allowances sender spender - amount) }

def approve (t : ERC20) (owner spender : Address) (amount : ℕ) : ERC20 :=
  { t with allowances := write₂ t.allowances owner spender amount }

variable {t t' : ERC20} {a b c : Address} {n : ℕ}

theorem transfer_ok : t.transfer a b n = .ok t' ↔ a ≠ 0 ∧ b ≠ 0 ∧
    ∃ hn, { t with ledger := t.ledger.move a b n hn } = t' := by
  simp only [transfer, bind_unit_ok, require_ok, and_congr_right_iff]
  intro _ _
  split
  case isTrue hn => simp [hn]
  case isFalse hn => simp [hn]

theorem transfer_error {e : Revert} (h : t.transfer a b n = .error e) :
    e = .safeErc20CallFailed := by
  simp only [transfer, bind_unit_error, require_error] at h
  rcases h with ⟨-, rfl⟩ | ⟨-, ⟨-, rfl⟩ | ⟨-, h⟩⟩
  · rfl
  · rfl
  · split at h
    case isTrue => cases h
    case isFalse => exact (Except.error.inj h).symm

theorem transferFrom_ok (h : t.transferFrom c a b n = .ok t') :
    ∃ hn, t'.ledger = t.ledger.move a b n hn := by
  simp only [transferFrom, bind_ok, pure_ok] at h
  obtain ⟨t₁, h₁, -, -, rfl⟩ := h
  obtain ⟨-, -, hn, rfl⟩ := transfer_ok.mp h₁
  exact ⟨hn, rfl⟩

end ERC20

namespace IncentivizedERC20

def mint (l : Ledger Address) (account : Address) (amount : ℕ) : Tx (Ledger Address) := do
  require (account ≠ 0) .mintToTheZeroAddress
  require (l.totalSupply + amount ≤ maxUint256) .safeMathAdditionOverflow
  return l.credit account amount

def burn (l : Ledger Address) (account : Address) (amount : ℕ) : Tx (Ledger Address) := do
  require (account ≠ 0) .burnFromTheZeroAddress
  require (amount ≤ l.totalSupply) .safeMathSubtractionOverflow
  if h : amount ≤ l.balances account then .ok (l.debit account amount h)
  else .error .burnAmountExceedsBalance

def transfer (l : Ledger Address) (sender recipient : Address) (amount : ℕ) :
    Tx (Ledger Address) := do
  require (sender ≠ 0) .transferFromTheZeroAddress
  require (recipient ≠ 0) .transferToTheZeroAddress
  if h : amount ≤ l.balances sender then
    require ((l.debit sender amount h).balances recipient + amount ≤ maxUint256)
      .safeMathAdditionOverflow
    return l.move sender recipient amount h
  else .error .transferAmountExceedsBalance

variable {l l' : Ledger Address} {a b : Address} {n : ℕ}

theorem mint_ok : mint l a n = .ok l' ↔
    a ≠ 0 ∧ l.totalSupply + n ≤ maxUint256 ∧ l.credit a n = l' := by simp [mint]

theorem burn_ok : burn l a n = .ok l' ↔ a ≠ 0 ∧ ∃ h, l.debit a n h = l' := by
  simp only [burn, bind_unit_ok, require_ok]
  constructor
  · rintro ⟨ha, -, h⟩
    split at h
    case isTrue hn => exact ⟨ha, hn, Except.ok.inj h⟩
    case isFalse => cases h
  · rintro ⟨ha, hn, rfl⟩
    exact ⟨ha, hn.trans (l.balance_le a), by rw [dif_pos hn]⟩

theorem transfer_ok : transfer l a b n = .ok l' ↔ a ≠ 0 ∧ b ≠ 0 ∧ ∃ h,
    (l.debit a n h).balances b + n ≤ maxUint256 ∧ l.move a b n h = l' := by
  simp only [transfer, bind_unit_ok, require_ok]
  constructor
  · rintro ⟨ha, hb, h⟩
    split at h
    case isTrue hn =>
      simp only [bind_unit_ok, require_ok, pure_ok] at h
      exact ⟨ha, hb, hn, h.1, h.2⟩
    case isFalse => cases h
  · rintro ⟨ha, hb, hn, hmax, rfl⟩
    refine ⟨ha, hb, ?_⟩
    rw [dif_pos hn, require_pos _ hmax]
    rfl

end IncentivizedERC20

def scaledBy (scaled : ℕ) (index : Tx ℕ) : Tx ℕ := do
  let index ← index
  rayMul scaled index

namespace AToken

variable (impl : PoolImpl) (now : ℕ)

def balanceOf (r : Reserve) (user : Address) : Tx ℕ := do
  require (r.data.aTokenAddress ≠ 0) .notAContract
  scaledBy (r.aToken.ledger.balances user) (LendingPool.getReserveNormalizedIncome impl r.data now)

def totalSupply (r : Reserve) : Tx ℕ := do
  require (r.data.aTokenAddress ≠ 0) .notAContract
  if r.aToken.ledger.totalSupply = 0 then return 0
  else
    scaledBy r.aToken.ledger.totalSupply (LendingPool.getReserveNormalizedIncome impl r.data now)

def mint (r : Reserve) (user : Address) (amount index : ℕ) : Tx (Reserve × Bool) := do
  require (r.data.aTokenAddress ≠ 0) .notAContract
  let previousBalance := r.aToken.ledger.balances user
  let amountScaled ← rayDiv amount index
  require (amountScaled ≠ 0) .ctInvalidMintAmount
  let ledger ← IncentivizedERC20.mint r.aToken.ledger user amountScaled
  return (r.withALedger ledger, previousBalance == 0)

def mintToTreasury (r : Reserve) (amount index : ℕ) : Tx Reserve := do
  require (r.data.aTokenAddress ≠ 0) .notAContract
  if amount = 0 then return r
  else
    let amountScaled ← rayDiv amount index
    let ledger ← IncentivizedERC20.mint r.aToken.ledger r.aToken.treasury amountScaled
    return r.withALedger ledger

def transferUnderlyingTo (r : Reserve) (target : Address) (amount : ℕ) : Tx Reserve := do
  require (r.data.aTokenAddress ≠ 0) .notAContract
  let underlying ← r.underlying.transfer r.data.aTokenAddress target amount
  return r.withUnderlying underlying

def burn (r : Reserve) (user receiverOfUnderlying : Address) (amount index : ℕ) : Tx Reserve := do
  require (r.data.aTokenAddress ≠ 0) .notAContract
  let amountScaled ← rayDiv amount index
  require (amountScaled ≠ 0) .ctInvalidBurnAmount
  let ledger ← IncentivizedERC20.burn r.aToken.ledger user amountScaled
  let underlying ← r.underlying.transfer r.data.aTokenAddress receiverOfUnderlying amount
  return (r.withALedger ledger).withUnderlying underlying

/-- What `_transfer` hands to `finalizeTransfer` besides its own arguments. -/
structure BalancesBefore where
  fromBalanceBefore : ℕ
  toBalanceBefore : ℕ

/-- The move inside `_transfer`, before its validation. -/
def move (r : Reserve) (sender recipient : Address) (amount : ℕ) :
    Tx (Reserve × BalancesBefore) := do
  require (r.data.aTokenAddress ≠ 0) .notAContract
  let index ← LendingPool.getReserveNormalizedIncome impl r.data now
  let fromBalanceBefore ← rayMul (r.aToken.ledger.balances sender) index
  let toBalanceBefore ← rayMul (r.aToken.ledger.balances recipient) index
  let amountScaled ← rayDiv amount index
  let ledger ← IncentivizedERC20.transfer r.aToken.ledger sender recipient amountScaled
  return (r.withALedger ledger, ⟨fromBalanceBefore, toBalanceBefore⟩)

def transferOnLiquidation (r : Reserve) (sender recipient : Address) (value : ℕ) :
    Tx Reserve := do
  let (r, _) ← move impl now r sender recipient value
  return r

variable {impl now} {r r' : Reserve} {user receiver : Address} {amount index b : ℕ} {first : Bool}

theorem balanceOf_ok : balanceOf impl now r user = .ok b ↔ r.data.aTokenAddress ≠ 0 ∧
    ∃ index, LendingPool.getReserveNormalizedIncome impl r.data now = .ok index ∧
      r.aToken.ledger.balances user * index ≤ maxUint256 - halfRay ∧
      rayProduct (r.aToken.ledger.balances user) index = b := by
  simp [balanceOf, scaledBy]

theorem balanceOf_fails (ha : r.data.aTokenAddress ≠ 0) (h : r.data.lastUpdateTimestamp ≤ now) :
    FailsOnly Revert.IsOverflow (balanceOf impl now r user) :=
  .bind_unit (.require fun h0 => absurd ha h0) fun _ =>
    .bind (LendingPool.getReserveNormalizedIncome_fails h) fun _ _ => rayMul_fails

theorem totalSupply_ok (h : totalSupply impl now r = .ok b) : r.aToken.ledger.totalSupply = 0 ∧
    b = 0 ∨ r.aToken.ledger.totalSupply ≠ 0 ∧
      ∃ index, LendingPool.getReserveNormalizedIncome impl r.data now = .ok index ∧
        rayProduct r.aToken.ledger.totalSupply index = b := by
  simp only [totalSupply, bind_unit_ok, require_ok] at h
  obtain ⟨-, h⟩ := h
  split at h
  case isTrue h0 => exact .inl ⟨h0, (pure_ok.mp h).symm⟩
  case isFalse h0 =>
    simp only [scaledBy, bind_ok, rayMul_ok] at h
    obtain ⟨index, hi, -, rfl⟩ := h
    exact .inr ⟨h0, index, hi, rfl⟩

theorem mint_ok (h : mint r user amount index = .ok (r', first)) :
    user ≠ 0 ∧ index ≠ 0 ∧ rayQuotient amount index ≠ 0 ∧
      first = (r.aToken.ledger.balances user == 0) ∧
      r' = r.withALedger (r.aToken.ledger.credit user (rayQuotient amount index)) := by
  simp only [mint, bind_ok, exists_unit, require_ok, rayDiv_ok, pure_ok, Prod.mk.injEq,
    IncentivizedERC20.mint_ok] at h
  obtain ⟨-, s, ⟨hi, -, rfl⟩, hs, l, ⟨hu, -, rfl⟩, rfl, rfl⟩ := h
  exact ⟨hu, hi, hs, rfl, rfl⟩

theorem mintToTreasury_ok (h : mintToTreasury r amount index = .ok r') :
    amount = 0 ∧ r' = r ∨ amount ≠ 0 ∧ index ≠ 0 ∧ r.aToken.treasury ≠ 0 ∧
      r' = r.withALedger
        (r.aToken.ledger.credit r.aToken.treasury (rayQuotient amount index)) := by
  simp only [mintToTreasury, bind_unit_ok, require_ok] at h
  obtain ⟨-, h⟩ := h
  split at h
  case isTrue h0 => exact .inl ⟨h0, (pure_ok.mp h).symm⟩
  case isFalse h0 =>
    simp only [bind_ok, rayDiv_ok, pure_ok, IncentivizedERC20.mint_ok] at h
    obtain ⟨s, ⟨hi, -, rfl⟩, l, ⟨ht, -, rfl⟩, rfl⟩ := h
    exact .inr ⟨h0, hi, ht, rfl⟩

theorem transferUnderlyingTo_ok (h : transferUnderlyingTo r receiver amount = .ok r') :
    r.data.aTokenAddress ≠ 0 ∧ ∃ hn, r' = r.withUnderlying { r.underlying with
      ledger := r.underlying.ledger.move r.data.aTokenAddress receiver amount hn } := by
  simp only [transferUnderlyingTo, bind_ok, exists_unit, require_ok, pure_ok] at h
  obtain ⟨ha, t, ht, rfl⟩ := h
  obtain ⟨-, -, hn, rfl⟩ := ERC20.transfer_ok.mp ht
  exact ⟨ha, hn, rfl⟩

theorem burn_ok (h : burn r user receiver amount index = .ok r') :
    user ≠ 0 ∧ index ≠ 0 ∧ rayQuotient amount index ≠ 0 ∧ ∃ hs hn,
      r' = (r.withALedger (r.aToken.ledger.debit user (rayQuotient amount index) hs)).withUnderlying
        { r.underlying with
          ledger := r.underlying.ledger.move r.data.aTokenAddress receiver amount hn } := by
  simp only [burn, bind_ok, exists_unit, require_ok, rayDiv_ok, pure_ok,
    IncentivizedERC20.burn_ok] at h
  obtain ⟨-, s, ⟨hi, -, rfl⟩, hs, l, ⟨hu, hd, rfl⟩, t, ht, rfl⟩ := h
  obtain ⟨-, -, hn, rfl⟩ := ERC20.transfer_ok.mp ht
  exact ⟨hu, hi, hs, hd, hn, rfl⟩

variable {sender recipient : Address} {before : BalancesBefore}

theorem move_ok (h : move impl now r sender recipient amount = .ok (r', before)) :
    r.data.aTokenAddress ≠ 0 ∧ sender ≠ 0 ∧ recipient ≠ 0 ∧
    ∃ index, LendingPool.getReserveNormalizedIncome impl r.data now = .ok index ∧ index ≠ 0 ∧
      before = ⟨rayProduct (r.aToken.ledger.balances sender) index,
        rayProduct (r.aToken.ledger.balances recipient) index⟩ ∧
      ∃ hs, r' = r.withALedger
        (r.aToken.ledger.move sender recipient (rayQuotient amount index) hs) := by
  simp only [move, bind_ok, exists_unit, require_ok, rayMul_ok, rayDiv_ok, pure_ok,
    IncentivizedERC20.transfer_ok, Prod.mk.injEq] at h
  obtain ⟨ha, index, hi, fb, ⟨-, rfl⟩, tb, ⟨-, rfl⟩, s, ⟨hi0, -, rfl⟩, l,
    ⟨hsd, hrc, hs, -, rfl⟩, rfl, rfl⟩ := h
  exact ⟨ha, hsd, hrc, index, hi, hi0, rfl, hs, rfl⟩

theorem transferOnLiquidation_ok
    (h : transferOnLiquidation impl now r sender recipient amount = .ok r') :
    r.data.aTokenAddress ≠ 0 ∧ sender ≠ 0 ∧ recipient ≠ 0 ∧
    ∃ index, LendingPool.getReserveNormalizedIncome impl r.data now = .ok index ∧ index ≠ 0 ∧
      ∃ hs, r' = r.withALedger
        (r.aToken.ledger.move sender recipient (rayQuotient amount index) hs) := by
  simp only [transferOnLiquidation, bind_ok, pure_ok] at h
  obtain ⟨⟨r₁, before⟩, hm, rfl⟩ := h
  obtain ⟨ha, hs, hr, index, hi, hi0, -, hm⟩ := move_ok hm
  exact ⟨ha, hs, hr, index, hi, hi0, hm⟩

end AToken

def decreaseBorrowAllowance (allowances : Address → Address → ℕ) (delegator delegatee : Address)
    (amount : ℕ) : Tx (Address → Address → ℕ) := do
  let newAllowance ← SafeMath.sub (allowances delegator delegatee) amount .borrowAllowanceNotEnough
  return write₂ allowances delegator delegatee newAllowance

def spendBorrowAllowance (allowances : Address → Address → ℕ) (user onBehalfOf : Address)
    (amount : ℕ) : Tx (Address → Address → ℕ) :=
  if user ≠ onBehalfOf then decreaseBorrowAllowance allowances onBehalfOf user amount
  else .ok allowances

theorem spendBorrowAllowance_ok {al al' : Address → Address → ℕ} {user onBehalfOf : Address}
    {amount : ℕ} (h : spendBorrowAllowance al user onBehalfOf amount = .ok al') :
    user = onBehalfOf ∧ al' = al ∨ user ≠ onBehalfOf ∧ amount ≤ al onBehalfOf user ∧
      al' = write₂ al onBehalfOf user (al onBehalfOf user - amount) := by
  unfold spendBorrowAllowance at h
  split at h
  case isTrue hne =>
    simp only [decreaseBorrowAllowance, bind_ok, SafeMath.sub_ok, pure_ok] at h
    obtain ⟨n, ⟨hle, rfl⟩, rfl⟩ := h
    exact .inr ⟨hne, hle, rfl⟩
  case isFalse he => exact .inl ⟨not_not.mp he, (Except.ok.inj h).symm⟩

namespace VariableDebtToken

variable (impl : PoolImpl) (now : ℕ)

def balanceOf (r : Reserve) (user : Address) : Tx ℕ := do
  require (r.data.variableDebtTokenAddress ≠ 0) .notAContract
  let scaledBalance := r.variableDebtToken.ledger.balances user
  if scaledBalance = 0 then return 0
  else scaledBy scaledBalance (LendingPool.getReserveNormalizedVariableDebt impl r.data now)

def totalSupply (r : Reserve) : Tx ℕ := do
  require (r.data.variableDebtTokenAddress ≠ 0) .notAContract
  scaledBy r.variableDebtToken.ledger.totalSupply
    (LendingPool.getReserveNormalizedVariableDebt impl r.data now)

def scaledTotalSupply (r : Reserve) : Tx ℕ := do
  require (r.data.variableDebtTokenAddress ≠ 0) .notAContract
  return r.variableDebtToken.ledger.totalSupply

def mint (r : Reserve) (user onBehalfOf : Address) (amount index : ℕ) : Tx (Reserve × Bool) := do
  require (r.data.variableDebtTokenAddress ≠ 0) .notAContract
  let borrowAllowances ←
    spendBorrowAllowance r.variableDebtToken.borrowAllowances user onBehalfOf amount
  let previousBalance := r.variableDebtToken.ledger.balances onBehalfOf
  let amountScaled ← rayDiv amount index
  require (amountScaled ≠ 0) .ctInvalidMintAmount
  let ledger ← IncentivizedERC20.mint r.variableDebtToken.ledger onBehalfOf amountScaled
  return ({ r with variableDebtToken := ⟨ledger, borrowAllowances⟩ }, previousBalance == 0)

def burn (r : Reserve) (user : Address) (amount index : ℕ) : Tx Reserve := do
  require (r.data.variableDebtTokenAddress ≠ 0) .notAContract
  let amountScaled ← rayDiv amount index
  require (amountScaled ≠ 0) .ctInvalidBurnAmount
  let ledger ← IncentivizedERC20.burn r.variableDebtToken.ledger user amountScaled
  return r.withDebtLedger ledger

variable {impl now} {r r' : Reserve} {user onBehalfOf : Address} {amount index b : ℕ}
  {first : Bool}

theorem scaledTotalSupply_ok : scaledTotalSupply r = .ok b ↔
    r.data.variableDebtTokenAddress ≠ 0 ∧ r.variableDebtToken.ledger.totalSupply = b := by
  simp [scaledTotalSupply]

theorem balanceOf_ok (h : balanceOf impl now r user = .ok b) :
    r.data.variableDebtTokenAddress ≠ 0 ∧
    (r.variableDebtToken.ledger.balances user = 0 ∧ b = 0 ∨
      r.variableDebtToken.ledger.balances user ≠ 0 ∧
      ∃ index, LendingPool.getReserveNormalizedVariableDebt impl r.data now = .ok index ∧
        b = rayProduct (r.variableDebtToken.ledger.balances user) index) := by
  simp only [balanceOf, bind_unit_ok, require_ok] at h
  obtain ⟨ha, h⟩ := h
  refine ⟨ha, ?_⟩
  split at h
  case isTrue h0 => exact .inl ⟨h0, (pure_ok.mp h).symm⟩
  case isFalse h0 =>
    simp only [scaledBy, bind_ok, rayMul_ok] at h
    obtain ⟨index, hi, -, rfl⟩ := h
    exact .inr ⟨h0, index, hi, rfl⟩

theorem balanceOf_fails (ha : r.data.variableDebtTokenAddress ≠ 0)
    (h : r.data.lastUpdateTimestamp ≤ now) :
    FailsOnly Revert.IsOverflow (balanceOf impl now r user) := by
  refine .bind_unit (.require fun h0 => absurd ha h0) fun _ => ?_
  dsimp only
  split
  case isTrue => exact .pure 0
  case isFalse =>
    exact .bind (LendingPool.getReserveNormalizedVariableDebt_fails h) fun _ _ => rayMul_fails

theorem mint_ok (h : mint r user onBehalfOf amount index = .ok (r', first)) :
    r.data.variableDebtTokenAddress ≠ 0 ∧ onBehalfOf ≠ 0 ∧ index ≠ 0 ∧
    rayQuotient amount index ≠ 0 ∧
    first = (r.variableDebtToken.ledger.balances onBehalfOf == 0) ∧
    ∃ al,
      spendBorrowAllowance r.variableDebtToken.borrowAllowances user onBehalfOf amount = .ok al ∧
      r' = { r with variableDebtToken :=
        ⟨r.variableDebtToken.ledger.credit onBehalfOf (rayQuotient amount index), al⟩ } := by
  simp only [mint, bind_ok, exists_unit, require_ok, rayDiv_ok, pure_ok, Prod.mk.injEq,
    IncentivizedERC20.mint_ok] at h
  obtain ⟨ha, al, hal, s, ⟨hi, -, rfl⟩, hs, l, ⟨hu, -, rfl⟩, rfl, rfl⟩ := h
  exact ⟨ha, hu, hi, hs, rfl, al, hal, rfl⟩

theorem burn_ok (h : burn r user amount index = .ok r') :
    r.data.variableDebtTokenAddress ≠ 0 ∧ user ≠ 0 ∧ index ≠ 0 ∧ rayQuotient amount index ≠ 0 ∧
    ∃ hs, r' = r.withDebtLedger
      (r.variableDebtToken.ledger.debit user (rayQuotient amount index) hs) := by
  simp only [burn, bind_ok, exists_unit, require_ok, rayDiv_ok, pure_ok,
    IncentivizedERC20.burn_ok] at h
  obtain ⟨ha, s, ⟨hi, -, rfl⟩, hs, l, ⟨hu, hd, rfl⟩, rfl⟩ := h
  exact ⟨ha, hu, hi, hs, hd, rfl⟩

end VariableDebtToken

end Moola
