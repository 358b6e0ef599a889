import Moola.Tokens

/-! StableDebtToken: every borrower accrues at an own rate from an own timestamp,
and the total accrues at the average rate. -/

namespace Moola

open Guard WadRayMath

namespace StableDebtToken

variable (now : ℕ)

/-- The balance of an account inside the token. -/
def accrued (t : StableDebtToken) (account : Address) : Tx ℕ := do
  if t.balances account = 0 then return 0
  else
    let cumulatedInterest ← MathUtils.calculateCompoundedInterest (t.usersStableRate account)
      (t.timestamps account) now
    rayMul (t.balances account) cumulatedInterest

structure BalanceIncrease where
  currentBalance : ℕ
  balanceIncrease : ℕ

def calculateBalanceIncrease (t : StableDebtToken) (user : Address) : Tx BalanceIncrease := do
  let previousPrincipalBalance := t.balances user
  if previousPrincipalBalance = 0 then return ⟨0, 0⟩
  else
    let balance ← accrued now t user
    let balanceIncrease ← SafeMath.sub balance previousPrincipalBalance
    let currentBalance ← SafeMath.add previousPrincipalBalance balanceIncrease
    return ⟨currentBalance, balanceIncrease⟩

def calcTotalSupply (t : StableDebtToken) (avgRate : ℕ) : Tx ℕ := do
  if t.principalSupply = 0 then return 0
  else
    let cumulatedInterest ←
      MathUtils.calculateCompoundedInterest avgRate t.totalSupplyTimestamp now
    rayMul t.principalSupply cumulatedInterest

def balanceOf (r : Reserve) (account : Address) : Tx ℕ := do
  require (r.data.stableDebtTokenAddress ≠ 0) .notAContract
  accrued now r.stableDebtToken account

def totalSupply (r : Reserve) : Tx ℕ := do
  require (r.data.stableDebtTokenAddress ≠ 0) .notAContract
  calcTotalSupply now r.stableDebtToken r.stableDebtToken.avgStableRate

structure SupplyData where
  principal : ℕ
  total : ℕ
  avgRate : ℕ
  updatedTimestamp : ℕ

def getSupplyData (r : Reserve) : Tx SupplyData := do
  require (r.data.stableDebtTokenAddress ≠ 0) .notAContract
  let t := r.stableDebtToken
  let total ← calcTotalSupply now t t.avgStableRate
  return ⟨t.principalSupply, total, t.avgStableRate, t.totalSupplyTimestamp⟩

def getTotalSupplyAndAvgRate (r : Reserve) : Tx (ℕ × ℕ) := do
  require (r.data.stableDebtTokenAddress ≠ 0) .notAContract
  let total ← calcTotalSupply now r.stableDebtToken r.stableDebtToken.avgStableRate
  return (total, r.stableDebtToken.avgStableRate)

/-- An average of two rates weighted by two amounts, over a total. -/
def weightedRate (rate₁ amount₁ rate₂ amount₂ total : ℕ) : Tx ℕ := do
  let amount₁ ← wadToRay amount₁
  let first ← rayMul rate₁ amount₁
  let amount₂ ← wadToRay amount₂
  let second ← rayMul rate₂ amount₂
  let sum ← SafeMath.add first second
  let total ← wadToRay total
  rayDiv sum total

def mint (r : Reserve) (user onBehalfOf : Address) (amount rate : ℕ) : Tx (Reserve × Bool) := do
  require (r.data.stableDebtTokenAddress ≠ 0) .notAContract
  let t := r.stableDebtToken
  let borrowAllowances ← spendBorrowAllowance t.borrowAllowances user onBehalfOf amount
  let increase ← calculateBalanceIncrease now t onBehalfOf
  let previousSupply ← calcTotalSupply now t t.avgStableRate
  let nextSupply ← SafeMath.add previousSupply amount
  let balanceAfter ← SafeMath.add increase.currentBalance amount
  let newStableRate ← weightedRate (t.usersStableRate onBehalfOf) increase.currentBalance
    rate amount balanceAfter
  require (newStableRate ≤ maxUint128) .sdtStableDebtOverflow
  let avgStableRate ← weightedRate t.avgStableRate previousSupply rate amount nextSupply
  let minted ← SafeMath.add amount increase.balanceIncrease
  let balance ← SafeMath.add (t.balances onBehalfOf) minted
  return (r.withStable {
    balances := write t.balances onBehalfOf balance
    principalSupply := nextSupply
    avgStableRate := avgStableRate
    timestamps := write t.timestamps onBehalfOf (uint40 now)
    usersStableRate := write t.usersStableRate onBehalfOf newStableRate
    totalSupplyTimestamp := uint40 now
    borrowAllowances := borrowAllowances }, increase.currentBalance == 0)

/-- The total supply and the average rate after a burn. Total and balances accrue
separately, so the last repayment may exceed what is left of either. -/
def supplyAfterBurn (t : StableDebtToken) (previousSupply amount userStableRate : ℕ) :
    Tx (ℕ × ℕ) :=
  if previousSupply ≤ amount then .ok (0, 0)
  else do
    let nextSupply ← SafeMath.sub previousSupply amount
    let previousSupply ← wadToRay previousSupply
    let firstTerm ← rayMul t.avgStableRate previousSupply
    let amount ← wadToRay amount
    let secondTerm ← rayMul userStableRate amount
    if secondTerm ≥ firstTerm then return (0, 0)
    else
      let rest ← SafeMath.sub firstTerm secondTerm
      let nextInRay ← wadToRay nextSupply
      let avgStableRate ← rayDiv rest nextInRay
      return (nextSupply, avgStableRate)

/-- The principal after a burn: the increase is capitalised before the amount leaves. -/
def balanceAfterBurn (balance amount balanceIncrease : ℕ) : Tx ℕ := do
  if balanceIncrease > amount then
    let amountToMint ← SafeMath.sub balanceIncrease amount
    SafeMath.add balance amountToMint
  else
    let amountToBurn ← SafeMath.sub amount balanceIncrease
    SafeMath.sub balance amountToBurn .sdtBurnExceedsBalance

def burn (r : Reserve) (user : Address) (amount : ℕ) : Tx Reserve := do
  require (r.data.stableDebtTokenAddress ≠ 0) .notAContract
  let t := r.stableDebtToken
  let increase ← calculateBalanceIncrease now t user
  let previousSupply ← calcTotalSupply now t t.avgStableRate
  let (totalSupply, avgStableRate) ←
    supplyAfterBurn t previousSupply amount (t.usersStableRate user)
  let balance ← balanceAfterBurn (t.balances user) amount increase.balanceIncrease
  let cleared := amount = increase.currentBalance
  return r.withStable { t with
    balances := write t.balances user balance
    principalSupply := totalSupply
    avgStableRate := avgStableRate
    timestamps := write t.timestamps user (if cleared then 0 else uint40 now)
    usersStableRate := write t.usersStableRate user
      (if cleared then 0 else t.usersStableRate user)
    totalSupplyTimestamp := uint40 now }

variable {now} {t : StableDebtToken} {r r' : Reserve} {user onBehalfOf : Address}
  {amount rate b : ℕ} {first : Bool} {increase : BalanceIncrease}

theorem weightedRate_total_pos {rate₁ amount₁ rate₂ amount₂ total : ℕ}
    (h : weightedRate rate₁ amount₁ rate₂ amount₂ total = .ok b) : 0 < total := by
  simp only [weightedRate, bind_ok, rayDiv_ok, wadToRay_ok] at h
  obtain ⟨_, _, _, _, _, _, _, _, _, _, _, ⟨-, rfl⟩, hpos, -⟩ := h
  exact Nat.pos_of_ne_zero fun h0 => hpos (by rw [h0, Nat.zero_mul])

theorem balanceOf_ok : balanceOf now r user = .ok b ↔
    r.data.stableDebtTokenAddress ≠ 0 ∧ accrued now r.stableDebtToken user = .ok b := by
  simp [balanceOf]

theorem accrued_fails (h : t.timestamps user ≤ now) :
    FailsOnly Revert.IsOverflow (accrued now t user) := by
  unfold accrued
  split
  case isTrue => exact .pure 0
  case isFalse =>
    exact .bind (MathUtils.calculateCompoundedInterest_fails h) fun _ _ => rayMul_fails

theorem balanceOf_fails (ha : r.data.stableDebtTokenAddress ≠ 0)
    (h : r.stableDebtToken.timestamps user ≤ now) :
    FailsOnly Revert.IsOverflow (balanceOf now r user) :=
  .bind_unit (.require fun h0 => absurd ha h0) fun _ => accrued_fails h

theorem calcTotalSupply_fails (h : t.totalSupplyTimestamp ≤ now) :
    FailsOnly Revert.IsOverflow (calcTotalSupply now t rate) := by
  unfold calcTotalSupply
  split
  case isTrue => exact .pure 0
  case isFalse =>
    exact .bind (MathUtils.calculateCompoundedInterest_fails h) fun _ _ => rayMul_fails

theorem accrued_zero (h : t.balances user = 0) : accrued now t user = .ok 0 := by
  simp [accrued, h, pure, Except.pure]

theorem accrued_pos (h : accrued now t user = .ok b) (hb : t.balances user ≠ 0) : b ≠ 0 := by
  simp only [accrued, if_neg hb, bind_ok, rayMul_ok] at h
  obtain ⟨c, hc, -, rfl⟩ := h
  obtain ⟨-, rfl⟩ := MathUtils.calculateCompoundedInterest_ok hc
  exact (rayProduct_pos (Nat.pos_of_ne_zero hb) (Nat.le_add_right _ _)).ne'

theorem balance_eq_zero_of_accrued (h : accrued now t user = .ok 0) : t.balances user = 0 := by
  by_contra hb
  exact accrued_pos h hb rfl

theorem accrued_self (h : t.timestamps user = now) (hmax : t.balances user * ray ≤
    maxUint256 - halfRay) : accrued now t user = .ok (t.balances user) := by
  unfold accrued
  split
  case isTrue h0 => rw [h0]; rfl
  case isFalse h0 =>
    rw [h, MathUtils.calculateCompoundedInterest_self, ok_bind, rayMul_ok]
    exact ⟨hmax, rayProduct_ray_right _⟩

theorem calculateBalanceIncrease_ok (h : calculateBalanceIncrease now t user = .ok increase) :
    accrued now t user = .ok increase.currentBalance ∧
      increase.currentBalance = t.balances user + increase.balanceIncrease := by
  simp only [calculateBalanceIncrease] at h
  split at h
  case isTrue h0 =>
    rw [pure_ok] at h
    subst h
    exact ⟨accrued_zero h0, by simp [h0]⟩
  case isFalse h0 =>
    simp only [bind_ok, SafeMath.sub_ok, SafeMath.add_ok, pure_ok] at h
    obtain ⟨balance, hb, _, ⟨hle, rfl⟩, _, ⟨-, rfl⟩, rfl⟩ := h
    exact ⟨by rw [hb, Nat.add_sub_cancel' hle], rfl⟩

theorem balanceAfterBurn_ok {balance inc b : ℕ} (h : balanceAfterBurn balance amount inc = .ok b) :
    amount ≤ balance + inc ∧ b = balance + inc - amount := by
  unfold balanceAfterBurn at h
  split at h
  case isTrue hgt =>
    simp only [bind_ok, SafeMath.sub_ok, SafeMath.add_ok] at h
    obtain ⟨_, ⟨hle, rfl⟩, -, rfl⟩ := h
    omega
  case isFalse hle =>
    simp only [bind_ok, SafeMath.sub_ok] at h
    obtain ⟨_, ⟨_, rfl⟩, _, rfl⟩ := h
    omega

theorem mint_ok (h : mint now r user onBehalfOf amount rate = .ok (r', first)) :
    r.data.stableDebtTokenAddress ≠ 0 ∧ ∃ current al t',
      accrued now r.stableDebtToken onBehalfOf = .ok current ∧
      spendBorrowAllowance r.stableDebtToken.borrowAllowances user onBehalfOf amount = .ok al ∧
      first = (current == 0) ∧ 0 < current + amount ∧ r' = r.withStable t' ∧
      t'.balances = write r.stableDebtToken.balances onBehalfOf (current + amount) ∧
      t'.timestamps = write r.stableDebtToken.timestamps onBehalfOf (uint40 now) ∧
      (∃ newRate, t'.usersStableRate =
        write r.stableDebtToken.usersStableRate onBehalfOf newRate) ∧
      t'.borrowAllowances = al := by
  simp only [mint, bind_ok, exists_unit, require_ok, SafeMath.add_ok, pure_ok,
    Prod.mk.injEq] at h
  obtain ⟨ha, al, hal, inc, hinc, supply, -, _, ⟨-, rfl⟩, _, ⟨-, rfl⟩, newRate, hrate, -,
    avg, -, _, ⟨-, rfl⟩, _, ⟨-, rfl⟩, rfl, rfl⟩ := h
  obtain ⟨hacc, hcur⟩ := calculateBalanceIncrease_ok hinc
  refine ⟨ha, inc.currentBalance, al, _, hacc, hal, rfl, weightedRate_total_pos hrate, rfl, ?_,
    rfl, ⟨_, rfl⟩, rfl⟩
  exact congrArg (write _ onBehalfOf) (by omega)

theorem burn_ok (h : burn now r user amount = .ok r') :
    r.data.stableDebtTokenAddress ≠ 0 ∧ ∃ current t',
      accrued now r.stableDebtToken user = .ok current ∧ amount ≤ current ∧
      r' = r.withStable t' ∧
      t'.balances = write r.stableDebtToken.balances user (current - amount) ∧
      t'.timestamps = write r.stableDebtToken.timestamps user
        (if amount = current then 0 else uint40 now) ∧
      t'.borrowAllowances = r.stableDebtToken.borrowAllowances := by
  simp only [burn, bind_ok, exists_unit, require_ok, pure_ok] at h
  obtain ⟨ha, inc, hinc, supply, -, ⟨total, avg⟩, -, balance, hbal, rfl⟩ := h
  obtain ⟨hacc, hcur⟩ := calculateBalanceIncrease_ok hinc
  obtain ⟨hle, rfl⟩ := balanceAfterBurn_ok hbal
  refine ⟨ha, inc.currentBalance, _, hacc, hcur ▸ hle, rfl, ?_, rfl, rfl⟩
  rw [hcur]

theorem mint_state (h : mint now r user onBehalfOf amount rate = .ok (r', first)) :
    ∃ current supply newRate avgRate al,
      accrued now r.stableDebtToken onBehalfOf = .ok current ∧
      calcTotalSupply now r.stableDebtToken r.stableDebtToken.avgStableRate = .ok supply ∧
      weightedRate (r.stableDebtToken.usersStableRate onBehalfOf) current rate amount
        (current + amount) = .ok newRate ∧
      weightedRate r.stableDebtToken.avgStableRate supply rate amount (supply + amount) =
        .ok avgRate ∧
      r' = r.withStable {
        balances := write r.stableDebtToken.balances onBehalfOf (current + amount)
        principalSupply := supply + amount
        avgStableRate := avgRate
        timestamps := write r.stableDebtToken.timestamps onBehalfOf (uint40 now)
        usersStableRate := write r.stableDebtToken.usersStableRate onBehalfOf newRate
        totalSupplyTimestamp := uint40 now
        borrowAllowances := al } := by
  simp only [mint, bind_ok, exists_unit, require_ok, SafeMath.add_ok, pure_ok,
    Prod.mk.injEq] at h
  obtain ⟨-, al, -, inc, hinc, supply, hsupply, _, ⟨-, rfl⟩, _, ⟨-, rfl⟩, newRate, hrate, -,
    avg, havg, _, ⟨-, rfl⟩, _, ⟨-, rfl⟩, rfl, -⟩ := h
  obtain ⟨hacc, hcur⟩ := calculateBalanceIncrease_ok hinc
  refine ⟨inc.currentBalance, supply, newRate, avg, al, hacc, hsupply, hrate, havg, ?_⟩
  rw [show inc.currentBalance + amount =
    r.stableDebtToken.balances onBehalfOf + (amount + inc.balanceIncrease) by omega]

theorem burn_state (h : burn now r user amount = .ok r') :
    ∃ current supply total avgRate, accrued now r.stableDebtToken user = .ok current ∧
      calcTotalSupply now r.stableDebtToken r.stableDebtToken.avgStableRate = .ok supply ∧
      supplyAfterBurn r.stableDebtToken supply amount (r.stableDebtToken.usersStableRate user) =
        .ok (total, avgRate) ∧
      amount ≤ current ∧
      r' = r.withStable { r.stableDebtToken with
        balances := write r.stableDebtToken.balances user (current - amount)
        principalSupply := total
        avgStableRate := avgRate
        timestamps := write r.stableDebtToken.timestamps user
          (if amount = current then 0 else uint40 now)
        usersStableRate := write r.stableDebtToken.usersStableRate user
          (if amount = current then 0 else r.stableDebtToken.usersStableRate user)
        totalSupplyTimestamp := uint40 now } := by
  simp only [burn, bind_ok, exists_unit, require_ok, pure_ok] at h
  obtain ⟨-, inc, hinc, supply, hsupply, ⟨total, avg⟩, htotal, balance, hbal, rfl⟩ := h
  obtain ⟨hacc, hcur⟩ := calculateBalanceIncrease_ok hinc
  obtain ⟨hle, rfl⟩ := balanceAfterBurn_ok hbal
  refine ⟨inc.currentBalance, supply, total, avg, hacc, hsupply, htotal, hcur ▸ hle, ?_⟩
  rw [hcur]

/-- What a burn leaves can be read in the same block: the current balance less the amount. -/
theorem burn_leaves (hstored : now < 2 ^ 40) (hamount : amount ≠ 0)
    (h : burn now r owner amount = .ok r') :
    ∃ current, accrued now r.stableDebtToken owner = .ok current ∧ amount ≤ current ∧
      accrued now r'.stableDebtToken owner = .ok (current - amount) := by
  obtain ⟨-, current, t', hcurrent, hle, rfl, hbalances, htimes, -⟩ := burn_ok h
  refine ⟨current, hcurrent, hle, ?_⟩
  have hbalance : t'.balances owner = current - amount := by rw [hbalances, write_self]
  rw [Reserve.withStable_stableDebtToken]
  by_cases hall : amount = current
  · rw [accrued_zero (by omega), hall, Nat.sub_self]
  · have htime : t'.timestamps owner = now := by
      rw [htimes, write_self, if_neg hall, uint40_of_lt hstored]
    have hne : r.stableDebtToken.balances owner ≠ 0 := by
      intro h0
      rw [accrued_zero h0, Except.ok.injEq] at hcurrent
      omega
    simp only [accrued, if_neg hne, bind_ok, rayMul_ok] at hcurrent
    obtain ⟨c, -, hfits, hproduct⟩ := hcurrent
    -- the product that rounds to the current balance fits, so one that is smaller by a ray does
    have hlower := HalfUp.lower (r.stableDebtToken.balances owner * c) ray
    rw [← rayProduct, hproduct] at hlower
    have hsmaller : (current - amount) * ray + ray ≤ ray * current := by
      rw [← Nat.succ_mul, Nat.mul_comm]
      exact Nat.mul_le_mul_left ray (by omega)
    have hhalf := Nat.div_le_self ray 2
    rw [accrued_self htime (by rw [hbalance]; omega), hbalance]

end StableDebtToken

end Moola
