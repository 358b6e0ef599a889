import Moola.GracePeriod
import Moola.Seizure
import Moola.Underflow

/-! What a caller does to the position of another account. The aTokens of the account leave
only with its allowance or in a liquidation, and its debts grow only with its borrow allowance. -/

namespace Moola

open Guard WadRayMath

namespace StableDebtToken

variable {now amount b : ℕ} {t : StableDebtToken} {r r' : Reserve} {user owner : Address}

theorem accrued_congr {t' : StableDebtToken} (hb : t'.balances user = t.balances user)
    (hr : t'.usersStableRate user = t.usersStableRate user)
    (ht : t'.timestamps user = t.timestamps user) :
    accrued now t' user = accrued now t user := by
  rw [accrued, accrued, hb, hr, ht]

theorem principal_of_accrued (ht : t.timestamps user = now) (h : accrued now t user = .ok b) :
    b = t.balances user := by
  unfold accrued at h
  split at h
  case isTrue h0 => rw [h0, ← pure_ok.mp h]
  case isFalse =>
    rw [ht, MathUtils.calculateCompoundedInterest_self, ok_bind, rayMul_ok,
      rayProduct_ray_right] at h
    exact h.2.symm

theorem burn_accrued (hstored : now < 2 ^ 40) (h : burn now r owner amount = .ok r') :
    ∃ current, accrued now r.stableDebtToken owner = .ok current ∧ amount ≤ current ∧
      ∀ b, accrued now r'.stableDebtToken owner = .ok b → b = current - amount := by
  obtain ⟨-, current, t', hcurrent, hle, rfl, hbalances, htimes, -⟩ := burn_ok h
  refine ⟨current, hcurrent, hle, fun b hb => ?_⟩
  have hbalance : t'.balances owner = current - amount := by rw [hbalances, write_self]
  by_cases hall : amount = current
  · have hzero : t'.balances owner = 0 := by omega
    have hnone := (accrued_zero hzero).symm.trans hb
    rw [Except.ok.injEq] at hnone
    omega
  · have htime : t'.timestamps owner = now := by
      rw [htimes, write_self, if_neg hall, uint40_of_lt hstored]
    rw [← hbalance]
    exact principal_of_accrued htime hb

end StableDebtToken

namespace CollateralManager

theorem validated_healthFactor {env : Env} {w : World} {manager : CollateralManager}
    {collateralAsset debtAsset user : Address} {debtToCover : ℕ} {receiveAToken : Bool}
    {l : Liquidation} (h : validated env w manager collateralAsset debtAsset user debtToCover
      receiveAToken = .ok (.ok l)) :
    ∃ data, GenericLogic.calculateUserAccountData env w user = .ok data ∧
      data.healthFactor < GenericLogic.healthFactorLiquidationThreshold := by
  unfold validated at h
  obtain ⟨data, hdata, h⟩ := bind_ok.mp h
  obtain ⟨⟨stableDebt, variableDebt⟩, -, h⟩ := bind_ok.mp h
  obtain ⟨code, hcode, h⟩ := bind_ok.mp h
  refine ⟨data, hdata, ?_⟩
  cases code with
  | some code => cases pure_ok.mp h
  | none =>
    by_contra hnot
    unfold ValidationLogic.validateLiquidationCall at hcode
    split at hcode
    case isTrue => cases pure_ok.mp hcode
    case isFalse =>
      rw [if_pos (not_lt.mp hnot)] at hcode
      cases pure_ok.mp hcode

end CollateralManager

namespace Reserve

/-- The debt of an account in one mode: the current stable debt, or the scaled variable debt. -/
def owed (now : ℕ) (user : Address) (mode : InterestRateMode) (r : Reserve) : Tx ℕ :=
  match mode with
  | .none => .ok 0
  | .stable => StableDebtToken.balanceOf now r user
  | .variable => .ok (r.variableDebtToken.ledger.balances user)

def borrowAllowances (r : Reserve) : InterestRateMode → Address → Address → ℕ
  | .none => fun _ _ => 0
  | .stable => r.stableDebtToken.borrowAllowances
  | .variable => r.variableDebtToken.borrowAllowances

/-- The account owes more afterwards. -/
def OwesMore (now : ℕ) (user : Address) (mode : InterestRateMode) (r r' : Reserve) : Prop :=
  ∃ n n', r.owed now user mode = .ok n ∧ r'.owed now user mode = .ok n' ∧ n < n'

def OwesNoMore (now : ℕ) (user : Address) (mode : InterestRateMode) (r r' : Reserve) : Prop :=
  ∀ n', r'.owed now user mode = .ok n' → ∃ n, r.owed now user mode = .ok n ∧ n' ≤ n

variable {env : Env} {asset user : Address} {r r₁ r' : Reserve} {a : Action}
  {actions : List Action} {now : ℕ} {mode : InterestRateMode}

theorem OwesNoMore.refl (r : Reserve) : OwesNoMore now user mode r r :=
  fun n h => ⟨n, h, le_rfl⟩

theorem OwesNoMore.trans (h₁ : OwesNoMore now user mode r r₁)
    (h₂ : OwesNoMore now user mode r₁ r') : OwesNoMore now user mode r r' := by
  intro n' hn'
  obtain ⟨n₁, hn₁, hle₁⟩ := h₂ n' hn'
  obtain ⟨n, hn, hle⟩ := h₁ n₁ hn₁
  exact ⟨n, hn, hle₁.trans hle⟩

theorem OwesNoMore.of_eq (h : r'.owed now user mode = r.owed now user mode) :
    OwesNoMore now user mode r r' :=
  fun n' hn' => ⟨n', h ▸ hn', le_rfl⟩

theorem OwesNoMore.not_owesMore (h : OwesNoMore now user mode r r') :
    ¬OwesMore now user mode r r' := by
  rintro ⟨n, n', hn, hn', hlt⟩
  obtain ⟨n₁, hn₁, hle⟩ := h n' hn'
  rw [hn, Except.ok.injEq] at hn₁
  omega

theorem owed_congr (ha : r'.data.stableDebtTokenAddress = r.data.stableDebtTokenAddress)
    (hs : StableDebtToken.accrued now r'.stableDebtToken user =
      StableDebtToken.accrued now r.stableDebtToken user)
    (hv : r'.variableDebtToken.ledger.balances user = r.variableDebtToken.ledger.balances user) :
    r'.owed now user mode = r.owed now user mode := by
  cases mode with
  | none => rfl
  | stable => rw [owed, owed, StableDebtToken.balanceOf, StableDebtToken.balanceOf, ha, hs]
  | _ => rw [owed, owed, hv]

theorem mintDebt_owed {m : InterestRateMode} {sender onBehalfOf : Address} {amount : ℕ}
    {first : Bool} (h : LendingPool.mintDebt env r m sender onBehalfOf amount = .ok (r', first))
    (hother : onBehalfOf = user → m ≠ .none ∧ m ≠ mode) : OwesNoMore now user mode r r' := by
  unfold LendingPool.mintDebt at h
  split at h
  case isTrue hstable =>
    obtain ⟨current, supply, newRate, avgRate, al, -, -, -, -, rfl⟩ := StableDebtToken.mint_state h
    cases mode with
    | none => exact .of_eq rfl
    | stable =>
      have hu : user ≠ onBehalfOf := fun he => (hother he.symm).2 hstable
      refine .of_eq (owed_congr rfl (StableDebtToken.accrued_congr ?_ ?_ ?_) rfl)
      · exact write_of_ne _ _ hu
      · exact write_of_ne _ _ hu
      · exact write_of_ne _ _ hu
    | _ => exact .of_eq rfl
  case isFalse hstable =>
    obtain ⟨-, -, -, -, -, al, -, rfl⟩ := VariableDebtToken.mint_ok h
    cases mode with
    | none => exact .of_eq rfl
    | stable => exact .of_eq rfl
    | _ =>
      have hu : user ≠ onBehalfOf := by
        intro he
        obtain ⟨hnone, hvariable⟩ := hother he.symm
        cases m with
        | none => exact hnone rfl
        | stable => exact hstable rfl
        | _ => exact hvariable rfl
      exact .of_eq (owed_congr rfl rfl (by simp [hu]))

theorem burnDebt_owed {m : InterestRateMode} {owner : Address} {amount : ℕ}
    (hstored : env.timestamp < 2 ^ 40) (h : LendingPool.burnDebt env r m owner amount = .ok r') :
    OwesNoMore env.timestamp user mode r r' := by
  unfold LendingPool.burnDebt at h
  split at h
  case isTrue =>
    obtain ⟨current, hcurrent, -, hleft⟩ := StableDebtToken.burn_accrued hstored h
    obtain ⟨_, supply, total, avgRate, -, -, -, -, rfl⟩ := StableDebtToken.burn_state h
    cases mode with
    | none => exact .of_eq rfl
    | stable =>
      by_cases hu : user = owner
      · subst hu
        intro n' hn'
        obtain ⟨ha, hn'⟩ := StableDebtToken.balanceOf_ok.mp hn'
        exact ⟨current, StableDebtToken.balanceOf_ok.mpr ⟨ha, hcurrent⟩,
          (hleft n' hn').trans_le (Nat.sub_le _ _)⟩
      · refine .of_eq (owed_congr rfl (StableDebtToken.accrued_congr ?_ ?_ ?_) rfl)
        · exact write_of_ne _ _ hu
        · exact write_of_ne _ _ hu
        · exact write_of_ne _ _ hu
    | _ => exact .of_eq rfl
  case isFalse =>
    obtain ⟨-, -, -, -, hs, rfl⟩ := VariableDebtToken.burn_ok h
    cases mode with
    | none => exact .of_eq rfl
    | stable => exact .of_eq rfl
    | _ =>
      intro n' hn'
      rw [← Except.ok.inj hn']
      exact ⟨_, rfl, r.variableDebtToken.ledger.debit_balances_le _ _ hs user⟩

def AddsDebt (user : Address) (mode : InterestRateMode) : Action → Prop
  | .mintDebt m _ onBehalfOf _ => onBehalfOf = user ∧ (m = .none ∨ m = mode)
  | _ => False

theorem apply_owed (hstored : env.timestamp < 2 ^ 40) (h : r.apply env asset a = .ok r')
    (ha : ¬AddsDebt user mode a) : OwesNoMore env.timestamp user mode r r' := by
  by_cases hreaches : ReachesDebtTokens a
  · cases a with
    | mintDebt m sender onBehalfOf amount =>
      obtain ⟨⟨r₁, first⟩, h₁, rfl⟩ := map_ok.mp h
      exact mintDebt_owed h₁ fun hu => not_or.mp fun hm => ha ⟨hu, hm⟩
    | burnDebt m owner amount => exact burnDebt_owed hstored h
    | approveStableDelegation delegator delegatee amount =>
      rw [← Except.ok.inj h]
      exact .of_eq (owed_congr rfl rfl rfl)
    | approveVariableDelegation delegator delegatee amount =>
      rw [← Except.ok.inj h]
      exact .of_eq (owed_congr rfl rfl rfl)
    | _ => exact absurd hreaches id
  · obtain ⟨hs, hv⟩ := apply_debtTokens h hreaches
    exact .of_eq (owed_congr (apply_evolves h).stableDebtTokenAddress (by rw [hs]) (by rw [hv]))

theorem run_owed (hstored : env.timestamp < 2 ^ 40) (h : r.run env asset actions = .ok r')
    (ha : ∀ a ∈ actions, ¬AddsDebt user mode a) : OwesNoMore env.timestamp user mode r r' :=
  run_induction h OwesNoMore.refl (fun _ _ _ h₁ h₂ => h₁.trans h₂) fun a hmem _ _ h =>
    apply_owed hstored h (ha a hmem)

/-- The calls that take aTokens from an account. -/
def TakesFrom (user : Address) : Action → Prop
  | .burn owner _ _ => owner = user
  | .move _ sender _ _ => sender = user
  | _ => False

theorem mintDebt_aToken {m : InterestRateMode} {sender onBehalfOf : Address} {amount : ℕ}
    {first : Bool} (h : LendingPool.mintDebt env r m sender onBehalfOf amount = .ok (r', first)) :
    r'.aToken = r.aToken := by
  unfold LendingPool.mintDebt at h
  split at h
  case isTrue =>
    obtain ⟨-, _, _, t, -, -, -, -, rfl, -⟩ := StableDebtToken.mint_ok h
    rfl
  case isFalse =>
    obtain ⟨-, -, -, -, -, _, -, rfl⟩ := VariableDebtToken.mint_ok h
    rfl

theorem apply_deposit (h : r.apply env asset a = .ok r') (ha : ¬TakesFrom user a) :
    r.aToken.ledger.balances user ≤ r'.aToken.ledger.balances user := by
  by_cases heasing : Easing a
  · exact (apply_eases h heasing).balances user
  cases a with
  | burn owner receiver amount =>
    obtain ⟨-, -, -, hs, _, rfl⟩ := AToken.burn_ok h
    have hu : user ≠ owner := fun he => ha he.symm
    simp [hu]
  | move impl sender recipient amount =>
    obtain ⟨⟨r₁, before⟩, h₁, rfl⟩ := map_ok.mp h
    obtain ⟨-, -, -, _, -, -, -, hs, rfl⟩ := AToken.move_ok h₁
    exact Ledger.le_move_balances _ _ _ _ hs fun he => ha he.symm
  | transferUnderlyingTo receiver amount =>
    obtain ⟨-, _, rfl⟩ := AToken.transferUnderlyingTo_ok h
    exact le_rfl
  | mintDebt mode sender onBehalfOf amount =>
    obtain ⟨⟨r₁, first⟩, h₁, rfl⟩ := map_ok.mp h
    rw [mintDebt_aToken h₁]
  | cumulateToLiquidityIndex total premium =>
    obtain ⟨-, _, -, rfl⟩ := ReserveLogic.cumulateToLiquidityIndex_ok h
    exact le_rfl
  | approve owner spender amount =>
    simp only [apply, AToken.approve, bind_ok, exists_unit, pure_ok] at h
    obtain ⟨-, -, -, rfl⟩ := h
    exact le_rfl
  | updateState => exact absurd trivial heasing
  | updateInterestRates => exact absurd trivial heasing
  | pull => exact absurd trivial heasing
  | mint => exact absurd trivial heasing
  | burnDebt => exact absurd trivial heasing
  | _ =>
    rw [← Except.ok.inj h]
    exact le_rfl

theorem run_deposit (h : r.run env asset actions = .ok r')
    (ha : ∀ a ∈ actions, ¬TakesFrom user a) :
    r.aToken.ledger.balances user ≤ r'.aToken.ledger.balances user :=
  @run_induction _ _ _ _
    (fun r r' => r.aToken.ledger.balances user ≤ r'.aToken.ledger.balances user) _ h
    (fun _ => le_rfl) (fun _ _ _ h₁ h₂ => h₁.trans h₂) fun a hmem _ _ h =>
      apply_deposit h (ha a hmem)

theorem reminted_owed {n n' : ℕ} {first : Bool} {r₂ r₃ : Reserve}
    (hstored : env.timestamp < 2 ^ 40)
    (h₂ : LendingPool.burnDebt env r₁ .stable user n = .ok r₂)
    (h₃ : LendingPool.mintDebt env r₂ .stable user user n = .ok (r₃, first))
    (h₄ : ReserveLogic.updateInterestRates env asset 0 0 r₃ = .ok r')
    (hn : StableDebtToken.accrued env.timestamp r₁.stableDebtToken user = .ok n)
    (hn' : r'.owed env.timestamp user .stable = .ok n') : n' = n := by
  rw [LendingPool.burnDebt, if_pos rfl] at h₂
  rw [LendingPool.mintDebt, if_pos rfl] at h₃
  obtain ⟨current, hcurrent, -, hburnt⟩ := StableDebtToken.burn_accrued hstored h₂
  obtain ⟨-, left, _, t, hleft, -, -, -, rfl, hbalances, htimes, -, -⟩ := StableDebtToken.mint_ok h₃
  obtain ⟨rates, rfl⟩ := ReserveLogic.updateInterestRates_ok h₄
  obtain ⟨-, hn'⟩ := StableDebtToken.balanceOf_ok.mp hn'
  have htime : t.timestamps user = env.timestamp := by
    rw [htimes, write_self, uint40_of_lt hstored]
  have hprincipal : n' = t.balances user := StableDebtToken.principal_of_accrued htime hn'
  rw [hprincipal, hbalances, write_self]
  have hzero := hburnt left hleft
  rw [hcurrent, Except.ok.injEq] at hn
  omega

def SpendsAllowance : Action → Prop
  | .mintDebt .. | .approveStableDelegation .. | .approveVariableDelegation .. => True
  | _ => False

theorem borrowAllowances_congr
    (hs : r'.stableDebtToken.borrowAllowances = r.stableDebtToken.borrowAllowances)
    (hv : r'.variableDebtToken.borrowAllowances = r.variableDebtToken.borrowAllowances) :
    r'.borrowAllowances mode = r.borrowAllowances mode := by
  cases mode with
  | none => rfl
  | stable => exact hs
  | _ => exact hv

theorem apply_borrowAllowances (h : r.apply env asset a = .ok r') (ha : ¬SpendsAllowance a) :
    r'.borrowAllowances mode = r.borrowAllowances mode := by
  by_cases hreaches : ReachesDebtTokens a
  · cases a with
    | burnDebt m owner amount =>
      rw [apply, LendingPool.burnDebt] at h
      split at h
      case isTrue =>
        obtain ⟨-, _, t, -, -, rfl, -, -, hallowances⟩ := StableDebtToken.burn_ok h
        exact borrowAllowances_congr hallowances rfl
      case isFalse =>
        obtain ⟨-, -, -, -, hs, rfl⟩ := VariableDebtToken.burn_ok h
        exact borrowAllowances_congr rfl rfl
    | mintDebt => exact absurd trivial ha
    | approveStableDelegation => exact absurd trivial ha
    | approveVariableDelegation => exact absurd trivial ha
    | _ => exact absurd hreaches id
  · obtain ⟨hs, hv⟩ := apply_debtTokens h hreaches
    exact borrowAllowances_congr (by rw [hs]) (by rw [hv])

theorem run_borrowAllowances (h : r.run env asset actions = .ok r')
    (ha : ∀ a ∈ actions, ¬SpendsAllowance a) :
    r'.borrowAllowances mode = r.borrowAllowances mode :=
  @run_induction _ _ _ _ (fun r r' => r'.borrowAllowances mode = r.borrowAllowances mode) _ h
    (fun _ => rfl) (fun _ _ _ h₁ h₂ => h₂.trans h₁) fun a hmem _ _ h =>
      apply_borrowAllowances h (ha a hmem)

theorem mintDebt_spends {m : InterestRateMode} {sender onBehalfOf : Address} {amount : ℕ}
    {first : Bool} (h : LendingPool.mintDebt env r m sender onBehalfOf amount = .ok (r', first))
    (hm : m ≠ .none) (hne : sender ≠ onBehalfOf) (mode : InterestRateMode) :
    r'.borrowAllowances mode onBehalfOf sender + (if mode = m then amount else 0) =
      r.borrowAllowances mode onBehalfOf sender := by
  unfold LendingPool.mintDebt at h
  split at h
  case isTrue hstable =>
    obtain ⟨-, _, al, t, -, hal, -, -, rfl, -, -, -, ht⟩ := StableDebtToken.mint_ok h
    obtain ⟨he, -⟩ | ⟨-, hle, rfl⟩ := spendBorrowAllowance_ok hal
    · exact absurd he hne
    · cases mode <;> simp [borrowAllowances, hstable, ht, write₂_apply, hle]
  case isFalse hstable =>
    obtain ⟨-, -, -, -, -, al, hal, rfl⟩ := VariableDebtToken.mint_ok h
    have hvariable : m = .variable := by
      cases m with
      | none => exact absurd rfl hm
      | stable => exact absurd rfl hstable
      | _ => rfl
    obtain ⟨he, -⟩ | ⟨-, hle, rfl⟩ := spendBorrowAllowance_ok hal
    · exact absurd he hne
    · cases mode <;> simp [borrowAllowances, hvariable, write₂_apply, hle]

end Reserve

variable {env : Env} {w w₁ w' : World} {caller user asset : Address} {l : Address → List Action}
  {actions : List Action} {mode : InterestRateMode}

theorem Effect.deposit (h : Effect env l w w') (hl : ∀ x, ∀ a ∈ l x, ¬Reserve.TakesFrom user a)
    (x : Address) :
    (w.reserves x).aToken.ledger.balances user ≤ (w'.reserves x).aToken.ledger.balances user :=
  Reserve.run_deposit (h.run x) (hl x)

theorem Effect.owed (hstored : env.timestamp < 2 ^ 40) (h : Effect env l w w')
    (hl : ∀ x, ∀ a ∈ l x, ¬Reserve.AddsDebt user mode a) (x : Address) :
    (w.reserves x).OwesNoMore env.timestamp user mode (w'.reserves x) :=
  Reserve.run_owed hstored (h.run x) (hl x)

/-- The account keeps its aTokens and owes no more. -/
structure World.Spares (env : Env) (user : Address) (w w' : World) : Prop where
  deposit : ∀ x,
    (w.reserves x).aToken.ledger.balances user ≤ (w'.reserves x).aToken.ledger.balances user
  debt : ∀ x mode, (w.reserves x).OwesNoMore env.timestamp user mode (w'.reserves x)

namespace World.Spares

def Harms (user : Address) : Action → Prop
  | .burn owner _ _ => owner = user
  | .move _ sender _ _ => sender = user
  | .mintDebt _ _ onBehalfOf _ => onBehalfOf = user
  | _ => False

theorem not_takesFrom {a : Action} (ha : ¬Harms user a) : ¬Reserve.TakesFrom user a := by
  cases a with
  | burn owner receiver amount => exact ha
  | move impl sender recipient amount => exact ha
  | _ => exact id

theorem not_addsDebt {a : Action} (ha : ¬Harms user a) : ¬Reserve.AddsDebt user mode a := by
  cases a with
  | mintDebt m sender onBehalfOf amount => exact fun h => ha h.1
  | _ => exact id

theorem of_effect (hstored : env.timestamp < 2 ^ 40) (h : Effect env l w w')
    (hl : ∀ x, ∀ a ∈ l x, ¬Harms user a) : Spares env user w w' where
  deposit := h.deposit fun x a ha => not_takesFrom (hl x a ha)
  debt x _ := h.owed hstored (fun x a ha => not_addsDebt (hl x a ha)) x

theorem trans (h₁ : Spares env user w w₁) (h₂ : Spares env user w₁ w') : Spares env user w w' where
  deposit x := (h₁.deposit x).trans (h₂.deposit x)
  debt x mode := (h₁.debt x mode).trans (h₂.debt x mode)

theorem of_onAsset (hstored : env.timestamp < 2 ^ 40) (h : Effect env (onAsset asset actions) w w')
    (hl : ∀ a ∈ actions, ¬Harms user a) : Spares env user w w' :=
  of_effect hstored h fun _ a ha => hl a (mem_onAsset.mp ha).2

theorem of_reserves (h : w'.reserves = w.reserves) : Spares env user w w' where
  deposit x := by rw [h]
  debt x _ := by
    rw [h]
    exact .refl _

theorem not_harms_debtActions {owner : Address} {liquidation : CollateralManager.Liquidation}
    {a : Action} (ha : a ∈ CollateralManager.debtActions owner liquidation) : ¬Harms user a := by
  unfold CollateralManager.debtActions at ha
  split_ifs at ha <;> simp at ha
  case pos => rw [ha]; exact id
  case pos => obtain rfl | rfl := ha <;> exact id
  case neg => rw [ha]; exact id

theorem not_harms_seizeActions {impl : PoolImpl} {owner : Address} {amount : ℕ}
    {receiveAToken : Bool} {a : Action} (hne : owner ≠ user)
    (ha : a ∈ CollateralManager.seizeActions impl caller owner amount receiveAToken) :
    ¬Harms user a := by
  unfold CollateralManager.seizeActions at ha
  split_ifs at ha
  case pos =>
    rw [List.mem_singleton.mp ha]
    exact hne
  case neg =>
    simp only [List.mem_cons, List.not_mem_nil, or_false] at ha
    obtain rfl | rfl | rfl := ha
    · exact id
    · exact id
    · exact hne

theorem rebalance (hstored : env.timestamp < 2 ^ 40)
    (h : LendingPool.rebalanceStableBorrowRate env w asset user = .ok w') :
    Spares env user w w' := by
  obtain ⟨_, -, heffect⟩ := LendingPool.rebalanceStableBorrowRate_effect h
  refine ⟨heffect.deposit fun x a ha => ?_, fun x mode => ?_⟩
  · simp only [mem_onAsset, List.mem_cons, List.not_mem_nil, or_false] at ha
    obtain ⟨-, rfl | rfl | rfl | rfl⟩ := ha <;> exact id
  by_cases hstable : mode = .stable ∧ x = asset
  · obtain ⟨rfl, rfl⟩ := hstable
    obtain ⟨n, r₁, r₂, r₃, r₄, first, hn, h₁, h₂, h₃, h₄, rfl⟩ :=
      LendingPool.rebalanceStableBorrowRate_ok h
    have hupdate : (w.reserves x).apply env x (.updateState w.impl) = .ok r₁ := h₁
    have hsame := (Reserve.apply_debtTokens hupdate id).1
    have haccrued := (StableDebtToken.balanceOf_ok.mp hn).2
    rw [← hsame] at haccrued
    rw [World.setReserve_reserves_self]
    exact fun n' hn' => ⟨n, hn, (Reserve.reminted_owed hstored h₂ h₃ h₄ haccrued hn').le⟩
  · refine Reserve.run_owed hstored (heffect.run x) fun a ha => ?_
    simp only [mem_onAsset, List.mem_cons, List.not_mem_nil, or_false] at ha
    obtain ⟨hx, rfl | rfl | rfl | rfl⟩ := ha
    · exact id
    · exact id
    · rintro ⟨-, hmode | hmode⟩
      · cases hmode
      · exact hstable ⟨hmode.symm, hx⟩
    · exact id

theorem liquidationCall {collateralAsset debtAsset owner : Address} {debtToCover : ℕ}
    {receiveAToken : Bool} (hstored : env.timestamp < 2 ^ 40) (hne : owner ≠ user)
    (h : LendingPool.liquidationCall env w caller collateralAsset debtAsset owner debtToCover
      receiveAToken = .ok w') : Spares env user w w' := by
  obtain ⟨liquidation, amount, treasury, -, heffect, htreasury⟩ :=
    LendingPool.liquidationCall_effect h
  refine of_effect hstored heffect fun x a ha => ?_
  simp only [List.mem_append, mem_onAsset, List.mem_cons, List.not_mem_nil, or_false] at ha
  rcases ha with (⟨-, (rfl | ha) | rfl⟩ | ⟨-, ha⟩ | ⟨-, ha⟩) | ⟨-, rfl⟩
  · exact id
  · exact not_harms_debtActions ha
  · exact id
  · exact not_harms_seizeActions hne ha
  · obtain rfl | ⟨recipient, n, rfl⟩ := htreasury
    · simp at ha
    · rw [List.mem_singleton.mp ha]
      exact hne
  · exact id

/-- A call of somebody else can be at the cost of the account in three ways. -/
theorem exec {c : Call} (hc : c.onlyConfigurator = false) (hstored : env.timestamp < 2 ^ 40)
    (hne : caller ≠ user) (h : exec env w caller c = .ok w') : Spares env user w w' ∨
      (∃ asset amount rateMode, c = .borrow asset amount rateMode user) ∨
      (∃ asset recipient amount, c = .transferFrom asset user recipient amount) ∨
      ∃ collateralAsset debtAsset amount receiveAToken,
        c = .liquidationCall collateralAsset debtAsset user amount receiveAToken := by
  rcases exec_makes h with ⟨l, hmakes, heffect⟩ | ⟨asset, proxies, strategy, rfl⟩ | ⟨impl, rfl⟩
  case inr.inl => cases hc
  case inr.inr =>
    rw [← Except.ok.inj h]
    exact .inl (of_reserves rfl)
  cases hmakes with
  | @borrow asset onBehalfOf amount rateMode mode =>
    by_cases hu : onBehalfOf = user
    · exact .inr (.inl ⟨asset, amount, rateMode, by rw [hu]⟩)
    · exact .inl (of_onAsset hstored heffect (by simp [Harms, hu]))
  | @rebalanceStableBorrowRate asset owner n =>
    by_cases hu : owner = user
    · rw [hu] at h
      exact .inl (rebalance hstored h)
    · exact .inl (of_onAsset hstored heffect (by simp [Harms, hu]))
  | @liquidationCall collateralAsset debtAsset owner amount receiveAToken =>
    by_cases hu : owner = user
    · exact .inr (.inr (.inr ⟨_, _, _, _, by rw [hu]⟩))
    · exact .inl (liquidationCall hstored hu h)
  | @transferFrom asset owner recipient amount allowance =>
    by_cases hu : owner = user
    · exact .inr (.inr (.inl ⟨asset, recipient, amount, by rw [hu]⟩))
    · refine .inl (of_effect hstored heffect fun x a ha => ?_)
      simp only [List.mem_append, mem_onAsset, List.mem_singleton] at ha
      obtain ⟨-, rfl⟩ | ⟨-, rfl⟩ := ha
      · exact hu
      · exact id
  | setUserUseReserveAsCollateral => exact .inl (of_effect hstored heffect (by simp))
  | setPause => exact .inl (of_effect hstored heffect (by simp))
  | _ => exact .inl (of_onAsset hstored heffect (by simp [Harms, hne]))

theorem flashLoanTake {loan : LendingPool.FlashLoan} {premiums : List ℕ}
    (hstored : env.timestamp < 2 ^ 40)
    (h : LendingPool.flashLoanTake w loan = .ok (w', premiums)) : Spares env user w w' := by
  simp only [LendingPool.flashLoanTake, bind_ok, exists_unit] at h
  obtain ⟨-, -, -, h⟩ := h
  obtain ⟨l, hl, heffect⟩ := LendingPool.takeAll_effect env h
  refine of_effect hstored heffect fun x a ha => ?_
  obtain ⟨amount, rfl⟩ := hl x a ha
  exact id

end World.Spares

namespace LendingPool

def borrowedAmount (asset : Address) (mode : InterestRateMode) :
    List Address → List ℕ → List ℕ → ℕ
  | x :: assets, amount :: amounts, m :: modes =>
    (if x = asset ∧ InterestRateMode.ofUint m = .ok mode then amount else 0) +
      borrowedAmount asset mode assets amounts modes
  | _, _, _ => 0

theorem executeBorrow_spends {rateMode amount : ℕ} {release : Bool}
    (hstored : env.timestamp < 2 ^ 40) (hne : caller ≠ user)
    (h : executeBorrow env w caller asset user amount rateMode release = .ok w') :
    ∃ m, InterestRateMode.ofUint rateMode = .ok m ∧ m ≠ .none ∧ amount ≠ 0 ∧
      ∀ x mode, (w'.reserves x).borrowAllowances mode user caller +
          (if asset = x ∧ m = mode then amount else 0) =
          (w.reserves x).borrowAllowances mode user caller ∧
        (¬(asset = x ∧ m = mode) →
          (w.reserves x).OwesNoMore env.timestamp user mode (w'.reserves x)) := by
  obtain ⟨value, -, -, -, -, -, -, -, -, hvalid, -⟩ := executeBorrow_ok h
  obtain ⟨m, hmode, heffect⟩ := executeBorrow_effect h
  simp only [ValidationLogic.validateBorrow, bind_ok, exists_unit, require_ok] at hvalid
  obtain ⟨-, -, hamount, -, hselected, -⟩ := hvalid
  have hm : m ≠ .none := by
    rintro rfl
    obtain rfl | rfl := hselected <;> cases hmode
  refine ⟨m, hmode, hm, hamount, fun x mode => ⟨?_, fun hother => ?_⟩⟩
  · have hrun := heffect.run x
    by_cases hx : asset = x
    · subst hx
      simp only [onAsset, if_true, borrowActions, List.cons_append, List.nil_append, Reserve.run,
        bind_ok] at hrun
      obtain ⟨r₁, h₁, r₂, h₂, r₃, h₃, h₄⟩ := hrun
      obtain ⟨⟨_, first⟩, hmint, rfl⟩ := map_ok.mp h₂
      have hspent := Reserve.mintDebt_spends hmint hm hne mode
      rw [Reserve.apply_borrowAllowances h₁ id] at hspent
      rw [Reserve.run_borrowAllowances h₄, Reserve.apply_borrowAllowances h₃ id, ← hspent]
      · simp [eq_comm]
      · cases release <;> simp [Reserve.SpendsAllowance]
    · rw [onAsset, if_neg (Ne.symm hx)] at hrun
      rw [← Except.ok.inj hrun, if_neg (fun he => hx he.1), Nat.add_zero]
  · refine Reserve.run_owed hstored (heffect.run x) fun a ha => ?_
    obtain ⟨hx, ha⟩ := mem_onAsset.mp ha
    simp only [borrowActions, List.mem_append, List.mem_cons, List.not_mem_nil, or_false] at ha
    rcases ha with (rfl | rfl | rfl) | ha
    · exact id
    · rintro ⟨-, hnone | hmode⟩
      · exact hm hnone
      · exact hother ⟨hx.symm, hmode⟩
    · exact id
    · split at ha
      case isTrue =>
        rw [List.mem_singleton.mp ha]
        exact id
      case isFalse => simp at ha

theorem settleOne_spends {loan : FlashLoan} {amount premium m : ℕ}
    (hstored : env.timestamp < 2 ^ 40) (hne : caller ≠ user) (hu : loan.onBehalfOf = user)
    (h : settleOne env w caller loan asset amount premium m = .ok w') (x : Address)
    {mode : InterestRateMode} (hmode : mode ≠ .none) :
    (w'.reserves x).borrowAllowances mode user caller +
        (if asset = x ∧ InterestRateMode.ofUint m = .ok mode then amount else 0) =
        (w.reserves x).borrowAllowances mode user caller ∧
      ((if asset = x ∧ InterestRateMode.ofUint m = .ok mode then amount else 0) = 0 →
        (w.reserves x).OwesNoMore env.timestamp user mode (w'.reserves x)) := by
  simp only [settleOne, bind_ok] at h
  obtain ⟨returned, -, m', hm', h⟩ := h
  simp only [hm', Except.ok.injEq]
  split at h
  case isTrue hnone =>
    obtain ⟨total, heffect⟩ := returnOne_effect h
    have hreturned : ∀ a ∈ onAsset asset [.updateState w.impl,
        .cumulateToLiquidityIndex total premium, .updateInterestRates returned 0,
        .pull w.self loan.receiverAddress returned] x,
        ¬Reserve.SpendsAllowance a ∧ ¬Reserve.AddsDebt user mode a := by
      intro a ha
      simp only [mem_onAsset, List.mem_cons, List.not_mem_nil, or_false] at ha
      obtain ⟨-, rfl | rfl | rfl | rfl⟩ := ha <;> exact ⟨id, id⟩
    rw [if_neg fun he => hmode (he.2.symm.trans hnone), Nat.add_zero]
    have hkept : (w'.reserves x).borrowAllowances mode = (w.reserves x).borrowAllowances mode :=
      Reserve.run_borrowAllowances (heffect.run x) fun a ha => (hreturned a ha).1
    exact ⟨congrFun₂ hkept user caller,
      fun _ => Reserve.run_owed hstored (heffect.run x) fun a ha => (hreturned a ha).2⟩
  case isFalse =>
    rw [hu] at h
    obtain ⟨m₁, hm₁, -, hamount, hspends⟩ := executeBorrow_spends hstored hne h
    obtain rfl : m' = m₁ := Except.ok.inj (hm'.symm.trans hm₁)
    obtain ⟨hspent, hnone⟩ := hspends x mode
    exact ⟨hspent, fun hzero => hnone fun he => hamount (by rwa [if_pos he] at hzero)⟩

theorem settleAll_spends {loan : FlashLoan} (hstored : env.timestamp < 2 ^ 40)
    (hne : caller ≠ user) (hu : loan.onBehalfOf = user) {assets : List Address}
    {amounts premiums modes : List ℕ}
    (h : settleAll env caller loan w assets amounts premiums modes = .ok w') (x : Address)
    {mode : InterestRateMode} (hmode : mode ≠ .none) :
    (w'.reserves x).borrowAllowances mode user caller + borrowedAmount x mode assets amounts modes =
        (w.reserves x).borrowAllowances mode user caller ∧
      (borrowedAmount x mode assets amounts modes = 0 →
        (w.reserves x).OwesNoMore env.timestamp user mode (w'.reserves x)) := by
  induction assets generalizing w amounts premiums modes with
  | nil =>
    obtain rfl : w = w' := by simpa [settleAll] using h
    exact ⟨rfl, fun _ => .refl _⟩
  | cons asset assets ih =>
    obtain ⟨amount, amounts', premium, premiums', m, modes', w₁, rfl, rfl, rfl, h₁, h₂⟩ :=
      settleAll_cons_ok h
    obtain ⟨hfirst, hfirstNone⟩ := settleOne_spends hstored hne hu h₁ x hmode
    obtain ⟨hrest, hrestNone⟩ := ih h₂
    rw [borrowedAmount]
    refine ⟨by omega, fun hzero => ?_⟩
    obtain ⟨hzero₁, hzero₂⟩ := Nat.add_eq_zero_iff.mp hzero
    exact (hfirstNone hzero₁).trans (hrestNone hzero₂)

theorem settleOne_spares (user : Address) {loan : FlashLoan} {amount premium m : ℕ}
    (hstored : env.timestamp < 2 ^ 40)
    (h : settleOne env w caller loan asset amount premium m = .ok w') :
    (∀ x, (w.reserves x).aToken.ledger.balances user ≤
        (w'.reserves x).aToken.ledger.balances user) ∧
      (loan.onBehalfOf ≠ user → World.Spares env user w w') := by
  rcases settleOne_ok h with h | h
  · obtain ⟨total, heffect⟩ := returnOne_effect h
    have hspares : ∀ u, World.Spares env u w w' := fun u =>
      World.Spares.of_onAsset hstored heffect (by simp [World.Spares.Harms])
    exact ⟨(hspares user).deposit, fun _ => hspares user⟩
  · obtain ⟨mode, -, heffect⟩ := executeBorrow_effect h
    refine ⟨heffect.deposit fun x a ha => ?_, fun hu => ?_⟩
    · obtain ⟨-, ha⟩ := mem_onAsset.mp ha
      simp only [borrowActions, Bool.false_eq_true, if_false, List.append_nil, List.mem_cons,
        List.not_mem_nil, or_false] at ha
      obtain rfl | rfl | rfl := ha <;> exact id
    · exact World.Spares.of_onAsset hstored heffect
        (by simp [borrowActions, World.Spares.Harms, hu])

theorem settleAll_spares (user : Address) {loan : FlashLoan} (hstored : env.timestamp < 2 ^ 40)
    {assets : List Address} {amounts premiums modes : List ℕ}
    (h : settleAll env caller loan w assets amounts premiums modes = .ok w') :
    (∀ x, (w.reserves x).aToken.ledger.balances user ≤
        (w'.reserves x).aToken.ledger.balances user) ∧
      (loan.onBehalfOf ≠ user → World.Spares env user w w') := by
  refine settleAll_relates (R := fun w w' =>
    (∀ x, (w.reserves x).aToken.ledger.balances user ≤
        (w'.reserves x).aToken.ledger.balances user) ∧
      (loan.onBehalfOf ≠ user → World.Spares env user w w'))
    (fun _ => ⟨fun _ => le_rfl, fun _ => .of_reserves rfl⟩) ?_ ?_ h
  · rintro w w₁ w' ⟨hfirst, hfirstSpares⟩ ⟨hrest, hrestSpares⟩
    exact ⟨fun x => (hfirst x).trans (hrest x),
      fun hu => (hfirstSpares hu).trans (hrestSpares hu)⟩
  · exact fun _ _ _ _ _ _ hone => settleOne_spares user hstored hone

end LendingPool

/-- What accounts do with the pool and its tokens. A flash loan is two operations, before and
after the receiver runs, whose calls are operations of their own callers. -/
inductive Operation
  | call (c : Call) (notConfigurator : c.onlyConfigurator = false)
  | flashLoanTake (loan : LendingPool.FlashLoan)
  | flashLoanSettle (loan : LendingPool.FlashLoan) (premiums : List ℕ)

namespace Operation

def run (env : Env) (w : World) (caller : Address) : Operation → Tx World
  | .call c _ => exec env w caller c
  | .flashLoanTake loan => Prod.fst <$> LendingPool.flashLoanTake w loan
  | .flashLoanSettle loan premiums => LendingPool.flashLoanSettle env w caller loan premiums

/-- A transfer that takes its whole amount off the allowance of the account for the caller, or
a liquidation of the account while its health factor is too low. -/
def MayTakeDeposit (env : Env) (w w' : World) (caller user asset : Address) : Operation → Prop
  | .call (.transferFrom a owner _ amount) _ => a = asset ∧ owner = user ∧
      (w'.reserves asset).aToken.allowances user caller + amount =
        (w.reserves asset).aToken.allowances user caller
  | .call (.liquidationCall collateralAsset _ owner _ _) _ => collateralAsset = asset ∧
      owner = user ∧ ∃ data, GenericLogic.calculateUserAccountData env w user = .ok data ∧
        data.healthFactor < GenericLogic.healthFactorLiquidationThreshold
  | _ => False

/-- A borrow or a flash loan on behalf of the account that takes its whole amount off the
borrow allowance of the account for the caller, on the debt token of the mode. -/
def MayAddDebt (w w' : World) (caller user asset : Address) (mode : InterestRateMode) :
    Operation → Prop
  | .call (.borrow a amount rateMode onBehalfOf) _ => a = asset ∧ onBehalfOf = user ∧
      InterestRateMode.ofUint rateMode = .ok mode ∧
      (w'.reserves asset).borrowAllowances mode user caller + amount =
        (w.reserves asset).borrowAllowances mode user caller
  | .flashLoanSettle loan _ => loan.onBehalfOf = user ∧
      0 < LendingPool.borrowedAmount asset mode loan.assets loan.amounts loan.modes ∧
      (w'.reserves asset).borrowAllowances mode user caller +
          LendingPool.borrowedAmount asset mode loan.assets loan.amounts loan.modes =
        (w.reserves asset).borrowAllowances mode user caller
  | _ => False

/-- The position of an account in a reserve gets worse only where the account allowed it, or
where it may be liquidated. -/
structure SpendsAllowed (op : Operation) (env : Env) (w w' : World)
    (caller user asset : Address) : Prop where
  deposit : (w'.reserves asset).aToken.ledger.balances user <
    (w.reserves asset).aToken.ledger.balances user → op.MayTakeDeposit env w w' caller user asset
  debt : ∀ mode, (w.reserves asset).OwesMore env.timestamp user mode (w'.reserves asset) →
    op.MayAddDebt w w' caller user asset mode

variable {op : Operation}

theorem SpendsAllowed.of_spares (h : World.Spares env user w w') :
    op.SpendsAllowed env w w' caller user asset where
  deposit hlt := absurd (h.deposit asset) hlt.not_ge
  debt mode hmore := absurd hmore (h.debt asset mode).not_owesMore

theorem not_addsDebt_seizeActions {impl : PoolImpl} {owner sender : Address} {amount : ℕ}
    {receiveAToken : Bool} {a : Action}
    (ha : a ∈ CollateralManager.seizeActions impl sender owner amount receiveAToken) :
    ¬Reserve.AddsDebt user mode a := by
  unfold CollateralManager.seizeActions at ha
  split_ifs at ha
  case pos =>
    rw [List.mem_singleton.mp ha]
    exact id
  case neg =>
    simp only [List.mem_cons, List.not_mem_nil, or_false] at ha
    obtain rfl | rfl | rfl := ha <;> exact id

theorem borrow_spendsAllowed {x : Address} {amount rateMode : ℕ}
    (hc : (Call.borrow x amount rateMode user).onlyConfigurator = false)
    (hstored : env.timestamp < 2 ^ 40) (hne : caller ≠ user)
    (h : LendingPool.borrow env w caller x amount rateMode user = .ok w') :
    (Operation.call (.borrow x amount rateMode user) hc).SpendsAllowed env w w' caller user
      asset := by
  have hborrow := LendingPool.borrow_ok h
  obtain ⟨m, -, heffect⟩ := LendingPool.executeBorrow_effect hborrow
  constructor
  case deposit =>
    refine fun hlt => absurd (heffect.deposit (fun y a ha => ?_) asset) hlt.not_ge
    obtain ⟨-, ha⟩ := mem_onAsset.mp ha
    simp only [LendingPool.borrowActions, if_true, List.cons_append, List.nil_append,
      List.mem_cons, List.not_mem_nil, or_false] at ha
    obtain rfl | rfl | rfl | rfl := ha <;> exact id
  case debt =>
    intro mode hmore
    obtain ⟨m, hm, -, -, hspends⟩ := LendingPool.executeBorrow_spends hstored hne hborrow
    obtain ⟨hspent, hother⟩ := hspends asset mode
    have hopened : x = asset ∧ m = mode := by
      by_contra hnot
      exact (hother hnot).not_owesMore hmore
    rw [if_pos hopened] at hspent
    exact ⟨hopened.1, rfl, hopened.2 ▸ hm, hspent⟩

theorem transferFrom_spendsAllowed {x recipient : Address} {amount : ℕ}
    (hc : (Call.transferFrom x user recipient amount).onlyConfigurator = false)
    (hstored : env.timestamp < 2 ^ 40)
    (h : AToken.transferFrom env w caller x user recipient amount = .ok w') :
    (Operation.call (.transferFrom x user recipient amount) hc).SpendsAllowed env w w' caller user
      asset := by
  obtain ⟨allowance, heffect⟩ := AToken.transferFrom_effect h
  constructor
  case deposit =>
    intro hlt
    have hx : x = asset := by
      by_contra hnot
      refine absurd (Reserve.run_deposit (heffect.run asset) fun a ha => ?_) hlt.not_ge
      simp [onAsset, Ne.symm hnot] at ha
    subst hx
    obtain ⟨w₁, r, h₁, hle, rfl, rfl⟩ := AToken.transferFrom_ok h
    rw [AToken.transfer_allowances h₁] at hle
    refine ⟨rfl, rfl, ?_⟩
    simp only [World.setReserve_reserves_self, AToken.transfer_allowances h₁, write₂_apply,
      and_self, if_true]
    exact Nat.sub_add_cancel hle
  case debt =>
    refine fun mode hmore =>
      absurd hmore (heffect.owed hstored (fun y a ha => ?_) asset).not_owesMore
    simp only [List.mem_append, mem_onAsset, List.mem_singleton] at ha
    obtain ⟨-, rfl⟩ | ⟨-, rfl⟩ := ha <;> exact id

theorem liquidationCall_spendsAllowed {collateralAsset debtAsset : Address} {amount : ℕ}
    {receiveAToken : Bool}
    (hc : (Call.liquidationCall collateralAsset debtAsset user amount
      receiveAToken).onlyConfigurator = false) (hstored : env.timestamp < 2 ^ 40)
    (h : LendingPool.liquidationCall env w caller collateralAsset debtAsset user amount
      receiveAToken = .ok w') :
    (Operation.call (.liquidationCall collateralAsset debtAsset user amount receiveAToken)
      hc).SpendsAllowed env w w' caller user asset := by
  obtain ⟨l, n, treasury, hvalidated, heffect, htreasury⟩ := LendingPool.liquidationCall_effect h
  constructor
  case deposit =>
    intro hlt
    refine ⟨?_, rfl, CollateralManager.validated_healthFactor hvalidated⟩
    by_contra hnot
    refine absurd (Reserve.run_deposit (heffect.run asset) fun a ha => ?_) hlt.not_ge
    simp only [List.mem_append, mem_onAsset, List.mem_cons, List.not_mem_nil, or_false] at ha
    rcases ha with (⟨-, (rfl | ha) | rfl⟩ | ⟨hx, -⟩ | ⟨hx, -⟩) | ⟨-, rfl⟩
    · exact id
    · exact World.Spares.not_takesFrom (World.Spares.not_harms_debtActions ha)
    · exact id
    · exact absurd hx.symm hnot
    · exact absurd hx.symm hnot
    · exact id
  case debt =>
    refine fun mode hmore => absurd hmore
      (heffect.owed hstored (fun y a ha => ?_) asset).not_owesMore
    simp only [List.mem_append, mem_onAsset, List.mem_cons, List.not_mem_nil, or_false] at ha
    rcases ha with (⟨-, (rfl | ha) | rfl⟩ | ⟨-, ha⟩ | ⟨-, ha⟩) | ⟨-, rfl⟩
    · exact id
    · exact World.Spares.not_addsDebt (World.Spares.not_harms_debtActions ha)
    · exact id
    · exact not_addsDebt_seizeActions ha
    · obtain rfl | ⟨recipient, m, rfl⟩ := htreasury
      · simp at ha
      · rw [List.mem_singleton.mp ha]
        exact id
    · exact id

theorem flashLoanSettle_spendsAllowed {loan : LendingPool.FlashLoan} {premiums : List ℕ}
    (hstored : env.timestamp < 2 ^ 40) (hne : caller ≠ user)
    (h : LendingPool.flashLoanSettle env w caller loan premiums = .ok w') :
    (Operation.flashLoanSettle loan premiums).SpendsAllowed env w w' caller user asset := by
  obtain ⟨hdeposit, hspares⟩ := LendingPool.settleAll_spares user hstored h
  by_cases hu : loan.onBehalfOf = user
  · refine ⟨fun hlt => absurd (hdeposit asset) hlt.not_ge, fun mode hmore => ?_⟩
    have hmode : mode ≠ .none := by
      rintro rfl
      exact absurd hmore (Reserve.OwesNoMore.of_eq rfl).not_owesMore
    obtain ⟨hspent, hnone⟩ := LendingPool.settleAll_spends hstored hne hu h asset hmode
    refine ⟨hu, Nat.pos_of_ne_zero fun hzero => ?_, hspent⟩
    exact (hnone hzero).not_owesMore hmore
  · exact .of_spares (hspares hu)

end Operation

open Operation in
/-- Whatever somebody else does, the position of an account changes for the worse only as the
account allowed, at any time that fits its field. -/
theorem position_spent (op : Operation) (hstored : env.timestamp < 2 ^ 40)
    (hne : caller ≠ user) (h : op.run env w caller = .ok w') (asset : Address) :
    op.SpendsAllowed env w w' caller user asset := by
  cases op with
  | call c hc =>
    obtain hspares | ⟨x, amount, rateMode, rfl⟩ | ⟨x, recipient, amount, rfl⟩ |
      ⟨collateralAsset, debtAsset, amount, receiveAToken, rfl⟩ :=
      World.Spares.exec hc hstored hne h
    · exact .of_spares hspares
    · exact borrow_spendsAllowed hc hstored hne h
    · exact transferFrom_spendsAllowed hc hstored h
    · exact liquidationCall_spendsAllowed hc hstored h
  | flashLoanTake loan =>
    obtain ⟨⟨w₁, premiums⟩, h₁, rfl⟩ := map_ok.mp h
    exact .of_spares (World.Spares.flashLoanTake hstored h₁)
  | flashLoanSettle loan premiums => exact flashLoanSettle_spendsAllowed hstored hne h

def delegation : List Transaction :=
  sampleListing 40 1 9 ++ [⟨sampleEnv 40, 12, .deposit 1 500 12⟩,
    ⟨sampleEnv 40, 12, .approveVariableDelegation 1 11 100⟩]

theorem delegation_borrow : (do
    let w ← runAll sampleStart delegation
    let w' ← exec (sampleEnv 40) w 11 (.borrow 1 60 2 12)
    return ((w'.reserves 1).variableDebtToken.ledger.balances 12,
      (w'.reserves 1).variableDebtToken.borrowAllowances 12 11)) = .ok (60, 40) := by
  decide +kernel

theorem position_spent_delegation : ∃ w w', Reachable ⟨w, 40, []⟩ ∧
    exec (sampleEnv 40) w 11 (.borrow 1 60 2 12) = .ok w' ∧
    (w'.reserves 1).variableDebtToken.ledger.balances 12 = 60 ∧
    (Operation.call (.borrow 1 60 2 12) rfl).SpendsAllowed (sampleEnv 40) w w' 11 12 1 := by
  obtain ⟨w, hw, hrest⟩ := bind_ok.mp delegation_borrow
  obtain ⟨w', h, hrest⟩ := bind_ok.mp hrest
  simp only [pure_ok, Prod.mk.injEq] at hrest
  refine ⟨w, w', Reachable.sample (by simp [delegation, sampleListing, sampleEnv]) hw, h, hrest.1,
    ?_⟩
  exact position_spent (.call (.borrow 1 60 2 12) rfl) (by norm_num [sampleEnv]) (by decide) h 1

/-- The time of a repayment no longer fits its field, and the debt accrues from the start. -/
theorem lateLoan_repayment : (do
    let w ← runAll sampleStart lateLoan
    let owed ← StableDebtToken.balanceOf (2 ^ 40) (w.reserves 1) 12
    let w' ← exec (sampleEnv (2 ^ 40)) w 11 (.repay 1 1 1 12)
    let left ← StableDebtToken.balanceOf (2 ^ 40) (w'.reserves 1) 12
    return (owed, left)) = .ok (200, 176646972088) := by
  decide +kernel

theorem late_repayment_adds_debt : ¬ ∀ (m : Machine) (env : Env) (op : Operation)
    (caller user asset : Address) (w' : World), Reachable m → env.timestamp = m.time →
    caller ≠ user → op.run env m.world caller = .ok w' →
    op.SpendsAllowed env m.world w' caller user asset := by
  intro hspent
  obtain ⟨w, hw, hrest⟩ := bind_ok.mp lateLoan_repayment
  obtain ⟨owed, howed, hrest⟩ := bind_ok.mp hrest
  obtain ⟨w', h, hrest⟩ := bind_ok.mp hrest
  obtain ⟨left, hleft, hrest⟩ := bind_ok.mp hrest
  simp only [pure_ok, Prod.mk.injEq] at hrest
  obtain ⟨rfl, rfl⟩ := hrest
  have hstart : Reachable ⟨w, 2 ^ 40 - 1, []⟩ :=
    Reachable.sample (by simp [lateLoan, sampleListing, sampleEnv]) hw
  have htick : Reachable ⟨w, 2 ^ 40, []⟩ := .step hstart (.tick _ (Nat.sub_le _ _) rfl)
  have hspends := hspent _ (sampleEnv (2 ^ 40)) (.call (.repay 1 1 1 12) rfl) 11 12 1 w' htick rfl
    (by decide) h
  exact hspends.debt .stable ⟨_, _, howed, hleft, by decide⟩

end Moola
