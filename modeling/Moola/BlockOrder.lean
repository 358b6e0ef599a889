import Mathlib.Data.List.Perm.Basic
import Moola.NetValue
import Moola.Rates

/-! The deposits of one block in any order. Seen as books that add up shares, funds and
allowances, deposits commute; the state after any order is read off the books, the rates included,
which the last deposit sets for the liquidity that all of them leave. -/

namespace Moola

open Guard WadRayMath ReserveLogic

structure Deposit where
  sender : Address
  asset : Address
  amount : ℕ
  onBehalfOf : Address

def Deposit.transaction (env : Env) (d : Deposit) : Transaction :=
  ⟨env, d.sender, .deposit d.asset d.amount d.onBehalfOf⟩

namespace UserConfigurationMap

def withCollateral (c : UserConfigurationMap) (id : ℕ) : UserConfigurationMap :=
  c.writeBit (id * 2 + 1) true

theorem withCollateral_data (c : UserConfigurationMap) (id : ℕ) :
    (c.withCollateral id).data = c.data ||| 1#256 <<< (id * 2 + 1) := by
  rw [withCollateral, writeBit]
  apply BitVec.eq_of_getLsbD_eq
  intro k hk
  simp only [if_true, BitVec.getLsbD_or, BitVec.getLsbD_and, BitVec.getLsbD_not, hk, decide_true,
    Bool.true_and]
  generalize (1#256 <<< (id * 2 + 1)).getLsbD k = bit
  cases c.data.getLsbD k <;> cases bit <;> rfl

theorem withCollateral_comm (c : UserConfigurationMap) (i j : ℕ) :
    (c.withCollateral i).withCollateral j = (c.withCollateral j).withCollateral i := by
  have h : ((c.withCollateral i).withCollateral j).data =
      ((c.withCollateral j).withCollateral i).data := by
    simp only [withCollateral_data, BitVec.or_assoc]
    rw [BitVec.or_comm (1#256 <<< (i * 2 + 1))]
  exact congrArg UserConfigurationMap.mk h

theorem withCollateral_self (c : UserConfigurationMap) (i : ℕ) :
    (c.withCollateral i).withCollateral i = c.withCollateral i := by
  have h : ((c.withCollateral i).withCollateral i).data = (c.withCollateral i).data := by
    simp only [withCollateral_data, BitVec.or_assoc, BitVec.or_self]
  exact congrArg UserConfigurationMap.mk h

end UserConfigurationMap

/-- What deposits change: for each asset the scaled aTokens, the underlying tokens and their
allowances, and the flags of the users. -/
structure Books where
  shares : Address → Ledger Address
  funds : Address → Address → ℤ
  allowances : Address → Address → Address → ℤ
  flags : Address → UserConfigurationMap

namespace Books

variable (base : Address → Reserve) (self : Address)

def add (s : Books) (d : Deposit) : Books where
  shares := write s.shares d.asset ((s.shares d.asset).credit d.onBehalfOf
    (rayQuotient d.amount (base d.asset).data.liquidityIndex))
  funds x a := s.funds x a +
    (if x = d.asset ∧ a = (base d.asset).data.aTokenAddress then (d.amount : ℤ) else 0) -
    if x = d.asset ∧ a = d.sender then (d.amount : ℤ) else 0
  allowances x owner spender := s.allowances x owner spender -
    if x = d.asset ∧ owner = d.sender ∧ spender = self then (d.amount : ℤ) else 0
  flags u :=
    if u = d.onBehalfOf ∧ (s.shares d.asset).balances u = 0 then
      (s.flags u).withCollateral (base d.asset).data.id
    else s.flags u

variable {base self}

theorem credit_comm (l : Ledger Address) (a b : Address) (n m : ℕ) :
    (l.credit a n).credit b m = (l.credit b m).credit a n := by
  have hbalances : ((l.credit a n).credit b m).balances = ((l.credit b m).credit a n).balances := by
    funext x
    simp only [Ledger.credit_balances]
    split_ifs <;> omega
  have hsupply : ((l.credit a n).credit b m).totalSupply =
      ((l.credit b m).credit a n).totalSupply := by
    simp only [Ledger.credit_totalSupply]
    omega
  generalize (l.credit a n).credit b m = l₁ at *
  generalize (l.credit b m).credit a n = l₂ at *
  cases l₁
  cases l₂
  subst hbalances hsupply
  rfl

theorem add_shares_comm (s : Books) (d e : Deposit) :
    ((s.add base self d).add base self e).shares =
      ((s.add base self e).add base self d).shares := by
  funext x
  simp only [add, write_apply]
  by_cases hde : d.asset = e.asset
  · simp only [hde, if_true]
    split
    case isTrue => exact credit_comm _ _ _ _ _
    case isFalse => rfl
  · simp only [hde, Ne.symm hde, if_false]
    split_ifs with h₁ h₂
    · exact absurd (h₂.symm.trans h₁) hde
    · rfl
    · rfl
    · rfl

def First (s : Books) (d : Deposit) (u : Address) : Prop :=
  u = d.onBehalfOf ∧ (s.shares d.asset).balances u = 0

instance (s : Books) (d : Deposit) (u : Address) : Decidable (s.First d u) := by
  unfold First
  infer_instance

/-- A deposit after another sets the flag as if it came alone: either it is still the first, or the
other one was and has set the same flag. -/
theorem add_add_flags (s : Books) (d e : Deposit) (u : Address) :
    ((s.add base self d).add base self e).flags u =
      if s.First e u then ((s.add base self d).flags u).withCollateral (base e.asset).data.id
      else (s.add base self d).flags u := by
  have hafter : (s.add base self d).First e u ↔ s.First e u ∧
      ¬(e.asset = d.asset ∧ u = d.onBehalfOf ∧
        rayQuotient d.amount (base d.asset).data.liquidityIndex ≠ 0) := by
    simp only [First, add, write_apply]
    split
    case isTrue he =>
      simp only [he, Ledger.credit_balances]
      split <;> grind
    case isFalse he => simp [he]
  change (if (s.add base self d).First e u then _ else _) = _
  by_cases hfirst : s.First e u
  · by_cases hsame : e.asset = d.asset ∧ u = d.onBehalfOf ∧
        rayQuotient d.amount (base d.asset).data.liquidityIndex ≠ 0
    · obtain ⟨hasset, hu, -⟩ := id hsame
      have hd : u = d.onBehalfOf ∧ (s.shares d.asset).balances u = 0 := ⟨hu, hasset ▸ hfirst.2⟩
      have hflags : (s.add base self d).flags u =
          (s.flags u).withCollateral (base d.asset).data.id := if_pos hd
      rw [if_neg (fun h => (hafter.mp h).2 hsame), if_pos hfirst, hflags, hasset,
        UserConfigurationMap.withCollateral_self]
    · rw [if_pos (hafter.mpr ⟨hfirst, hsame⟩), if_pos hfirst]
  · rw [if_neg (fun h => hfirst (hafter.mp h).1), if_neg hfirst]

theorem add_flags_comm (s : Books) (d e : Deposit) :
    ((s.add base self d).add base self e).flags = ((s.add base self e).add base self d).flags := by
  funext u
  rw [add_add_flags, add_add_flags]
  change (if s.First e u then (if s.First d u then _ else _ : UserConfigurationMap).withCollateral _
    else if s.First d u then _ else _) = if s.First d u then
      (if s.First e u then _ else _ : UserConfigurationMap).withCollateral _
        else if s.First e u then _ else _
  split_ifs
  · exact UserConfigurationMap.withCollateral_comm _ _ _
  · rfl
  · rfl
  · rfl

instance : RightCommutative (add base self) where
  right_comm s d e := by
    have hfunds : ((s.add base self d).add base self e).funds =
        ((s.add base self e).add base self d).funds := by
      funext x a
      simp only [add]
      ring
    have hallowances : ((s.add base self d).add base self e).allowances =
        ((s.add base self e).add base self d).allowances := by
      funext x a b
      simp only [add]
      ring
    have hshares : ((s.add base self d).add base self e).shares =
        ((s.add base self e).add base self d).shares := add_shares_comm s d e
    have hflags : ((s.add base self d).add base self e).flags =
        ((s.add base self e).add base self d).flags := add_flags_comm s d e
    generalize (s.add base self d).add base self e = s₁ at *
    generalize (s.add base self e).add base self d = s₂ at *
    cases s₁
    cases s₂
    subst hfunds hallowances hshares hflags
    rfl

end Books

theorem ERC20.transferFrom_books {t t' : ERC20} {spender sender recipient : Address} {n : ℕ}
    (h : t.transferFrom spender sender recipient n = .ok t') :
    t'.ledger.totalSupply = t.ledger.totalSupply ∧
      (∀ a, (t'.ledger.balances a : ℤ) =
        t.ledger.balances a + (if a = recipient then (n : ℤ) else 0) -
          if a = sender then (n : ℤ) else 0) ∧
      ∀ owner p, (t'.allowances owner p : ℤ) =
        t.allowances owner p - if owner = sender ∧ p = spender then (n : ℤ) else 0 := by
  simp only [transferFrom, bind_ok, exists_unit, require_ok, pure_ok] at h
  obtain ⟨t₁, h₁, hle, rfl⟩ := h
  obtain ⟨-, -, hn, rfl⟩ := transfer_ok.mp h₁
  refine ⟨Ledger.move_totalSupply _ _ _ _ _, fun a => ?_, fun owner p => ?_⟩
  · have hbalance : n ≤ t.ledger.balances sender := hn
    simp only [Ledger.move_balances]
    split_ifs with hs hr hr
    all_goals subst_vars; omega
  · have hallowance : n ≤ t.allowances sender spender := hle
    simp only [write₂_apply]
    split_ifs with hpay
    · obtain ⟨rfl, rfl⟩ := hpay
      omega
    · omega

def Reserve.updated (env : Env) (impl : PoolImpl) (r : Reserve) : Reserve :=
  match LendingPool.updateState impl env.timestamp r with
  | .ok r' => r'
  | .error _ => r

def World.updated (env : Env) (w : World) (x : Address) : Reserve :=
  (w.reserves x).updated env w.impl

namespace Reserve

variable {env : Env} {impl : PoolImpl} {r r' base : Reserve} {s : Books} {x : Address}

theorem updated_of_ok (h : LendingPool.updateState impl env.timestamp r = .ok r') :
    r.updated env impl = r' := by
  rw [updated, h]

theorem UpdatedIn.updated (hr : r.UpdatedIn env.timestamp) : r.updated env impl = r := by
  unfold Reserve.updated
  split
  case h_1 r' h => exact updateState_updated hr h
  case h_2 => rfl

/-- The reserve is its start of the block with the books written down, whatever its rates. -/
structure Booked (base : Reserve) (s : Books) (x : Address) (r : Reserve) : Prop where
  data : ∃ rates, r.data = base.data.withRates rates
  aToken : r.aToken = { base.aToken with ledger := s.shares x }
  stableDebtToken : r.stableDebtToken = base.stableDebtToken
  variableDebtToken : r.variableDebtToken = base.variableDebtToken
  supply : r.underlying.ledger.totalSupply = base.underlying.ledger.totalSupply
  funds : ∀ a, (r.underlying.ledger.balances a : ℤ) = s.funds x a
  allowances : ∀ owner spender,
    (r.underlying.allowances owner spender : ℤ) = s.allowances x owner spender

namespace Booked

theorem aTokenAddress (h : Booked base s x r) :
    r.data.aTokenAddress = base.data.aTokenAddress := by
  obtain ⟨rates, hdata⟩ := h.data
  rw [hdata, ReserveData.withRates_aTokenAddress]

theorem liquidityIndex (h : Booked base s x r) :
    r.data.liquidityIndex = base.data.liquidityIndex := by
  obtain ⟨rates, hdata⟩ := h.data
  rw [hdata, ReserveData.withRates_liquidityIndex]

theorem id (h : Booked base s x r) : r.data.id = base.data.id := by
  obtain ⟨rates, hdata⟩ := h.data
  rw [hdata, ReserveData.withRates_id]

theorem underlying_eq (h : Booked base s x r) (h' : Booked base s x r') :
    r.underlying = r'.underlying := by
  have hbalances : r.underlying.ledger.balances = r'.underlying.ledger.balances := by
    funext a
    exact Nat.cast_injective ((h.funds a).trans (h'.funds a).symm)
  have hsupply := h.supply.trans h'.supply.symm
  have hallowances : r.underlying.allowances = r'.underlying.allowances := by
    funext a b
    exact Nat.cast_injective ((h.allowances a b).trans (h'.allowances a b).symm)
  generalize r.underlying = t at *
  generalize r'.underlying = t' at *
  obtain ⟨⟨_, _, _⟩, _⟩ := t
  obtain ⟨⟨_, _, _⟩, _⟩ := t'
  simp only at hbalances hsupply hallowances
  subst hbalances hsupply hallowances
  rfl

theorem ratesAt_eq (h : Booked base s x r) :
    ratesAt env x r = ratesAt env x base := by
  obtain ⟨rates, hdata⟩ := h.data
  rw [← ratesAt_withRates (r := base) rates]
  exact ratesAt_congr hdata h.stableDebtToken h.variableDebtToken

theorem eq_of_reflects (h : Booked base s x r) (h' : Booked base s x r')
    (hrates : ReflectsLiquidity env x r) (hrates' : ReflectsLiquidity env x r') : r = r' := by
  have hunderlying := h.underlying_eq h'
  obtain ⟨rates, hdata⟩ := h.data
  obtain ⟨rates', hdata'⟩ := h'.data
  have hcash : r.cash = r'.cash := by
    rw [cash, cash, hunderlying, hdata, hdata']
    rfl
  have hstored : storedRates r = storedRates r' := by
    rw [ReflectsLiquidity, h.ratesAt_eq, hcash] at hrates
    rw [ReflectsLiquidity, h'.ratesAt_eq, hrates] at hrates'
    exact Except.ok.inj hrates'
  have hsame : rates = rates' := by
    rwa [storedRates, storedRates, hdata, hdata'] at hstored
  have hd : r.data = r'.data := by rw [hdata, hdata', hsame]
  have ha := h.aToken.trans h'.aToken.symm
  have hs := h.stableDebtToken.trans h'.stableDebtToken.symm
  have hv := h.variableDebtToken.trans h'.variableDebtToken.symm
  cases r
  cases r'
  simp only at hd ha hs hv hunderlying
  subst hd ha hs hv hunderlying
  rfl

theorem deposit {bases : Address → Reserve} {self : Address} {d : Deposit} {t : ERC20}
    (h : Booked (bases d.asset) s d.asset r)
    (ht : r.underlying.transferFrom self d.sender r.data.aTokenAddress d.amount = .ok t)
    (rates : InterestRates) :
    Booked (bases d.asset) (s.add bases self d) d.asset
      (((r.withData (r.data.withRates rates)).withUnderlying t).withALedger
        (r.aToken.ledger.credit d.onBehalfOf
          (rayQuotient d.amount r.data.liquidityIndex))) := by
  obtain ⟨rates₀, hdata⟩ := h.data
  obtain ⟨hsupply, hfunds, hallowances⟩ := ERC20.transferFrom_books ht
  refine ⟨⟨rates, ?_⟩, ?_, h.stableDebtToken, h.variableDebtToken, hsupply.trans h.supply,
    fun a => ?_, fun owner spender => ?_⟩
  · rw [withALedger_data, withUnderlying_data, withData_data, hdata]
    rfl
  · rw [withALedger, withUnderlying_aToken, withData_aToken, h.aToken, h.liquidityIndex]
    simp only [Books.add, write_apply, if_true]
  · have hfund := hfunds a
    rw [h.funds, h.aTokenAddress] at hfund
    simpa only [Books.add, withALedger_underlying, withUnderlying_underlying, true_and] using hfund
  · have hallowance := hallowances owner spender
    rw [h.allowances] at hallowance
    simpa only [Books.add, withALedger_underlying, withUnderlying_underlying, true_and] using
      hallowance

theorem other {bases : Address → Reserve} {self : Address} {d : Deposit}
    (h : Booked base s x r) (hx : x ≠ d.asset) : Booked base (s.add bases self d) x r where
  data := h.data
  aToken := by
    rw [h.aToken]
    simp only [Books.add, write_apply, if_neg hx]
  stableDebtToken := h.stableDebtToken
  variableDebtToken := h.variableDebtToken
  supply := h.supply
  funds a := by
    rw [h.funds]
    simp [Books.add, hx]
  allowances owner spender := by
    rw [h.allowances]
    simp [Books.add, hx]

end Booked

theorem updated_aTokenAddress : (r.updated env impl).data.aTokenAddress = r.data.aTokenAddress := by
  unfold Reserve.updated
  split
  case h_1 r' h =>
    have happly : r.apply env 0 (.updateState impl) = .ok r' := h
    exact (apply_evolves happly).aTokenAddress
  case h_2 => rfl

end Reserve

variable {env : Env} {w w₁ w₂ w' : World} {ds ds' : List Deposit} {d : Deposit} {s s' : Books}

theorem deposit_state
    (h : LendingPool.deposit env w d.sender d.asset d.amount d.onBehalfOf = .ok w') :
    ∃ r rates t r', LendingPool.updateState w.impl env.timestamp (w.reserves d.asset) = .ok r ∧
      r.underlying.transferFrom w.self d.sender r.data.aTokenAddress d.amount = .ok t ∧
      r' = ((r.withData (r.data.withRates rates)).withUnderlying t).withALedger
        (r.aToken.ledger.credit d.onBehalfOf (rayQuotient d.amount r.data.liquidityIndex)) ∧
      w' = { w with
        reserves := write w.reserves d.asset r'
        usersConfig := fun u =>
          if u = d.onBehalfOf ∧ r.aToken.ledger.balances u = 0 then
            (w.usersConfig u).withCollateral r.data.id
          else w.usersConfig u } := by
  obtain ⟨r, r₂, t, r', first, hr, h₂, ht, h₃, h₄⟩ := LendingPool.deposit_ok h
  obtain ⟨rates, rfl⟩ := ReserveLogic.updateInterestRates_ok h₂
  obtain ⟨-, -, -, hfirst, hr'⟩ := AToken.mint_ok h₃
  refine ⟨r, rates, t, r', hr, ht, hr', ?_⟩
  have hbalance : first = (r.aToken.ledger.balances d.onBehalfOf == 0) := hfirst
  have hid : r'.data.id = r.data.id := by
    rw [hr', Reserve.withALedger_data, Reserve.withUnderlying_data, Reserve.withData_data]
    rfl
  rcases applyIf_ok.mp h₄ with ⟨hset, h₄⟩ | ⟨hunset, rfl⟩
  · have hzero : r.aToken.ledger.balances d.onBehalfOf = 0 := by
      rwa [hbalance, beq_iff_eq] at hset
    obtain ⟨-, rfl⟩ := LendingPool.setUsingAsCollateral_ok.mp h₄
    have hflags : write w.usersConfig d.onBehalfOf
        ((w.usersConfig d.onBehalfOf).withCollateral r.data.id) =
          fun u => if u = d.onBehalfOf ∧ r.aToken.ledger.balances u = 0 then
            (w.usersConfig u).withCollateral r.data.id else w.usersConfig u := by
      funext u
      rw [write_apply]
      by_cases hu : u = d.onBehalfOf
      · subst hu
        rw [if_pos rfl, if_pos ⟨rfl, hzero⟩]
      · rw [if_neg hu, if_neg (fun h => hu h.1)]
    rw [← hflags, World.setReserve, World.setUserConfig, hid]
    rfl
  · have hpositive : r.aToken.ledger.balances d.onBehalfOf ≠ 0 := by
      rwa [hbalance, beq_iff_eq] at hunset
    have hflags : w.usersConfig =
        fun u => if u = d.onBehalfOf ∧ r.aToken.ledger.balances u = 0 then
          (w.usersConfig u).withCollateral r.data.id else w.usersConfig u := by
      funext u
      rw [if_neg]
      rintro ⟨rfl, hzero⟩
      exact hpositive hzero
    rw [← hflags, World.setReserve]

structure Follows (env : Env) (w w' : World) (ds : List Deposit) (s : Books) : Prop where
  booked : ∀ x, (w.updated env x).Booked s x (w'.updated env x)
  untouched : ∀ x, (∀ d ∈ ds, d.asset ≠ x) → w'.reserves x = w.reserves x
  touched : ∀ d ∈ ds, (w'.reserves d.asset).UpdatedIn env.timestamp ∧
    ReflectsLiquidity env d.asset (w'.reserves d.asset)
  flags : w'.usersConfig = s.flags
  reservesList : w'.reservesList = w.reservesList
  reservesCount : w'.reservesCount = w.reservesCount
  paused : w'.paused = w.paused
  impl : w'.impl = w.impl
  self : w'.self = w.self

def World.books (env : Env) (w : World) : Books where
  shares x := (w.updated env x).aToken.ledger
  funds x a := (w.updated env x).underlying.ledger.balances a
  allowances x owner spender := (w.updated env x).underlying.allowances owner spender
  flags := w.usersConfig

namespace Follows

theorem start (env : Env) (w : World) : Follows env w w [] (w.books env) where
  booked x := ⟨⟨storedRates (w.updated env x), rfl⟩, rfl, rfl, rfl, rfl, fun _ => rfl,
    fun _ _ => rfl⟩
  untouched _ _ := rfl
  touched _ hd := absurd hd List.not_mem_nil
  flags := rfl
  reservesList := rfl
  reservesCount := rfl
  paused := rfl
  impl := rfl
  self := rfl

theorem aTokenAddress (hf : Follows env w w' ds s) (x : Address) :
    (w'.reserves x).data.aTokenAddress = (w.reserves x).data.aTokenAddress := by
  have hbefore : (w.updated env x).data.aTokenAddress = _ := Reserve.updated_aTokenAddress
  have hafter : (w'.updated env x).data.aTokenAddress = _ := Reserve.updated_aTokenAddress
  rw [← hbefore, ← hafter]
  exact (hf.booked x).aTokenAddress

theorem step (hf : Follows env w w₁ ds s) (htime : env.timestamp < 2 ^ 40)
    (hsender : d.sender ≠ (w.reserves d.asset).data.aTokenAddress)
    (h : LendingPool.deposit env w₁ d.sender d.asset d.amount d.onBehalfOf = .ok w₂) :
    Follows env w w₂ (ds ++ [d]) (s.add (w.updated env) w.self d) := by
  obtain ⟨r, rates, t, r', hr, ht, hr', hw₂⟩ := deposit_state h
  have hupdate : w₁.updated env d.asset = r := Reserve.updated_of_ok hr
  have hbooked := hf.booked d.asset
  rw [hupdate] at hbooked
  rw [hf.self] at ht
  have hreserve : w₂.reserves d.asset = r' := by
    rw [hw₂]
    exact if_pos rfl
  have hrest : ∀ x, x ≠ d.asset → w₂.reserves x = w₁.reserves x := by
    intro x hx
    rw [hw₂]
    exact if_neg hx
  have hupdated : (w₂.reserves d.asset).UpdatedIn env.timestamp := by
    have hin := updateState_updatedIn htime hr
    rw [hreserve, hr', Reserve.UpdatedIn, Reserve.withALedger_data, Reserve.withUnderlying_data,
      Reserve.withData_data]
    exact hin
  have himpl : w₂.impl = w₁.impl := by rw [hw₂]
  refine ⟨fun x => ?_, fun x hx => ?_, fun e he => ?_, ?_, ?_, ?_, ?_, ?_, ?_⟩
  · by_cases hx : x = d.asset
    · subst hx
      have hnext : w₂.updated env d.asset = r' := hupdated.updated.trans hreserve
      rw [hnext, hr']
      exact hbooked.deposit ht rates
    · have hnext : w₂.updated env x = w₁.updated env x := by
        rw [World.updated, World.updated, hrest x hx, himpl]
      rw [hnext]
      exact (hf.booked x).other hx
  · have hne : x ≠ d.asset := (hx d (by simp)).symm
    rw [hrest x hne]
    exact hf.untouched x fun e he => hx e (List.mem_append_left _ he)
  · by_cases hx : e.asset = d.asset
    · rw [hx]
      have hother : (Call.deposit d.asset d.amount d.onBehalfOf).OtherThan
          (w₁.reserves d.asset).data.aTokenAddress d.sender := by
        rw [hf.aTokenAddress]
        exact hsender
      exact ⟨hupdated, exec_reflects rfl rfl hother h⟩
    · rw [hrest e.asset hx]
      refine hf.touched e ((List.mem_append.mp he).resolve_right fun hd => hx ?_)
      rw [List.mem_singleton.mp hd]
  · rw [hw₂, hf.flags, hbooked.aToken, hbooked.id]
    rfl
  · rw [hw₂]
    exact hf.reservesList
  · rw [hw₂]
    exact hf.reservesCount
  · rw [hw₂]
    exact hf.paused
  · rw [himpl]
    exact hf.impl
  · rw [hw₂]
    exact hf.self

theorem run {ds₀ : List Deposit} (hf : Follows env w w₁ ds₀ s) (htime : env.timestamp < 2 ^ 40)
    (hsender : ∀ d ∈ ds, d.sender ≠ (w.reserves d.asset).data.aTokenAddress)
    (h : runAll w₁ (ds.map (Deposit.transaction env)) = .ok w₂) :
    Follows env w w₂ (ds₀ ++ ds) (ds.foldl (Books.add (w.updated env) w.self) s) := by
  induction ds generalizing w₁ ds₀ s with
  | nil =>
    obtain rfl := Except.ok.inj h
    rwa [List.append_nil]
  | cons d ds ih =>
    obtain ⟨w₃, hd, h⟩ := bind_ok.mp h
    have hstep := hf.step htime (hsender d List.mem_cons_self) hd
    have hrest := ih hstep (fun e he => hsender e (List.mem_cons_of_mem d he)) h
    rwa [List.append_assoc] at hrest

theorem eq_of_perm (h₁ : Follows env w w₁ ds s) (h₂ : Follows env w w₂ ds' s)
    (hperm : ds.Perm ds') : w₁ = w₂ := by
  have hreserves : w₁.reserves = w₂.reserves := by
    funext x
    by_cases hx : ∀ d ∈ ds, d.asset ≠ x
    · have hx' : ∀ d ∈ ds', d.asset ≠ x := fun d hd => hx d (hperm.mem_iff.mpr hd)
      rw [h₁.untouched x hx, h₂.untouched x hx']
    · simp only [not_forall, not_not] at hx
      obtain ⟨d, hd, rfl⟩ := hx
      obtain ⟨hupdated₁, hrates₁⟩ := h₁.touched d hd
      obtain ⟨hupdated₂, hrates₂⟩ := h₂.touched d (hperm.mem_iff.mp hd)
      have hbooked₁ := h₁.booked d.asset
      have hbooked₂ := h₂.booked d.asset
      have he₁ : w₁.updated env d.asset = w₁.reserves d.asset := hupdated₁.updated
      have he₂ : w₂.updated env d.asset = w₂.reserves d.asset := hupdated₂.updated
      rw [he₁] at hbooked₁
      rw [he₂] at hbooked₂
      exact hbooked₁.eq_of_reflects hbooked₂ hrates₁ hrates₂
  have hflags := h₁.flags.trans h₂.flags.symm
  have hlist := h₁.reservesList.trans h₂.reservesList.symm
  have hcount := h₁.reservesCount.trans h₂.reservesCount.symm
  have hpaused := h₁.paused.trans h₂.paused.symm
  have himpl := h₁.impl.trans h₂.impl.symm
  have hself := h₁.self.trans h₂.self.symm
  cases w₁
  cases w₂
  simp only at hreserves hflags hlist hcount hpaused himpl hself
  subst hreserves hflags hlist hcount hpaused himpl hself
  rfl

end Follows

/-- The deposits of a block leave one state, whatever order they come in, if they go through: the
scaled balances are all at one index, only the last of the rates stay, and a first deposit sets the
same flag as the other would. -/
theorem deposits_commute (hperm : ds.Perm ds') (htime : env.timestamp < 2 ^ 40)
    (hsender : ∀ d ∈ ds, d.sender ≠ (w.reserves d.asset).data.aTokenAddress)
    (h₁ : runAll w (ds.map (Deposit.transaction env)) = .ok w₁)
    (h₂ : runAll w (ds'.map (Deposit.transaction env)) = .ok w₂) : w₁ = w₂ := by
  have hsender' : ∀ d ∈ ds', d.sender ≠ (w.reserves d.asset).data.aTokenAddress :=
    fun d hd => hsender d (hperm.mem_iff.mpr hd)
  have hbooks : ds.foldl (Books.add (w.updated env) w.self) (w.books env) =
      ds'.foldl (Books.add (w.updated env) w.self) (w.books env) := hperm.foldl_eq _
  have hf₁ := (Follows.start env w).run htime hsender h₁
  have hf₂ := (Follows.start env w).run htime hsender' h₂
  rw [← hbooks] at hf₂
  exact hf₁.eq_of_perm hf₂ hperm

def yearBefore : List Transaction :=
  sampleListing 40 1 9 ++ [⟨sampleEnv 40, 12, .deposit 1 500 12⟩,
    ⟨sampleEnv 40, 12, .borrow 1 100 2 12⟩]

def blockDeposits : List Deposit := [⟨12, 1, 100, 13⟩, ⟨11, 1, 200, 13⟩, ⟨13, 1, 50, 11⟩]

theorem blockDeposits_runs : (do
    let w ← runAll sampleStart yearBefore
    let w₁ ← runAll w (blockDeposits.map (Deposit.transaction (sampleEnv 31536040)))
    let w₂ ← runAll w (blockDeposits.reverse.map (Deposit.transaction (sampleEnv 31536040)))
    return ((w.reserves 1).data.aTokenAddress, (w₁.reserves 1).cash, (w₂.reserves 1).cash)) =
      .ok (101, 750, 750) := by
  decide +kernel

theorem deposits_commute_sample : ∃ w w₁ w₂,
    runAll w (blockDeposits.map (Deposit.transaction (sampleEnv 31536040))) = .ok w₁ ∧
    runAll w (blockDeposits.reverse.map (Deposit.transaction (sampleEnv 31536040))) = .ok w₂ ∧
    (w₁.reserves 1).cash = 750 ∧ w₁ = w₂ := by
  obtain ⟨w, -, hrest⟩ := bind_ok.mp blockDeposits_runs
  obtain ⟨w₁, h₁, hrest⟩ := bind_ok.mp hrest
  obtain ⟨w₂, h₂, hrest⟩ := bind_ok.mp hrest
  simp only [pure_ok, Prod.mk.injEq] at hrest
  have hsender : ∀ d ∈ blockDeposits, d.sender ≠ (w.reserves d.asset).data.aTokenAddress := by
    simp [blockDeposits, hrest.1]
  have htime : (sampleEnv 31536040).timestamp < 2 ^ 40 := by decide
  exact ⟨w, w₁, w₂, h₁, h₂, hrest.2.1,
    deposits_commute (List.reverse_perm _).symm htime hsender h₁ h₂⟩

end Moola
