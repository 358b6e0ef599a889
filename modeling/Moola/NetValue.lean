import Moola.BalanceSheet
import Moola.Evolution

/-! Conservation of value. The net value of a reserve is its cash and its variable debt
less what its suppliers are owed. Every call that an operation makes moves the exact net
value by a known flow, up to half a scaled unit; the flows of an operation cancel, and
only the roundings remain. -/

namespace Moola

open Guard WadRayMath ReserveLogic

namespace Reserve

/-- Cash and variable debt less the claims of the suppliers, as the pool rounds them. -/
def net (r : Reserve) : ℤ := r.cash + r.variableDebt - r.supplied

def exactNet (r : Reserve) : ℚ :=
  r.cash + r.variableDebtToken.ledger.totalSupply * r.data.variableBorrowIndex / ray -
    r.aToken.ledger.totalSupply * r.data.liquidityIndex / ray

def UpdatedIn (r : Reserve) (now : ℕ) : Prop :=
  r.data.lastUpdateTimestamp = now ∧ now < 2 ^ 40

end Reserve

theorem updateState_updatedIn {impl : PoolImpl} {now : ℕ} {r r' : Reserve} (htime : now < 2 ^ 40)
    (h : LendingPool.updateState impl now r = .ok r') : r'.UpdatedIn now := by
  obtain ⟨start, -, he⟩ := LendingPool.updateState_eq impl now r
  rw [he] at h
  obtain ⟨-, -, minted, rfl, -⟩ := ReserveLogic.updateStateFrom_ok h
  exact ⟨uint40_of_lt htime, htime⟩

theorem updateState_updated {impl : PoolImpl} {now : ℕ} {r r' : Reserve} (hr : r.UpdatedIn now)
    (h : LendingPool.updateState impl now r = .ok r') : r' = r := by
  obtain ⟨start, hstart, he⟩ := LendingPool.updateState_eq impl now r
  have hnow : start = now := by
    rcases hstart with hstart | hstart
    · rw [hstart, hr.1]
    · rw [hstart, uint40_of_lt hr.2]
  rw [he, hnow] at h
  obtain ⟨-, -, minted, rfl, -, -, hm⟩ := ReserveLogic.updateStateFrom_ok h
  rw [hm rfl hr.1, Ledger.credit_zero, Nat.sub_self, accruedLiquidityIndex_zero,
    accruedVariableBorrowIndex_zero, uint40_of_lt hr.2]
  obtain ⟨hlast, -⟩ := hr
  cases r
  subst hlast
  rfl

/-- From `r` to `r'` the exact net value moves by `flow` up to `error`, the indexes and
the aToken staying as they are. -/
structure Flow (r r' : Reserve) (flow error : ℚ) : Prop where
  liquidityIndex : r'.data.liquidityIndex = r.data.liquidityIndex
  variableBorrowIndex : r'.data.variableBorrowIndex = r.data.variableBorrowIndex
  lastUpdateTimestamp : r'.data.lastUpdateTimestamp = r.data.lastUpdateTimestamp
  aTokenAddress : r'.data.aTokenAddress = r.data.aTokenAddress
  net : |r'.exactNet - r.exactNet - flow| ≤ error

namespace Flow

variable {r r₁ r' : Reserve} {f g d e : ℚ} {now amount : ℕ} {user receiver : Address}

theorem refl (r : Reserve) : Flow r r 0 0 := ⟨rfl, rfl, rfl, rfl, by simp⟩

theorem trans (h₁ : Flow r r₁ f d) (h₂ : Flow r₁ r' g e) : Flow r r' (f + g) (d + e) where
  liquidityIndex := h₂.liquidityIndex.trans h₁.liquidityIndex
  variableBorrowIndex := h₂.variableBorrowIndex.trans h₁.variableBorrowIndex
  lastUpdateTimestamp := h₂.lastUpdateTimestamp.trans h₁.lastUpdateTimestamp
  aTokenAddress := h₂.aTokenAddress.trans h₁.aTokenAddress
  net := by
    have e₁ := abs_le.mp h₁.net
    have e₂ := abs_le.mp h₂.net
    rw [abs_le]
    constructor <;> linarith

theorem weaken (h : Flow r r' f d) (hf : f = g) (he : d ≤ e) : Flow r r' g e :=
  ⟨h.liquidityIndex, h.variableBorrowIndex, h.lastUpdateTimestamp, h.aTokenAddress,
    hf ▸ h.net.trans he⟩

theorem of_eq (hd : r'.data.liquidityIndex = r.data.liquidityIndex)
    (hv : r'.data.variableBorrowIndex = r.data.variableBorrowIndex)
    (ht : r'.data.lastUpdateTimestamp = r.data.lastUpdateTimestamp)
    (ha : r'.data.aTokenAddress = r.data.aTokenAddress)
    (hs : r'.aToken.ledger.totalSupply = r.aToken.ledger.totalSupply)
    (hb : r'.variableDebtToken.ledger.totalSupply = r.variableDebtToken.ledger.totalSupply)
    (hc : r'.cash = r.cash) : Flow r r' 0 0 :=
  ⟨hd, hv, ht, ha, by simp [Reserve.exactNet, hd, hv, hs, hb, hc]⟩

theorem poolUpdateState {impl : PoolImpl} (h : LendingPool.updateState impl now r = .ok r')
    (hr : r.UpdatedIn now) : Flow r r' 0 0 :=
  updateState_updated hr h ▸ refl r

theorem updateInterestRates {env : Env} {asset : Address} {added taken : ℕ}
    (h : ReserveLogic.updateInterestRates env asset added taken r = .ok r') : Flow r r' 0 0 := by
  obtain ⟨rates, rfl⟩ := ReserveLogic.updateInterestRates_ok h
  apply of_eq <;> simp [Reserve.cash]

theorem pull {t : ERC20} {spender sender : Address} (hs : sender ≠ r.data.aTokenAddress)
    (h : r.underlying.transferFrom spender sender r.data.aTokenAddress amount = .ok t) :
    Flow r (r.withUnderlying t) amount 0 := by
  obtain ⟨hn, ht⟩ := ERC20.transferFrom_ok h
  refine ⟨rfl, rfl, rfl, rfl, ?_⟩
  have hcash : (r.withUnderlying t).cash = r.cash + amount := by
    simp [Reserve.cash, ht, Ledger.move_balances, hs.symm]
  simp [Reserve.exactNet, hcash]

theorem push {t : ERC20} (r : Reserve)
    (hn : amount ≤ r.underlying.ledger.balances r.data.aTokenAddress)
    (ht : t.ledger = r.underlying.ledger.move r.data.aTokenAddress receiver amount hn)
    (hr : receiver ≠ r.data.aTokenAddress) : Flow r (r.withUnderlying t) (-amount) 0 := by
  refine ⟨rfl, rfl, rfl, rfl, ?_⟩
  have hcash : ((r.withUnderlying t).cash : ℚ) = r.cash - amount := by
    simp [Reserve.cash, ht, Ledger.move_balances, hr.symm, Nat.cast_sub hn]
  simp [Reserve.exactNet, hcash]

theorem transferUnderlyingTo (h : AToken.transferUnderlyingTo r receiver amount = .ok r')
    (hr : receiver ≠ r.data.aTokenAddress) : Flow r r' (-amount) 0 := by
  obtain ⟨-, hn, rfl⟩ := AToken.transferUnderlyingTo_ok h
  exact push r hn rfl hr

theorem mint {first : Bool}
    (h : AToken.mint r user amount r.data.liquidityIndex = .ok (r', first)) :
    Flow r r' (-amount) (r.data.liquidityIndex / (2 * ray)) := by
  obtain ⟨-, hi, -, -, rfl⟩ := AToken.mint_ok h
  refine ⟨rfl, rfl, rfl, rfl, ?_⟩
  have herror := abs_le.mp (abs_rayQuotient_mul_sub amount (Nat.pos_of_ne_zero hi))
  simp only [Reserve.exactNet, Reserve.cash, Reserve.withALedger_data,
    Reserve.withALedger_aToken_ledger, Reserve.withALedger_underlying,
    Reserve.withALedger_variableDebtToken, Ledger.credit_totalSupply]
  push_cast
  rw [abs_le]
  constructor
  · linear_combination herror.2
  · linear_combination herror.1

theorem burn (h : AToken.burn r user receiver amount r.data.liquidityIndex = .ok r')
    (hr : receiver ≠ r.data.aTokenAddress) :
    Flow r r' 0 (r.data.liquidityIndex / (2 * ray)) := by
  obtain ⟨-, hi, -, hs, hn, rfl⟩ := AToken.burn_ok h
  have hholding : Flow r (r.withALedger (r.aToken.ledger.debit user
      (rayQuotient amount r.data.liquidityIndex) hs)) amount
      (r.data.liquidityIndex / (2 * ray)) := by
    refine ⟨rfl, rfl, rfl, rfl, ?_⟩
    have herror := abs_le.mp (abs_rayQuotient_mul_sub amount (Nat.pos_of_ne_zero hi))
    have hsupply := hs.trans (Ledger.balance_le _ _)
    simp only [Reserve.exactNet, Reserve.cash, Reserve.withALedger_data,
      Reserve.withALedger_aToken_ledger, Reserve.withALedger_underlying,
      Reserve.withALedger_variableDebtToken, Ledger.debit_totalSupply, Nat.cast_sub hsupply]
    rw [abs_le]
    constructor
    · linear_combination herror.1
    · linear_combination herror.2
  exact weaken (hholding.trans (push _ hn rfl hr)) (by ring) (by rw [add_zero])

theorem move {impl : PoolImpl} {sender : Address} {before : AToken.BalancesBefore}
    (h : AToken.move impl now r sender receiver amount = .ok (r', before)) : Flow r r' 0 0 := by
  obtain ⟨-, -, -, _, -, -, -, hs, rfl⟩ := AToken.move_ok h
  apply of_eq <;> simp [Reserve.cash]

theorem mintVariable {first : Bool} {onBehalfOf : Address} (h : VariableDebtToken.mint r user
    onBehalfOf amount r.data.variableBorrowIndex = .ok (r', first)) :
    Flow r r' amount (r.data.variableBorrowIndex / (2 * ray)) := by
  obtain ⟨-, -, hi, -, -, al, -, rfl⟩ := VariableDebtToken.mint_ok h
  refine ⟨rfl, rfl, rfl, rfl, ?_⟩
  have herror := abs_le.mp (abs_rayQuotient_mul_sub amount (Nat.pos_of_ne_zero hi))
  simp only [Reserve.exactNet, Reserve.cash, Ledger.credit_totalSupply]
  push_cast
  rw [abs_le]
  constructor
  · linear_combination herror.1
  · linear_combination herror.2

theorem burnVariable
    (h : VariableDebtToken.burn r user amount r.data.variableBorrowIndex = .ok r') :
    Flow r r' (-amount) (r.data.variableBorrowIndex / (2 * ray)) := by
  obtain ⟨-, -, hi, -, hs, rfl⟩ := VariableDebtToken.burn_ok h
  refine ⟨rfl, rfl, rfl, rfl, ?_⟩
  have herror := abs_le.mp (abs_rayQuotient_mul_sub amount (Nat.pos_of_ne_zero hi))
  have hsupply := hs.trans (Ledger.balance_le _ _)
  simp only [Reserve.exactNet, Reserve.cash, Reserve.withDebtLedger_data,
    Reserve.withDebtLedger_aToken, Reserve.withDebtLedger_underlying,
    Reserve.withDebtLedger_variableDebtToken_ledger, Ledger.debit_totalSupply,
    Nat.cast_sub hsupply]
  rw [abs_le]
  constructor
  · linear_combination herror.2
  · linear_combination herror.1

end Flow

namespace Action

def flow : Action → ℚ
  | .pull _ _ amount | .mintDebt _ _ _ amount => amount
  | .mint _ amount | .transferUnderlyingTo _ amount | .burnDebt _ _ amount => -amount
  | _ => 0

/-- What a call adds to the error, for its conversion to scaled units. -/
def error (r : Reserve) : Action → ℚ
  | .mint _ _ | .burn _ _ _ => r.data.liquidityIndex / (2 * ray)
  | .mintDebt _ _ _ _ | .burnDebt _ _ _ => r.data.variableBorrowIndex / (2 * ray)
  | _ => 0

/-- The calls that move value between the reserve and somebody else, and no stable debt. -/
def MovesValue (aToken : Address) : Action → Prop
  | .updateState _ | .updateInterestRates _ _ | .mint _ _ | .move _ _ _ _ => True
  | .pull _ sender _ => sender ≠ aToken
  | .burn _ receiver _ | .transferUnderlyingTo receiver _ => receiver ≠ aToken
  | .mintDebt mode _ _ _ | .burnDebt mode _ _ => mode = .variable
  | _ => False

end Action

namespace Reserve

variable {env : Env} {asset : Address} {r r' : Reserve} {a : Action} {actions : List Action}

theorem UpdatedIn.flow {now : ℕ} {f e : ℚ} (hr : r.UpdatedIn now) (h : Flow r r' f e) :
    r'.UpdatedIn now :=
  ⟨h.lastUpdateTimestamp.trans hr.1, hr.2⟩

theorem apply_flow (h : r.apply env asset a = .ok r') (hr : r.UpdatedIn env.timestamp)
    (ha : a.MovesValue r.data.aTokenAddress) : Flow r r' a.flow (a.error r) := by
  cases a with
  | updateState impl => exact Flow.poolUpdateState h hr
  | updateInterestRates added taken => exact Flow.updateInterestRates h
  | pull spender sender amount =>
    obtain ⟨t, ht, rfl⟩ := map_ok.mp h
    exact Flow.pull ha ht
  | mint user amount =>
    obtain ⟨⟨r₁, first⟩, h₁, rfl⟩ := map_ok.mp h
    exact Flow.mint h₁
  | burn user receiver amount => exact Flow.burn h ha
  | move impl sender recipient amount =>
    obtain ⟨⟨r₁, before⟩, h₁, rfl⟩ := map_ok.mp h
    exact Flow.move h₁
  | transferUnderlyingTo receiver amount => exact Flow.transferUnderlyingTo h ha
  | mintDebt mode user onBehalfOf amount =>
    obtain rfl : mode = .variable := ha
    obtain ⟨⟨r₁, first⟩, h₁, rfl⟩ := map_ok.mp h
    exact Flow.mintVariable h₁
  | burnDebt mode user amount =>
    obtain rfl : mode = .variable := ha
    exact Flow.burnVariable h
  | _ => exact ha.elim

theorem run_flow (h : r.run env asset actions = .ok r') (hr : r.UpdatedIn env.timestamp)
    (ha : ∀ a ∈ actions, a.MovesValue r.data.aTokenAddress) :
    Flow r r' (actions.map Action.flow).sum (actions.map (Action.error r)).sum := by
  induction actions generalizing r with
  | nil =>
    rw [run, Except.ok.injEq] at h
    exact h ▸ Flow.refl r
  | cons a actions ih =>
    obtain ⟨r₁, h₁, h⟩ := bind_ok.mp h
    have hfirst := apply_flow h₁ hr (ha a List.mem_cons_self)
    have hrest := ih h (hr.flow hfirst) fun a' ha' => by
      rw [hfirst.aTokenAddress]
      exact ha a' (List.mem_cons_of_mem a ha')
    have herror : Action.error r₁ = Action.error r := by
      funext a'
      cases a' <;> simp only [Action.error, hfirst.liquidityIndex, hfirst.variableBorrowIndex]
    rw [herror] at hrest
    rw [List.map_cons, List.map_cons, List.sum_cons, List.sum_cons]
    exact hfirst.trans hrest

/-- Four roundings separate the net values of two states from the exact ones. -/
theorem abs_net_sub_le {e : ℚ} (h : Flow r r' 0 e) : |((r'.net - r.net : ℤ) : ℚ)| ≤ 2 + e := by
  have hexact := abs_le.mp h.net
  have hdebt := abs_le.mp
    (abs_rayProduct_sub r.variableDebtToken.ledger.totalSupply r.data.variableBorrowIndex)
  have hdebt' := abs_le.mp
    (abs_rayProduct_sub r'.variableDebtToken.ledger.totalSupply r'.data.variableBorrowIndex)
  have hholdings := abs_le.mp
    (abs_rayProduct_sub r.aToken.ledger.totalSupply r.data.liquidityIndex)
  have hholdings' := abs_le.mp
    (abs_rayProduct_sub r'.aToken.ledger.totalSupply r'.data.liquidityIndex)
  simp only [exactNet] at hexact
  simp only [net, variableDebt, supplied]
  push_cast
  rw [abs_le]
  constructor <;> linarith

end Reserve

/-- The operations of a user at a variable rate: a withdrawal must leave the aToken, and
a liquidation burn variable debt only. -/
def Call.MovesValue (env : Env) (w : World) : Call → Prop
  | .deposit _ _ _ => True
  | .withdraw asset _ receiver => receiver ≠ (w.reserves asset).data.aTokenAddress
  | .borrow _ _ mode _ => mode = 2
  | .repay _ _ mode _ => mode = 2
  | .liquidationCall collateralAsset debtAsset user debtToCover receiveAToken => ∃ l,
    CollateralManager.validated env w env.collateralManager collateralAsset debtAsset user
      debtToCover receiveAToken = .ok (.ok l) ∧ l.actualDebtToLiquidate ≤ l.userVariableDebt
  | _ => False

/-- The flows of a sequence of value-moving calls cancel, and it converts at most one
amount at each index. -/
structure Balanced (r : Reserve) (actions : List Action) : Prop where
  movesValue : ∀ a ∈ actions, a.MovesValue r.data.aTokenAddress
  flow : (actions.map Action.flow).sum = 0
  error : (actions.map (Action.error r)).sum ≤
    (r.data.liquidityIndex + r.data.variableBorrowIndex) / (2 * ray)

theorem index_error_nonneg (n : ℕ) : (0 : ℚ) ≤ n / (2 * ray) := by
  have hR := ray_pos_rat
  positivity

theorem Balanced.nil (r : Reserve) : Balanced r [] where
  movesValue := by simp
  flow := rfl
  error := by
    rw [add_div]
    exact add_nonneg (index_error_nonneg _) (index_error_nonneg _)

theorem sum_map_onAsset (f : Action → ℚ) (asset x : Address) (actions : List Action) :
    ((onAsset asset actions x).map f).sum = if x = asset then (actions.map f).sum else 0 := by
  unfold onAsset
  split <;> rfl

theorem Balanced.onAsset {r : Reserve} {actions : List Action} {asset x : Address}
    (h : x = asset → Balanced r actions) : Balanced r (onAsset asset actions x) := by
  unfold Moola.onAsset
  split
  case isTrue hx => exact h hx
  case isFalse => exact .nil r

/-- A liquidation burns as much debt as it is paid for, and what leaves as collateral
cancels a claim of the same amount. -/
theorem liquidationCall_balanced {env : Env} {w w' : World}
    {sender collateralAsset debtAsset user : Address} {debtToCover : ℕ} {receiveAToken : Bool}
    {l : CollateralManager.Liquidation}
    (hl : CollateralManager.validated env w env.collateralManager collateralAsset debtAsset user
      debtToCover receiveAToken = .ok (.ok l))
    (hle : l.actualDebtToLiquidate ≤ l.userVariableDebt)
    (h : LendingPool.liquidationCall env w sender collateralAsset debtAsset user debtToCover
      receiveAToken = .ok w') (x : Address)
    (hsender : sender ≠ (w.reserves x).data.aTokenAddress) :
    ∃ l, Effect env l w w' ∧ Balanced (w.reserves x) (l x) := by
  have hL := index_error_nonneg (w.reserves x).data.liquidityIndex
  have hV := index_error_nonneg (w.reserves x).data.variableBorrowIndex
  obtain ⟨l', n, treasury, hl', heffect, htreasury⟩ := LendingPool.liquidationCall_effect h
  obtain rfl : l = l' := Except.ok.inj (Except.ok.inj (hl.symm.trans hl'))
  rw [show CollateralManager.debtActions user l =
    [.burnDebt .variable user l.actualDebtToLiquidate] from if_pos hle] at heffect
  have hmoves : ∀ a ∈ treasury, a.MovesValue (w.reserves x).data.aTokenAddress ∧ a.flow = 0 ∧
      a.error (w.reserves x) = 0 := by
    rcases htreasury with rfl | ⟨recipient, m, rfl⟩ <;>
      simp [Action.MovesValue, Action.flow, Action.error]
  have hflow : (treasury.map Action.flow).sum = 0 := List.sum_eq_zero (by
    simpa using fun a ha => (hmoves a ha).2.1)
  have herror : (treasury.map (Action.error (w.reserves x))).sum = 0 := List.sum_eq_zero (by
    simpa using fun a ha => (hmoves a ha).2.2)
  refine ⟨_, heffect, ?_, ?_, ?_⟩
  · intro a ha
    simp only [List.mem_append, mem_onAsset] at ha
    rcases ha with (⟨-, ha⟩ | ⟨-, ha⟩ | ⟨-, ha⟩) | ⟨-, ha⟩
    · simp only [List.mem_cons, List.not_mem_nil, or_false] at ha
      rcases ha with (rfl | rfl) | rfl <;> simp [Action.MovesValue]
    · cases receiveAToken <;> simp [CollateralManager.seizeActions] at ha
      · rcases ha with rfl | rfl | rfl <;> simp [Action.MovesValue, hsender]
      · simp [ha, Action.MovesValue]
    · exact (hmoves a ha).1
    · rw [List.mem_singleton.mp ha]
      exact hsender
  · simp only [List.map_append, List.sum_append, sum_map_onAsset, hflow]
    cases receiveAToken <;> simp [CollateralManager.seizeActions, Action.flow]
    all_goals split <;> simp
  · simp only [List.map_append, List.sum_append, sum_map_onAsset, herror]
    cases receiveAToken <;> simp [CollateralManager.seizeActions, Action.error]
    all_goals split_ifs <;> rw [add_div] <;> linarith

/-- Every value-moving call makes a balanced sequence of calls on each reserve. -/
theorem exec_balanced {env : Env} {w w' : World} {sender : Address} {c : Call}
    (hc : c.MovesValue env w) (h : exec env w sender c = .ok w') (x : Address)
    (hsender : sender ≠ (w.reserves x).data.aTokenAddress) :
    ∃ l, Effect env l w w' ∧ Balanced (w.reserves x) (l x) := by
  have hL := index_error_nonneg (w.reserves x).data.liquidityIndex
  have hV := index_error_nonneg (w.reserves x).data.variableBorrowIndex
  cases c with
  | deposit asset amount onBehalfOf =>
    refine ⟨_, LendingPool.deposit_effect h, .onAsset fun hx => ⟨?_, ?_, ?_⟩⟩
    · simp [Action.MovesValue, hsender]
    · simp [Action.flow]
    · simpa [Action.error, add_div] using hV
  | withdraw asset amount receiver =>
    obtain ⟨⟨w₁, n⟩, h₁, rfl⟩ := map_ok.mp h
    refine ⟨_, LendingPool.withdraw_effect h₁, .onAsset fun hx => ⟨?_, ?_, ?_⟩⟩
    · subst hx
      have hreceiver : receiver ≠ (w.reserves x).data.aTokenAddress := hc
      simp [Action.MovesValue, hreceiver]
    · simp [Action.flow]
    · simpa [Action.error, add_div] using hV
  | borrow asset amount mode onBehalfOf =>
    obtain rfl : mode = 2 := hc
    obtain ⟨m, hm, heffect⟩ := LendingPool.executeBorrow_effect (LendingPool.borrow_ok h)
    obtain rfl := Except.ok.inj hm
    refine ⟨_, heffect, .onAsset fun hx => ⟨?_, ?_, ?_⟩⟩
    · simp [LendingPool.borrowActions, Action.MovesValue, hsender]
    · simp [LendingPool.borrowActions, Action.flow]
    · simpa [LendingPool.borrowActions, Action.error, add_div] using hL
  | repay asset amount mode onBehalfOf =>
    obtain rfl : mode = 2 := hc
    obtain ⟨⟨w₁, n⟩, h₁, rfl⟩ := map_ok.mp h
    obtain ⟨m, hm, heffect⟩ := LendingPool.repay_effect h₁
    obtain rfl := Except.ok.inj hm
    refine ⟨_, heffect, .onAsset fun hx => ⟨?_, ?_, ?_⟩⟩
    · simp [Action.MovesValue, hsender]
    · simp [Action.flow]
    · simpa [Action.error, add_div] using hL
  | liquidationCall collateralAsset debtAsset user debtToCover receiveAToken =>
    obtain ⟨l, hl, hle⟩ := hc
    exact liquidationCall_balanced hl hle h x hsender
  | _ => exact hc.elim

/-- In a reserve that was updated in the block, a deposit, a withdrawal, a loan or a
repayment at the variable rate, and a liquidation of variable debt, by either manager and
for collateral of any kind, move the net value by less than the two index units and two. -/
theorem exec_conserves_value {m : Machine} {env : Env} {w' : World} {sender : Address}
    {c : Call} (hm : Reachable m) (htime : env.timestamp = m.time) (asset : Address)
    (hfresh : (m.world.reserves asset).data.lastUpdateTimestamp = m.time)
    (hsender : sender ≠ (m.world.reserves asset).data.aTokenAddress)
    (hc : c.MovesValue env m.world) (h : exec env m.world sender c = .ok w') :
    |(((w'.reserves asset).net - (m.world.reserves asset).net : ℤ) : ℚ)| ≤
      2 + ((m.world.reserves asset).data.liquidityIndex +
        (m.world.reserves asset).data.variableBorrowIndex) / 10 ^ 27 := by
  obtain ⟨l, heffect, hbalanced⟩ := exec_balanced hc h asset hsender
  have hupdated : (m.world.reserves asset).UpdatedIn env.timestamp :=
    ⟨hfresh.trans htime.symm, by
      rw [htime, ← hfresh]
      exact hm.wellFormed.updated asset⟩
  have hflow := Reserve.run_flow (heffect.run asset) hupdated hbalanced.movesValue
  rw [hbalanced.flow] at hflow
  have hR : (10 : ℚ) ^ 27 = ray := by rw [ray_eq]; norm_num
  have hpos := ray_pos_rat
  refine ((Reserve.abs_net_sub_le hflow).trans (add_le_add_right hbalanced.error 2)).trans
    (add_le_add_right ?_ 2)
  rw [hR]
  exact div_le_div_of_nonneg_left (by positivity) hpos (by linarith)

def depositRun : List Transaction :=
  sampleListing 40 1 9 ++ [⟨sampleEnv 40, 11, .deposit 1 500 11⟩]

theorem depositRun_borrow : (do
    let w ← runAll sampleStart depositRun
    let w' ← exec (sampleEnv 40) w 11 (.borrow 1 100 2 11)
    return ((w.reserves 1).data.lastUpdateTimestamp, (w.reserves 1).data.aTokenAddress,
      (w'.reserves 1).cash)) = .ok (40, 101, 400) := by
  decide +kernel

theorem exec_conserves_value_borrow : ∃ w w', runAll sampleStart depositRun = .ok w ∧
    exec (sampleEnv 40) w 11 (.borrow 1 100 2 11) = .ok w' ∧
    |(((w'.reserves 1).net - (w.reserves 1).net : ℤ) : ℚ)| ≤
      2 + ((w.reserves 1).data.liquidityIndex +
        (w.reserves 1).data.variableBorrowIndex) / 10 ^ 27 := by
  obtain ⟨w, hrun, hrest⟩ := bind_ok.mp depositRun_borrow
  obtain ⟨w', hborrow, hrest⟩ := bind_ok.mp hrest
  simp only [pure_ok, Prod.mk.injEq] at hrest
  obtain ⟨hfresh, haddress, -⟩ := hrest
  have hreach : Reachable ⟨w, 40, []⟩ := .sample (by decide) hrun
  have hmoves : Call.MovesValue (sampleEnv 40) w (.borrow 1 100 2 11) := rfl
  exact ⟨w, w', hrun, hborrow, exec_conserves_value hreach rfl 1 hfresh
    (by rw [haddress]; decide) hmoves hborrow⟩

end Moola
