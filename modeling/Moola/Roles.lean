import Mathlib.Logic.Relation
import Moola.Spending

/-! Who can change what. The terms of a reserve are its configuration word, its tokens, its
strategy, its treasury and its place in the list. Whatever the users and the pool admin do, in
any number of calls and flash loans and over any time, the terms of all reserves stay, and so do
the list, the implementation and the pause. -/

namespace Moola

open Guard LendingPool

def Machine.Event.IfCall (allowed : Env → Address → Call → Prop) : Machine.Event → Prop
  | .call env sender c => allowed env sender c
  | _ => True

abbrev StepBy (allowed : Env → Address → Call → Prop) : Machine → Machine → Prop :=
  StepIf fun _ e => e.IfCall allowed

abbrev RunBy (allowed : Env → Address → Call → Prop) : Machine → Machine → Prop :=
  Relation.ReflTransGen (StepBy allowed)

namespace StepBy

variable {allowed allowed' : Env → Address → Call → Prop} {m m' : Machine}

theorem call {env : Env} {w : World} (sender : Address) (c : Call) (ha : allowed env sender c)
    (htime : env.timestamp = m.time) (h : exec env m.world sender c = .ok w) :
    StepBy allowed m { m with world := w } :=
  .fires (e := .call env sender c) ha (.call htime h)

theorem mono (himp : ∀ env sender c, allowed env sender c → allowed' env sender c)
    (h : StepBy allowed m m') : StepBy allowed' m m' := by
  refine StepIf.mono (fun _ e ha => ?_) h
  cases e with
  | call env sender c => exact himp env sender c ha
  | _ => trivial

end StepBy

/-- A call that neither the configurator nor the owner of the addresses provider makes. -/
structure ByUser (env : Env) (sender : Address) (c : Call) : Prop where
  notConfigurator : c.onlyConfigurator = true → sender ≠ env.lendingPoolConfigurator
  notOwner : ∀ impl, c ≠ .setLendingPoolImpl impl

theorem ByUser.of_user {env : Env} {sender : Address} {c : Call} (hc : c.onlyConfigurator = false)
    (howner : ∀ impl, c ≠ .setLendingPoolImpl impl) : ByUser env sender c where
  notConfigurator h := by
    rw [hc] at h
    cases h
  notOwner := howner

namespace Action

def Administrative : Action → Prop
  | .setConfiguration _ | .setStrategy _ => True
  | _ => False

def Grows : Action → Prop
  | .mint .. | .mintDebt .. => True
  | _ => False

/-- What the call of a user makes of a reserve: it opens positions unless the reserve is frozen,
and takes aTokens from certain accounts only. -/
structure OfUser (gives : Address → Prop) (r : Reserve) (a : Action) : Prop where
  terms : ¬a.Administrative
  grows : a.Grows → r.data.configuration.getFrozen = false
  takes : ∀ user, Reserve.TakesFrom user a → gives user

@[mk_iff]
structure Closing (a : Action) : Prop where
  terms : ¬a.Administrative
  grows : ¬a.Grows
  takes : ∀ user, ¬Reserve.TakesFrom user a

variable {gives : Address → Prop} {r : Reserve} {a : Action}

theorem OfUser.of_closing (h : a.Closing) : a.OfUser gives r :=
  ⟨h.terms, fun hg => absurd hg h.grows, fun user ht => absurd ht (h.takes user)⟩

theorem OfUser.of_open (ha : ¬a.Administrative) (hopen : r.data.configuration.getFrozen = false)
    (ht : ∀ user, ¬Reserve.TakesFrom user a) : a.OfUser gives r :=
  ⟨ha, fun _ => hopen, fun user h => absurd h (ht user)⟩

theorem OfUser.of_burn {user receiver : Address} {amount : ℕ} (h : gives user) :
    (burn user receiver amount).OfUser gives r :=
  ⟨id, False.elim, fun _ (ht : user = _) => ht ▸ h⟩

theorem OfUser.of_move {impl : PoolImpl} {sender recipient : Address} {amount : ℕ}
    (h : gives sender) : (move impl sender recipient amount).OfUser gives r :=
  ⟨id, False.elim, fun _ (ht : sender = _) => ht ▸ h⟩

end Action

namespace Reserve

structure SameTerms (r r' : Reserve) : Prop where
  configuration : r'.data.configuration = r.data.configuration
  aTokenAddress : r'.data.aTokenAddress = r.data.aTokenAddress
  stableDebtTokenAddress : r'.data.stableDebtTokenAddress = r.data.stableDebtTokenAddress
  variableDebtTokenAddress : r'.data.variableDebtTokenAddress = r.data.variableDebtTokenAddress
  interestRateStrategyAddress :
    r'.data.interestRateStrategyAddress = r.data.interestRateStrategyAddress
  id : r'.data.id = r.data.id
  treasury : r'.aToken.treasury = r.aToken.treasury

namespace SameTerms

variable {r r₁ r' : Reserve}

theorem refl (r : Reserve) : SameTerms r r := ⟨rfl, rfl, rfl, rfl, rfl, rfl, rfl⟩

theorem trans (h₁ : SameTerms r r₁) (h₂ : SameTerms r₁ r') : SameTerms r r' where
  configuration := h₂.configuration.trans h₁.configuration
  aTokenAddress := h₂.aTokenAddress.trans h₁.aTokenAddress
  stableDebtTokenAddress := h₂.stableDebtTokenAddress.trans h₁.stableDebtTokenAddress
  variableDebtTokenAddress := h₂.variableDebtTokenAddress.trans h₁.variableDebtTokenAddress
  interestRateStrategyAddress :=
    h₂.interestRateStrategyAddress.trans h₁.interestRateStrategyAddress
  id := h₂.id.trans h₁.id
  treasury := h₂.treasury.trans h₁.treasury

theorem of_eq (hd : r'.data = r.data) (ht : r'.aToken.treasury = r.aToken.treasury) :
    SameTerms r r' := by
  constructor
  case treasury => exact ht
  all_goals rw [hd]

end SameTerms

variable {env : Env} {asset : Address} {r r' : Reserve} {a : Action} {actions : List Action}

theorem updateState_sameTerms {impl : PoolImpl} {now : ℕ}
    (h : LendingPool.updateState impl now r = .ok r') : SameTerms r r' := by
  obtain ⟨start, -, he⟩ := LendingPool.updateState_eq impl now r
  rw [he] at h
  obtain ⟨-, -, minted, rfl, -⟩ := ReserveLogic.updateStateFrom_ok h
  constructor <;> simp

theorem burnDebt_sameTerms {mode : InterestRateMode} {user : Address} {amount : ℕ}
    (h : LendingPool.burnDebt env r mode user amount = .ok r') : SameTerms r r' := by
  unfold LendingPool.burnDebt at h
  split at h
  case isTrue =>
    obtain ⟨-, _, t, -, -, rfl, -⟩ := StableDebtToken.burn_ok h
    exact .of_eq rfl rfl
  case isFalse =>
    obtain ⟨-, -, -, -, _, rfl⟩ := VariableDebtToken.burn_ok h
    exact .of_eq rfl rfl

theorem apply_sameTerms (h : r.apply env asset a = .ok r') (ha : ¬a.Administrative) :
    SameTerms r r' := by
  cases a with
  | updateState impl => exact updateState_sameTerms h
  | updateInterestRates added taken =>
    obtain ⟨rates, rfl⟩ := ReserveLogic.updateInterestRates_ok h
    constructor <;> simp
  | pull spender sender amount =>
    obtain ⟨t, -, rfl⟩ := map_ok.mp h
    exact .of_eq rfl rfl
  | mint user amount =>
    obtain ⟨⟨r₁, first⟩, h₁, rfl⟩ := map_ok.mp h
    obtain ⟨-, -, -, -, rfl⟩ := AToken.mint_ok h₁
    exact .of_eq rfl rfl
  | burn user receiver amount =>
    obtain ⟨-, -, -, _, _, rfl⟩ := AToken.burn_ok h
    exact .of_eq rfl rfl
  | move impl sender recipient amount =>
    obtain ⟨⟨r₁, before⟩, h₁, rfl⟩ := map_ok.mp h
    obtain ⟨-, -, -, _, -, -, -, _, rfl⟩ := AToken.move_ok h₁
    exact .of_eq rfl rfl
  | transferUnderlyingTo receiver amount =>
    obtain ⟨-, _, rfl⟩ := AToken.transferUnderlyingTo_ok h
    exact .of_eq rfl rfl
  | mintDebt mode user onBehalfOf amount =>
    obtain ⟨⟨r₁, first⟩, h₁, rfl⟩ := map_ok.mp h
    exact .of_eq (mintDebt_data h₁) (by rw [mintDebt_aToken h₁])
  | burnDebt mode user amount => exact burnDebt_sameTerms h
  | cumulateToLiquidityIndex total premium =>
    obtain ⟨-, _, -, rfl⟩ := ReserveLogic.cumulateToLiquidityIndex_ok h
    constructor <;> simp
  | approve owner spender amount =>
    simp only [apply, AToken.approve, bind_ok, exists_unit, pure_ok] at h
    obtain ⟨-, -, -, rfl⟩ := h
    exact .of_eq rfl rfl
  | setLiquidityIndex index =>
    rw [← Except.ok.inj h]
    constructor <;> simp
  | setConfiguration configuration => exact absurd trivial ha
  | setStrategy strategy => exact absurd trivial ha
  | _ =>
    rw [← Except.ok.inj h]
    exact .of_eq rfl rfl

theorem run_sameTerms (h : r.run env asset actions = .ok r')
    (ha : ∀ a ∈ actions, ¬a.Administrative) : SameTerms r r' :=
  run_induction h SameTerms.refl (fun _ _ _ h₁ h₂ => h₁.trans h₂) fun a hmem _ _ h =>
    apply_sameTerms h (ha a hmem)

end Reserve

namespace LendingPool

variable {env : Env} {w w' : World} {sender asset onBehalfOf user : Address}
  {amount rateMode premium : ℕ} {release : Bool}

theorem deposit_open (h : deposit env w sender asset amount onBehalfOf = .ok w') :
    (w.reserves asset).data.configuration.getFrozen = false := by
  simp only [deposit, ValidationLogic.validateDeposit, bind_ok, exists_unit, require_ok] at h
  exact h.2.1.2.2

theorem executeBorrow_open
    (h : executeBorrow env w user asset onBehalfOf amount rateMode release = .ok w') :
    (w.reserves asset).data.configuration.getFrozen = false := by
  obtain ⟨value, -, -, -, -, -, -, -, -, hvalid, -⟩ := executeBorrow_ok h
  simp only [ValidationLogic.validateBorrow, bind_ok, exists_unit, require_ok] at hvalid
  exact hvalid.2.1

theorem swapBorrowRateMode_open (h : swapBorrowRateMode env w sender asset rateMode = .ok w') :
    (w.reserves asset).data.configuration.getFrozen = false := by
  obtain ⟨stableDebt, variableDebt, mode, -, -, -, -, -, -, -, hvalid, -⟩ := swapBorrowRateMode_ok h
  simp only [ValidationLogic.validateSwapRateMode, bind_ok, exists_unit, require_ok] at hvalid
  exact hvalid.2.1

theorem settleOne_user {loan : FlashLoan} {m : ℕ}
    (h : settleOne env w sender loan asset amount premium m = .ok w') :
    ∃ l, Effect env l w w' ∧ ∀ x, ∀ a ∈ l x, a.OfUser (fun _ => False) (w.reserves x) := by
  rcases settleOne_ok h with h | h
  · obtain ⟨total, heffect⟩ := returnOne_effect h
    refine ⟨_, heffect, fun x a ha => ?_⟩
    simp only [mem_onAsset, List.mem_cons, List.not_mem_nil, or_false] at ha
    obtain ⟨-, rfl | rfl | rfl | rfl⟩ := ha <;> exact .of_closing ⟨id, id, fun _ => id⟩
  · obtain ⟨mode, -, heffect⟩ := executeBorrow_effect h
    refine ⟨_, heffect, fun x a ha => ?_⟩
    simp only [mem_onAsset, borrowActions, List.mem_append, List.mem_cons, List.not_mem_nil,
      or_false] at ha
    obtain ⟨rfl, (rfl | rfl | rfl) | ha⟩ := ha
    · exact .of_closing ⟨id, id, fun _ => id⟩
    · exact .of_open id (executeBorrow_open h) fun _ => id
    · exact .of_closing ⟨id, id, fun _ => id⟩
    · simp at ha

end LendingPool

namespace CollateralManager

variable {impl : PoolImpl} {sender user : Address} {amount : ℕ} {receiveAToken : Bool}
  {l : Liquidation} {a : Action} {r : Reserve}

theorem debtActions_closing (ha : a ∈ debtActions user l) : a.Closing := by
  unfold debtActions at ha
  split_ifs at ha <;> simp at ha
  case pos => rw [ha]; exact ⟨id, id, fun _ => id⟩
  case pos => obtain rfl | rfl := ha <;> exact ⟨id, id, fun _ => id⟩
  case neg => rw [ha]; exact ⟨id, id, fun _ => id⟩

theorem seizeActions_ofUser (ha : a ∈ seizeActions impl sender user amount receiveAToken) :
    a.OfUser (· = user) r := by
  unfold seizeActions at ha
  split_ifs at ha
  case pos =>
    rw [List.mem_singleton.mp ha]
    exact .of_move rfl
  case neg =>
    simp only [List.mem_cons, List.not_mem_nil, or_false] at ha
    obtain rfl | rfl | rfl := ha
    · exact .of_closing ⟨id, id, fun _ => id⟩
    · exact .of_closing ⟨id, id, fun _ => id⟩
    · exact .of_burn rfl

end CollateralManager

variable {env : Env} {w w' : World} {sender asset : Address} {c : Call} {actions : List Action}
  {gives : Address → Prop}

theorem Effect.ofUser_onAsset (h : Effect env (onAsset asset actions) w w')
    (hl : ∀ a ∈ actions, a.OfUser gives (w.reserves asset)) :
    ∃ l, Effect env l w w' ∧ ∀ x, ∀ a ∈ l x, a.OfUser gives (w.reserves x) := by
  refine ⟨_, h, fun x a ha => ?_⟩
  obtain ⟨hx, hmem⟩ := mem_onAsset.mp ha
  rw [hx]
  exact hl a hmem

theorem Effect.ofUser_closing (h : Effect env (onAsset asset actions) w w')
    (hl : ∀ a ∈ actions, a.Closing) :
    ∃ l, Effect env l w w' ∧ ∀ x, ∀ a ∈ l x, a.OfUser gives (w.reserves x) :=
  h.ofUser_onAsset fun a ha => .of_closing (hl a ha)

theorem liquidationCall_user {collateralAsset debtAsset user : Address} {debtToCover : ℕ}
    {receiveAToken : Bool} (h : liquidationCall env w sender collateralAsset debtAsset user
      debtToCover receiveAToken = .ok w') :
    ∃ l, Effect env l w w' ∧ ∀ x, ∀ a ∈ l x, a.OfUser (· = user) (w.reserves x) := by
  obtain ⟨l, amount, treasury, -, heffect, htreasury⟩ := liquidationCall_effect h
  refine ⟨_, heffect, fun x a ha => ?_⟩
  simp only [List.mem_append, mem_onAsset, List.mem_cons, List.not_mem_nil, or_false] at ha
  rcases ha with (⟨-, (rfl | ha) | rfl⟩ | ⟨-, ha⟩ | ⟨-, ha⟩) | ⟨-, rfl⟩
  · exact .of_closing ⟨id, id, fun _ => id⟩
  · exact .of_closing (CollateralManager.debtActions_closing ha)
  · exact .of_closing ⟨id, id, fun _ => id⟩
  · exact CollateralManager.seizeActions_ofUser ha
  · obtain rfl | ⟨recipient, n, rfl⟩ := htreasury
    · simp at ha
    · rw [List.mem_singleton.mp ha]
      exact .of_move rfl
  · exact .of_closing ⟨id, id, fun _ => id⟩

def Call.Rebalances (c : Call) : Prop :=
  ∃ asset user, c = .rebalanceStableBorrowRate asset user

def Call.Gives (sender : Address) : Call → Address → Prop
  | .withdraw .., user | .transfer .., user => user = sender
  | .transferFrom _ owner _ _, user => user = owner
  | .liquidationCall _ _ owner _ _, user => user = owner
  | _, _ => False

/-- A call of a user changes no terms, takes aTokens from one account, and opens positions in
reserves that are not frozen. The one exception is a rebalancing, which mints the stable debt
again that it burned. -/
theorem exec_user (hc : ByUser env sender c) (h : exec env w sender c = .ok w') :
    (∃ l, Effect env l w w' ∧ ∀ x, ∀ a ∈ l x, a.OfUser (c.Gives sender) (w.reserves x)) ∨
      c.Rebalances := by
  rcases exec_makes h with ⟨l, hmakes, heffect⟩ | ⟨asset, proxies, strategy, rfl⟩ | ⟨impl, rfl⟩
  case inr.inl => exact absurd (onlyConfigurator_ok h).symm (hc.notConfigurator rfl)
  case inr.inr => exact absurd rfl (hc.notOwner impl)
  cases hmakes with
  | deposit =>
    refine .inl (heffect.ofUser_onAsset fun a ha => ?_)
    simp only [List.mem_cons, List.not_mem_nil, or_false] at ha
    obtain rfl | rfl | rfl | rfl := ha <;> exact .of_open id (deposit_open h) fun _ => id
  | withdraw n =>
    refine .inl (heffect.ofUser_onAsset fun a ha => ?_)
    simp only [List.mem_cons, List.not_mem_nil, or_false] at ha
    obtain rfl | rfl | rfl := ha
    · exact .of_closing ⟨id, id, fun _ => id⟩
    · exact .of_closing ⟨id, id, fun _ => id⟩
    · exact .of_burn rfl
  | borrow mode =>
    refine .inl (heffect.ofUser_onAsset fun a ha => ?_)
    simp only [List.mem_cons, List.not_mem_nil, or_false] at ha
    obtain rfl | rfl | rfl | rfl := ha <;>
      exact .of_open id (executeBorrow_open (borrow_ok h)) fun _ => id
  | swapBorrowRateMode burned minted n =>
    refine .inl (heffect.ofUser_onAsset fun a ha => ?_)
    simp only [List.mem_cons, List.not_mem_nil, or_false] at ha
    obtain rfl | rfl | rfl | rfl := ha <;> exact .of_open id (swapBorrowRateMode_open h) fun _ => id
  | rebalanceStableBorrowRate => exact .inr ⟨_, _, rfl⟩
  | liquidationCall => exact .inl (liquidationCall_user h)
  | transfer =>
    refine .inl (heffect.ofUser_onAsset fun a ha => ?_)
    rw [List.mem_singleton.mp ha]
    exact .of_move rfl
  | transferFrom allowance =>
    refine .inl ⟨_, heffect, fun x a ha => ?_⟩
    simp only [List.mem_append, mem_onAsset, List.mem_singleton] at ha
    obtain ⟨-, rfl⟩ | ⟨-, rfl⟩ := ha
    · exact .of_move rfl
    · exact .of_closing ⟨id, id, fun _ => id⟩
  | setUserUseReserveAsCollateral => exact .inl ⟨_, heffect, by simp⟩
  | setPause => exact .inl ⟨_, heffect, by simp⟩
  | setReserveInterestRateStrategyAddress =>
    exact absurd (onlyConfigurator_ok h).symm (hc.notConfigurator rfl)
  | setConfiguration => exact absurd (onlyConfigurator_ok h).symm (hc.notConfigurator rfl)
  | _ =>
    exact .inl (heffect.ofUser_closing (by
      simp [Action.closing_iff, Action.Administrative, Action.Grows, Reserve.TakesFrom]))

namespace LendingPool

variable {w w₁ : World} {user receiver onBehalfOf : Address} {i amount rateMode premium n : ℕ}
  {value release : Bool}

theorem applyIf_setUsingAsCollateral_paused {p : Prop} [Decidable p]
    (h : applyIf p (fun w => setUsingAsCollateral w user i value) w = .ok w') :
    w'.paused = w.paused := by
  rcases applyIf_ok.mp h with ⟨-, h⟩ | ⟨-, rfl⟩
  · obtain ⟨-, rfl⟩ := setUsingAsCollateral_ok.mp h
    rfl
  · rfl

theorem applyIf_setBorrowing_paused {p : Prop} [Decidable p]
    (h : applyIf p (fun w => setBorrowing w user i value) w = .ok w') :
    w'.paused = w.paused := by
  rcases applyIf_ok.mp h with ⟨-, h⟩ | ⟨-, rfl⟩
  · obtain ⟨-, rfl⟩ := setBorrowing_ok.mp h
    rfl
  · rfl

theorem withdraw_paused (h : withdraw env w sender asset amount receiver = .ok (w', n)) :
    w'.paused = w.paused := by
  obtain ⟨b, r, hb, -, -, rfl⟩ := withdraw_ok h
  obtain ⟨balance, r₁, -, -, -, -, -, hflag⟩ := beforeBurn_ok hb
  rw [World.setReserve_paused]
  exact applyIf_setUsingAsCollateral_paused hflag

theorem executeBorrow_paused
    (h : executeBorrow env w user asset onBehalfOf amount rateMode release = .ok w') :
    w'.paused = w.paused := by
  obtain ⟨value, r₁, r₂, r₃, r₄, first, mode, w₁, -, -, -, -, -, hflag, -, -, rfl⟩ :=
    executeBorrow_ok h
  rw [World.setReserve_paused]
  exact applyIf_setBorrowing_paused hflag

theorem payback_paused {p : Payback}
    (h : payback env w sender asset amount rateMode onBehalfOf = .ok p) :
    p.world.paused = w.paused := by
  obtain ⟨_, _, _, r₁, r₂, -, -, -, -, -, -, -, -, -, hflag⟩ := payback_ok h
  exact applyIf_setBorrowing_paused hflag

theorem finalizeTransfer_paused {recipient : Address} {before : AToken.BalancesBefore}
    (h : finalizeTransfer env w asset sender recipient amount before = .ok w') :
    w'.paused = w.paused := by
  obtain ⟨-, ⟨-, rfl⟩ | ⟨-, w₁, -, h₁, h₂⟩⟩ := finalizeTransfer_ok h
  · rfl
  · exact (applyIf_setUsingAsCollateral_paused h₂).trans (applyIf_setUsingAsCollateral_paused h₁)

theorem transfer_paused {recipient : Address}
    (h : AToken.transfer env w sender asset recipient amount = .ok w') :
    w'.paused = w.paused := by
  obtain ⟨r, before, -, h⟩ := AToken.transfer_ok h
  exact (finalizeTransfer_paused h).trans World.setReserve_paused

theorem settleOne_paused {loan : FlashLoan} {m : ℕ}
    (h : settleOne env w sender loan asset amount premium m = .ok w') :
    w'.paused = w.paused := by
  rcases settleOne_ok h with h | h
  · obtain ⟨r₁, total, r₂, r₃, t, -, -, -, -, -, rfl⟩ := returnOne_ok h
    rfl
  · exact executeBorrow_paused h

end LendingPool

namespace CollateralManager

variable {w w' : World} {manager : CollateralManager} {collateralAsset debtAsset user : Address}
  {amount debtToCover : ℕ} {receiveAToken : Bool} {l : Liquidation}

theorem seize_paused
    (h : seize env w sender collateralAsset user amount receiveAToken = .ok w') :
    w'.paused = w.paused := by
  rcases seize_ok h with ⟨-, balance, r, -, hflag⟩ | ⟨-, r₁, r₂, r₃, -, -, -, rfl⟩
  · exact (applyIf_setUsingAsCollateral_paused hflag).trans World.setReserve_paused
  · rfl

theorem seizeForTreasury_paused
    (h : seizeForTreasury env w collateralAsset user amount = .ok w') : w'.paused = w.paused := by
  rcases seizeForTreasury_ok h with ⟨-, r, -, rfl⟩ | ⟨-, rfl⟩ <;> rfl

theorem clearSeizedCollateral_paused
    (h : clearSeizedCollateral w collateralAsset user l = .ok w') : w'.paused = w.paused :=
  applyIf_setUsingAsCollateral_paused h

theorem liquidationCall_paused (h : liquidationCall env w manager sender collateralAsset debtAsset
    user debtToCover receiveAToken = .ok (.ok w')) : w'.paused = w.paused := by
  obtain ⟨l, w₁, w₂, -, h₁, h₂, h₃⟩ := liquidationCall_ok h
  obtain ⟨r, -, rfl⟩ := World.onReserve_ok.mp h₁
  obtain ⟨t, -, rfl⟩ := payDebt_ok h₃
  rw [World.setReserve_paused, ← World.setReserve_paused (w := w) (a := debtAsset) (r := r)]
  obtain ⟨amount, w₁, w₂, w₃, ⟨hflag, hseize, htreasury, -⟩ | ⟨rfl, -, hseize, hflag⟩⟩ :=
    liquidateCollateral_ok h₂
  · have hsame := clearSeizedCollateral_paused hflag
    exact ((seizeForTreasury_paused htreasury).trans (seize_paused hseize)).trans hsame
  · exact (clearSeizedCollateral_paused hflag).trans (seize_paused hseize)

end CollateralManager

theorem exec_paused (hc : ∀ val, c ≠ .setPause val) (h : exec env w sender c = .ok w') :
    w'.paused = w.paused := by
  cases c with
  | deposit asset amount onBehalfOf =>
    obtain ⟨_, _, _, _, _, -, -, -, -, hflag⟩ := deposit_ok h
    exact (applyIf_setUsingAsCollateral_paused hflag).trans World.setReserve_paused
  | withdraw asset amount receiver =>
    obtain ⟨⟨w₁, n⟩, h₁, rfl⟩ := map_ok.mp h
    exact withdraw_paused h₁
  | borrow asset amount mode onBehalfOf => exact executeBorrow_paused (borrow_ok h)
  | repay asset amount mode onBehalfOf =>
    obtain ⟨⟨w₁, n⟩, h₁, rfl⟩ := map_ok.mp h
    obtain ⟨p, t, hp, -, -, rfl⟩ := repay_ok h₁
    exact payback_paused hp
  | writeOff asset amount mode onBehalfOf =>
    obtain ⟨⟨w₁, n⟩, h₁, rfl⟩ := map_ok.mp h
    obtain ⟨-, p, hp, -, rfl⟩ := writeOff_ok h₁
    exact payback_paused hp
  | swapBorrowRateMode asset mode =>
    obtain ⟨_, _, _, _, _, _, r, _, -, -, -, -, -, -, rfl⟩ := swapBorrowRateMode_ok h
    rfl
  | rebalanceStableBorrowRate asset user =>
    obtain ⟨_, _, _, _, r, _, -, -, -, -, -, rfl⟩ := rebalanceStableBorrowRate_ok h
    rfl
  | setUserUseReserveAsCollateral asset use =>
    obtain ⟨-, h⟩ := setUserUseReserveAsCollateral_ok h
    obtain ⟨-, rfl⟩ := setUsingAsCollateral_ok.mp h
    rfl
  | liquidationCall collateral debt user amount receiveAToken =>
    exact CollateralManager.liquidationCall_paused (liquidationCall_ok h)
  | transfer asset recipient amount => exact transfer_paused h
  | transferFrom asset owner recipient amount =>
    obtain ⟨w₁, r, h₁, -, -, rfl⟩ := AToken.transferFrom_ok h
    rw [World.setReserve_paused]
    exact transfer_paused h₁
  | initReserve asset proxies strategy =>
    simp only [exec, initReserve, addReserveToList, bind_ok, exists_unit] at h
    obtain ⟨-, -, -, -, h⟩ := h
    split at h <;> rw [← pure_ok.mp h] <;> rfl
  | setReserveInterestRateStrategyAddress asset strategy =>
    simp only [exec, setReserveInterestRateStrategyAddress, bind_ok, exists_unit, pure_ok] at h
    obtain ⟨-, rfl⟩ := h
    rfl
  | setConfiguration asset configuration =>
    simp only [exec, setConfiguration, bind_ok, exists_unit, pure_ok] at h
    obtain ⟨-, rfl⟩ := h
    rfl
  | setPause val => exact absurd rfl (hc val)
  | updateLiquidtyIndexForLoss asset amount =>
    obtain ⟨-, total, ratio, -, -, -, -, rfl⟩ := updateLiquidtyIndexForLoss_ok h
    rfl
  | setLendingPoolImpl impl =>
    rw [← Except.ok.inj h]
  | _ =>
    rw [exec, World.onReserve_ok] at h
    obtain ⟨r, -, rfl⟩ := h
    rfl

/-- The terms of all reserves, the list of them, the implementation and the pause. -/
structure World.SameTerms (w w' : World) : Prop where
  reserves : ∀ a, (w.reserves a).SameTerms (w'.reserves a)
  reservesList : w'.reservesList = w.reservesList
  reservesCount : w'.reservesCount = w.reservesCount
  impl : w'.impl = w.impl
  self : w'.self = w.self
  paused : w'.paused = w.paused

namespace World.SameTerms

variable {w w₁ w' : World} {l : Address → List Action}

theorem refl (w : World) : SameTerms w w := ⟨fun _ => .refl _, rfl, rfl, rfl, rfl, rfl⟩

theorem trans (h₁ : SameTerms w w₁) (h₂ : SameTerms w₁ w') : SameTerms w w' where
  reserves a := (h₁.reserves a).trans (h₂.reserves a)
  reservesList := h₂.reservesList.trans h₁.reservesList
  reservesCount := h₂.reservesCount.trans h₁.reservesCount
  impl := h₂.impl.trans h₁.impl
  self := h₂.self.trans h₁.self
  paused := h₂.paused.trans h₁.paused

theorem of_effect (h : Effect env l w w') (hl : ∀ x, ∀ a ∈ l x, ¬a.Administrative)
    (hpaused : w'.paused = w.paused) : SameTerms w w' where
  reserves a := Reserve.run_sameTerms (h.run a) (hl a)
  reservesList := h.reservesList
  reservesCount := h.reservesCount
  impl := h.impl
  self := h.self
  paused := hpaused

theorem exec (hc : ByUser env sender c) (h : Moola.exec env w sender c = .ok w') :
    SameTerms w w' := by
  have hpaused : w'.paused = w.paused := by
    refine exec_paused (fun val hval => ?_) h
    subst hval
    exact hc.notConfigurator rfl (onlyConfigurator_ok h).symm
  rcases exec_user hc h with ⟨l, heffect, hl⟩ | ⟨asset, user, rfl⟩
  · exact of_effect heffect (fun x a ha => (hl x a ha).terms) hpaused
  · obtain ⟨n, -, heffect⟩ := rebalanceStableBorrowRate_effect h
    refine of_effect heffect (fun x a ha => ?_) hpaused
    simp only [mem_onAsset, List.mem_cons, List.not_mem_nil, or_false] at ha
    obtain ⟨-, rfl | rfl | rfl | rfl⟩ := ha <;> exact id

theorem flashLoanTake {loan : FlashLoan} {premiums : List ℕ}
    (h : LendingPool.flashLoanTake w loan = .ok (w', premiums)) : SameTerms w w' := by
  simp only [LendingPool.flashLoanTake, bind_ok, exists_unit] at h
  obtain ⟨-, -, -, h⟩ := h
  refine takeAll_relates (R := SameTerms) refl (fun _ _ _ => trans) ?_ h
  intro w w₁ asset amount premium hone
  have heffect := takeOne_effect (sampleEnv 0) hone
  obtain ⟨r, -, rfl⟩ := takeOne_ok hone
  refine of_effect heffect (fun x a ha => ?_) rfl
  rw [List.mem_singleton.mp (mem_onAsset.mp ha).2]
  exact id

theorem flashLoanSettle {loan : FlashLoan} {premiums : List ℕ}
    (h : LendingPool.flashLoanSettle env w sender loan premiums = .ok w') : SameTerms w w' := by
  refine settleAll_relates (R := SameTerms) refl (fun _ _ _ => trans) ?_ h
  intro w w₁ asset amount premium mode hone
  obtain ⟨l, heffect, hl⟩ := settleOne_user hone
  exact of_effect heffect (fun x a ha => (hl x a ha).terms) (settleOne_paused hone)

theorem step {m m' : Machine} (h : StepBy ByUser m m') : SameTerms m.world m'.world := by
  cases h with
  | fires hc hfires =>
    cases hfires with
    | call _ h => exact exec hc h
    | flashLoanTake h => exact flashLoanTake h
    | flashLoanSettle _ _ h => exact flashLoanSettle h
  | tick => exact refl _

theorem run {m m' : Machine} (h : RunBy ByUser m m') : SameTerms m.world m'.world := by
  induction h with
  | refl => exact refl _
  | tail _ hs ih => exact ih.trans (step hs)

end World.SameTerms

/-- Whatever users and pool admin do, from any state and over any time, leaves the terms of all
reserves, the list, the implementation and the pause as they were. -/
theorem terms_only_by_admins {m m' : Machine} (h : RunBy ByUser m m') :
    m.world.SameTerms m'.world := .run h

theorem roles_sample_runs : (do
    let w ← runAll sampleStart (sampleListing 40 1 9)
    let w₁ ← exec (sampleEnv 40) w 11 (.deposit 1 100 11)
    let w₂ ← exec (sampleEnv 86440) w₁ 11 (.withdraw 1 40 11)
    return (w₂.reserves 1).aToken.ledger.balances 11) = .ok 60 := by
  decide +kernel

theorem terms_only_by_admins_sample : ∃ w w₂ : World,
    w.SameTerms w₂ ∧ (w₂.reserves 1).aToken.ledger.balances 11 = 60 := by
  obtain ⟨w, hrun, hrest⟩ := bind_ok.mp roles_sample_runs
  obtain ⟨w₁, h₁, hrest⟩ := bind_ok.mp hrest
  obtain ⟨w₂, h₂, hrest⟩ := bind_ok.mp hrest
  have hdeposit : StepBy ByUser ⟨w, 40, []⟩ ⟨w₁, 40, []⟩ :=
    .call 11 (.deposit 1 100 11) (.of_user rfl (by simp)) rfl h₁
  have htick : StepBy ByUser ⟨w₁, 40, []⟩ ⟨w₁, 86440, []⟩ := .tick 86440 (by norm_num) rfl
  have hwithdraw : StepBy ByUser ⟨w₁, 86440, []⟩ ⟨w₂, 86440, []⟩ :=
    .call 11 (.withdraw 1 40 11) (.of_user rfl (by simp)) rfl h₂
  exact ⟨w, w₂, terms_only_by_admins
    (((Relation.ReflTransGen.single hdeposit).tail htick).tail hwithdraw), pure_ok.mp hrest⟩

end Moola
