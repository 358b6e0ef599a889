import Moola.BalanceSheet
import Moola.NetValue
import Moola.Rates

/-! A flash loan that is returned. All entries are paid out before the first one comes back,
so with an asset listed twice the reserve is seen half returned; each return predicts only
its own transfer, and that is what it finds. -/

namespace Moola

open Guard WadRayMath ReserveLogic

theorem totalSupply_updated {impl : PoolImpl} {now total : ℕ} {r : Reserve} (hr : r.UpdatedIn now)
    (h : AToken.totalSupply impl now r = .ok total) : total = r.supplied := by
  rcases AToken.totalSupply_ok h with ⟨hzero, rfl⟩ | ⟨-, index, hindex, rfl⟩
  · simp [Reserve.supplied, hzero]
  · rw [LendingPool.getReserveNormalizedIncome_fresh (hr.1.trans (uint40_of_lt hr.2).symm),
      Except.ok.injEq] at hindex
    rw [Reserve.supplied, hindex]

theorem cumulateToLiquidityIndex_index {total amount : ℕ} {r r' : Reserve}
    (h : ReserveLogic.cumulateToLiquidityIndex r total amount = .ok r') :
    total ≠ 0 ∧ ∃ factor index,
      factor = rayQuotient (amount * wadRayRatio) (total * wadRayRatio) + ray ∧
      index = rayProduct factor r.data.liquidityIndex ∧
      r' = r.withData { r.data with liquidityIndex := index } := by
  obtain ⟨hne, ratio, hratio, hr'⟩ := cumulateToLiquidityIndex_ok h
  generalize hfactor : ratio + ray = factor at hr'
  generalize hindex : rayProduct factor r.data.liquidityIndex = index at hr'
  exact ⟨hne, factor, index, by rw [← hfactor, hratio], hindex.symm, hr'⟩

namespace LendingPool

def premiumOf (amount : ℕ) : ℕ := amount * World.flashLoanPremiumTotal / 10000

def amountsOf (asset : Address) : List Address → List ℕ → List ℕ
  | a :: assets, amount :: amounts =>
    if a = asset then amount :: amountsOf asset assets amounts else amountsOf asset assets amounts
  | _, _ => []

/-- A receiver that only holds what it gets: at most allowances change. -/
structure Holds (w w' : World) : Prop where
  impl : w'.impl = w.impl
  reserves : ∀ a, ∃ allowances, w'.reserves a =
    (w.reserves a).withUnderlying ⟨(w.reserves a).underlying.ledger, allowances⟩

/-- A reserve to which an amount is returned with its premium. -/
structure Returned (env : Env) (asset : Address) (amount : ℕ) (r r' : Reserve) : Prop where
  cash : r'.cash = r.cash + (amount + premiumOf amount)
  aToken : r'.aToken = r.aToken
  aTokenAddress : r'.data.aTokenAddress = r.data.aTokenAddress
  updated : r'.UpdatedIn env.timestamp
  supplied : r.supplied ≠ 0
  index : ∃ factor, factor =
      rayQuotient (premiumOf amount * wadRayRatio) (r.supplied * wadRayRatio) + ray ∧
    r'.data.liquidityIndex = rayProduct factor r.data.liquidityIndex
  reflects : ReflectsLiquidity env asset r'

inductive ReturnedAll (env : Env) (asset : Address) : List ℕ → Reserve → Reserve → Prop
  | nil (r : Reserve) : ReturnedAll env asset [] r r
  | cons {r r₁ r' : Reserve} {amount : ℕ} {amounts : List ℕ} :
      Returned env asset amount r r₁ → ReturnedAll env asset amounts r₁ r' →
      ReturnedAll env asset (amount :: amounts) r r'

variable {env : Env} {asset receiver sender : Address} {w w₁ w' : World} {r r' : Reserve}
  {amount n : ℕ} {amounts premiums modes : List ℕ} {assets : List Address} {loan : FlashLoan}

theorem returnOne_returned (hr : (w.reserves asset).UpdatedIn env.timestamp)
    (hreceiver : receiver ≠ (w.reserves asset).data.aTokenAddress)
    (h : returnOne env w receiver asset (amount + premiumOf amount) (premiumOf amount) = .ok w') :
    Returned env asset amount (w.reserves asset) (w'.reserves asset) ∧
      (∀ a ≠ asset, w'.reserves a = w.reserves a) ∧ w'.impl = w.impl := by
  obtain ⟨total, heffect⟩ := returnOne_effect h
  have hreflects := Effect.reflects [_, _] _ heffect (by simp [Reserve.OtherThan])
    (by simp [Reserve.Settles, Reserve.OtherThan, hreceiver]) rfl
  have hcash := heffect.cash (by simp [Reserve.OtherThan, hreceiver])
  obtain ⟨r₁, total, r₂, r₃, t, h₁, htotal, h₂, h₃, -, rfl⟩ := returnOne_ok h
  obtain rfl := updateState_updated hr h₁
  obtain rfl := totalSupply_updated hr htotal
  obtain ⟨hsupplied, factor, index, hfactor, hindex, hr₂⟩ := cumulateToLiquidityIndex_index h₂
  obtain ⟨rates, hr₃⟩ := updateInterestRates_ok h₃
  rw [World.setReserve_reserves_self] at hreflects hcash ⊢
  refine ⟨⟨hcash, ?_, ?_, ?_, hsupplied, ⟨factor, hfactor, ?_⟩, hreflects⟩,
    fun a ha => World.setReserve_reserves_of_ne ha, rfl⟩
  all_goals rw [hr₃, hr₂]
  · rfl
  · rfl
  · exact hr
  · exact hindex

theorem settleOne_returned {premium mode : ℕ} (hmode : mode = 0)
    (h : settleOne env w sender loan asset amount premium mode = .ok w') :
    returnOne env w loan.receiverAddress asset (amount + premium) premium = .ok w' := by
  simp only [settleOne, bind_ok, SafeMath.add_ok, hmode] at h
  obtain ⟨_, ⟨-, rfl⟩, mode, hnone, h⟩ := h
  obtain rfl : mode = .none := (Except.ok.inj hnone).symm
  rwa [if_pos rfl] at h

/-- The loop of the returns, as one reserve sees it. -/
theorem settleAll_returned (hmodes : ∀ m ∈ modes, m = 0)
    (hupdated : ∀ a ∈ assets, (w.reserves a).UpdatedIn env.timestamp)
    (hreceiver : ∀ a ∈ assets, loan.receiverAddress ≠ (w.reserves a).data.aTokenAddress)
    (h : settleAll env sender loan w assets amounts (amounts.map premiumOf) modes = .ok w') :
    w'.impl = w.impl ∧ ∀ asset, ReturnedAll env asset (amountsOf asset assets amounts)
      (w.reserves asset) (w'.reserves asset) := by
  induction assets generalizing w amounts modes with
  | nil =>
    obtain rfl : w = w' := by simpa [settleAll] using h
    exact ⟨rfl, fun asset => .nil _⟩
  | cons a assets ih =>
    obtain ⟨amount, amounts', premium, premiums', mode, modes', w₁, rfl, hpremiums, rfl, h₁, h₂⟩ :=
      settleAll_cons_ok h
    rw [List.map_cons, List.cons.injEq] at hpremiums
    obtain ⟨rfl, rfl⟩ := hpremiums
    obtain ⟨hreturned, hothers, himpl⟩ := returnOne_returned (hupdated a List.mem_cons_self)
      (hreceiver a List.mem_cons_self) (settleOne_returned (hmodes mode List.mem_cons_self) h₁)
    have hkept : ∀ x, ((w.reserves x).UpdatedIn env.timestamp →
        (w₁.reserves x).UpdatedIn env.timestamp) ∧
        (w₁.reserves x).data.aTokenAddress = (w.reserves x).data.aTokenAddress := by
      intro x
      by_cases hx : x = a
      · rw [hx]
        exact ⟨fun _ => hreturned.updated, hreturned.aTokenAddress⟩
      · rw [hothers x hx]
        exact ⟨id, rfl⟩
    obtain ⟨himpl', hrest⟩ := ih (fun m hm => hmodes m (List.mem_cons_of_mem _ hm))
      (fun x hx => (hkept x).1 (hupdated x (List.mem_cons_of_mem _ hx)))
      (fun x hx => (hkept x).2 ▸ hreceiver x (List.mem_cons_of_mem _ hx)) h₂
    refine ⟨himpl'.trans himpl, fun asset => ?_⟩
    by_cases ha : a = asset
    · subst ha
      rw [amountsOf, if_pos rfl]
      exact .cons hreturned (hrest a)
    · rw [amountsOf, if_neg ha, ← hothers asset (Ne.symm ha)]
      exact hrest asset

theorem ReturnedAll.cash (h : ReturnedAll env asset amounts r r') :
    r'.cash = r.cash + (amounts.sum + (amounts.map premiumOf).sum) := by
  induction h with
  | nil => rfl
  | cons hfirst _ ih =>
    rw [ih, hfirst.cash, List.map_cons, List.sum_cons, List.sum_cons]
    omega

theorem ReturnedAll.reflects (h : ReturnedAll env asset amounts r r')
    (hr : amounts = [] → ReflectsLiquidity env asset r) : ReflectsLiquidity env asset r' := by
  induction h with
  | nil => exact hr rfl
  | cons hfirst _ ih => exact ih fun _ => hfirst.reflects

theorem ReturnedAll.aToken (h : ReturnedAll env asset amounts r r') : r'.aToken = r.aToken := by
  induction h with
  | nil => rfl
  | cons hfirst _ ih => rw [ih, hfirst.aToken]

theorem ReturnedAll.aTokenAddress (h : ReturnedAll env asset amounts r r') :
    r'.data.aTokenAddress = r.data.aTokenAddress := by
  induction h with
  | nil => rfl
  | cons hfirst _ ih => rw [ih, hfirst.aTokenAddress]

theorem ReturnedAll.updated (h : ReturnedAll env asset amounts r r')
    (hr : r.UpdatedIn env.timestamp) : r'.UpdatedIn env.timestamp := by
  induction h with
  | nil => exact hr
  | cons hfirst _ ih => exact ih hfirst.updated

/-- One return raises the supply by its premium, up to three units. -/
theorem Returned.supply (h : Returned env asset amount r r')
    (hs : r.aToken.ledger.totalSupply ≤ ray) (hT : r.supplied ≤ 3 * ray)
    (hpremium : premiumOf amount ≤ r.supplied) :
    |(r'.supplied : ℤ) - r.supplied - premiumOf amount| ≤ 3 := by
  obtain ⟨factor, hfactor, hindex⟩ := h.index
  have hsupplied : r'.supplied = rayProduct r.aToken.ledger.totalSupply r'.data.liquidityIndex := by
    rw [Reserve.supplied, h.aToken]
  exact premium_write_up_error hs rfl hindex hsupplied hT h.supplied hpremium rfl hfactor

/-- The premiums with three units for each entry. -/
def allowed (amounts : List ℕ) : ℕ := (amounts.map premiumOf).sum + 3 * amounts.length

theorem Returned.supplied_le (h : Returned env asset amount r r') : r.supplied ≤ r'.supplied := by
  obtain ⟨factor, hfactor, hindex⟩ := h.index
  rw [Reserve.supplied, Reserve.supplied, h.aToken, hindex]
  exact rayProduct_mono le_rfl (le_rayProduct_left (by rw [hfactor]; exact Nat.le_add_left _ _))

/-- The returns raise the supply by their premiums, up to three units for each; the supply
grows, so premiums that it covers at the start are covered in their turn. -/
theorem ReturnedAll.supply (h : ReturnedAll env asset amounts r r')
    (hs : r.aToken.ledger.totalSupply ≤ ray)
    (hpremiums : ∀ n ∈ amounts, premiumOf n ≤ r.supplied)
    (hT : r.supplied + allowed amounts ≤ 3 * ray) :
    |(r'.supplied : ℤ) - r.supplied - (amounts.map premiumOf).sum| ≤ 3 * amounts.length := by
  induction h with
  | nil => simp
  | @cons r r₁ r' amount amounts hfirst _ ih =>
    have herror := abs_le.mp (hfirst.supply hs ((Nat.le_add_right _ _).trans hT)
      (hpremiums amount List.mem_cons_self))
    have hgrown := hfirst.supplied_le
    simp only [allowed, List.map_cons, List.sum_cons, List.length_cons] at hT ih ⊢
    have hrest := abs_le.mp (ih (hfirst.aToken ▸ hs)
      (fun n hn => (hpremiums n (List.mem_cons_of_mem _ hn)).trans hgrown) (by omega))
    rw [abs_le]
    push_cast at hrest ⊢
    constructor <;> linarith

/-- At most the underlying of a reserve moved, and `n` of it left. -/
structure Taken (n : ℕ) (r r' : Reserve) : Prop where
  data : r'.data = r.data
  aToken : r'.aToken = r.aToken
  cash : r.cash = r'.cash + n

theorem takeOne_taken {premium : ℕ} (hreceiver : receiver ≠ (w.reserves asset).data.aTokenAddress)
    (h : takeOne w receiver asset amount = .ok (w', premium)) :
    premium = premiumOf amount ∧ Taken amount (w.reserves asset) (w'.reserves asset) ∧
      (∀ a ≠ asset, w'.reserves a = w.reserves a) ∧ w'.impl = w.impl := by
  simp only [takeOne, bind_ok, SafeMath.mul_ok, SafeMath.div_ok, pure_ok, Prod.mk.injEq] at h
  obtain ⟨_, ⟨-, rfl⟩, _, ⟨-, rfl⟩, r, hr, rfl, rfl⟩ := h
  obtain ⟨-, hn, rfl⟩ := AToken.transferUnderlyingTo_ok hr
  refine ⟨rfl, ⟨?_, ?_, ?_⟩, fun a ha => World.setReserve_reserves_of_ne ha, rfl⟩
  all_goals rw [World.setReserve_reserves_self]
  · rfl
  · rfl
  · rw [Reserve.cash, Reserve.cash, Reserve.withUnderlying_underlying, Reserve.withUnderlying_data,
      Reserve.move_balance hreceiver hn, Nat.sub_add_cancel hn]

theorem takeAll_taken (hlength : assets.length = amounts.length)
    (hreceiver : ∀ a ∈ assets, receiver ≠ (w.reserves a).data.aTokenAddress)
    (h : takeAll receiver w assets amounts = .ok (w', premiums)) :
    premiums = amounts.map premiumOf ∧ w'.impl = w.impl ∧
      ∀ a, Taken (amountsOf a assets amounts).sum (w.reserves a) (w'.reserves a) := by
  induction assets generalizing w amounts premiums with
  | nil =>
    obtain rfl := List.length_eq_zero_iff.mp hlength.symm
    obtain ⟨rfl, rfl⟩ := Prod.mk.inj (Except.ok.inj h)
    exact ⟨rfl, rfl, fun a => ⟨rfl, rfl, rfl⟩⟩
  | cons asset assets ih =>
    cases amounts with
    | nil => cases hlength
    | cons amount amounts =>
      simp only [takeAll, bind_ok, pure_ok, Prod.mk.injEq] at h
      obtain ⟨⟨w₁, premium⟩, h₁, ⟨w₂, premiums⟩, h₂, rfl, rfl⟩ := h
      obtain ⟨rfl, htaken, hothers, himpl⟩ :=
        takeOne_taken (hreceiver asset List.mem_cons_self) h₁
      have haddress : ∀ x, (w₁.reserves x).data.aTokenAddress =
          (w.reserves x).data.aTokenAddress := by
        intro x
        by_cases hx : x = asset
        · rw [hx, htaken.data]
        · rw [hothers x hx]
      obtain ⟨rfl, himpl', hrest⟩ := ih (Nat.succ.inj hlength)
        (fun x hx => haddress x ▸ hreceiver x (List.mem_cons_of_mem _ hx)) h₂
      refine ⟨rfl, himpl'.trans himpl, fun a => ?_⟩
      by_cases ha : asset = a
      · subst ha
        obtain ⟨hdata, haToken, hcash⟩ := hrest asset
        rw [amountsOf, if_pos rfl, List.sum_cons]
        refine ⟨hdata.trans htaken.data, haToken.trans htaken.aToken, ?_⟩
        rw [htaken.cash, hcash]
        omega
      · rw [amountsOf, if_neg ha, ← hothers a (Ne.symm ha)]
        exact hrest a

theorem amountsOf_ne_nil (hlength : assets.length = amounts.length)
    (h : asset ∈ assets) : amountsOf asset assets amounts ≠ [] := by
  induction assets generalizing amounts with
  | nil => cases h
  | cons a assets ih =>
    cases amounts with
    | nil => cases hlength
    | cons amount amounts =>
      unfold amountsOf
      split
      · exact List.cons_ne_nil _ _
      · next ha =>
        rcases List.mem_cons.mp h with rfl | h
        · exact absurd rfl ha
        · exact ih (Nat.succ.inj hlength) h

theorem totalSupply_of_supplied {impl : PoolImpl} {now : ℕ} (hr : r.UpdatedIn now)
    (haddress : r.data.aTokenAddress ≠ 0) (hT : r.supplied ≤ 10 * ray) :
    AToken.totalSupply impl now r = .ok r.supplied := by
  have hupper := HalfUp.upper (r.aToken.ledger.totalSupply * r.data.liquidityIndex) ray_pos
  have hword : ray * (10 * ray + 1) ≤ maxUint256 - halfRay := by decide
  have hfits : r.aToken.ledger.totalSupply * r.data.liquidityIndex ≤ maxUint256 - halfRay :=
    calc r.aToken.ledger.totalSupply * r.data.liquidityIndex
        ≤ ray * (r.supplied + 1) := (Nat.le_add_right _ _).trans hupper.le
      _ ≤ ray * (10 * ray + 1) := Nat.mul_le_mul_left ray (Nat.succ_le_succ hT)
      _ ≤ maxUint256 - halfRay := hword
  rw [AToken.totalSupply, require_pos _ haddress, ok_bind]
  split
  case isTrue hzero => simp [Reserve.supplied, hzero, pure, Except.pure]
  case isFalse =>
    rw [scaledBy, LendingPool.getReserveNormalizedIncome_fresh
      (hr.1.trans (uint40_of_lt hr.2).symm), ok_bind, rayMul_ok]
    exact ⟨hfits, rfl⟩

/-- A flash loan whose entries are all returned, from the call to its end: the receiver only
holds the funds in between, and the reserves were updated in this block. The reserves of the
loan gain their premiums as cash, the rates stored last are those for the final cash, and the
supply rises by the premiums up to three units for each entry, if it starts at no more than a
ray and with all that the entries may add stays within three. -/
theorem flashLoan_returned (env : Env) (w w₁ w₂ w' : World) (sender : Address) (loan : FlashLoan)
    (premiums : List ℕ) (hmodes : ∀ m ∈ loan.modes, m = 0)
    (htake : flashLoanTake w loan = .ok (w₁, premiums)) (hholds : Holds w₁ w₂)
    (hsettle : flashLoanSettle env w₂ sender loan premiums = .ok w')
    (hupdated : ∀ a ∈ loan.assets, (w.reserves a).UpdatedIn env.timestamp)
    (hreceiver : ∀ a ∈ loan.assets,
      loan.receiverAddress ≠ (w.reserves a).data.aTokenAddress) :
    ∀ asset ∈ loan.assets,
      (w'.reserves asset).cash = (w.reserves asset).cash +
        ((amountsOf asset loan.assets loan.amounts).map premiumOf).sum ∧
      ReflectsLiquidity env asset (w'.reserves asset) ∧
      ∀ total, AToken.totalSupply w.impl env.timestamp (w.reserves asset) = .ok total →
        total ≤ ray → (w.reserves asset).aToken.ledger.totalSupply ≤ ray →
        (∀ n ∈ amountsOf asset loan.assets loan.amounts, premiumOf n ≤ total) →
        total + allowed (amountsOf asset loan.assets loan.amounts) ≤ 3 * ray →
        ∃ total', AToken.totalSupply w'.impl env.timestamp (w'.reserves asset) = .ok total' ∧
          |(total' : ℤ) - total - ((amountsOf asset loan.assets loan.amounts).map premiumOf).sum| ≤
            3 * (amountsOf asset loan.assets loan.amounts).length := by
  simp only [flashLoanTake, bind_ok, exists_unit, require_ok] at htake
  obtain ⟨-, -, hlength, htake⟩ := htake
  obtain ⟨rfl, himpl₁, htaken⟩ := takeAll_taken hlength hreceiver htake
  have hheld : ∀ a, ∃ allowances, w₂.reserves a = (w₁.reserves a).withUnderlying
      ⟨(w₁.reserves a).underlying.ledger, allowances⟩ := hholds.reserves
  have hdata : ∀ a, (w₂.reserves a).data = (w.reserves a).data := by
    intro a
    obtain ⟨allowances, hw₂⟩ := hheld a
    rw [hw₂, Reserve.withUnderlying_data, (htaken a).data]
  have hupdated₂ : ∀ a ∈ loan.assets, (w₂.reserves a).UpdatedIn env.timestamp := by
    intro a ha
    rw [Reserve.UpdatedIn, hdata a]
    exact hupdated a ha
  obtain ⟨-, hreturned⟩ := settleAll_returned hmodes hupdated₂
    (fun a ha => (hdata a).symm ▸ hreceiver a ha) hsettle
  intro asset hasset
  have hback := hreturned asset
  obtain ⟨allowances, hw₂⟩ := hheld asset
  have hcash₂ : (w₂.reserves asset).cash = (w₁.reserves asset).cash := by
    rw [hw₂]
    rfl
  have haToken₂ : (w₂.reserves asset).aToken = (w.reserves asset).aToken := by
    rw [hw₂]
    exact (htaken asset).aToken
  have hsupplied₂ : (w₂.reserves asset).supplied = (w.reserves asset).supplied := by
    rw [Reserve.supplied, Reserve.supplied, haToken₂, hdata]
  refine ⟨?_, ?_, fun total htotal hray hscaled hpremiums hallowed => ?_⟩
  · rw [hback.cash, hcash₂, (htaken asset).cash]
    omega
  · exact hback.reflects fun hnone => absurd hnone (amountsOf_ne_nil hlength hasset)
  · obtain rfl := totalSupply_updated (hupdated asset hasset) htotal
    have herror := hback.supply (by rw [haToken₂]; exact hscaled)
      (by rw [hsupplied₂]; exact hpremiums) (by rw [hsupplied₂]; exact hallowed)
    rw [hsupplied₂] at herror
    refine ⟨_, totalSupply_of_supplied (hback.updated (hupdated₂ asset hasset)) ?_ ?_, herror⟩
    · rw [hback.aTokenAddress, hdata]
      simp only [AToken.totalSupply, bind_ok, exists_unit, require_ok] at htotal
      exact htotal.1
    · have hupper := (abs_le.mp herror).2
      rw [allowed] at hallowed
      omega

theorem Holds.refl (w : World) : Holds w w := ⟨rfl, fun _ => ⟨_, rfl⟩⟩

def donatedUnderlying : ERC20 :=
  ⟨((Ledger.empty.credit 11 (10 ^ 27)).credit 12 (10 ^ 29)).credit 101 (10 ^ 32),
    fun _ _ => 10 ^ 33⟩

def donatedStart : World := initialWorld (fun _ => donatedUnderlying) .lendingPool 99

def suppliedRay : List Transaction :=
  sampleListing 40 1 9 ++ sampleListing 40 2 9 ++
    [⟨sampleEnv 40, 11, .deposit 1 (10 ^ 27) 11⟩, ⟨sampleEnv 40, 11, .deposit 2 (10 ^ 26) 11⟩]

def repeatedLoan (times amount : ℕ) : FlashLoan :=
  ⟨12, List.replicate times 1, List.replicate times amount, List.replicate times 0, 12⟩

def mixedLoan : FlashLoan := ⟨12, [1, 2, 1], [10 ^ 6, 10 ^ 7, 2 * 10 ^ 6], [0, 0, 0], 12⟩

set_option synthInstance.maxSize 256 in
theorem suppliedRay_repeated : (do
    let w ← runAll donatedStart suppliedRay
    let (w₁, premiums) ← flashLoanTake w (repeatedLoan 39 (1026 * 10 ^ 27))
    let w' ← flashLoanSettle (sampleEnv 40) w₁ 12 (repeatedLoan 39 (1026 * 10 ^ 27)) premiums
    let total ← AToken.totalSupply w.impl 40 (w.reserves 1)
    let total' ← AToken.totalSupply w'.impl 40 (w'.reserves 1)
    return (total, (w.reserves 1).aToken.ledger.totalSupply, total',
      (w.reserves 1).data.lastUpdateTimestamp, (w.reserves 1).data.aTokenAddress)) =
    .ok (10 ^ 27, 10 ^ 27, 10 ^ 27 + 39 * (9234 * 10 ^ 23) + 121, 40, 101) := by
  decide +kernel

theorem amountsOf_replicate (asset : Address) (times amount : ℕ) :
    amountsOf asset (List.replicate times asset) (List.replicate times amount) =
      List.replicate times amount := by
  induction times with
  | zero => rfl
  | succ times ih => rw [List.replicate_succ, List.replicate_succ, amountsOf, if_pos rfl, ih]

/-- Each premium is below the supply, which grows forty-fold and with it what the rounded
ratio is worth. -/
theorem repeated_entries_drift : ¬ ∀ (env : Env) (w w₁ w₂ w' : World) (sender : Address)
    (loan : FlashLoan) (premiums : List ℕ) (asset : Address) (total total' : ℕ),
    Reachable ⟨w, env.timestamp, []⟩ → (∀ m ∈ loan.modes, m = 0) →
    flashLoanTake w loan = .ok (w₁, premiums) → Holds w₁ w₂ →
    flashLoanSettle env w₂ sender loan premiums = .ok w' →
    (∀ a ∈ loan.assets, (w.reserves a).UpdatedIn env.timestamp) →
    (∀ a ∈ loan.assets, loan.receiverAddress ≠ (w.reserves a).data.aTokenAddress) →
    asset ∈ loan.assets →
    AToken.totalSupply w.impl env.timestamp (w.reserves asset) = .ok total → total ≤ ray →
    (w.reserves asset).aToken.ledger.totalSupply ≤ ray →
    (∀ n ∈ amountsOf asset loan.assets loan.amounts, premiumOf n ≤ total) →
    AToken.totalSupply w'.impl env.timestamp (w'.reserves asset) = .ok total' →
    |(total' : ℤ) - total - ((amountsOf asset loan.assets loan.amounts).map premiumOf).sum| ≤
      3 * (amountsOf asset loan.assets loan.amounts).length := by
  intro hreturns
  obtain ⟨w, hrun, hrest⟩ := bind_ok.mp suppliedRay_repeated
  obtain ⟨⟨w₁, premiums⟩, htake, hrest⟩ := bind_ok.mp hrest
  obtain ⟨w', hsettle, hrest⟩ := bind_ok.mp hrest
  obtain ⟨total, htotal, hrest⟩ := bind_ok.mp hrest
  obtain ⟨total', htotal', hrest⟩ := bind_ok.mp hrest
  simp only [pure_ok, Prod.mk.injEq] at hrest
  obtain ⟨rfl, hscaled, rfl, hupdated, haddress⟩ := hrest
  have honly : ∀ a ∈ (repeatedLoan 39 (1026 * 10 ^ 27)).assets, a = 1 :=
    fun a ha => (List.mem_replicate.mp ha).2
  have hamounts : amountsOf 1 (repeatedLoan 39 (1026 * 10 ^ 27)).assets
      (repeatedLoan 39 (1026 * 10 ^ 27)).amounts = List.replicate 39 (1026 * 10 ^ 27) :=
    amountsOf_replicate 1 39 _
  have hdrift := hreturns (sampleEnv 40) w w₁ w₁ w' 12 _ premiums 1 _ _
    (.runAll (by decide) (.initial _ _ _ _) hrun) (fun m hm => (List.mem_replicate.mp hm).2)
    htake (.refl w₁) hsettle
    (fun a ha => (honly a ha).symm ▸ ⟨hupdated, by decide⟩)
    (fun a ha => (honly a ha).symm ▸ haddress.symm ▸ by decide) (by decide) htotal (by decide)
    (hscaled.trans_le (by decide)) (by rw [hamounts]; decide) htotal'
  rw [hamounts] at hdrift
  exact absurd hdrift (by decide)

set_option synthInstance.maxSize 256 in
theorem suppliedRay_mixed : (do
    let w ← runAll donatedStart suppliedRay
    let (w₁, premiums) ← flashLoanTake w mixedLoan
    let _ ← flashLoanSettle (sampleEnv 40) w₁ 12 mixedLoan premiums
    let total ← AToken.totalSupply w.impl 40 (w.reserves 1)
    return (premiums, total, (w.reserves 1).aToken.ledger.totalSupply,
      (w.reserves 1).data.lastUpdateTimestamp, (w.reserves 2).data.lastUpdateTimestamp,
      (w.reserves 1).data.aTokenAddress, (w.reserves 2).data.aTokenAddress)) =
    .ok ([900, 9000, 1800], 10 ^ 27, 10 ^ 27, 40, 40, 101, 101) := by
  decide +kernel

theorem flashLoan_returned_mixed : ∃ w w' : World, Reachable ⟨w, 40, []⟩ ∧
    (w'.reserves 1).cash = (w.reserves 1).cash + 2700 ∧
    ReflectsLiquidity (sampleEnv 40) 1 (w'.reserves 1) ∧
    ∃ total', AToken.totalSupply w'.impl 40 (w'.reserves 1) = .ok total' ∧
      |(total' : ℤ) - 10 ^ 27 - 2700| ≤ 6 := by
  obtain ⟨w, hrun, hrest⟩ := bind_ok.mp suppliedRay_mixed
  obtain ⟨⟨w₁, premiums⟩, htake, hrest⟩ := bind_ok.mp hrest
  obtain ⟨w', hsettle, hrest⟩ := bind_ok.mp hrest
  obtain ⟨total, htotal, hrest⟩ := bind_ok.mp hrest
  simp only [pure_ok, Prod.mk.injEq] at hrest
  obtain ⟨-, rfl, hscaled, hupdated, hupdated₂, haddress, haddress₂⟩ := hrest
  have honly : ∀ a ∈ mixedLoan.assets, a = 1 ∨ a = 2 := by decide
  obtain ⟨hcash, hreflects, hsupply⟩ := flashLoan_returned (sampleEnv 40) w w₁ w₁ w' 12 mixedLoan
    premiums (by decide) htake (.refl w₁) hsettle
    (by rintro a ha
        rcases honly a ha with rfl | rfl
        · exact ⟨hupdated, by decide⟩
        · exact ⟨hupdated₂, by decide⟩)
    (by rintro a ha
        rcases honly a ha with rfl | rfl
        · rw [haddress]; decide
        · rw [haddress₂]; decide) 1 (by decide)
  exact ⟨w, w', .runAll (by decide) (.initial _ _ _ _) hrun, hcash, hreflects,
    hsupply _ htotal (by decide) (hscaled.trans_le (by decide)) (by decide) (by decide)⟩

end LendingPool

end Moola
