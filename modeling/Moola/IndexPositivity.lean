import Moola.BalanceSheet
import Moola.Underflow

/-! The liquidity index as the divisor of every later call on the aToken. Accrual and
premiums only raise it. A loss multiplies it by what is left of one ray, which is nothing
when the loss is the whole supply or so much of it that the rest rounds away; then the
index is zero, and the reserve accepts no further deposit. -/

namespace Moola

open Guard WadRayMath

/-- The least factor in ray that an index survives: half a unit is rounded up to one. -/
def leastFactor (index : ℕ) : ℕ := (ray + 2 * index - 1) / (2 * index)

/-- A loss, against what suppliers are owed, that leaves this factor of the index. -/
def Reserve.LeavesIndex (r : Reserve) (loss : ℕ) : Prop :=
  2 * loss * ray < r.supplied * (2 * (ray - leastFactor r.data.liquidityIndex) + 1)

instance (r : Reserve) (loss : ℕ) : Decidable (r.LeavesIndex loss) := by
  unfold Reserve.LeavesIndex
  infer_instance

def Machine.Event.Spares (m : Machine) : Machine.Event → Prop
  | .call _ _ c => ∀ asset loss, c = .updateLiquidtyIndexForLoss asset loss →
      (m.world.reserves asset).LeavesIndex loss
  | _ => True

/-- The states of the runs, under whatever implementations of the pool, in which every
loss leaves an index. -/
inductive SparingRun : Machine → Prop
  | initial (underlying : Address → ERC20) (impl : PoolImpl) (self : Address) (time : ℕ) :
      SparingRun ⟨initialWorld underlying impl self, time, []⟩
  | step {m m' : Machine} : SparingRun m → StepIf (fun m e => e.Spares m) m m' → SparingRun m'

theorem SparingRun.reachable {m : Machine} (h : SparingRun m) : Reachable m := by
  induction h with
  | initial underlying impl self time => exact .initial underlying impl self time
  | step _ hs ih => exact .step ih hs.step

namespace Reserve

variable {env : Env} {asset : Address} {r r' : Reserve} {a : Action} {l : List Action}
  {fresh : Bool}

theorem liquidityIndex_mono_apply (h : r.apply env asset a = .ok r')
    (ha : ∀ index, a ≠ .setLiquidityIndex index) :
    r.data.liquidityIndex ≤ r'.data.liquidityIndex := by
  cases a with
  | updateState impl =>
    obtain ⟨start, -, he⟩ := LendingPool.updateState_eq impl env.timestamp r
    rw [apply, he] at h
    obtain ⟨-, -, minted, rfl, -⟩ := ReserveLogic.updateStateFrom_ok h
    exact ReserveLogic.le_accruedLiquidityIndex _ _
  | mintDebt mode user onBehalfOf amount => exact (apply_data h trivial) ▸ le_rfl
  | burnDebt mode user amount => exact (apply_data h trivial) ▸ le_rfl
  | setLiquidityIndex index => exact absurd rfl (ha index)
  | _ => exact (apply_passive h trivial).2

end Reserve

theorem Accruing.ne_setLiquidityIndex {fresh : Bool} {l : List Action} (h : Accruing fresh l) :
    ∀ a ∈ l, ∀ index, a ≠ .setLiquidityIndex index := by
  induction l generalizing fresh with
  | nil => exact fun a ha => absurd ha List.not_mem_nil
  | cons b l ih =>
    intro a ha index
    rcases List.mem_cons.mp ha with rfl | htail
    · rintro rfl
      exact h
    · cases b with
      | updateState impl => exact ih h a htail index
      | mintDebt => exact ih h.2 a htail index
      | burnDebt => exact ih h.2 a htail index
      | setLiquidityIndex => exact absurd h id
      | _ => exact ih h a htail index

theorem AccruingEffect.liquidityIndex_mono {env : Env} {w w' : World} (h : AccruingEffect env w w')
    (asset : Address) :
    (w.reserves asset).data.liquidityIndex ≤ (w'.reserves asset).data.liquidityIndex := by
  obtain ⟨l, heffect, hl⟩ := h
  exact @Reserve.run_induction env asset _ _
    (fun r r' => r.data.liquidityIndex ≤ r'.data.liquidityIndex) _ (heffect.run asset)
    (fun _ => le_rfl) (fun _ _ _ => le_trans)
    fun a ha r r' hr => Reserve.liquidityIndex_mono_apply hr ((hl asset).ne_setLiquidityIndex a ha)

theorem leastFactor_le_iff {index factor : ℕ} (hindex : 0 < index) :
    leastFactor index ≤ factor ↔ ray ≤ 2 * index * factor := by
  have hdiv : leastFactor index < factor + 1 ↔ ray + 2 * index - 1 < (factor + 1) * (2 * index) :=
    Nat.div_lt_iff_lt_mul (by omega)
  rw [← Nat.lt_succ_iff, Nat.succ_eq_add_one, hdiv, add_mul, one_mul, mul_comm (2 * index)]
  omega

/-- One loss leaves an index exactly when it leaves the least factor. -/
theorem loss_leaves_index_iff {r : Reserve} {loss ratio : ℕ} (hindex : 0 < r.data.liquidityIndex)
    (hsupplied : r.supplied ≠ 0)
    (hratio : ratio = rayQuotient (loss * wadRayRatio) (r.supplied * wadRayRatio))
    (hle : ratio ≤ ray) :
    0 < rayProduct (ray - ratio) r.data.liquidityIndex ↔ r.LeavesIndex loss := by
  have hfactor : 0 < rayProduct (ray - ratio) r.data.liquidityIndex ↔
      ray ≤ 2 * r.data.liquidityIndex * (ray - ratio) := by
    rw [Nat.pos_iff_ne_zero, ne_eq, rayProduct, HalfUp.eq_zero_iff ray_pos, not_lt, mul_assoc 2,
      mul_comm (ray - ratio)]
  have hsmall : leastFactor r.data.liquidityIndex ≤ ray := by
    rw [leastFactor_le_iff hindex]
    exact Nat.le_mul_of_pos_left ray (by omega)
  have hround : ratio ≤ ray - leastFactor r.data.liquidityIndex ↔ r.LeavesIndex loss := by
    rw [← Nat.not_lt, ← Nat.succ_le_iff, hratio, rayQuotient, Reserve.LeavesIndex]
    generalize ray - leastFactor r.data.liquidityIndex = rest
    rw [HalfUp.le_div_iff (Nat.pos_of_ne_zero (Nat.mul_ne_zero hsupplied wadRayRatio_pos.ne')),
      not_le, Nat.succ_eq_add_one]
    have hloss : 2 * (loss * wadRayRatio * ray) + r.supplied * wadRayRatio =
        wadRayRatio * (2 * loss * ray + r.supplied) := by ring
    have hrest : 2 * (r.supplied * wadRayRatio * (rest + 1)) =
        wadRayRatio * (r.supplied * (2 * rest + 1) + r.supplied) := by ring
    rw [hloss, hrest, Nat.mul_lt_mul_left wadRayRatio_pos, Nat.add_lt_add_iff_right]
  rw [hfactor, ← leastFactor_le_iff hindex, ← hround]
  omega

def World.Indexed (w : World) : Prop :=
  ∀ asset, (w.reserves asset).data.aTokenAddress ≠ 0 → 0 < (w.reserves asset).data.liquidityIndex

variable {env : Env} {w w' : World} {sender asset : Address} {loss : ℕ}

theorem updateLiquidtyIndexForLoss_leaves_iff (hw : w.Indexed)
    (h : LendingPool.updateLiquidtyIndexForLoss env w sender asset loss = .ok w') :
    (0 < (w'.reserves asset).data.liquidityIndex ↔ (w.reserves asset).LeavesIndex loss) ∧
      ∀ x, x ≠ asset → w'.reserves x = w.reserves x := by
  obtain ⟨himpl, total, ratio, htotal, hne, hratio, hle, hw'⟩ :=
    LendingPool.updateLiquidtyIndexForLoss_ok h
  rw [himpl] at htotal
  have haToken : (w.reserves asset).data.aTokenAddress ≠ 0 := by
    simp only [AToken.totalSupply, bind_unit_ok, require_ok] at htotal
    exact htotal.1
  obtain rfl := totalSupply_eq_supplied htotal
  have hiff := loss_leaves_index_iff (hw asset haToken) hne hratio hle
  generalize rayProduct (ray - ratio) (w.reserves asset).data.liquidityIndex = index at hiff hw'
  subst hw'
  refine ⟨?_, fun x hx => World.setReserve_reserves_of_ne hx⟩
  rw [World.setReserve_reserves_self, Reserve.withData_data, hiff]

theorem AccruingEffect.indexed (h : AccruingEffect env w w') (hw : w.Indexed) : w'.Indexed := by
  intro asset ha
  have haToken := (Reserve.run_evolves (h.choose_spec.1.run asset)).aTokenAddress
  rw [haToken] at ha
  exact (hw asset ha).trans_le (h.liquidityIndex_mono asset)

theorem exec_indexed {c : Call} (hframe : w.WellFormed) (hw : w.Indexed)
    (hspares : ∀ asset loss, c = .updateLiquidtyIndexForLoss asset loss →
      (w.reserves asset).LeavesIndex loss)
    (h : exec env w sender c = .ok w') : w'.Indexed := by
  rcases AccruingEffect.exec h with
    heffect | ⟨asset, loss, rfl⟩ | ⟨asset, p, strategy, rfl⟩ | ⟨impl, rfl⟩
  · exact heffect.indexed hw
  · obtain ⟨hiff, hothers⟩ := updateLiquidtyIndexForLoss_leaves_iff hw h
    intro x hx
    by_cases hxa : x = asset
    · subst hxa
      exact hiff.mpr (hspares x loss rfl)
    · rw [hothers x hxa] at hx ⊢
      exact hw x hx
  · obtain ⟨-, -, -, rfl⟩ := hframe.initReserve_ok h
    intro x hx
    by_cases hxa : x = asset
    · subst hxa
      simp only [write_self]
      exact ray_pos
    · simp only [write_of_ne _ _ hxa] at hx ⊢
      exact hw x hx
  · rw [← Except.ok.inj h]
    exact hw

theorem SparingRun.indexed {m : Machine} (h : SparingRun m) : m.world.Indexed := by
  induction h with
  | initial underlying impl self time => exact fun asset ha => absurd rfl ha
  | @step m m' hm hs ih =>
    cases hs with
    | fires hspares hfires =>
      cases hfires with
      | call _ hc => exact exec_indexed hm.reachable.wellFormed ih hspares hc
      | flashLoanTake hc => exact (@AccruingEffect.take (sampleEnv m.time) _ _ _ _ hc).indexed ih
      | flashLoanSettle _ _ hc => exact (AccruingEffect.settleAll hc).indexed ih
    | tick => exact ih

def Revert.NotByZero (e : Revert) : Prop := e ≠ .mathDivisionByZero

instance (e : Revert) : Decidable e.NotByZero := inferInstanceAs (Decidable (e ≠ _))

open Revert (NotByZero)

section Tokens

variable {r : Reserve} {l : Ledger Address} {user onBehalfOf recipient : Address}
  {amount index now : ℕ} {impl : PoolImpl}

theorem Revert.IsOverflow.notByZero {e : Revert} (h : e.IsOverflow) : e.NotByZero := by
  rcases h with rfl | rfl | rfl <;> decide

theorem rayDiv_notByZero (hindex : index ≠ 0) : FailsOnly NotByZero (rayDiv amount index) :=
  (rayDiv_fails hindex).mono fun _ => Revert.IsOverflow.notByZero

theorem IncentivizedERC20.mint_notByZero :
    FailsOnly NotByZero (IncentivizedERC20.mint l user amount) :=
  .bind_unit (.require fun _ => by decide) fun _ =>
    .bind_unit (.require fun _ => by decide) fun _ => .pure _

theorem IncentivizedERC20.burn_notByZero :
    FailsOnly NotByZero (IncentivizedERC20.burn l user amount) := by
  refine .bind_unit (.require fun _ => by decide) fun _ => ?_
  refine .bind_unit (.require fun _ => by decide) fun _ => ?_
  split
  case isTrue => exact .ok _
  case isFalse =>
    rintro _ ⟨⟩
    decide

theorem IncentivizedERC20.transfer_notByZero :
    FailsOnly NotByZero (IncentivizedERC20.transfer l user recipient amount) := by
  refine .bind_unit (.require fun _ => by decide) fun _ => ?_
  refine .bind_unit (.require fun _ => by decide) fun _ => ?_
  split
  case isTrue => exact .bind_unit (.require fun _ => by decide) fun _ => .pure _
  case isFalse =>
    rintro _ ⟨⟩
    decide

theorem ERC20.transfer_notByZero {t : ERC20} :
    FailsOnly NotByZero (t.transfer user recipient amount) := by
  refine .bind_unit (.require fun _ => by decide) fun _ => ?_
  refine .bind_unit (.require fun _ => by decide) fun _ => ?_
  split
  case isTrue => exact .pure _
  case isFalse =>
    rintro _ ⟨⟩
    decide

theorem spendBorrowAllowance_notByZero {allowances : Address → Address → ℕ} :
    FailsOnly NotByZero (spendBorrowAllowance allowances user onBehalfOf amount) := by
  unfold spendBorrowAllowance
  split
  case isFalse => exact .ok _
  case isTrue =>
    refine .bind ?_ fun _ _ => .pure _
    intro e he
    rw [← (SafeMath.sub_error.mp he).2]
    decide

theorem AToken.mint_notByZero (hindex : index ≠ 0) :
    FailsOnly NotByZero (AToken.mint r user amount index) :=
  .bind_unit (.require fun _ => by decide) fun _ => .bind (rayDiv_notByZero hindex) fun _ _ =>
    .bind_unit (.require fun _ => by decide) fun _ =>
      .bind IncentivizedERC20.mint_notByZero fun _ _ => .pure _

theorem AToken.mintToTreasury_notByZero (hindex : index ≠ 0) :
    FailsOnly NotByZero (AToken.mintToTreasury r amount index) := by
  refine .bind_unit (.require fun _ => by decide) fun _ => ?_
  split
  case isTrue => exact .pure _
  case isFalse =>
    exact .bind (rayDiv_notByZero hindex) fun _ _ =>
      .bind IncentivizedERC20.mint_notByZero fun _ _ => .pure _

theorem AToken.burn_notByZero (hindex : index ≠ 0) :
    FailsOnly NotByZero (AToken.burn r user recipient amount index) :=
  .bind_unit (.require fun _ => by decide) fun _ => .bind (rayDiv_notByZero hindex) fun _ _ =>
    .bind_unit (.require fun _ => by decide) fun _ =>
      .bind IncentivizedERC20.burn_notByZero fun _ _ =>
        .bind ERC20.transfer_notByZero fun _ _ => .pure _

theorem le_getReserveNormalizedIncome {d : ReserveData}
    (h : LendingPool.getReserveNormalizedIncome impl d now = .ok index) :
    d.liquidityIndex ≤ index := by
  have haccrues (h : ReserveLogic.getNormalizedIncome d now = .ok index) :
      d.liquidityIndex ≤ index := by
    unfold ReserveLogic.getNormalizedIncome at h
    split at h
    case isTrue => exact (Except.ok.inj h).le
    case isFalse =>
      simp only [bind_ok, rayMul_ok] at h
      obtain ⟨factor, hfactor, -, rfl⟩ := h
      obtain ⟨-, rfl⟩ := MathUtils.calculateLinearInterest_ok hfactor
      exact le_rayProduct_left (MathUtils.ray_le_linearFactor _ _)
  cases impl
  case withUpdateLiquidityIndex => exact (Except.ok.inj h).le
  all_goals exact haccrues h

theorem AToken.move_notByZero (hindex : 0 < r.data.liquidityIndex)
    (htime : r.data.lastUpdateTimestamp ≤ now) :
    FailsOnly NotByZero (AToken.move impl now r user recipient amount) := by
  refine .bind_unit (.require fun _ => by decide) fun _ => ?_
  refine .bind ((LendingPool.getReserveNormalizedIncome_fails htime).mono
    fun _ => Revert.IsOverflow.notByZero) fun index hi => ?_
  have hpos : index ≠ 0 := (hindex.trans_le (le_getReserveNormalizedIncome hi)).ne'
  refine .bind (rayMul_fails.mono fun _ => Revert.IsOverflow.notByZero) fun _ _ => ?_
  refine .bind (rayMul_fails.mono fun _ => Revert.IsOverflow.notByZero) fun _ _ => ?_
  exact .bind (rayDiv_notByZero hpos) fun _ _ =>
    .bind IncentivizedERC20.transfer_notByZero fun _ _ => .pure _

theorem VariableDebtToken.mint_notByZero (hindex : index ≠ 0) :
    FailsOnly NotByZero (VariableDebtToken.mint r user onBehalfOf amount index) :=
  .bind_unit (.require fun _ => by decide) fun _ =>
    .bind spendBorrowAllowance_notByZero fun _ _ =>
      .bind (rayDiv_notByZero hindex) fun _ _ => .bind_unit (.require fun _ => by decide) fun _ =>
        .bind IncentivizedERC20.mint_notByZero fun _ _ => .pure _

theorem VariableDebtToken.burn_notByZero (hindex : index ≠ 0) :
    FailsOnly NotByZero (VariableDebtToken.burn r user amount index) :=
  .bind_unit (.require fun _ => by decide) fun _ => .bind (rayDiv_notByZero hindex) fun _ _ =>
    .bind_unit (.require fun _ => by decide) fun _ =>
      .bind IncentivizedERC20.burn_notByZero fun _ _ => .pure _

end Tokens

/-- The indexes a reserve has stored can be divided by, and so can those that accrue from
them: no token operation at such an index fails with a division by zero. -/
structure Reserve.Usable (impl : PoolImpl) (now : ℕ) (r : Reserve) : Prop where
  liquidityIndex : 0 < r.data.liquidityIndex
  variableBorrowIndex : ray ≤ r.data.variableBorrowIndex
  mint : ∀ user amount index, r.data.liquidityIndex ≤ index →
    FailsOnly NotByZero (AToken.mint r user amount index)
  burn : ∀ user receiver amount index, r.data.liquidityIndex ≤ index →
    FailsOnly NotByZero (AToken.burn r user receiver amount index)
  mintToTreasury : ∀ amount index, r.data.liquidityIndex ≤ index →
    FailsOnly NotByZero (AToken.mintToTreasury r amount index)
  move : ∀ sender recipient amount,
    FailsOnly NotByZero (AToken.move impl now r sender recipient amount)
  mintDebt : ∀ user onBehalfOf amount index, r.data.variableBorrowIndex ≤ index →
    FailsOnly NotByZero (VariableDebtToken.mint r user onBehalfOf amount index)
  burnDebt : ∀ user amount index, r.data.variableBorrowIndex ≤ index →
    FailsOnly NotByZero (VariableDebtToken.burn r user amount index)

theorem Reserve.usable {impl : PoolImpl} {now : ℕ} {r : Reserve}
    (hindex : 0 < r.data.liquidityIndex) (hborrow : ray ≤ r.data.variableBorrowIndex)
    (htime : r.data.lastUpdateTimestamp ≤ now) : r.Usable impl now where
  liquidityIndex := hindex
  variableBorrowIndex := hborrow
  mint _ _ _ hle := AToken.mint_notByZero (hindex.trans_le hle).ne'
  burn _ _ _ _ hle := AToken.burn_notByZero (hindex.trans_le hle).ne'
  mintToTreasury _ _ hle := AToken.mintToTreasury_notByZero (hindex.trans_le hle).ne'
  move _ _ _ := AToken.move_notByZero hindex htime
  mintDebt _ _ _ _ hle :=
    VariableDebtToken.mint_notByZero (ray_pos.trans_le (hborrow.trans hle)).ne'
  burnDebt _ _ _ hle :=
    VariableDebtToken.burn_notByZero (ray_pos.trans_le (hborrow.trans hle)).ne'

/-- In every run whose losses all leave an index, every initialized reserve stays usable; and
a further loss keeps it so exactly when it leaves an index as well. -/
theorem sparing_run_usable {m : Machine} (h : SparingRun m) {asset : Address}
    (ha : (m.world.reserves asset).data.aTokenAddress ≠ 0) :
    (m.world.reserves asset).Usable m.world.impl m.time ∧
      ∀ (env : Env) (sender : Address) (loss : ℕ) (w' : World),
        exec env m.world sender (.updateLiquidtyIndexForLoss asset loss) = .ok w' →
        (0 < (w'.reserves asset).data.liquidityIndex ↔
          (m.world.reserves asset).LeavesIndex loss) :=
  ⟨Reserve.usable (h.indexed asset ha) (h.reachable.wellFormed.indexed asset ha)
      (h.reachable.clock asset).lastUpdateTimestamp,
    fun _ _ _ _ hloss => (updateLiquidtyIndexForLoss_leaves_iff h.indexed hloss).1⟩

theorem SparingRun.runAll {time : ℕ} {loans : List PendingLoan} {ts : List Transaction}
    {w w' : World} (htime : ∀ t ∈ ts, t.env.timestamp = time)
    (hcall : ∀ t ∈ ts, ∀ asset loss, t.call ≠ .updateLiquidtyIndexForLoss asset loss)
    (h : SparingRun ⟨w, time, loans⟩) (hrun : Moola.runAll w ts = .ok w') :
    SparingRun ⟨w', time, loans⟩ := by
  refine runAll_preserves (P := fun w => SparingRun ⟨w, time, loans⟩) ?_ h hrun
  intro t ht w₁ w₂ hw₁ hexec
  have hspares : (Machine.Event.call t.env t.sender t.call).Spares ⟨w₁, time, loans⟩ :=
    fun asset loss hloss => absurd hloss (hcall t ht asset loss)
  exact .step hw₁ (.fires hspares (.call (htime t ht) hexec))

def beforeLoss : List Transaction :=
  sampleListing 40 1 9 ++ [⟨sampleEnv 40, 11, .deposit 1 9 11⟩]

def lossPoolStart : World :=
  initialWorld (fun _ => sampleUnderlying) .withUpdateLiquidityIndex 99

theorem beforeLoss_losses : (do
    let w ← runAll lossPoolStart beforeLoss
    let whole ← runAll w [⟨sampleEnv 40, 7, .updateLiquidtyIndexForLoss 1 9⟩]
    let deposited := (exec (sampleEnv 40) whole 12 (.deposit 1 100 12)).map fun _ => ()
    let part ← exec (sampleEnv 40) w 7 (.updateLiquidtyIndexForLoss 1 8)
    return ((whole.reserves 1).data.aTokenAddress, (whole.reserves 1).data.liquidityIndex,
      deposited, (part.reserves 1).data.aTokenAddress,
      decide ((w.reserves 1).LeavesIndex 8))) =
    .ok (101, 0, .error .mathDivisionByZero, 101, true) := by
  decide +kernel

/-- All nine units are written down: the index is zero, and the next deposit divides by it. -/
theorem index_written_to_zero : ¬ ∀ (m : Machine) (asset : Address),
    ReachableUnder .withUpdateLiquidityIndex m →
    (m.world.reserves asset).data.aTokenAddress ≠ 0 →
    0 < (m.world.reserves asset).data.liquidityIndex ∧
      ray ≤ (m.world.reserves asset).data.variableBorrowIndex := by
  intro hpositive
  obtain ⟨w, hrun, hrest⟩ := bind_ok.mp beforeLoss_losses
  obtain ⟨whole, hwhole, hrest⟩ := bind_ok.mp hrest
  obtain ⟨part, -, hrest⟩ := bind_ok.mp hrest
  simp only [pure_ok, Prod.mk.injEq] at hrest
  obtain ⟨ha, hindex, -⟩ := hrest
  have hbefore : ReachableUnder .withUpdateLiquidityIndex ⟨w, 40, []⟩ :=
    .runAll (by decide) (by simp [beforeLoss, sampleListing]) (.initial _ _ _) hrun
  have hreach : ReachableUnder .withUpdateLiquidityIndex ⟨whole, 40, []⟩ :=
    hbefore.runAll (by decide) (by simp) hwhole
  exact absurd hindex (hpositive _ 1 hreach (by rw [ha]; decide)).1.ne'

/-- Eight of the nine units are written down. -/
theorem sparing_run_usable_sample : ∃ w, SparingRun ⟨w, 40, []⟩ ∧
    (w.reserves 1).Usable w.impl 40 := by
  obtain ⟨w, hrun, hrest⟩ := bind_ok.mp beforeLoss_losses
  obtain ⟨whole, -, hrest⟩ := bind_ok.mp hrest
  obtain ⟨part, hpart, hrest⟩ := bind_ok.mp hrest
  simp only [pure_ok, Prod.mk.injEq, decide_eq_true_eq] at hrest
  obtain ⟨-, -, -, ha, hleaves⟩ := hrest
  have hbefore : SparingRun ⟨w, 40, []⟩ :=
    .runAll (by decide) (by simp [beforeLoss, sampleListing]) (.initial _ _ _ _) hrun
  have hspares : (Machine.Event.call (sampleEnv 40) 7 (.updateLiquidtyIndexForLoss 1 8)).Spares
      ⟨w, 40, []⟩ := by
    intro asset loss hloss
    obtain ⟨rfl, rfl⟩ := Call.updateLiquidtyIndexForLoss.inj hloss
    exact hleaves
  have hafter : SparingRun ⟨part, 40, []⟩ := .step hbefore (.fires hspares (.call rfl hpart))
  exact ⟨part, hafter, (sparing_run_usable hafter (by rw [ha]; decide)).1⟩

end Moola
