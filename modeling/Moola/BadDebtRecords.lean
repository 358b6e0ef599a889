import Mathlib.Tactic.LinearCombination
import Moola.Lib.Trace
import Moola.GreedyRepayment

/-! What the records of MoolaFix say of the debts in the pool. A payment of variable debt burns
scaled units, so what it takes off the debt that is shown is the amount less a shortfall of
their rounding. The second round and the write-off follow the pool where nothing falls short;
the first round also takes off an amount of its own, whatever the pool makes of it. -/

namespace Moola

open Guard WadRayMath Trace

/-- How much less than `n` a payment takes off the variable debt that an account shows. -/
def Reserve.shortfall (r : Reserve) (account : Address) (n : ℕ) : ℤ :=
  HalfUp.shortfall ray r.data.variableBorrowIndex (r.variableDebtToken.ledger.balances account) n

theorem VariableDebtToken.balanceOf_still {now b : ℕ} {r : Reserve} {user : Address} :
    balanceOf .withUpdateLiquidityIndex now r user = .ok b ↔
      r.data.variableDebtTokenAddress ≠ 0 ∧
        r.variableDebtToken.ledger.balances user * r.data.variableBorrowIndex ≤
          maxUint256 - halfRay ∧
        rayProduct (r.variableDebtToken.ledger.balances user) r.data.variableBorrowIndex = b := by
  simp only [balanceOf, bind_unit_ok, require_ok]
  split
  case isTrue hzero => simp [hzero]
  case isFalse =>
    simp only [scaledBy, LendingPool.getReserveNormalizedVariableDebt,
      ReserveLogicNoInterest.getNormalizedDebt, ok_bind, rayMul_ok]

namespace MoolaFix

def onChainDebt (env : Env) (asset : Address) (w : World) (account : Address) : ℕ :=
  shownVariableDebt env asset w account + shownStableDebt env asset w account

/-- The shortfall of a payment that takes variable debt first; of stable debt nothing falls
short. -/
def shortfall (env : Env) (asset : Address) (w : World) (account : Address) (amount : ℕ) : ℤ :=
  (w.reserves asset).shortfall account (min amount (shownVariableDebt env asset w account))

/-- A round that repaid `paid` for one account takes this off its records and nothing off the
others. -/
def Track (repaid : Address) (paid : ℕ) (es es' : List Entry) : Prop :=
  List.Forall₂ (fun e e' => e'.account = e.account ∧
    e.debt = e'.debt + if e.account = repaid then paid else 0) es es'

/-- The three repayments of the first round, and records that follow the two that have any:
what goes off the debt of the exploiter and what the fix is charged goes off the records. -/
def FirstRoundTracks (env : Env) (fix : Address) (w : World) (mem : Mem) (w' : World)
    (mem' : Mem) : Prop :=
  ∃ w₁ w₂ celo cusd ceur,
    LendingPool.repay env w fix CELO celoRepayAmount 2 exploiterAddress = .ok (w₁, celo) ∧
    LendingPool.repay env w₁ fix cUSD cusdRepayAmount 2 exploiterAddress = .ok (w₂, cusd) ∧
    LendingPool.repay env w₂ fix cEUR ceurRepayAmount 2 exploiterAddress = .ok (w', ceur) ∧
    Repaid env fix CELO exploiterAddress w celo w₁ ∧
    Repaid env fix cUSD exploiterAddress w₁ cusd w₂ ∧
    Repaid env fix cEUR exploiterAddress w₂ ceur w' ∧
    onChainDebt env CELO w exploiterAddress = onChainDebt env CELO w₁ exploiterAddress + celo ∧
    onChainDebt env cEUR w₂ exploiterAddress = onChainDebt env cEUR w' exploiterAddress + ceur ∧
    Track exploiterAddress celo mem.celo mem'.celo ∧
    Track exploiterAddress ceur mem.ceur mem'.ceur

/-- The last record is of the account, and no other one. -/
def RecordedLast (account : Address) : List Entry → Prop
  | [] => False
  | [e] => e.account = account
  | e :: e' :: es => e.account ≠ account ∧ RecordedLast account (e' :: es)

def ExploiterOwes (env : Env) (w : World) (asset : Address) (amount : ℕ) : Prop :=
  ∃ debt, VariableDebtToken.balanceOf w.impl env.timestamp (w.reserves asset) exploiterAddress =
    .ok debt ∧ amount ≤ debt

/-- The records end in the only one of the exploiter, who owes the amount, and nothing of it
falls short. -/
def FirstRoundExact (env : Env) (w : World) (asset : Address) (amount : ℕ) (es : List Entry) :
    Prop :=
  RecordedLast exploiterAddress es ∧ ExploiterOwes env w asset amount ∧
    (w.reserves asset).shortfall exploiterAddress amount = 0

/-- Records that are reduced one after the other by what their accounts owe less and what the
fix is charged, until nothing is left to pay with. -/
inductive Follow (env : Env) (fix asset : Address) :
    World → ℕ → List Entry → World → List Entry → Prop
  | done (w : World) (left : ℕ) : Follow env fix asset w left [] w []
  | spent (w : World) (es : List Entry) : Follow env fix asset w 0 es w es
  | entry {w w₁ w' : World} {left paid : ℕ} {e e' : Entry} {es es' : List Entry} : left ≠ 0 →
      repayOneAccountBadDebt env fix asset w e.account (min e.debt left) = .ok (w₁, paid) →
      Tally (Repaid env fix asset e.account) w paid w₁ →
      onChainDebt env asset w e.account = onChainDebt env asset w₁ e.account + paid →
      e'.account = e.account → e.debt = e'.debt + paid →
      Follow env fix asset w₁ (left - paid) es w' es' →
      Follow env fix asset w left (e :: es) w' (e' :: es')

/-- No payment of the loop falls short, from the state that the payments before it leave. -/
def RecordsExact (env : Env) (fix asset : Address) : World → ℕ → List Entry → Prop
  | _, _, [] => True
  | w, left, e :: es => left ≠ 0 → shortfall env asset w e.account (min e.debt left) = 0 ∧
      ∀ w₁ paid, repayOneAccountBadDebt env fix asset w e.account (min e.debt left) =
        .ok (w₁, paid) → RecordsExact env fix asset w₁ (left - paid) es

def held (fix asset : Address) (w : World) : ℕ := (w.reserves asset).underlying.ledger.balances fix

/-- Both loops follow the pool, and the other repayments end the round. -/
def SecondRoundFollows (env : Env) (fix : Address) (w : World) (mem : Mem) (w' : World)
    (mem' : Mem) : Prop :=
  ∃ w₁ w₂ w₃ w₄,
    repayRecords env fix CELO w (held fix CELO w) mem.celo = .ok (w₁, mem'.celo) ∧
    Follow env fix CELO w (held fix CELO w) mem.celo w₁ mem'.celo ∧
    Follow env fix cEUR w₁ (held fix cEUR w₁) mem.ceur w₂ mem'.ceur ∧
    repayDebts env fix cUSD w₂ cusdBadDebts = .ok w₃ ∧
    repayDebts env fix cREAL w₃ crealBadDebts = .ok w₄ ∧
    repayDebts env fix MOO w₄ mooBadDebts = .ok w'

def SecondRoundExact (env : Env) (fix : Address) (w : World) (mem : Mem) : Prop :=
  RecordsExact env fix CELO w (held fix CELO w) mem.celo ∧
    ∀ w₁ celo, repayRecords env fix CELO w (held fix CELO w) mem.celo = .ok (w₁, celo) →
      RecordsExact env fix cEUR w₁ (held fix cEUR w₁) mem.ceur

/-- Write-offs one after the other: in all they return `n`, and the accounts owe `fall` less
than before. -/
inductive BurnedAlong (env : Env) (sender asset : Address) :
    World → List Debt → ℕ → ℕ → World → Prop
  | done (w : World) : BurnedAlong env sender asset w [] 0 0 w
  | entry {w w₁ w' : World} {d : Debt} {ds : List Debt} {burnt fall n m : ℕ} :
      burnOneAccountBadDebt env sender asset w d.account d.debt = .ok (w₁, burnt) →
      Tally (Burned env asset d.account) w burnt w₁ →
      onChainDebt env asset w d.account = onChainDebt env asset w₁ d.account + fall →
      BurnedAlong env sender asset w₁ ds n m w' →
      BurnedAlong env sender asset w (d :: ds) (burnt + n) (fall + m) w'

/-- The sum of the shortfalls of the write-offs. -/
def shortfalls (env : Env) (sender asset : Address) : World → List Debt → ℤ
  | _, [] => 0
  | w, d :: ds => shortfall env asset w d.account d.debt +
      match burnOneAccountBadDebt env sender asset w d.account d.debt with
      | .ok (w₁, _) => shortfalls env sender asset w₁ ds
      | .error _ => 0

variable {env : Env} {fix sender asset account : Address} {w w₁ w' : World}
  {amount rateMode n v s debt : ℕ} {es es' : List Entry} {mem mem' : Mem}

structure Falls (env : Env) (asset account : Address) (w : World) (n : ℕ) (short : ℤ)
    (w' : World) : Prop where
  impl : w'.impl = .withUpdateLiquidityIndex
  index : (w'.reserves asset).data.variableBorrowIndex =
    (w.reserves asset).data.variableBorrowIndex
  le : onChainDebt env asset w' account ≤ onChainDebt env asset w account
  fall : (onChainDebt env asset w account : ℤ) = onChainDebt env asset w' account + n - short

theorem Falls.refl (himpl : w.impl = .withUpdateLiquidityIndex) :
    Falls env asset account w 0 0 w :=
  ⟨himpl, rfl, le_rfl, by omega⟩

theorem Falls.trans {a b : ℤ} (h₁ : Falls env asset account w v a w₁)
    (h₂ : Falls env asset account w₁ s b w') : Falls env asset account w (v + s) (a + b) w' where
  impl := h₂.impl
  index := h₂.index.trans h₁.index
  le := h₂.le.trans h₁.le
  fall := by
    rw [h₁.fall, h₂.fall]
    push_cast
    ring

theorem PaysBack.keeps (himpl : w.impl = .withUpdateLiquidityIndex)
    (htime : env.timestamp < 2 ^ 40)
    (h : PaysBack env sender asset account amount rateMode w n w') :
    w'.impl = .withUpdateLiquidityIndex ∧
      (w'.reserves asset).data.variableBorrowIndex =
        (w.reserves asset).data.variableBorrowIndex ∧
      (w'.reserves asset).data.variableDebtTokenAddress =
        (w.reserves asset).data.variableDebtTokenAddress := by
  obtain ⟨p, t, hp, rfl, rfl⟩ := h
  obtain ⟨-, -, -, hflags⟩ := payback_reduced hp
  obtain ⟨_, _, mode, r₁, r₂, -, -, -, -, -, h₁, h₂, h₃, -⟩ := LendingPool.payback_ok hp
  have haddress := (Reserve.updateState_evolves h₁).variableDebtTokenAddress
  rw [himpl] at h₁
  obtain ⟨-, hdata⟩ := burnDebt_reduced h₂
  obtain ⟨rates, hr⟩ := ReserveLogic.updateInterestRates_ok h₃
  rw [World.setReserve_impl, World.setReserve_reserves_self, hr]
  refine ⟨hflags.impl.trans himpl, ?_, ?_⟩
  · rw [← updateState_variableBorrowIndex htime h₁, ← hdata]
    rfl
  · rw [← haddress, ← hdata]
    rfl

theorem PaysBack.variable_falls (himpl : w.impl = .withUpdateLiquidityIndex)
    (htime : env.timestamp < 2 ^ 40) (h : PaysBack env sender asset account amount 2 w n w') :
    Falls env asset account w n ((w.reserves asset).shortfall account n) w' := by
  obtain ⟨himpl', hindex, haddress⟩ := h.keeps himpl htime
  obtain ⟨-, debt, hdebt, -⟩ := h.variable_amount
  obtain ⟨hscaled, -⟩ := h.reduces_variable
  rw [hindex] at hscaled
  have hbefore := shownVariableDebt_of_ok hdebt
  rw [himpl, VariableDebtToken.balanceOf_still] at hdebt
  obtain ⟨hne, hfits, rfl⟩ := hdebt
  have hless : (w'.reserves asset).variableDebtToken.ledger.balances account ≤
      (w.reserves asset).variableDebtToken.ledger.balances account := by omega
  have hafter : shownVariableDebt env asset w' account = rayProduct
      ((w'.reserves asset).variableDebtToken.ledger.balances account)
      (w.reserves asset).data.variableBorrowIndex := by
    apply shownVariableDebt_of_ok
    rw [himpl', VariableDebtToken.balanceOf_still, haddress, hindex]
    exact ⟨hne, (Nat.mul_le_mul_right _ hless).trans hfits, rfl⟩
  have hburned : HalfUp.div (n * ray) (w.reserves asset).data.variableBorrowIndex ≤
      (w.reserves asset).variableDebtToken.ledger.balances account := by
    rw [hscaled, rayQuotient]
    exact Nat.le_add_left _ _
  have hrounding := HalfUp.div_eq_div_sub_add ray_pos hburned
  rw [← rayQuotient, show (w.reserves asset).variableDebtToken.ledger.balances account -
    rayQuotient n (w.reserves asset).data.variableBorrowIndex =
      (w'.reserves asset).variableDebtToken.ledger.balances account by omega,
    ← rayProduct, ← rayProduct, ← Reserve.shortfall] at hrounding
  refine ⟨himpl', hindex, ?_, ?_⟩
  all_goals rw [onChainDebt, onChainDebt, h.reduces_variable_keeps, hbefore, hafter]
  · exact Nat.add_le_add_right (rayProduct_mono hless le_rfl) _
  · push_cast
    linear_combination hrounding

theorem PaysBack.stable_falls (himpl : w.impl = .withUpdateLiquidityIndex)
    (htime : env.timestamp < 2 ^ 40) (h : PaysBack env sender asset account amount 1 w n w') :
    Falls env asset account w n 0 w' := by
  obtain ⟨himpl', hindex, haddress⟩ := h.keeps himpl htime
  obtain ⟨hstable, htoken⟩ := h.reduces_stable htime
  have hvariable : shownVariableDebt env asset w' account =
      shownVariableDebt env asset w account := by
    simp only [shownVariableDebt, VariableDebtToken.balanceOf, himpl', himpl, haddress, htoken,
      LendingPool.getReserveNormalizedVariableDebt, ReserveLogicNoInterest.getNormalizedDebt,
      hindex]
  refine ⟨himpl', hindex, ?_, ?_⟩
  all_goals rw [onChainDebt, onChainDebt, hvariable, hstable]
  · omega
  · push_cast
    ring

def PaidBack (env : Env) (asset account : Address) (rateMode : ℕ) (w : World) (n : ℕ)
    (w' : World) : Prop :=
  n = 0 ∧ w' = w ∨ ∃ sender amount, PaysBack env sender asset account amount rateMode w n w'

theorem PaidInMode.paidBack (h : PaidInMode env fix asset account rateMode w n w') :
    PaidBack env asset account rateMode w n w' := by
  obtain hnone | ⟨-, amount, hrepay⟩ := h
  · exact .inl hnone
  · exact .inr ⟨fix, amount, repay_paysBack hrepay⟩

theorem paidBack_falls (himpl : w.impl = .withUpdateLiquidityIndex)
    (htime : env.timestamp < 2 ^ 40) (hv : PaidBack env asset account 2 w v w₁)
    (hs : PaidBack env asset account 1 w₁ s w') :
    Falls env asset account w (v + s) ((w.reserves asset).shortfall account v) w' := by
  have hfirst : Falls env asset account w v ((w.reserves asset).shortfall account v) w₁ := by
    obtain ⟨rfl, rfl⟩ | ⟨sender, amount, hpays⟩ := hv
    · rw [Reserve.shortfall, HalfUp.shortfall_zero _ _ ray_pos]
      exact .refl himpl
    · exact hpays.variable_falls himpl htime
  have hrest : Falls env asset account w₁ s 0 w' := by
    obtain ⟨rfl, rfl⟩ | ⟨sender, amount, hpays⟩ := hs
    · exact .refl hfirst.impl
    · exact hpays.stable_falls hfirst.impl htime
  simpa using hfirst.trans hrest

theorem repayOneAccountBadDebt_falls (himpl : w.impl = .withUpdateLiquidityIndex)
    (htime : env.timestamp < 2 ^ 40)
    (h : repayOneAccountBadDebt env fix asset w account amount = .ok (w', n)) :
    Falls env asset account w n (shortfall env asset w account amount) w' := by
  obtain ⟨w₁, v, s, hv, -, hvpaid, hspaid, rfl⟩ := repayOneAccountBadDebt_paid h
  rw [shortfall, ← hv]
  exact paidBack_falls himpl htime hvpaid.paidBack hspaid.paidBack

theorem writeOffMode_paidBack (h : writeOffMode env sender asset w debt amount rateMode account =
    .ok (w', n)) : PaidBack env asset account rateMode w n w' := by
  unfold writeOffMode at h
  split at h
  case isTrue => exact .inr ⟨sender, amount, writeOff_paysBack h⟩
  case isFalse =>
    obtain ⟨rfl, rfl⟩ := Prod.mk.inj (Except.ok.inj h)
    exact .inl ⟨rfl, rfl⟩

theorem writeOffMode_amount {variableDebt : ℕ}
    (hdebt : VariableDebtToken.balanceOf w.impl env.timestamp (w.reserves asset) account =
      .ok variableDebt)
    (h : writeOffMode env sender asset w variableDebt amount 2 account = .ok (w', n)) :
    n = min amount (shownVariableDebt env asset w account) := by
  rw [shownVariableDebt_of_ok hdebt]
  unfold writeOffMode at h
  split at h
  case isTrue =>
    obtain ⟨-, debt, hdebt', hpaid⟩ := (writeOff_paysBack h).variable_amount
    obtain rfl := Except.ok.inj (hdebt'.symm.trans hdebt)
    exact hpaid
  case isFalse hnone =>
    obtain ⟨-, rfl⟩ := Prod.mk.inj (Except.ok.inj h)
    omega

theorem burnOneAccountBadDebt_paidBack
    (h : burnOneAccountBadDebt env sender asset w account amount = .ok (w', n)) :
    ∃ w₁ v s, v = min amount (shownVariableDebt env asset w account) ∧
      PaidBack env asset account 2 w v w₁ ∧ PaidBack env asset account 1 w₁ s w' ∧ n = v + s := by
  unfold burnOneAccountBadDebt at h
  split at h
  case isTrue hnothing =>
    obtain ⟨rfl, rfl⟩ := Prod.mk.inj (pure_ok.mp h)
    exact ⟨w, 0, 0, by omega, .inl ⟨rfl, rfl⟩, .inl ⟨rfl, rfl⟩, rfl⟩
  case isFalse =>
    simp only [bind_ok, SafeMath.sub_ok] at h
    obtain ⟨variableDebt, hdebt, ⟨w₁, v⟩, hvariable, _, ⟨-, rfl⟩, h⟩ := h
    have hv := writeOffMode_amount hdebt hvariable
    split at h
    case isTrue =>
      simp only [bind_ok, SafeMath.add_ok, pure_ok, Prod.mk.injEq] at h
      obtain ⟨stableDebt, -, ⟨w₂, s⟩, hstable, _, ⟨-, rfl⟩, rfl, rfl⟩ := h
      exact ⟨w₁, v, s, hv, writeOffMode_paidBack hvariable, writeOffMode_paidBack hstable, rfl⟩
    case isFalse =>
      obtain ⟨rfl, rfl⟩ := Prod.mk.inj (pure_ok.mp h)
      exact ⟨w₁, v, 0, hv, writeOffMode_paidBack hvariable, .inl ⟨rfl, rfl⟩, rfl⟩

theorem burnOneAccountBadDebt_falls (himpl : w.impl = .withUpdateLiquidityIndex)
    (htime : env.timestamp < 2 ^ 40)
    (h : burnOneAccountBadDebt env sender asset w account amount = .ok (w', n)) :
    Falls env asset account w n (shortfall env asset w account amount) w' := by
  obtain ⟨w₁, v, s, hv, hvpaid, hspaid, rfl⟩ := burnOneAccountBadDebt_paidBack h
  rw [shortfall, ← hv]
  exact paidBack_falls himpl htime hvpaid hspaid

theorem reduceLast_track_iff {paid : ℕ} (hamount : amount ≠ 0) (hpaid : paid ≠ 0) :
    ∀ {es es' : List Entry}, reduceLast es amount = .ok es' →
      (Track account paid es es' ↔ RecordedLast account es ∧ amount = paid)
  | [], _, h => by cases h
  | [e], _, h => by
    simp only [reduceLast, bind_ok, pure_ok] at h
    obtain ⟨e', he, rfl⟩ := h
    obtain ⟨haccount, hdebt⟩ := reduce_ok he
    simp only [Track, List.forall₂_cons, List.forall₂_nil_left_iff, RecordedLast]
    by_cases hlast : e.account = account
    · simp only [haccount, hlast, if_true, true_and, and_true]
      omega
    · simp only [hlast, if_false, false_and, iff_false]
      rintro ⟨⟨-, hsame⟩, -⟩
      omega
  | e :: e' :: es, _, h => by
    simp only [reduceLast, bind_ok, pure_ok] at h
    obtain ⟨es₁, hes, rfl⟩ := h
    have ih := reduceLast_track_iff hamount hpaid hes
    rw [Track, List.forall₂_cons, ← Track, ih, RecordedLast]
    by_cases hfirst : e.account = account
    · constructor
      · rintro ⟨⟨-, hsame⟩, -⟩
        rw [if_pos hfirst] at hsame
        omega
      · rintro ⟨⟨hother, -⟩, -⟩
        exact absurd hfirst hother
    · simp [hfirst]

theorem exploiterOwes_iff
    (h : LendingPool.repay env w sender asset amount 2 exploiterAddress = .ok (w', n)) :
    ExploiterOwes env w asset amount ↔ amount = n := by
  obtain ⟨-, debt, hdebt, rfl⟩ := (repay_paysBack h).variable_amount
  constructor
  · rintro ⟨debt', hdebt', hle⟩
    obtain rfl : debt' = debt := Except.ok.inj (hdebt'.symm.trans hdebt)
    exact (min_eq_left hle).symm
  · intro hamount
    exact ⟨debt, hdebt, min_eq_left_iff.mp hamount.symm⟩

theorem repay_falls_iff (himpl : w.impl = .withUpdateLiquidityIndex)
    (htime : env.timestamp < 2 ^ 40)
    (h : LendingPool.repay env w fix asset amount 2 account = .ok (w', n)) :
    onChainDebt env asset w account = onChainDebt env asset w' account + n ↔
      (w.reserves asset).shortfall account n = 0 := by
  have hfall := ((repay_paysBack h).variable_falls himpl htime).fall
  omega

/-- The first round keeps the records exactly when each ends in the only one of the exploiter,
who owes no less at the variable rate than what is taken off it, and nothing falls short. -/
theorem firstRoundRepay_tracks_iff (himpl : w.impl = .withUpdateLiquidityIndex)
    (htime : env.timestamp < 2 ^ 40) (h : firstRoundRepay env fix w mem = .ok (w', mem')) :
    FirstRoundTracks env fix w mem w' mem' ↔
      FirstRoundExact env w CELO celoRepayAmount mem.celo ∧
        FirstRoundExact env w cEUR ceurRepayAmount mem.ceur := by
  simp only [firstRoundRepay, bind_ok, pure_ok, Prod.mk.injEq] at h
  obtain ⟨⟨w₁, celo⟩, h₁, ⟨w₂, cusd⟩, h₂, ⟨w₃, ceur⟩, h₃, es, hcelo, es', hceur, rfl, rfl⟩ := h
  obtain ⟨hrepaid₁, himpl₁⟩ := repay_repaid h₁
  obtain ⟨hrepaid₂, himpl₂⟩ := repay_repaid h₂
  obtain ⟨hrepaid₃, -⟩ := repay_repaid h₃
  have hsame : w₂.reserves cEUR = w.reserves cEUR :=
    (hrepaid₂.others cEUR (by decide)).trans (hrepaid₁.others cEUR (by decide))
  have himpl' : w₂.impl = w.impl := himpl₂.trans himpl₁
  have howes : ExploiterOwes env w cEUR ceurRepayAmount ↔ ceurRepayAmount = ceur := by
    rw [← exploiterOwes_iff h₃, ExploiterOwes, ExploiterOwes, himpl', hsame]
  have hfalls := repay_falls_iff himpl htime h₁
  have hfalls' := repay_falls_iff (himpl'.trans himpl) htime h₃
  rw [hsame] at hfalls'
  have htrack := @reduceLast_track_iff exploiterAddress celoRepayAmount _ (by decide)
    (repay_paysBack h₁).variable_amount.1 _ _ hcelo
  have htrack' := @reduceLast_track_iff exploiterAddress ceurRepayAmount _ (by decide)
    (repay_paysBack h₃).variable_amount.1 _ _ hceur
  rw [FirstRoundExact, FirstRoundExact, howes, exploiterOwes_iff h₁]
  constructor
  · rintro ⟨v₁, v₂, celo', cusd', ceur', g₁, g₂, g₃, -, -, -, hfall, hfall', hrecords, hrecords'⟩
    obtain ⟨rfl, rfl⟩ := Prod.mk.inj (Except.ok.inj (h₁.symm.trans g₁))
    obtain ⟨rfl, rfl⟩ := Prod.mk.inj (Except.ok.inj (h₂.symm.trans g₂))
    obtain ⟨-, rfl⟩ := Prod.mk.inj (Except.ok.inj (h₃.symm.trans g₃))
    obtain ⟨hlast, hamount⟩ := htrack.mp hrecords
    obtain ⟨hlast', hamount'⟩ := htrack'.mp hrecords'
    exact ⟨⟨hlast, hamount, hamount ▸ hfalls.mp hfall⟩, hlast', hamount',
      hamount' ▸ hfalls'.mp hfall'⟩
  · rintro ⟨⟨hlast, hamount, hexact⟩, hlast', hamount', hexact'⟩
    exact ⟨w₁, w₂, celo, cusd, ceur, h₁, h₂, h₃, hrepaid₁, hrepaid₂, hrepaid₃,
      hfalls.mpr (hamount ▸ hexact), hfalls'.mpr (hamount' ▸ hexact'), htrack.mpr ⟨hlast, hamount⟩,
      htrack'.mpr ⟨hlast', hamount'⟩⟩

theorem repayMode_tally {debt : ℕ}
    (h : repayMode env fix asset w debt amount rateMode account = .ok (w', n)) :
    Tally (Repaid env fix asset account) w n w' := by
  unfold repayMode at h
  split at h
  case isTrue => exact .single (repay_repaid h).1
  case isFalse =>
    obtain ⟨rfl, rfl⟩ := Prod.mk.inj (Except.ok.inj h)
    exact .done w

theorem repayOneAccountBadDebt_tally
    (h : repayOneAccountBadDebt env fix asset w account amount = .ok (w', n)) :
    Tally (Repaid env fix asset account) w n w' := by
  simp only [repayOneAccountBadDebt, bind_ok, SafeMath.sub_ok] at h
  obtain ⟨variableDebt, -, ⟨w₁, variableRepaid⟩, hvariable, _, ⟨-, rfl⟩, h⟩ := h
  split at h
  case isTrue =>
    simp only [bind_ok, SafeMath.add_ok, pure_ok, Prod.mk.injEq] at h
    obtain ⟨stableDebt, -, ⟨w₂, stableRepaid⟩, hstable, _, ⟨-, rfl⟩, rfl, rfl⟩ := h
    exact (repayMode_tally hvariable).trans (repayMode_tally hstable)
  case isFalse =>
    obtain ⟨rfl, rfl⟩ := Prod.mk.inj (pure_ok.mp h)
    exact repayMode_tally hvariable

theorem Follow.exact (himpl : w.impl = .withUpdateLiquidityIndex) (htime : env.timestamp < 2 ^ 40)
    {left : ℕ} (h : Follow env fix asset w left es w' es') :
    RecordsExact env fix asset w left es := by
  induction h with
  | done => trivial
  | spent w es =>
    cases es with
    | nil => trivial
    | cons e es => exact fun hleft => absurd rfl hleft
  | entry _ hrepay _ hfall _ _ _ ih =>
    intro _
    have hfalls := repayOneAccountBadDebt_falls himpl htime hrepay
    have hless := hfalls.fall
    refine ⟨by omega, fun w₂ paid' hrepay' => ?_⟩
    obtain ⟨rfl, rfl⟩ := Prod.mk.inj (Except.ok.inj (hrepay.symm.trans hrepay'))
    exact ih hfalls.impl

/-- The loop: each record goes down by what its repayments return, and so does the debt where
nothing falls short. -/
theorem repayRecords_follow (htime : env.timestamp < 2 ^ 40) {es : List Entry} :
    ∀ {w : World} {left : ℕ} {es' : List Entry}, w.impl = .withUpdateLiquidityIndex →
    repayRecords env fix asset w left es = .ok (w', es') →
    RecordsExact env fix asset w left es → Follow env fix asset w left es w' es' := by
  induction es with
  | nil =>
    intro w left es' _ h _
    obtain ⟨rfl, rfl⟩ := Prod.mk.inj (Except.ok.inj h)
    exact .done w left
  | cons e es ih =>
    intro w left es' himpl h hexact
    unfold repayRecords at h
    split at h
    case isTrue hspent =>
      obtain ⟨rfl, rfl⟩ := Prod.mk.inj (Except.ok.inj h)
      rw [hspent]
      exact .spent w (e :: es)
    case isFalse hleft =>
      have hcapped : (if e.debt > left then left else e.debt) = min e.debt left := by
        split <;> omega
      simp only [hcapped, bind_ok, SafeMath.sub_ok, pure_ok, Prod.mk.injEq] at h
      obtain ⟨⟨w₁, paid⟩, hrepay, _, ⟨-, rfl⟩, e', he, ⟨w₂, es₂⟩, hrest, rfl, rfl⟩ := h
      have hfalls := repayOneAccountBadDebt_falls himpl htime hrepay
      have hless := hfalls.fall
      obtain ⟨haccount, hdebt⟩ := reduce_ok he
      obtain ⟨hnone, hlater⟩ := hexact hleft
      exact .entry hleft hrepay (repayOneAccountBadDebt_tally hrepay) (by omega) haccount hdebt
        (ih hfalls.impl hrest (hlater w₁ paid hrepay))

theorem Greedy.impl {variableDebt stableDebt : World → Address → ℕ} {left total : ℕ}
    (h : Greedy env fix asset variableDebt stableDebt w left es w' es' total) :
    w'.impl = w.impl := by
  induction h with
  | done | spent => rfl
  | entry _ _ _ hvpaid hspaid _ _ _ _ ih => rw [ih, hspaid.impl, hvpaid.impl]

theorem secondRoundRepay_follows_iff (himpl : w.impl = .withUpdateLiquidityIndex)
    (htime : env.timestamp < 2 ^ 40) (h : secondRoundRepay env fix w mem = .ok (w', mem')) :
    SecondRoundFollows env fix w mem w' mem' ↔ SecondRoundExact env fix w mem := by
  simp only [secondRoundRepay, bind_ok, pure_ok, Prod.mk.injEq] at h
  obtain ⟨⟨w₁, celo⟩, hcelo, ⟨w₂, ceur⟩, hceur, w₃, h₃, w₄, h₄, w₅, h₅, rfl, rfl⟩ := h
  have himpl₁ : w₁.impl = .withUpdateLiquidityIndex := by
    obtain ⟨total, hgreedy⟩ := repayRecords_greedy hcelo
    exact hgreedy.impl.trans himpl
  constructor
  · rintro ⟨v₁, v₂, v₃, v₄, hcelo', hfollow, hfollow', -⟩
    refine ⟨hfollow.exact himpl htime, fun u₁ celo' hu₁ => ?_⟩
    obtain ⟨rfl, -⟩ := Prod.mk.inj (Except.ok.inj (hcelo'.symm.trans hu₁))
    obtain ⟨rfl, -⟩ := Prod.mk.inj (Except.ok.inj (hcelo.symm.trans hu₁))
    exact hfollow'.exact himpl₁ htime
  · rintro ⟨hexact, hexact'⟩
    exact ⟨w₁, w₂, w₃, w₄, hcelo, repayRecords_follow htime himpl hcelo hexact,
      repayRecords_follow htime himpl₁ hceur (hexact' w₁ celo hcelo), h₃, h₄, h₅⟩

theorem writeOffMode_tally {debt : ℕ}
    (h : writeOffMode env sender asset w debt amount rateMode account = .ok (w', n)) :
    Tally (Burned env asset account) w n w' := by
  unfold writeOffMode at h
  split at h
  case isTrue => exact .single (writeOff_burned h)
  case isFalse =>
    obtain ⟨rfl, rfl⟩ := Prod.mk.inj (Except.ok.inj h)
    exact .done w

theorem burnOneAccountBadDebt_tally
    (h : burnOneAccountBadDebt env sender asset w account amount = .ok (w', n)) :
    Tally (Burned env asset account) w n w' := by
  unfold burnOneAccountBadDebt at h
  split at h
  case isTrue =>
    obtain ⟨rfl, rfl⟩ := Prod.mk.inj (pure_ok.mp h)
    exact .done w
  case isFalse =>
    simp only [bind_ok, SafeMath.sub_ok] at h
    obtain ⟨variableDebt, -, ⟨w₁, variableBurnt⟩, hvariable, _, ⟨-, rfl⟩, h⟩ := h
    split at h
    case isTrue =>
      simp only [bind_ok, SafeMath.add_ok, pure_ok, Prod.mk.injEq] at h
      obtain ⟨stableDebt, -, ⟨w₂, stableBurnt⟩, hstable, _, ⟨-, rfl⟩, rfl, rfl⟩ := h
      exact (writeOffMode_tally hvariable).trans (writeOffMode_tally hstable)
    case isFalse =>
      obtain ⟨rfl, rfl⟩ := Prod.mk.inj (pure_ok.mp h)
      exact writeOffMode_tally hvariable

/-- The loop: the total grows by what the write-offs return, and the debts fall by this less
the shortfalls. -/
theorem writeOffBadDebt_burnedAlong (htime : env.timestamp < 2 ^ 40) {s' : BadDebtBurnt} :
    ∀ {ds : List Debt} {w : World} {total accounts : ℕ}, w.impl = .withUpdateLiquidityIndex →
    writeOffBadDebt env sender asset ⟨w, total, accounts⟩ ds = .ok s' →
    s'.world.impl = .withUpdateLiquidityIndex ∧
      ∃ n fall, s'.badDebtBurnt = total + n ∧ BurnedAlong env sender asset w ds n fall s'.world ∧
        (fall : ℤ) = n - shortfalls env sender asset w ds
  | [], w, total, accounts, himpl, h => by
    obtain rfl : ⟨w, total, accounts⟩ = s' := Except.ok.inj h
    exact ⟨himpl, 0, 0, rfl, .done w, rfl⟩
  | d :: ds, w, total, accounts, himpl, h => by
    simp only [writeOffBadDebt, bind_ok, SafeMath.add_ok] at h
    obtain ⟨⟨w₁, burnt⟩, hburn, _, ⟨-, rfl⟩, hrest⟩ := h
    have hfalls := burnOneAccountBadDebt_falls himpl htime hburn
    obtain ⟨himpl', n, fall, htotal, halong, hfall⟩ :=
      writeOffBadDebt_burnedAlong htime hfalls.impl hrest
    obtain ⟨first, hfirst⟩ := Nat.exists_eq_add_of_le hfalls.le
    refine ⟨himpl', burnt + n, first + fall, by rw [htotal, Nat.add_assoc],
      .entry hburn (burnOneAccountBadDebt_tally hburn) hfirst halong, ?_⟩
    have hless := hfalls.fall
    rw [hfirst] at hless
    simp only [shortfalls, hburn]
    push_cast at hless ⊢
    linear_combination hfall + hless

theorem Mem.writeOffBadDebt_burnedAlong (himpl : w.impl = .withUpdateLiquidityIndex)
    (htime : env.timestamp < 2 ^ 40) {celo ceur : ℕ}
    (h : mem.writeOffBadDebt env fix w = .ok (w', celo, ceur)) :
    ∃ w₁ celoFall ceurFall,
      BurnedAlong env fix CELO w (mem.celo.map Entry.toDebt) celo celoFall w₁ ∧
      BurnedAlong env fix cEUR w₁ (mem.ceur.map Entry.toDebt) ceur ceurFall w' ∧
      (celoFall = celo ↔ shortfalls env fix CELO w (mem.celo.map Entry.toDebt) = 0) ∧
      (ceurFall = ceur ↔ shortfalls env fix cEUR w₁ (mem.ceur.map Entry.toDebt) = 0) := by
  simp only [Mem.writeOffBadDebt, bind_ok, pure_ok, Prod.mk.injEq] at h
  obtain ⟨s, hcelo, s', hceur, rfl, rfl, rfl⟩ := h
  obtain ⟨himpl₁, n, fall, htotal, halong, hfall⟩ :=
    MoolaFix.writeOffBadDebt_burnedAlong htime himpl hcelo
  obtain ⟨-, n', fall', htotal', halong', hfall'⟩ :=
    MoolaFix.writeOffBadDebt_burnedAlong htime himpl₁ hceur
  rw [htotal, htotal', Nat.zero_add, Nat.zero_add]
  exact ⟨s.world, fall, fall', halong, halong', by omega, by omega⟩

/-- Along the script, under the pool of the fix and at times that fit their type, each step that
completes: the records follow the pool exactly when the exploiter owes what the first round
takes off them and no payment falls short, and the totals of the write-off are what was burned
exactly when its shortfalls add up to nothing. -/
theorem bad_debt_records (env : Env) (fix : Address) (htime : env.timestamp < 2 ^ 40) :
    (∀ w mem w' mem', w.impl = .withUpdateLiquidityIndex →
      firstRoundRepay env fix w mem = .ok (w', mem') →
      (FirstRoundTracks env fix w mem w' mem' ↔
        FirstRoundExact env w CELO celoRepayAmount mem.celo ∧
          FirstRoundExact env w cEUR ceurRepayAmount mem.ceur)) ∧
    (∀ w mem w' mem', w.impl = .withUpdateLiquidityIndex →
      secondRoundRepay env fix w mem = .ok (w', mem') →
      (SecondRoundFollows env fix w mem w' mem' ↔ SecondRoundExact env fix w mem)) ∧
    ∀ w mem w' celo ceur, w.impl = .withUpdateLiquidityIndex →
      Mem.writeOffBadDebt env fix w mem = .ok (w', celo, ceur) →
      ∃ w₁ celoFall ceurFall,
        BurnedAlong env fix CELO w (mem.celo.map Entry.toDebt) celo celoFall w₁ ∧
        BurnedAlong env fix cEUR w₁ (mem.ceur.map Entry.toDebt) ceur ceurFall w' ∧
        (celoFall = celo ↔ shortfalls env fix CELO w (mem.celo.map Entry.toDebt) = 0) ∧
        (ceurFall = ceur ↔ shortfalls env fix cEUR w₁ (mem.ceur.map Entry.toDebt) = 0) :=
  ⟨fun _ _ _ _ himpl => firstRoundRepay_tracks_iff himpl htime,
    fun _ _ _ _ himpl => secondRoundRepay_follows_iff himpl htime,
    fun _ _ _ _ _ himpl => Mem.writeOffBadDebt_burnedAlong himpl htime⟩

theorem shortfall_of_ray (hindex : (w.reserves asset).data.variableBorrowIndex = ray) :
    shortfall env asset w account amount = 0 := by
  rw [shortfall, Reserve.shortfall, hindex]
  exact HalfUp.shortfall_self _ _ ray_pos

theorem RecordsExact.of_ray (htime : env.timestamp < 2 ^ 40) {es : List Entry} :
    ∀ {w : World} {left : ℕ}, w.impl = .withUpdateLiquidityIndex →
    (w.reserves asset).data.variableBorrowIndex = ray →
    RecordsExact env fix asset w left es := by
  induction es with
  | nil => exact fun _ _ => trivial
  | cons e es ih =>
    intro w left himpl hindex _
    refine ⟨shortfall_of_ray hindex, fun w₁ paid hrepay => ?_⟩
    have hfalls := repayOneAccountBadDebt_falls himpl htime hrepay
    exact ih hfalls.impl (hfalls.index.trans hindex)

theorem Follow.others {other : Address} (hother : other ≠ asset) {left : ℕ}
    (h : Follow env fix asset w left es w' es') : w'.reserves other = w.reserves other := by
  induction h with
  | done | spent => rfl
  | entry _ _ htally _ _ _ _ ih =>
    rw [ih]
    exact htally.view_eq (·.reserves other) fun _ _ _ hrepaid => hrepaid.others other hother

theorem SecondRoundExact.of_ray (himpl : w.impl = .withUpdateLiquidityIndex)
    (htime : env.timestamp < 2 ^ 40)
    (hcelo : (w.reserves CELO).data.variableBorrowIndex = ray)
    (hceur : (w.reserves cEUR).data.variableBorrowIndex = ray) :
    SecondRoundExact env fix w mem := by
  refine ⟨.of_ray htime himpl hcelo, fun w₁ celo h => ?_⟩
  have hfollow := repayRecords_follow htime himpl h (.of_ray htime himpl hcelo)
  refine .of_ray htime ?_ ?_
  · obtain ⟨total, hgreedy⟩ := repayRecords_greedy h
    exact hgreedy.impl.trans himpl
  · rw [hfollow.others (by decide), hceur]

theorem shortfalls_of_ray (htime : env.timestamp < 2 ^ 40) :
    ∀ {ds : List Debt} {w : World}, w.impl = .withUpdateLiquidityIndex →
    (w.reserves asset).data.variableBorrowIndex = ray →
    shortfalls env sender asset w ds = 0
  | [], _, _, _ => rfl
  | d :: ds, w, himpl, hindex => by
    rw [shortfalls, shortfall_of_ray hindex, zero_add]
    split
    case h_1 w₁ burnt hburn =>
      have hfalls := burnOneAccountBadDebt_falls himpl htime hburn
      exact shortfalls_of_ray htime hfalls.impl (hfalls.index.trans hindex)
    case h_2 => rfl

theorem BurnedAlong.keeps {other : Address} (htime : env.timestamp < 2 ^ 40)
    (hother : other ≠ asset) {ds : List Debt} {m : ℕ}
    (h : BurnedAlong env sender asset w ds n m w') (himpl : w.impl = .withUpdateLiquidityIndex) :
    w'.impl = .withUpdateLiquidityIndex ∧ w'.reserves other = w.reserves other := by
  induction h with
  | done => exact ⟨himpl, rfl⟩
  | entry hburn htally _ _ ih =>
    obtain ⟨himpl', hrest⟩ := ih (burnOneAccountBadDebt_falls himpl htime hburn).impl
    refine ⟨himpl', hrest.trans ?_⟩
    exact htally.view_eq (·.reserves other) fun _ _ _ hburned => hburned.others other hother

def fixStart (funds : ℕ) : World :=
  initialWorld (fun _ =>
    ⟨(Ledger.empty.credit exploiterAddress (10 ^ 26)).credit 7 funds, fun _ _ => 10 ^ 26⟩)
    .lendingPool 99

def exploiterLoans (celo cusd ceur : ℕ) : List Transaction :=
  [CELO, cUSD, cEUR, cREAL, MOO].flatMap (sampleListing 40 · 9) ++
    ([(CELO, celo), (cUSD, cusd), (cEUR, ceur)].flatMap fun (asset, amount) =>
      [⟨sampleEnv 40, exploiterAddress, .deposit asset (10 ^ 26) exploiterAddress⟩,
        ⟨sampleEnv 40, exploiterAddress, .borrow asset amount 2 exploiterAddress⟩]) ++
    [⟨sampleEnv 40, 7, .setLendingPoolImpl .withUpdateLiquidityIndex⟩]

theorem exploiterLoans_sample (a b c : ℕ) : ∀ t ∈ exploiterLoans a b c, t.env.timestamp = 40 := by
  simp [exploiterLoans, sampleListing, sampleEnv]

theorem exploiterLoans_repaid : (do
    let w ← runAll (fixStart (10 ^ 26)) (exploiterLoans 200 200 200)
    let (_, mem) ← firstRoundRepay (sampleEnv 40) 7 w populateMem
    let debt ← VariableDebtToken.balanceOf w.impl 40 (w.reserves CELO) exploiterAddress
    return (w.impl, mem.celo.length, debt)) = .ok (.withUpdateLiquidityIndex, 2, 200) := by
  decide +kernel

theorem first_round_takes_more : ¬ ∀ (env : Env) (fix : Address) (m : Machine) (mem : Mem)
    (w' : World) (mem' : Mem), Reachable m → env.timestamp = m.time → env.timestamp < 2 ^ 40 →
    m.world.impl = .withUpdateLiquidityIndex →
    firstRoundRepay env fix m.world mem = .ok (w', mem') →
    FirstRoundTracks env fix m.world mem w' mem' := by
  intro hrecords
  obtain ⟨w, hw, hrest⟩ := bind_ok.mp exploiterLoans_repaid
  obtain ⟨⟨w', mem⟩, h, hrest⟩ := bind_ok.mp hrest
  obtain ⟨debt, hdebt, hrest⟩ := bind_ok.mp hrest
  simp only [pure_ok, Prod.mk.injEq] at hrest
  obtain ⟨himpl, -, rfl⟩ := hrest
  have hreach : Reachable ⟨w, 40, []⟩ :=
    .runAll (exploiterLoans_sample _ _ _) (.initial _ _ _ _) hw
  have htracks := hrecords (sampleEnv 40) 7 ⟨w, 40, []⟩ populateMem w' mem hreach rfl (by decide)
    himpl h
  obtain ⟨⟨-, ⟨debt', hdebt', hle⟩, -⟩, -⟩ :=
    (firstRoundRepay_tracks_iff himpl (by decide) h).mp htracks
  obtain rfl : debt' = 200 := Except.ok.inj (hdebt'.symm.trans hdebt)
  exact absurd hle (by decide)

theorem exploiterLoans_rounds : (do
    let v ← runAll (fixStart (celoRepayAmount + 60))
      (exploiterLoans (celoRepayAmount + 100) cusdRepayAmount (ceurRepayAmount + 10))
    let (v₁, mem₁) ← firstRoundRepay (sampleEnv 40) 7 v populateMem
    let (v₂, mem₂) ← secondRoundRepay (sampleEnv 40) 7 v₁ mem₁
    let (_, celo, ceur) ← mem₂.writeOffBadDebt (sampleEnv 40) 7 v₂
    let celoDebt ← VariableDebtToken.balanceOf v.impl 40 (v.reserves CELO) exploiterAddress
    let ceurDebt ← VariableDebtToken.balanceOf v.impl 40 (v.reserves cEUR) exploiterAddress
    return ([v.impl, v₁.impl, v₂.impl], [celo, ceur, celoDebt, ceurDebt],
      [v, v₁, v₂].flatMap fun u : World => [CELO, cEUR].map fun asset =>
        (u.reserves asset).data.variableBorrowIndex)) =
    .ok ([.withUpdateLiquidityIndex, .withUpdateLiquidityIndex, .withUpdateLiquidityIndex],
      [40, 0, celoRepayAmount + 100, ceurRepayAmount + 10], List.replicate 6 ray) := by
  decide +kernel

/-- Forty are written off. -/
theorem bad_debt_records_repaid : ∃ v v₁ v₂ v₃ u mem₁ mem₂, Reachable ⟨v, 40, []⟩ ∧
    firstRoundRepay (sampleEnv 40) 7 v populateMem = .ok (v₁, mem₁) ∧
    FirstRoundTracks (sampleEnv 40) 7 v populateMem v₁ mem₁ ∧
    secondRoundRepay (sampleEnv 40) 7 v₁ mem₁ = .ok (v₂, mem₂) ∧
    SecondRoundFollows (sampleEnv 40) 7 v₁ mem₁ v₂ mem₂ ∧
    BurnedAlong (sampleEnv 40) 7 CELO v₂ (mem₂.celo.map Entry.toDebt) 40 40 u ∧
    BurnedAlong (sampleEnv 40) 7 cEUR u (mem₂.ceur.map Entry.toDebt) 0 0 v₃ := by
  obtain ⟨v, hv, hrest⟩ := bind_ok.mp exploiterLoans_rounds
  obtain ⟨⟨v₁, mem₁⟩, h₁, hrest⟩ := bind_ok.mp hrest
  obtain ⟨⟨v₂, mem₂⟩, h₂, hrest⟩ := bind_ok.mp hrest
  obtain ⟨⟨v₃, celo, ceur⟩, h₃, hrest⟩ := bind_ok.mp hrest
  obtain ⟨celoDebt, hcelo, hrest⟩ := bind_ok.mp hrest
  obtain ⟨ceurDebt, hceur, hrest⟩ := bind_ok.mp hrest
  simp only [pure_ok, Prod.mk.injEq, List.flatMap_cons, List.flatMap_nil, List.map_cons,
    List.map_nil, List.cons_append, List.nil_append, List.replicate_succ, List.replicate_zero,
    List.cons.injEq, and_true] at hrest
  obtain ⟨⟨himpl, himpl₁, himpl₂⟩, ⟨rfl, rfl, rfl, rfl⟩, i, i', i₁, i₁', i₂, i₂'⟩ := hrest
  obtain ⟨hfirst, hsecond, hthird⟩ := bad_debt_records (sampleEnv 40) 7 (by decide)
  obtain ⟨u, fall, fall', halong, halong', hfall, hfall'⟩ := hthird v₂ mem₂ v₃ 40 0 himpl₂ h₃
  obtain ⟨himplu, hsame⟩ := halong.keeps (by decide) (by decide : cEUR ≠ CELO) himpl₂
  obtain rfl : fall = 40 := hfall.mpr (shortfalls_of_ray (by decide) himpl₂ i₂)
  obtain rfl : fall' = 0 := hfall'.mpr (shortfalls_of_ray (by decide) himplu (hsame ▸ i₂'))
  refine ⟨v, v₁, v₂, v₃, u, mem₁, mem₂,
    .runAll (exploiterLoans_sample _ _ _) (.initial _ _ _ _) hv, h₁,
    (hfirst v populateMem v₁ mem₁ himpl h₁).mpr ⟨⟨?_, ⟨_, hcelo, by decide⟩, ?_⟩,
      ?_, ⟨_, hceur, by decide⟩, ?_⟩, h₂,
    (hsecond v₁ mem₁ v₂ mem₂ himpl₁ h₂).mpr (.of_ray himpl₁ (by decide) i₁ i₁'), halong, halong'⟩
  · simp [populateMem, RecordedLast, exploiterAddress]
  · rw [Reserve.shortfall, i]
    exact HalfUp.shortfall_self _ _ ray_pos
  · simp [populateMem, RecordedLast, exploiterAddress]
  · rw [Reserve.shortfall, i']
    exact HalfUp.shortfall_self _ _ ray_pos

end MoolaFix

end Moola
