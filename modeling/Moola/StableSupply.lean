import Moola.Lib.Trace
import Moola.Machine

/-! The recorded total of stable debt. It accrues at an average rate and every borrower at an
own one, so they drift apart; a burn that meets the total, or whose interest meets that of
the total, sets the total to zero, whoever else still owes. -/

namespace Moola

open Guard WadRayMath

namespace StableDebtToken

inductive TokenCall
  | mint (user onBehalfOf : Address) (amount rate : ℕ)
  | burn (user : Address) (amount : ℕ)

structure TokenEvent where
  now : ℕ
  call : TokenCall

def TokenEvent.execute (r : Reserve) (e : TokenEvent) : Tx Reserve :=
  match e.call with
  | .mint user onBehalfOf amount rate =>
    Prod.fst <$> StableDebtToken.mint e.now r user onBehalfOf amount rate
  | .burn user amount => StableDebtToken.burn e.now r user amount

def OthersOwe (t : StableDebtToken) (user : Address) : Prop := ∃ u ≠ user, t.balances u ≠ 0

def accruedSupply (now : ℕ) (t : StableDebtToken) : ℕ :=
  rayProduct t.principalSupply
    (ray + MathUtils.compoundedExcess t.avgStableRate (now - t.totalSupplyTimestamp))

/-- A burn stays below the accrued total, and its interest below that of the total. -/
def Unclamped (now : ℕ) (t : StableDebtToken) (user : Address) (amount : ℕ) : Prop :=
  amount < accruedSupply now t ∧
    rayProduct (t.usersStableRate user) (amount * wadRayRatio) <
      rayProduct t.avgStableRate (accruedSupply now t * wadRayRatio)

/-- After a burn, a recorded total of zero means that nobody else owes. -/
def BurnRecordsOthers (e : TokenEvent) (r' : Reserve) : Prop :=
  ∀ user amount, e.call = .burn user amount → r'.stableDebtToken.principalSupply = 0 →
    ¬OthersOwe r'.stableDebtToken user

def BurnUnclamped (e : TokenEvent) (r : Reserve) : Prop :=
  ∀ user amount, e.call = .burn user amount → OthersOwe r.stableDebtToken user →
    Unclamped e.now r.stableDebtToken user amount

variable {now : ℕ} {t t' : StableDebtToken} {r r' : Reserve} {user : Address}
  {supply amount rate total avgRate b : ℕ}

theorem calcTotalSupply_ok (h : calcTotalSupply now t t.avgStableRate = .ok supply) :
    supply = accruedSupply now t := by
  unfold calcTotalSupply at h
  split at h
  case isTrue hzero =>
    rw [pure_ok] at h
    rw [← h, accruedSupply, hzero, rayProduct_zero_left]
  case isFalse =>
    simp only [bind_ok, rayMul_ok] at h
    obtain ⟨c, hc, -, rfl⟩ := h
    rw [(MathUtils.calculateCompoundedInterest_ok hc).2, accruedSupply]

theorem supplyAfterBurn_ne_zero_iff
    (h : supplyAfterBurn t supply amount rate = .ok (total, avgRate)) :
    total ≠ 0 ↔ amount < supply ∧ rayProduct rate (amount * wadRayRatio) <
      rayProduct t.avgStableRate (supply * wadRayRatio) := by
  unfold supplyAfterBurn at h
  split at h
  case isTrue hle =>
    obtain ⟨rfl, -⟩ := Prod.mk.inj (Except.ok.inj h)
    omega
  case isFalse hlt =>
    simp only [bind_ok, SafeMath.sub_ok, wadToRay_ok, rayMul_ok] at h
    obtain ⟨_, ⟨-, rfl⟩, _, ⟨-, rfl⟩, _, ⟨-, rfl⟩, _, ⟨-, rfl⟩, _, ⟨-, rfl⟩, h⟩ := h
    split at h
    case isTrue hge =>
      obtain ⟨rfl, -⟩ := Prod.mk.inj (pure_ok.mp h)
      omega
    case isFalse hge =>
      simp only [bind_ok, pure_ok, Prod.mk.injEq] at h
      obtain ⟨_, -, _, -, _, -, rfl, -⟩ := h
      omega

theorem othersOwe_write (h : t'.balances = write t.balances user b) :
    OthersOwe t' user ↔ OthersOwe t user :=
  exists_congr fun u => and_congr_right fun hu => by rw [h, write_of_ne _ _ hu]

/-- A burn records a total, or nobody else owes, exactly when no clamp fires over the others. -/
theorem burn_erases_iff (h : burn now r user amount = .ok r') :
    (r'.stableDebtToken.principalSupply = 0 → ¬OthersOwe r'.stableDebtToken user) ↔
      (OthersOwe r.stableDebtToken user → Unclamped now r.stableDebtToken user amount) := by
  obtain ⟨current, supply, total, avgRate, -, hsupply, htotal, -, rfl⟩ := burn_state h
  rw [Reserve.withStable_stableDebtToken, othersOwe_write rfl]
  have hunclamped : Unclamped now r.stableDebtToken user amount ↔ total ≠ 0 := by
    rw [supplyAfterBurn_ne_zero_iff htotal, calcTotalSupply_ok hsupply, Unclamped]
  rw [hunclamped]
  exact ⟨fun himp howe hzero => himp hzero howe, fun himp hzero howe => himp howe hzero⟩

/-- Along every run, the burns that leave no debt unrecorded are those whose clamps spare the
other borrowers. -/
theorem recorded_supply_along (r : Reserve) (events : List TokenEvent) :
    Trace.Along TokenEvent.execute
      (fun e r r' => BurnRecordsOthers e r' ↔ BurnUnclamped e r) r events := by
  refine .of_step (fun e r r' h => ?_) r events
  refine forall_congr' fun user => forall_congr' fun amount => forall_congr' fun hcall => ?_
  rw [TokenEvent.execute, hcall] at h
  exact burn_erases_iff h

def listedReserve : Reserve :=
  LendingPool.initializedReserve (emptyReserve sampleUnderlying) (sampleProxies 9) 104

def unequalRates : List TokenEvent :=
  [⟨0, .mint 12 12 1000 ray⟩, ⟨0, .mint 13 13 1000 0⟩,
    ⟨2 * MathUtils.secondsPerYear, .burn 12 6333⟩]

theorem unequalRates_erased : (do
    let r ← TokenEvent.execute listedReserve ⟨0, .mint 12 12 1000 ray⟩
    let r ← TokenEvent.execute r ⟨0, .mint 13 13 1000 0⟩
    let balance ← balanceOf (2 * MathUtils.secondsPerYear) r 12
    let r ← TokenEvent.execute r ⟨2 * MathUtils.secondsPerYear, .burn 12 6333⟩
    return (balance, r.stableDebtToken.principalSupply, r.stableDebtToken.balances 13)) =
    .ok (6333, 0, 1000) := by
  decide +kernel

theorem burn_erases_debt : ¬ ∀ events : List TokenEvent,
    (events.map TokenEvent.now).Pairwise (· ≤ ·) →
    Trace.Along TokenEvent.execute (fun e _ r' => BurnRecordsOthers e r') listedReserve events := by
  intro hrecorded
  obtain ⟨r₁, h₁, hrest⟩ := bind_ok.mp unequalRates_erased
  obtain ⟨r₂, h₂, hrest⟩ := bind_ok.mp hrest
  obtain ⟨balance, -, hrest⟩ := bind_ok.mp hrest
  obtain ⟨r₃, h₃, hrest⟩ := bind_ok.mp hrest
  simp only [pure_ok, Prod.mk.injEq] at hrest
  obtain ⟨-, hsupply, hprincipal⟩ := hrest
  obtain ⟨-, hrun⟩ := hrecorded unequalRates (by decide) r₁ h₁
  obtain ⟨-, hrun⟩ := hrun r₂ h₂
  obtain ⟨hrecords, -⟩ := hrun r₃ h₃
  refine hrecords 12 6333 rfl hsupply ⟨13, by decide, ?_⟩
  rw [hprincipal]
  norm_num

end StableDebtToken

end Moola
