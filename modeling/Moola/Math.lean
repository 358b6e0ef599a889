import Mathlib.Tactic.NormNum
import Moola.Errors
import Moola.Lib.Guard
import Moola.Lib.HalfUp

/-! Checked arithmetic of the contracts: SafeMath, WadRayMath, PercentageMath and
MathUtils. A uint256 is a natural number, and each operation carries the overflow
guard of its source. The `_ok` lemmas say exactly when an operation returns and
what; no later proof unfolds an operation. -/

namespace Moola

open Guard

abbrev Tx := Except Revert

def maxUint256 : ℕ := 2 ^ 256 - 1

def maxUint128 : ℕ := 2 ^ 128 - 1

/-- The narrowing conversion of block times. -/
def uint40 (n : ℕ) : ℕ := n % 2 ^ 40

def uint8 (n : ℕ) : ℕ := n % 2 ^ 8

theorem uint40_of_lt {n : ℕ} (h : n < 2 ^ 40) : uint40 n = n := Nat.mod_eq_of_lt h

theorem uint40_lt (n : ℕ) : uint40 n < 2 ^ 40 := Nat.mod_lt _ (by norm_num)

theorem uint40_le (n : ℕ) : uint40 n ≤ n := Nat.mod_le _ _

def Revert.IsOverflow (e : Revert) : Prop :=
  e = .safeMathAdditionOverflow ∨ e = .safeMathMultiplicationOverflow ∨
    e = .mathMultiplicationOverflow

namespace SafeMath

def add (a b : ℕ) : Tx ℕ := do
  require (a + b ≤ maxUint256) .safeMathAdditionOverflow
  return a + b

def sub (a b : ℕ) (e : Revert := .safeMathSubtractionOverflow) : Tx ℕ := do
  require (b ≤ a) e
  return a - b

def mul (a b : ℕ) : Tx ℕ := do
  require (a * b ≤ maxUint256) .safeMathMultiplicationOverflow
  return a * b

def div (a b : ℕ) : Tx ℕ := do
  require (0 < b) .safeMathDivisionByZero
  return a / b

variable {a b c : ℕ}

@[simp] theorem add_ok : add a b = .ok c ↔ a + b ≤ maxUint256 ∧ a + b = c := by simp [add]

@[simp] theorem sub_ok {e : Revert} : sub a b e = .ok c ↔ b ≤ a ∧ a - b = c := by simp [sub]

@[simp] theorem mul_ok : mul a b = .ok c ↔ a * b ≤ maxUint256 ∧ a * b = c := by simp [mul]

@[simp] theorem div_ok : div a b = .ok c ↔ 0 < b ∧ a / b = c := by simp [div]

theorem add_error {e : Revert} : add a b = .error e ↔
    ¬a + b ≤ maxUint256 ∧ .safeMathAdditionOverflow = e := by
  simp [add, bind_unit_error, require_error, pure, Except.pure]

theorem sub_error {e e' : Revert} : sub a b e' = .error e ↔ ¬b ≤ a ∧ e' = e := by
  simp [sub, bind_unit_error, require_error, pure, Except.pure]

theorem mul_error {e : Revert} : mul a b = .error e ↔
    ¬a * b ≤ maxUint256 ∧ .safeMathMultiplicationOverflow = e := by
  simp [mul, bind_unit_error, require_error, pure, Except.pure]

theorem div_error {e : Revert} : div a b = .error e ↔ ¬0 < b ∧ .safeMathDivisionByZero = e := by
  simp [div, bind_unit_error, require_error, pure, Except.pure]

theorem add_fails : FailsOnly Revert.IsOverflow (add a b) :=
  fun _ he => .inl (add_error.mp he).2.symm

theorem mul_fails : FailsOnly Revert.IsOverflow (mul a b) :=
  fun _ he => .inr (.inl (mul_error.mp he).2.symm)

theorem sub_fails {e : Revert} (h : b ≤ a) : FailsOnly Revert.IsOverflow (sub a b e) :=
  fun _ he => absurd h (sub_error.mp he).1

theorem div_fails (h : 0 < b) : FailsOnly Revert.IsOverflow (div a b) :=
  fun _ he => absurd h (div_error.mp he).1

end SafeMath

namespace WadRayMath

def wad : ℕ := 10 ^ 18

def ray : ℕ := 10 ^ 27

def halfRay : ℕ := ray / 2

def wadRayRatio : ℕ := 10 ^ 9

def wadDiv (a b : ℕ) : Tx ℕ := do
  require (b ≠ 0) .mathDivisionByZero
  require (a ≤ (maxUint256 - b / 2) / wad) .mathMultiplicationOverflow
  return (a * wad + b / 2) / b

def rayMul (a b : ℕ) : Tx ℕ :=
  if a = 0 ∨ b = 0 then .ok 0
  else do
    require (a ≤ (maxUint256 - halfRay) / b) .mathMultiplicationOverflow
    return (a * b + halfRay) / ray

def rayDiv (a b : ℕ) : Tx ℕ := do
  require (b ≠ 0) .mathDivisionByZero
  require (a ≤ (maxUint256 - b / 2) / ray) .mathMultiplicationOverflow
  return (a * ray + b / 2) / b

def wadToRay (a : ℕ) : Tx ℕ := do
  require (a * wadRayRatio ≤ maxUint256) .mathMultiplicationOverflow
  return a * wadRayRatio

theorem ray_eq : ray = 10 ^ 27 := rfl

theorem ray_pos : 0 < ray := by norm_num [ray]

theorem wad_pos : 0 < wad := by norm_num [wad]

theorem wadRayRatio_pos : 0 < wadRayRatio := by norm_num [wadRayRatio]

variable {a b c : ℕ}

@[simp] theorem wadDiv_ok : wadDiv a b = .ok c ↔
    b ≠ 0 ∧ a * wad ≤ maxUint256 - b / 2 ∧ HalfUp.div (a * wad) b = c := by
  simp [wadDiv, HalfUp.div, Nat.le_div_iff_mul_le wad_pos]

/-- The product rounded half up, in ray: what `rayMul` returns when it returns. -/
def rayProduct (a b : ℕ) : ℕ := HalfUp.div (a * b) ray

/-- The quotient rounded half up, in ray: what `rayDiv` returns when it returns. -/
def rayQuotient (a b : ℕ) : ℕ := HalfUp.div (a * ray) b

@[simp] theorem rayMul_ok : rayMul a b = .ok c ↔
    a * b ≤ maxUint256 - halfRay ∧ rayProduct a b = c := by
  unfold rayMul rayProduct
  split_ifs with h
  · have h0 : a * b = 0 := mul_eq_zero.mpr h
    simp [h0]
  · push Not at h
    simp [HalfUp.div, halfRay, Nat.le_div_iff_mul_le (Nat.pos_of_ne_zero h.2)]

@[simp] theorem rayDiv_ok : rayDiv a b = .ok c ↔
    b ≠ 0 ∧ a * ray ≤ maxUint256 - b / 2 ∧ rayQuotient a b = c := by
  simp [rayDiv, rayQuotient, HalfUp.div, Nat.le_div_iff_mul_le ray_pos]

theorem rayMul_error {e : Revert} (h : rayMul a b = .error e) :
    e = .mathMultiplicationOverflow := by
  unfold rayMul at h
  split at h
  case isTrue => cases h
  case isFalse =>
    simp only [bind_unit_error, require_error, pure, Except.pure, reduceCtorEq, and_false,
      or_false] at h
    exact h.2.symm

theorem rayDiv_error {e : Revert} (h : rayDiv a b = .error e) :
    b = 0 ∧ e = .mathDivisionByZero ∨ e = .mathMultiplicationOverflow := by
  simp only [rayDiv, bind_unit_error, require_error, require_ok, pure, Except.pure, reduceCtorEq,
    and_false, or_false, ne_eq, not_not] at h
  rcases h with ⟨hb, rfl⟩ | ⟨-, -, rfl⟩
  · exact .inl ⟨hb, rfl⟩
  · exact .inr rfl

theorem wadToRay_error {e : Revert} (h : wadToRay a = .error e) :
    e = .mathMultiplicationOverflow := by
  simp only [wadToRay, bind_unit_error, require_error, pure, Except.pure, reduceCtorEq, and_false,
    or_false] at h
  exact h.2.symm

theorem rayMul_fails : FailsOnly Revert.IsOverflow (rayMul a b) :=
  fun _ he => .inr (.inr (rayMul_error he))

theorem rayDiv_fails (hb : b ≠ 0) : FailsOnly Revert.IsOverflow (rayDiv a b) := by
  intro e he
  rcases rayDiv_error he with ⟨h0, -⟩ | he
  · exact absurd h0 hb
  · exact .inr (.inr he)

theorem wadToRay_fails : FailsOnly Revert.IsOverflow (wadToRay a) :=
  fun _ he => .inr (.inr (wadToRay_error he))

theorem wadDiv_fails (hb : b ≠ 0) : FailsOnly Revert.IsOverflow (wadDiv a b) :=
  .bind_unit (.require fun h0 => absurd hb h0) fun _ =>
    .bind_unit (.require fun _ => .inr (.inr rfl)) fun _ => .pure _

@[simp] theorem wadToRay_ok : wadToRay a = .ok c ↔
    a * wadRayRatio ≤ maxUint256 ∧ a * wadRayRatio = c := by simp [wadToRay]

@[simp] theorem rayProduct_zero_left (b : ℕ) : rayProduct 0 b = 0 := by simp [rayProduct]

@[simp] theorem rayProduct_ray_left (b : ℕ) : rayProduct ray b = b := by
  rw [rayProduct, mul_comm, HalfUp.mul_div_self b ray_pos]

@[simp] theorem rayProduct_ray_right (a : ℕ) : rayProduct a ray = a :=
  HalfUp.mul_div_self a ray_pos

theorem rayProduct_mono {a' b' : ℕ} (ha : a ≤ a') (hb : b ≤ b') :
    rayProduct a b ≤ rayProduct a' b' := HalfUp.mono _ (Nat.mul_le_mul ha hb)

theorem rayQuotient_mono {a' : ℕ} (b : ℕ) (h : a ≤ a') :
    rayQuotient a b ≤ rayQuotient a' b := HalfUp.mono b (Nat.mul_le_mul_right ray h)

theorem rayQuotient_le_ray (hb : 0 < b) (h : a ≤ b) : rayQuotient a b ≤ ray := by
  refine HalfUp.le_of_le_mul hb ?_
  rw [mul_comm ray]
  exact Nat.mul_le_mul_right ray h

theorem le_rayProduct (h : ray ≤ b) : a ≤ rayProduct a b :=
  HalfUp.le_of_mul_le ray_pos (Nat.mul_le_mul_left a h)

theorem le_rayProduct_left (h : ray ≤ a) : b ≤ rayProduct a b := by
  rw [rayProduct, mul_comm]
  exact le_rayProduct h

theorem rayQuotient_rayProduct (s : ℕ) {index : ℕ} (h : ray ≤ index) :
    rayQuotient (rayProduct s index) index = s :=
  (HalfUp.round_trip_iff s ray_pos (ray_pos.trans_le h)).mpr (HalfUp.roundTrips_of_le s ray_pos h)

theorem rayProduct_pos (ha : 0 < a) (h : ray ≤ b) : 0 < rayProduct a b :=
  ha.trans_le (le_rayProduct h)

end WadRayMath

namespace PercentageMath

def percentageFactor : ℕ := 10000

def halfPercent : ℕ := percentageFactor / 2

def percentMul (value percentage : ℕ) : Tx ℕ :=
  if value = 0 ∨ percentage = 0 then .ok 0
  else do
    require (value ≤ (maxUint256 - halfPercent) / percentage) .mathMultiplicationOverflow
    return (value * percentage + halfPercent) / percentageFactor

def percentDiv (value percentage : ℕ) : Tx ℕ := do
  require (percentage ≠ 0) .mathDivisionByZero
  require (value ≤ (maxUint256 - percentage / 2) / percentageFactor) .mathMultiplicationOverflow
  return (value * percentageFactor + percentage / 2) / percentage

variable {v p c : ℕ}

theorem percentageFactor_pos : 0 < percentageFactor := by norm_num [percentageFactor]

def percentProduct (v p : ℕ) : ℕ := HalfUp.div (v * p) percentageFactor

@[simp] theorem percentMul_ok : percentMul v p = .ok c ↔
    v * p ≤ maxUint256 - halfPercent ∧ percentProduct v p = c := by
  unfold percentMul percentProduct
  split_ifs with h
  · have h0 : v * p = 0 := mul_eq_zero.mpr h
    simp [h0]
  · push Not at h
    simp [HalfUp.div, halfPercent, Nat.le_div_iff_mul_le (Nat.pos_of_ne_zero h.2)]

@[simp] theorem percentDiv_ok : percentDiv v p = .ok c ↔
    p ≠ 0 ∧ v * percentageFactor ≤ maxUint256 - p / 2 ∧
      HalfUp.div (v * percentageFactor) p = c := by
  simp [percentDiv, HalfUp.div, Nat.le_div_iff_mul_le percentageFactor_pos]

theorem percentMul_fails : FailsOnly Revert.IsOverflow (percentMul v p) := by
  unfold percentMul
  split
  case isTrue => exact .ok 0
  case isFalse => exact .bind_unit (.require fun _ => .inr (.inr rfl)) fun _ => .pure _

theorem percentDiv_fails (hp : p ≠ 0) : FailsOnly Revert.IsOverflow (percentDiv v p) :=
  .bind_unit (.require fun h0 => absurd hp h0) fun _ =>
    .bind_unit (.require fun _ => .inr (.inr rfl)) fun _ => .pure _

end PercentageMath

namespace MathUtils

open WadRayMath

def secondsPerYear : ℕ := 365 * 24 * 60 * 60

def calculateLinearInterest (rate lastUpdateTimestamp now : ℕ) : Tx ℕ := do
  let timeDifference ← SafeMath.sub now lastUpdateTimestamp
  let product ← SafeMath.mul rate timeDifference
  SafeMath.add (product / secondsPerYear) ray

def calculateCompoundedInterest (rate lastUpdateTimestamp currentTimestamp : ℕ) : Tx ℕ := do
  let exp ← SafeMath.sub currentTimestamp lastUpdateTimestamp
  if exp = 0 then
    return ray
  else
    let expMinusOne := exp - 1
    let expMinusTwo := if exp > 2 then exp - 2 else 0
    let ratePerSecond := rate / secondsPerYear
    let basePowerTwo ← rayMul ratePerSecond ratePerSecond
    let basePowerThree ← rayMul basePowerTwo ratePerSecond
    let pairs ← SafeMath.mul exp expMinusOne
    let secondTerm ← SafeMath.mul pairs basePowerTwo
    let triples ← SafeMath.mul pairs expMinusTwo
    let thirdTerm ← SafeMath.mul triples basePowerThree
    let firstTerm ← SafeMath.mul ratePerSecond exp
    let sum ← SafeMath.add ray firstTerm
    let sum ← SafeMath.add sum (secondTerm / 2)
    SafeMath.add sum (thirdTerm / 6)

def linearFactor (rate dt : ℕ) : ℕ := rate * dt / secondsPerYear + ray

/-- What the compounded factor over `dt` seconds exceeds one ray by. -/
def compoundedExcess (rate dt : ℕ) : ℕ :=
  let ratePerSecond := rate / secondsPerYear
  let basePowerTwo := rayProduct ratePerSecond ratePerSecond
  let basePowerThree := rayProduct basePowerTwo ratePerSecond
  ratePerSecond * dt + dt * (dt - 1) * basePowerTwo / 2 +
    dt * (dt - 1) * (dt - 2) * basePowerThree / 6

variable {rate last now c : ℕ}

theorem calculateLinearInterest_ok (h : calculateLinearInterest rate last now = .ok c) :
    last ≤ now ∧ c = linearFactor rate (now - last) := by
  simp only [calculateLinearInterest, bind_ok, SafeMath.sub_ok, SafeMath.mul_ok,
    SafeMath.add_ok] at h
  obtain ⟨dt, ⟨hle, rfl⟩, p, ⟨-, rfl⟩, -, rfl⟩ := h
  exact ⟨hle, rfl⟩

@[simp] theorem compoundedExcess_zero (rate : ℕ) : compoundedExcess rate 0 = 0 := by
  simp [compoundedExcess]

@[simp] theorem linearFactor_zero_left (dt : ℕ) : linearFactor 0 dt = ray := by
  simp [linearFactor]

@[simp] theorem linearFactor_zero_right (rate : ℕ) : linearFactor rate 0 = ray := by
  simp [linearFactor]

theorem calculateCompoundedInterest_ok
    (h : calculateCompoundedInterest rate last now = .ok c) :
    last ≤ now ∧ c = ray + compoundedExcess rate (now - last) := by
  simp only [calculateCompoundedInterest, bind_ok, SafeMath.sub_ok] at h
  obtain ⟨dt, ⟨hle, rfl⟩, h⟩ := h
  refine ⟨hle, ?_⟩
  split_ifs at h with h0 h2
  · simp only [pure_ok] at h
    simp [h0, h]
  all_goals
    simp only [bind_ok, rayMul_ok, SafeMath.mul_ok, SafeMath.add_ok] at h
    obtain ⟨b2, ⟨-, rfl⟩, b3, ⟨-, rfl⟩, ps, ⟨-, rfl⟩, t2, ⟨-, rfl⟩, ts, ⟨-, rfl⟩, t3, ⟨-, rfl⟩,
      t1, ⟨-, rfl⟩, s1, ⟨-, rfl⟩, s2, ⟨-, rfl⟩, -, rfl⟩ := h
    simp only [compoundedExcess]
  · omega
  · rw [show now - last - 2 = 0 by omega]
    omega

theorem calculateCompoundedInterest_self (rate t : ℕ) :
    calculateCompoundedInterest rate t t = .ok ray := by
  simp [calculateCompoundedInterest, SafeMath.sub, require, pure, Except.pure]

theorem compoundedExcess_growth (rate : ℕ) {dt dt' : ℕ} (h : dt ≤ dt') :
    compoundedExcess rate dt + rate / secondsPerYear * (dt' - dt) ≤ compoundedExcess rate dt' := by
  have hfirst : rate / secondsPerYear * dt + rate / secondsPerYear * (dt' - dt) =
      rate / secondsPerYear * dt' := by rw [← Nat.mul_add, Nat.add_sub_cancel' h]
  have hpairs : dt * (dt - 1) ≤ dt' * (dt' - 1) :=
    Nat.mul_le_mul h (Nat.sub_le_sub_right h 1)
  have hsecond (b : ℕ) : dt * (dt - 1) * b / 2 ≤ dt' * (dt' - 1) * b / 2 :=
    Nat.div_le_div_right (Nat.mul_le_mul_right b hpairs)
  have hthird (b : ℕ) : dt * (dt - 1) * (dt - 2) * b / 6 ≤ dt' * (dt' - 1) * (dt' - 2) * b / 6 :=
    Nat.div_le_div_right (Nat.mul_le_mul_right b
      (Nat.mul_le_mul hpairs (Nat.sub_le_sub_right h 2)))
  simp only [compoundedExcess]
  exact (Nat.add_le_add (Nat.add_le_add (Nat.le_refl _) (hsecond _)) (hthird _)).trans'
    (by omega)

theorem compoundedExcess_mono (rate : ℕ) {dt dt' : ℕ} (h : dt ≤ dt') :
    compoundedExcess rate dt ≤ compoundedExcess rate dt' :=
  (Nat.le_add_right _ _).trans (compoundedExcess_growth rate h)

theorem compoundedExcess_idle (hrate : rate < secondsPerYear) (dt : ℕ) :
    compoundedExcess rate dt = 0 := by
  simp [compoundedExcess, Nat.div_eq_of_lt hrate]

theorem calculateCompoundedInterest_idle (hrate : rate < secondsPerYear) (hle : last ≤ now)
    (hnow : now < 2 ^ 40) : calculateCompoundedInterest rate last now = .ok ray := by
  unfold calculateCompoundedInterest
  rw [SafeMath.sub_ok.mpr ⟨hle, rfl⟩, ok_bind, Nat.div_eq_of_lt hrate]
  split
  case isTrue => rfl
  case isFalse =>
    generalize hdt : now - last = dt
    have hlt : dt < 2 ^ 40 := by omega
    have hpairs : dt * (dt - 1) ≤ 2 ^ 80 := by
      calc dt * (dt - 1) ≤ 2 ^ 40 * 2 ^ 40 := Nat.mul_le_mul (by omega) (by omega)
        _ = 2 ^ 80 := by norm_num
    have htriples : dt * (dt - 1) * (dt - 2) ≤ 2 ^ 120 := by
      calc dt * (dt - 1) * (dt - 2) ≤ 2 ^ 80 * 2 ^ 40 := Nat.mul_le_mul hpairs (by omega)
        _ = 2 ^ 120 := by norm_num
    have htwo : (if dt > 2 then dt - 2 else 0) = dt - 2 := by split <;> omega
    have hmul {a b : ℕ} (h : a * b ≤ 2 ^ 120) : SafeMath.mul a b = .ok (a * b) :=
      SafeMath.mul_ok.mpr ⟨h.trans (by norm_num [maxUint256]), rfl⟩
    have hzero : rayMul 0 0 = .ok 0 := rfl
    simp only [htwo, hzero, ok_bind, hmul (hpairs.trans (by norm_num)), hmul htriples,
      hmul (show dt * (dt - 1) * 0 ≤ 2 ^ 120 by simp),
      hmul (show dt * (dt - 1) * (dt - 2) * 0 ≤ 2 ^ 120 by simp),
      hmul (show 0 * dt ≤ 2 ^ 120 by simp)]
    simp [SafeMath.add, ray, maxUint256, require, pure, Except.pure]

theorem calculateLinearInterest_fails (h : last ≤ now) :
    FailsOnly Revert.IsOverflow (calculateLinearInterest rate last now) :=
  .bind (SafeMath.sub_fails h) fun _ _ => .bind SafeMath.mul_fails fun _ _ => SafeMath.add_fails

theorem calculateCompoundedInterest_fails (h : last ≤ now) :
    FailsOnly Revert.IsOverflow (calculateCompoundedInterest rate last now) := by
  refine .bind (SafeMath.sub_fails h) fun exp _ => ?_
  split
  case isTrue => exact .pure _
  case isFalse =>
    refine .bind rayMul_fails fun _ _ => .bind rayMul_fails fun _ _ => ?_
    refine .bind SafeMath.mul_fails fun _ _ => .bind SafeMath.mul_fails fun _ _ => ?_
    refine .bind SafeMath.mul_fails fun _ _ => .bind SafeMath.mul_fails fun _ _ => ?_
    refine .bind SafeMath.mul_fails fun _ _ => .bind SafeMath.add_fails fun _ _ => ?_
    exact .bind SafeMath.add_fails fun _ _ => SafeMath.add_fails

theorem ray_le_linearFactor (rate dt : ℕ) : ray ≤ linearFactor rate dt := Nat.le_add_left _ _

end MathUtils

end Moola
