import Mathlib.Tactic.IntervalCases
import Moola.Lib.BitField
import Moola.Math

/-! The two bitmaps of the pool, with the masks of their libraries: the flags a
user holds for each reserve, and the parameters of a reserve. The bit lemmas of
the first and the layout of the second are the interface; no later proof looks at
a mask. -/

namespace Moola

open Guard

structure UserConfigurationMap where
  data : BitVec 256
  deriving DecidableEq

namespace UserConfigurationMap

def borrowingMask : BitVec 256 :=
  0x5555555555555555555555555555555555555555555555555555555555555555

def writeBit (self : UserConfigurationMap) (position : ℕ) (value : Bool) : UserConfigurationMap :=
  ⟨(self.data &&& ~~~(1#256 <<< position)) ||| ((if value then 1#256 else 0#256) <<< position)⟩

def setBorrowing (self : UserConfigurationMap) (reserveIndex : ℕ) (borrowing : Bool) :
    Tx UserConfigurationMap := do
  require (reserveIndex < 128) .ulInvalidIndex
  return self.writeBit (reserveIndex * 2) borrowing

def setUsingAsCollateral (self : UserConfigurationMap) (reserveIndex : ℕ)
    (usingAsCollateral : Bool) : Tx UserConfigurationMap := do
  require (reserveIndex < 128) .ulInvalidIndex
  return self.writeBit (reserveIndex * 2 + 1) usingAsCollateral

def isUsingAsCollateralOrBorrowing (self : UserConfigurationMap) (reserveIndex : ℕ) :
    Tx Bool := do
  require (reserveIndex < 128) .ulInvalidIndex
  return (self.data >>> (reserveIndex * 2)) &&& 3#256 != 0#256

def isBorrowing (self : UserConfigurationMap) (reserveIndex : ℕ) : Tx Bool := do
  require (reserveIndex < 128) .ulInvalidIndex
  return (self.data >>> (reserveIndex * 2)) &&& 1#256 != 0#256

def isUsingAsCollateral (self : UserConfigurationMap) (reserveIndex : ℕ) : Tx Bool := do
  require (reserveIndex < 128) .ulInvalidIndex
  return (self.data >>> (reserveIndex * 2 + 1)) &&& 1#256 != 0#256

def isBorrowingAny (self : UserConfigurationMap) : Bool := self.data &&& borrowingMask != 0#256

def isEmpty (self : UserConfigurationMap) : Bool := self.data == 0#256

def borrowing (self : UserConfigurationMap) (reserveIndex : ℕ) : Bool :=
  self.data.getLsbD (reserveIndex * 2)

def collateral (self : UserConfigurationMap) (reserveIndex : ℕ) : Bool :=
  self.data.getLsbD (reserveIndex * 2 + 1)

variable {self c : UserConfigurationMap} {i j : ℕ} {b : Bool}

theorem writeBit_getLsbD (self : UserConfigurationMap) {position : ℕ} (value : Bool) (k : ℕ)
    (h : position < 256) :
    (self.writeBit position value).data.getLsbD k =
      if k = position then value else self.data.getLsbD k := by
  simp only [writeBit, BitVec.getLsbD_or, BitVec.getLsbD_and, BitVec.getLsbD_not,
    BitVec.getLsbD_shiftLeft]
  by_cases hk : k = position
  · cases value <;> simp [hk, h]
  · by_cases hlt : k < 256
    · have hone : (k < position) ∨ k - position ≠ 0 := by omega
      cases value <;> rcases hone with hone | hone <;> simp [hk, hlt, hone]
    · simp [hk, hlt, BitVec.getLsbD_of_ge self.data k (by omega)]

private theorem and_one_ne_zero (x : BitVec 256) : (x &&& 1#256 != 0#256) = x.getLsbD 0 := by
  rw [BitVec.and_one_eq_setWidth_ofBool_getLsbD]
  cases x.getLsbD 0 <;> decide

private theorem three_getLsbD (k : ℕ) : (3#256).getLsbD k = (decide (k = 0) || decide (k = 1)) := by
  rw [show 3#256 = 1#256 ||| 1#256 <<< 1 by decide]
  simp only [BitVec.getLsbD_or, BitVec.getLsbD_one, BitVec.getLsbD_shiftLeft]
  rcases Nat.lt_or_ge k 2 with h | h
  · interval_cases k <;> decide
  · have h1 : k - 1 ≠ 0 := by omega
    simp [h1, show k ≠ 1 by omega]

private theorem and_three_ne_zero (x : BitVec 256) :
    (x &&& 3#256 != 0#256) = (x.getLsbD 0 || x.getLsbD 1) := by
  have h : x &&& 3#256 = 0#256 ↔ x.getLsbD 0 = false ∧ x.getLsbD 1 = false := by
    constructor
    · intro hz
      have h0 := congrArg (fun y : BitVec 256 => y.getLsbD 0) hz
      have h1 := congrArg (fun y : BitVec 256 => y.getLsbD 1) hz
      simp only [BitVec.getLsbD_and, three_getLsbD] at h0 h1
      exact ⟨by simpa using h0, by simpa using h1⟩
    · rintro ⟨h0, h1⟩
      apply BitVec.eq_of_getLsbD_eq
      intro k _
      rw [BitVec.getLsbD_and, three_getLsbD]
      by_cases hk0 : k = 0
      · rw [hk0, h0, Bool.false_and, BitVec.getLsbD_zero]
      · by_cases hk1 : k = 1
        · rw [hk1, h1, Bool.false_and, BitVec.getLsbD_zero]
        · simp [hk0, hk1]
  rw [Bool.eq_iff_iff, bne_iff_ne, Ne, h]
  cases x.getLsbD 0 <;> cases x.getLsbD 1 <;> simp

@[simp] theorem setBorrowing_ok : self.setBorrowing i b = .ok c ↔
    i < 128 ∧ self.writeBit (i * 2) b = c := by simp [setBorrowing]

@[simp] theorem setUsingAsCollateral_ok : self.setUsingAsCollateral i b = .ok c ↔
    i < 128 ∧ self.writeBit (i * 2 + 1) b = c := by simp [setUsingAsCollateral]

@[simp] theorem isBorrowing_ok : self.isBorrowing i = .ok b ↔ i < 128 ∧ self.borrowing i = b := by
  simp [isBorrowing, borrowing, and_one_ne_zero]

@[simp] theorem isUsingAsCollateral_ok : self.isUsingAsCollateral i = .ok b ↔
    i < 128 ∧ self.collateral i = b := by
  simp [isUsingAsCollateral, collateral, and_one_ne_zero]

@[simp] theorem isUsingAsCollateralOrBorrowing_ok :
    self.isUsingAsCollateralOrBorrowing i = .ok b ↔
      i < 128 ∧ (self.borrowing i || self.collateral i) = b := by
  simp [isUsingAsCollateralOrBorrowing, borrowing, collateral, and_three_ne_zero]

theorem borrowing_writeBorrowing (self : UserConfigurationMap) (b : Bool) (h : i < 128) :
    (self.writeBit (i * 2) b).borrowing j = if j = i then b else self.borrowing j := by
  rw [borrowing, writeBit_getLsbD _ _ _ (by omega)]
  simp [borrowing]

theorem collateral_writeBorrowing (self : UserConfigurationMap) (b : Bool) (h : i < 128) :
    (self.writeBit (i * 2) b).collateral j = self.collateral j := by
  rw [collateral, writeBit_getLsbD _ _ _ (by omega), if_neg (by omega), collateral]

theorem borrowing_writeCollateral (self : UserConfigurationMap) (b : Bool) (h : i < 128) :
    (self.writeBit (i * 2 + 1) b).borrowing j = self.borrowing j := by
  rw [borrowing, writeBit_getLsbD _ _ _ (by omega), if_neg (by omega), borrowing]

theorem collateral_writeCollateral (self : UserConfigurationMap) (b : Bool) (h : i < 128) :
    (self.writeBit (i * 2 + 1) b).collateral j = if j = i then b else self.collateral j := by
  rw [collateral, writeBit_getLsbD _ _ _ (by omega)]
  simp [collateral]

theorem isEmpty_iff : self.isEmpty ↔
    ∀ i < 128, self.borrowing i = false ∧ self.collateral i = false := by
  simp only [isEmpty, beq_iff_eq, borrowing, collateral]
  constructor
  · intro h i _
    simp [h]
  · intro h
    apply BitVec.eq_of_getLsbD_eq
    intro k hk
    rw [BitVec.getLsbD_zero]
    rcases Nat.mod_two_eq_zero_or_one k with heven | hodd
    · rw [show k = k / 2 * 2 by omega]
      exact (h (k / 2) (by omega)).1
    · rw [show k = k / 2 * 2 + 1 by omega]
      exact (h (k / 2) (by omega)).2

theorem borrowing_of_isEmpty (h : self.isEmpty) (i : ℕ) : self.borrowing i = false := by
  simp only [isEmpty, beq_iff_eq] at h
  simp [borrowing, h]

theorem collateral_of_isEmpty (h : self.isEmpty) (i : ℕ) : self.collateral i = false := by
  simp only [isEmpty, beq_iff_eq] at h
  simp [collateral, h]

theorem isEmpty_eq_false_of_collateral (h : self.collateral i = true) : self.isEmpty = false := by
  by_contra hempty
  rw [collateral_of_isEmpty (by simpa using hempty)] at h
  cases h

private theorem borrowingMask_getLsbD :
    ∀ k < 256, borrowingMask.getLsbD k = decide (k % 2 = 0) := by
  decide +kernel

theorem isBorrowingAny_iff : self.isBorrowingAny ↔ ∃ i < 128, self.borrowing i = true := by
  rw [isBorrowingAny, bne_iff_ne, Ne, ← not_iff_not, not_not]
  push Not
  constructor
  · intro h i hi
    have hbit := congrArg (fun x : BitVec 256 => x.getLsbD (i * 2)) h
    simpa [borrowing, borrowingMask_getLsbD (i * 2) (by omega)] using hbit
  · intro h
    apply BitVec.eq_of_getLsbD_eq
    intro k hk
    rw [BitVec.getLsbD_and, BitVec.getLsbD_zero, borrowingMask_getLsbD k hk]
    by_cases heven : k % 2 = 0
    · have hbit := h (k / 2) (by omega)
      rw [borrowing, show k / 2 * 2 = k by omega] at hbit
      simp [hbit]
    · simp [heven]

theorem borrowing_of_not_isBorrowingAny (h : self.isBorrowingAny = false) (hi : i < 128) :
    self.borrowing i = false := by
  by_contra hb
  rw [isBorrowingAny_iff.mpr ⟨i, hi, by simpa using hb⟩] at h
  cases h

end UserConfigurationMap

structure ReserveConfigurationMap where
  data : BitVec 256
  deriving DecidableEq

namespace ReserveConfigurationMap

def ltvMask : BitVec 256 :=
  0xFFFFFFFFFFFFFFFFFFFFFFFFFFFFFFFFFFFFFFFFFFFFFFFFFFFFFFFFFFFF0000

def liquidationThresholdMask : BitVec 256 :=
  0xFFFFFFFFFFFFFFFFFFFFFFFFFFFFFFFFFFFFFFFFFFFFFFFFFFFFFFFF0000FFFF

def liquidationBonusMask : BitVec 256 :=
  0xFFFFFFFFFFFFFFFFFFFFFFFFFFFFFFFFFFFFFFFFFFFFFFFFFFFF0000FFFFFFFF

def decimalsMask : BitVec 256 :=
  0xFFFFFFFFFFFFFFFFFFFFFFFFFFFFFFFFFFFFFFFFFFFFFFFFFF00FFFFFFFFFFFF

def activeMask : BitVec 256 :=
  0xFFFFFFFFFFFFFFFFFFFFFFFFFFFFFFFFFFFFFFFFFFFFFFFFFEFFFFFFFFFFFFFF

def frozenMask : BitVec 256 :=
  0xFFFFFFFFFFFFFFFFFFFFFFFFFFFFFFFFFFFFFFFFFFFFFFFFFDFFFFFFFFFFFFFF

def borrowingMask : BitVec 256 :=
  0xFFFFFFFFFFFFFFFFFFFFFFFFFFFFFFFFFFFFFFFFFFFFFFFFFBFFFFFFFFFFFFFF

def stableBorrowingMask : BitVec 256 :=
  0xFFFFFFFFFFFFFFFFFFFFFFFFFFFFFFFFFFFFFFFFFFFFFFFFF7FFFFFFFFFFFFFF

def reserveFactorMask : BitVec 256 :=
  0xFFFFFFFFFFFFFFFFFFFFFFFFFFFFFFFFFFFFFFFFFFFF0000FFFFFFFFFFFFFFFF

/-- The field that a mask clears, read back from its start position. -/
def field (self : ReserveConfigurationMap) (mask : BitVec 256) (startBitPosition : ℕ) : ℕ :=
  ((self.data &&& ~~~mask) >>> startBitPosition).toNat

def flag (self : ReserveConfigurationMap) (mask : BitVec 256) : Bool :=
  self.data &&& ~~~mask != 0#256

def getLtv (self : ReserveConfigurationMap) : ℕ := self.field ltvMask 0

def getLiquidationThreshold (self : ReserveConfigurationMap) : ℕ :=
  self.field liquidationThresholdMask 16

def getLiquidationBonus (self : ReserveConfigurationMap) : ℕ := self.field liquidationBonusMask 32

def getDecimals (self : ReserveConfigurationMap) : ℕ := self.field decimalsMask 48

def getReserveFactor (self : ReserveConfigurationMap) : ℕ := self.field reserveFactorMask 64

def getActive (self : ReserveConfigurationMap) : Bool := self.flag activeMask

def getFrozen (self : ReserveConfigurationMap) : Bool := self.flag frozenMask

def getBorrowingEnabled (self : ReserveConfigurationMap) : Bool := self.flag borrowingMask

def getStableRateBorrowingEnabled (self : ReserveConfigurationMap) : Bool :=
  self.flag stableBorrowingMask

def setField (self : ReserveConfigurationMap) (mask : BitVec 256) (startBitPosition value : ℕ) :
    ReserveConfigurationMap :=
  ⟨(self.data &&& mask) ||| (BitVec.ofNat 256 value <<< startBitPosition)⟩

def setLtv (self : ReserveConfigurationMap) (ltv : ℕ) : Tx ReserveConfigurationMap := do
  require (ltv ≤ 65535) .rcInvalidLtv
  return self.setField ltvMask 0 ltv

def setLiquidationThreshold (self : ReserveConfigurationMap) (threshold : ℕ) :
    Tx ReserveConfigurationMap := do
  require (threshold ≤ 65535) .rcInvalidLiqThreshold
  return self.setField liquidationThresholdMask 16 threshold

def setLiquidationBonus (self : ReserveConfigurationMap) (bonus : ℕ) :
    Tx ReserveConfigurationMap := do
  require (bonus ≤ 65535) .rcInvalidLiqBonus
  return self.setField liquidationBonusMask 32 bonus

def setDecimals (self : ReserveConfigurationMap) (decimals : ℕ) : Tx ReserveConfigurationMap := do
  require (decimals ≤ 255) .rcInvalidDecimals
  return self.setField decimalsMask 48 decimals

def setReserveFactor (self : ReserveConfigurationMap) (reserveFactor : ℕ) :
    Tx ReserveConfigurationMap := do
  require (reserveFactor ≤ 65535) .rcInvalidReserveFactor
  return self.setField reserveFactorMask 64 reserveFactor

def setActive (self : ReserveConfigurationMap) (active : Bool) : ReserveConfigurationMap :=
  self.setField activeMask 56 active.toNat

def setFrozen (self : ReserveConfigurationMap) (frozen : Bool) : ReserveConfigurationMap :=
  self.setField frozenMask 57 frozen.toNat

def setBorrowingEnabled (self : ReserveConfigurationMap) (enabled : Bool) :
    ReserveConfigurationMap :=
  self.setField borrowingMask 58 enabled.toNat

def setStableRateBorrowingEnabled (self : ReserveConfigurationMap) (enabled : Bool) :
    ReserveConfigurationMap :=
  self.setField stableBorrowingMask 59 enabled.toNat

def getFlags (self : ReserveConfigurationMap) : Bool × Bool × Bool × Bool :=
  let dataLocal := self.data
  (dataLocal &&& ~~~activeMask != 0#256, dataLocal &&& ~~~frozenMask != 0#256,
    dataLocal &&& ~~~borrowingMask != 0#256, dataLocal &&& ~~~stableBorrowingMask != 0#256)

def getParams (self : ReserveConfigurationMap) : ℕ × ℕ × ℕ × ℕ × ℕ :=
  let dataLocal := self.data
  ((dataLocal &&& ~~~ltvMask).toNat,
    ((dataLocal &&& ~~~liquidationThresholdMask) >>> 16).toNat,
    ((dataLocal &&& ~~~liquidationBonusMask) >>> 32).toNat,
    ((dataLocal &&& ~~~decimalsMask) >>> 48).toNat,
    ((dataLocal &&& ~~~reserveFactorMask) >>> 64).toNat)

def getParamsMemory (self : ReserveConfigurationMap) : ℕ × ℕ × ℕ × ℕ × ℕ :=
  ((self.data &&& ~~~ltvMask).toNat,
    ((self.data &&& ~~~liquidationThresholdMask) >>> 16).toNat,
    ((self.data &&& ~~~liquidationBonusMask) >>> 32).toNat,
    ((self.data &&& ~~~decimalsMask) >>> 48).toNat,
    ((self.data &&& ~~~reserveFactorMask) >>> 64).toNat)

def getFlagsMemory (self : ReserveConfigurationMap) : Bool × Bool × Bool × Bool :=
  (self.data &&& ~~~activeMask != 0#256, self.data &&& ~~~frozenMask != 0#256,
    self.data &&& ~~~borrowingMask != 0#256, self.data &&& ~~~stableBorrowingMask != 0#256)

inductive Field
  | ltv
  | liquidationThreshold
  | liquidationBonus
  | decimals
  | active
  | frozen
  | borrowingEnabled
  | stableRateBorrowingEnabled
  | reserveFactor
  deriving DecidableEq

namespace Field

def mask : Field → BitVec 256
  | ltv => ltvMask
  | liquidationThreshold => liquidationThresholdMask
  | liquidationBonus => liquidationBonusMask
  | decimals => decimalsMask
  | active => activeMask
  | frozen => frozenMask
  | borrowingEnabled => borrowingMask
  | stableRateBorrowingEnabled => stableBorrowingMask
  | reserveFactor => reserveFactorMask

def start : Field → ℕ
  | ltv => 0
  | liquidationThreshold => 16
  | liquidationBonus => 32
  | decimals => 48
  | active => 56
  | frozen => 57
  | borrowingEnabled => 58
  | stableRateBorrowingEnabled => 59
  | reserveFactor => 64

def width : Field → ℕ
  | ltv | liquidationThreshold | liquidationBonus | reserveFactor => 16
  | decimals => 8
  | active | frozen | borrowingEnabled | stableRateBorrowingEnabled => 1

theorem fits (f : Field) : f.start + f.width ≤ 256 := by cases f <;> decide

theorem disjoint (f g : Field) (hne : f ≠ g) :
    f.start + f.width ≤ g.start ∨ g.start + g.width ≤ f.start := by
  cases f <;> cases g <;> first | exact absurd rfl hne | decide

theorem mask_clears (f : Field) : BitField.Clears f.mask f.start f.width := by
  cases f <;> (unfold BitField.Clears; decide +kernel)

end Field

/-- The masks of the library agree with its start positions, and no two overlap. -/
def layout : BitField.Layout Field 256 where
  mask := Field.mask
  start := Field.start
  width := Field.width
  clears := Field.mask_clears
  fits := Field.fits
  disjoint := Field.disjoint

theorem view_setField (self : ReserveConfigurationMap) (f : Field) {value : ℕ}
    (h : value < 2 ^ f.width) : layout.view (self.setField f.mask f.start value).data =
      Function.update (layout.view self.data) f value :=
  layout.view_write self.data h

variable {self c : ReserveConfigurationMap} {n : ℕ}

theorem setReserveFactor_ok (h : self.setReserveFactor n = .ok c) :
    n ≤ 65535 ∧ c.getReserveFactor = n := by
  simp only [setReserveFactor, bind_unit_ok, require_ok, pure_ok] at h
  obtain ⟨hle, rfl⟩ := h
  have hview := self.view_setField .reserveFactor (Nat.lt_succ_of_le hle)
  exact ⟨hle, (congrFun hview .reserveFactor).trans (Function.update_self _ _ _)⟩

theorem setLiquidationThreshold_ok (h : self.setLiquidationThreshold n = .ok c) :
    n ≤ 65535 ∧ c.getLiquidationThreshold = n := by
  simp only [setLiquidationThreshold, bind_unit_ok, require_ok, pure_ok] at h
  obtain ⟨hle, rfl⟩ := h
  have hview := self.view_setField .liquidationThreshold (Nat.lt_succ_of_le hle)
  exact ⟨hle, (congrFun hview .liquidationThreshold).trans (Function.update_self _ _ _)⟩

theorem setLiquidationBonus_ok (h : self.setLiquidationBonus n = .ok c) :
    n ≤ 65535 ∧ c.getLiquidationBonus = n ∧
      c.getLiquidationThreshold = self.getLiquidationThreshold := by
  simp only [setLiquidationBonus, bind_unit_ok, require_ok, pure_ok] at h
  obtain ⟨hle, rfl⟩ := h
  have hview := self.view_setField .liquidationBonus (Nat.lt_succ_of_le hle)
  exact ⟨hle, (congrFun hview .liquidationBonus).trans (Function.update_self _ _ _),
    (congrFun hview .liquidationThreshold).trans (Function.update_of_ne (by decide) _ _)⟩

theorem getLtv_le (self : ReserveConfigurationMap) : self.getLtv ≤ 65535 :=
  Nat.le_of_lt_succ (layout.view_lt self.data .ltv)

theorem getLiquidationThreshold_le (self : ReserveConfigurationMap) :
    self.getLiquidationThreshold ≤ 65535 :=
  Nat.le_of_lt_succ (layout.view_lt self.data .liquidationThreshold)

theorem getDecimals_lt (self : ReserveConfigurationMap) : self.getDecimals < 256 :=
  layout.view_lt self.data .decimals

end ReserveConfigurationMap

end Moola
