import Mathlib.Data.BitVec
import Mathlib.Logic.Function.Basic
import Mathlib.Tactic.NormNum

/-! Fields packed in one word, each overwritten under a mask and a shift. What a
write does is said bit by bit once; the rest, that a field reads what was written,
that the others do not change and that writes commute, is read off the bits. A
`Layout` carries the shape of its fields, so none of it mentions a mask again. -/

namespace BitField

variable {w : ℕ}

def Clears (mask : BitVec w) (start width : ℕ) : Prop :=
  ∀ k < w, mask.getLsbD k = !decide (start ≤ k ∧ k < start + width)

def read (x mask : BitVec w) (start : ℕ) : ℕ := ((x &&& ~~~mask) >>> start).toNat

def overwrite (x mask : BitVec w) (start value : ℕ) : BitVec w :=
  (x &&& mask) ||| (BitVec.ofNat w value <<< start)

variable {mask mask' : BitVec w} {start start' width width' value value' : ℕ}

theorem testBit_eq_false_of_le (hvalue : value < 2 ^ width) {i : ℕ} (h : width ≤ i) :
    value.testBit i = false :=
  Nat.testBit_lt_two_pow (hvalue.trans_le (Nat.pow_le_pow_right (by norm_num) h))

theorem overwrite_getLsbD (x : BitVec w) (hmask : Clears mask start width)
    (hvalue : value < 2 ^ width) {k : ℕ} (hk : k < w) :
    (overwrite x mask start value).getLsbD k =
      if start ≤ k ∧ k < start + width then value.testBit (k - start) else x.getLsbD k := by
  simp only [overwrite, BitVec.getLsbD_or, BitVec.getLsbD_and, BitVec.getLsbD_shiftLeft,
    BitVec.getLsbD_ofNat, hmask k hk]
  split_ifs with hin
  · simp [hin, hk, show k - start < w by omega]
  · by_cases hlow : k < start
    · simp [hlow, show ¬start ≤ k by omega]
    · have hhigh := testBit_eq_false_of_le hvalue (show width ≤ k - start by omega)
      simp [hhigh, hin]

theorem read_testBit (x : BitVec w) (hmask : Clears mask start width) (hfits : start + width ≤ w)
    (i : ℕ) : (read x mask start).testBit i = (decide (i < width) && x.getLsbD (start + i)) := by
  rw [read, BitVec.testBit_toNat, BitVec.getLsbD_ushiftRight, BitVec.getLsbD_and,
    BitVec.getLsbD_not]
  by_cases hk : start + i < w
  · rw [hmask _ hk]
    by_cases hi : i < width <;> simp [hk, hi]
  · simp [hk, show ¬i < width by omega]

theorem read_lt (x : BitVec w) (hmask : Clears mask start width) (hfits : start + width ≤ w) :
    read x mask start < 2 ^ width :=
  Nat.lt_pow_two_of_testBit _ fun i hi => by
    rw [read_testBit x hmask hfits, decide_eq_false (by omega), Bool.false_and]

theorem read_overwrite (x : BitVec w) (hmask : Clears mask start width)
    (hvalue : value < 2 ^ width) (hfits : start + width ≤ w) :
    read (overwrite x mask start value) mask start = value := by
  apply Nat.eq_of_testBit_eq
  intro i
  rw [read_testBit _ hmask hfits]
  by_cases hi : i < width
  · rw [overwrite_getLsbD x hmask hvalue (by omega), if_pos (by omega), Nat.add_sub_cancel_left,
      decide_eq_true hi, Bool.true_and]
  · rw [decide_eq_false hi, Bool.false_and, testBit_eq_false_of_le hvalue (by omega)]

theorem read_overwrite_of_disjoint (x : BitVec w) (hmask : Clears mask start width)
    (hmask' : Clears mask' start' width') (hvalue : value < 2 ^ width)
    (hfits' : start' + width' ≤ w)
    (hdisjoint : start + width ≤ start' ∨ start' + width' ≤ start) :
    read (overwrite x mask start value) mask' start' = read x mask' start' := by
  apply Nat.eq_of_testBit_eq
  intro i
  rw [read_testBit _ hmask' hfits', read_testBit _ hmask' hfits']
  by_cases hi : i < width'
  · rw [overwrite_getLsbD x hmask hvalue (by omega), if_neg (by omega)]
  · rw [decide_eq_false hi, Bool.false_and, Bool.false_and]

theorem and_not_ne_zero (x : BitVec w) (hmask : Clears mask start 1) (hfits : start + 1 ≤ w) :
    (x &&& ~~~mask != 0#w).toNat = read x mask start := by
  have hread : read x mask start = (x.getLsbD start).toNat := by
    apply Nat.eq_of_testBit_eq
    intro i
    rw [read_testBit x hmask hfits]
    cases i with
    | zero => cases x.getLsbD start <;> rfl
    | succ i =>
      rw [testBit_eq_false_of_le (Bool.toNat_lt _) (Nat.le_add_left 1 i)]
      rfl
  have hzero : x &&& ~~~mask = 0#w ↔ x.getLsbD start = false := by
    constructor
    · intro h
      have hbit := congrArg (fun y : BitVec w => y.getLsbD start) h
      simp only [BitVec.getLsbD_and, BitVec.getLsbD_not, hmask start (by omega)] at hbit
      simpa [show start < w by omega] using hbit
    · intro h
      apply BitVec.eq_of_getLsbD_eq
      intro k hk
      rw [BitVec.getLsbD_and, BitVec.getLsbD_not, hmask k hk, BitVec.getLsbD_zero]
      by_cases hin : k = start
      · rw [hin, h, Bool.false_and]
      · rw [decide_eq_false (show ¬(start ≤ k ∧ k < start + 1) by omega), Bool.not_false,
          Bool.not_true, Bool.and_false, Bool.and_false]
  rw [hread]
  cases h : x.getLsbD start with
  | false => simp [hzero.mpr h]
  | true =>
    have hne : x &&& ~~~mask ≠ 0#w := fun h0 => by
      rw [hzero.mp h0] at h
      cases h
    simp [bne_iff_ne.mpr hne]

theorem overwrite_comm (x : BitVec w) (hmask : Clears mask start width)
    (hmask' : Clears mask' start' width') (hvalue : value < 2 ^ width)
    (hvalue' : value' < 2 ^ width')
    (hdisjoint : start + width ≤ start' ∨ start' + width' ≤ start) :
    overwrite (overwrite x mask start value) mask' start' value' =
      overwrite (overwrite x mask' start' value') mask start value := by
  apply BitVec.eq_of_getLsbD_eq
  intro k hk
  rw [overwrite_getLsbD _ hmask' hvalue' hk, overwrite_getLsbD _ hmask hvalue hk,
    overwrite_getLsbD _ hmask hvalue hk, overwrite_getLsbD _ hmask' hvalue' hk]
  by_cases hin : start ≤ k ∧ k < start + width
  · rw [if_pos hin, if_pos hin, if_neg (by omega)]
  · rw [if_neg hin, if_neg hin]

/-- The fields of a word of `w` bits: their masks clear what their positions say, they lie
inside the word and apart from each other. -/
structure Layout (ι : Type*) (w : ℕ) where
  mask : ι → BitVec w
  start : ι → ℕ
  width : ι → ℕ
  clears : ∀ f, Clears (mask f) (start f) (width f)
  fits : ∀ f, start f + width f ≤ w
  disjoint : ∀ f g, f ≠ g → start f + width f ≤ start g ∨ start g + width g ≤ start f

namespace Layout

variable {ι : Type*} (L : Layout ι w)

def view (x : BitVec w) (f : ι) : ℕ := read x (L.mask f) (L.start f)

def write (x : BitVec w) (f : ι) (value : ℕ) : BitVec w :=
  overwrite x (L.mask f) (L.start f) value

def Covers (k : ℕ) : Prop := ∃ f, L.start f ≤ k ∧ k < L.start f + L.width f

variable {L} {f g : ι}

theorem view_write [DecidableEq ι] (x : BitVec w) (h : value < 2 ^ L.width f) :
    L.view (L.write x f value) = Function.update (L.view x) f value := by
  funext g
  by_cases hg : g = f
  · subst hg
    rw [Function.update_self]
    exact read_overwrite x (L.clears g) h (L.fits g)
  · rw [Function.update_of_ne hg]
    exact read_overwrite_of_disjoint x (L.clears f) (L.clears g) h (L.fits g)
      (L.disjoint f g (Ne.symm hg))

theorem view_lt (x : BitVec w) (f : ι) : L.view x f < 2 ^ L.width f :=
  read_lt x (L.clears f) (L.fits f)

theorem write_getLsbD_of_not_covers (x : BitVec w) (h : value < 2 ^ L.width f) {k : ℕ}
    (hk : k < w) (hout : ¬L.Covers k) : (L.write x f value).getLsbD k = x.getLsbD k := by
  rw [write, overwrite_getLsbD x (L.clears f) h hk, if_neg fun hin => hout ⟨f, hin⟩]

theorem write_comm (x : BitVec w) (hne : f ≠ g) (h : value < 2 ^ L.width f)
    (h' : value' < 2 ^ L.width g) :
    L.write (L.write x f value) g value' = L.write (L.write x g value') f value :=
  overwrite_comm x (L.clears f) (L.clears g) h h' (L.disjoint f g hne)

end Layout

end BitField
