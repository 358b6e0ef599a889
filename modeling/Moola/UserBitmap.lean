import Mathlib.Data.Finset.Filter
import Mathlib.Data.Finset.Range
import Mathlib.Logic.Function.Basic
import Moola.Configuration
import Moola.Lib.Trace

/-! The user bitmap as two sets of reserves, those the user borrows from and those
that back the debt. A setter changes one set at one reserve, a run of setters is a
run of set operations, and the aggregate queries see exactly the two sets. -/

namespace Moola

open Guard

namespace UserConfigurationMap

inductive Kind
  | borrowing
  | collateral
  deriving DecidableEq

def Kind.position : Kind → ℕ → ℕ
  | borrowing, reserveIndex => reserveIndex * 2
  | collateral, reserveIndex => reserveIndex * 2 + 1

def get (self : UserConfigurationMap) : Kind → ℕ → Tx Bool
  | .borrowing, reserveIndex => self.isBorrowing reserveIndex
  | .collateral, reserveIndex => self.isUsingAsCollateral reserveIndex

def set (self : UserConfigurationMap) : Kind → ℕ → Bool → Tx UserConfigurationMap
  | .borrowing, reserveIndex, value => self.setBorrowing reserveIndex value
  | .collateral, reserveIndex, value => self.setUsingAsCollateral reserveIndex value

structure Write where
  kind : Kind
  reserveIndex : ℕ
  value : Bool

def Write.apply (w : Write) (self : UserConfigurationMap) : Tx UserConfigurationMap :=
  self.set w.kind w.reserveIndex w.value

def writeAll (self : UserConfigurationMap) : List Write → Tx UserConfigurationMap
  | [] => .ok self
  | w :: ws => do
    let self ← w.apply self
    self.writeAll ws

def members (self : UserConfigurationMap) (kind : Kind) : Finset ℕ :=
  (Finset.range 128).filter fun i => self.get kind i = .ok true

def Write.toSets (sets : Kind → Finset ℕ) (w : Write) : Kind → Finset ℕ :=
  Function.update sets w.kind
    (if w.value then insert w.reserveIndex (sets w.kind)
      else (sets w.kind).erase w.reserveIndex)

structure Write.Exact (w : Write) (self c : UserConfigurationMap) : Prop where
  own : c.get w.kind w.reserveIndex = .ok w.value
  others : ∀ j < 128, j ≠ w.reserveIndex → ∀ kind, c.get kind j = self.get kind j
  otherKind : ∀ kind, kind ≠ w.kind → c.get kind w.reserveIndex = self.get kind w.reserveIndex

/-- The queries agree with the flags they stand for. -/
structure Coherent (self : UserConfigurationMap) : Prop where
  either : ∀ i < 128, ∃ borrowing collateral,
    self.isBorrowing i = .ok borrowing ∧ self.isUsingAsCollateral i = .ok collateral ∧
      self.isUsingAsCollateralOrBorrowing i = .ok (collateral || borrowing)
  borrowingAny : self.isBorrowingAny = true ↔ ∃ i < 128, self.isBorrowing i = .ok true
  empty : self.isEmpty = true ↔
    ∀ i < 128, self.isBorrowing i = .ok false ∧ self.isUsingAsCollateral i = .ok false

variable {self c : UserConfigurationMap} {kind kind' : Kind} {i j : ℕ} {b : Bool} {w : Write}

theorem Kind.position_inj : kind.position i = kind'.position j ↔ kind = kind' ∧ i = j := by
  cases kind <;> cases kind' <;> simp [position] <;> omega

theorem Kind.position_lt (kind : Kind) (h : i < 128) : kind.position i < 256 := by
  cases kind <;> simp only [position] <;> omega

theorem get_ok : self.get kind i = .ok b ↔
    i < 128 ∧ self.data.getLsbD (kind.position i) = b := by
  cases kind with
  | borrowing => exact isBorrowing_ok
  | collateral => exact isUsingAsCollateral_ok

theorem set_ok : self.set kind i b = .ok c ↔
    i < 128 ∧ self.writeBit (kind.position i) b = c := by
  cases kind with
  | borrowing => exact setBorrowing_ok
  | collateral => exact setUsingAsCollateral_ok

theorem get_of_lt (self : UserConfigurationMap) (kind : Kind) (h : i < 128) :
    self.get kind i = .ok (self.data.getLsbD (kind.position i)) := get_ok.mpr ⟨h, rfl⟩

theorem Write.exists_apply (self : UserConfigurationMap) (h : w.reserveIndex < 128) :
    ∃ c, w.apply self = .ok c := ⟨_, set_ok.mpr ⟨h, rfl⟩⟩

theorem Write.index_lt (h : w.apply self = .ok c) : w.reserveIndex < 128 := (set_ok.mp h).1

theorem Write.get_apply (h : w.apply self = .ok c) (kind : Kind) (hj : j < 128) :
    c.get kind j = if kind = w.kind ∧ j = w.reserveIndex then .ok w.value
      else self.get kind j := by
  obtain ⟨hi, rfl⟩ := set_ok.mp h
  rw [get_of_lt _ _ hj, writeBit_getLsbD _ _ _ (w.kind.position_lt hi), get_of_lt _ _ hj]
  simp only [Kind.position_inj]
  split_ifs <;> rfl

theorem Write.exact_apply (h : w.apply self = .ok c) : w.Exact self c where
  own := by rw [get_apply h _ (index_lt h), if_pos ⟨rfl, rfl⟩]
  others j hj hne kind := by rw [get_apply h _ hj, if_neg fun he => hne he.2]
  otherKind kind hne := by rw [get_apply h _ (index_lt h), if_neg fun he => hne he.1]

theorem mem_members : i ∈ self.members kind ↔ self.get kind i = .ok true := by
  rw [members, Finset.mem_filter, Finset.mem_range, and_iff_right_iff_imp]
  exact fun h => (get_ok.mp h).1

theorem members_apply (h : w.apply self = .ok c) : c.members = w.toSets self.members := by
  funext kind
  ext j
  rw [mem_members, Write.toSets]
  by_cases hj : j < 128
  · rw [Write.get_apply h kind hj]
    by_cases hkind : kind = w.kind
    · subst hkind
      rw [Function.update_self]
      by_cases hw : j = w.reserveIndex
      · cases w.value <;> simp [hw]
      · cases w.value <;> simp [hw, mem_members]
    · rw [Function.update_of_ne hkind, if_neg fun he => hkind he.1, mem_members]
  · -- an index outside the bitmap is in no set, before and after
    have hnot (x : UserConfigurationMap) : x.get kind j ≠ .ok true := fun h => hj (get_ok.mp h).1
    have hmem : j ∉ self.members kind := mt mem_members.mp (hnot self)
    have hne : j ≠ w.reserveIndex := fun he => hj (he ▸ Write.index_lt h)
    refine iff_of_false (hnot c) ?_
    by_cases hkind : kind = w.kind
    · subst hkind
      rw [Function.update_self]
      cases w.value <;> simp [hne, hmem]
    · rwa [Function.update_of_ne hkind]

theorem writeAll_eq_run (self : UserConfigurationMap) (ws : List Write) :
    self.writeAll ws = Trace.run (fun self w => w.apply self) self ws := by
  induction ws generalizing self with
  | nil => rfl
  | cons w ws ih => exact bind_congr ih

theorem exists_writeAll (self : UserConfigurationMap) {ws : List Write}
    (h : ∀ w ∈ ws, w.reserveIndex < 128) : ∃ c, self.writeAll ws = .ok c := by
  rw [writeAll_eq_run]
  exact Trace.exists_run (fun w : Write => w.reserveIndex < 128)
    (fun _ self hw => Write.exists_apply self hw) h self

/-- A run of setters is the run of set operations. -/
theorem members_writeAll {ws : List Write} (h : self.writeAll ws = .ok c) :
    c.members = ws.foldl Write.toSets self.members := by
  rw [writeAll_eq_run] at h
  exact Trace.view_run members Write.toSets (fun _ _ _ => members_apply) h

theorem coherent (self : UserConfigurationMap) : self.Coherent where
  either i hi := ⟨_, _, isBorrowing_ok.mpr ⟨hi, rfl⟩, isUsingAsCollateral_ok.mpr ⟨hi, rfl⟩,
    isUsingAsCollateralOrBorrowing_ok.mpr ⟨hi, Bool.or_comm _ _⟩⟩
  borrowingAny := by
    rw [isBorrowingAny_iff]
    simp only [isBorrowing_ok]
    exact exists_congr fun i => and_congr_right fun hi => (and_iff_right hi).symm
  empty := by
    rw [isEmpty_iff]
    simp only [isBorrowing_ok, isUsingAsCollateral_ok]
    exact forall₂_congr fun i hi => by rw [and_iff_right hi, and_iff_right hi]

/-- Every word is a pair of sets of reserves, before and after every run of setters: the run
does to the sets what it says, the queries see those sets, and the next setter changes its
own flag only. -/
theorem bitmap_faithful (self : UserConfigurationMap) (ws : List Write)
    (h : ∀ w ∈ ws, w.reserveIndex < 128) :
    ∃ c, self.writeAll ws = .ok c ∧ c.members = ws.foldl Write.toSets self.members ∧
      c.Coherent ∧ ∀ w : Write, w.reserveIndex < 128 → ∃ c', w.apply c = .ok c' ∧ w.Exact c c' := by
  obtain ⟨c, hc⟩ := exists_writeAll self h
  refine ⟨c, hc, members_writeAll hc, c.coherent, fun w hw => ?_⟩
  obtain ⟨c', hc'⟩ := Write.exists_apply c hw
  exact ⟨c', hc', Write.exact_apply hc'⟩

theorem bitmap_faithful_two : ∃ c,
    (⟨0#256⟩ : UserConfigurationMap).writeAll [⟨.borrowing, 127, true⟩, ⟨.collateral, 0, true⟩] =
      .ok c ∧ c.Coherent := by
  obtain ⟨c, hc, -, hcoherent, -⟩ := bitmap_faithful ⟨0#256⟩
    [⟨.borrowing, 127, true⟩, ⟨.collateral, 0, true⟩] (by decide)
  exact ⟨c, hc, hcoherent⟩

end UserConfigurationMap

end Moola
