import Moola.Configuration
import Moola.Lib.Trace

/-! The configuration word of a reserve as nine independent parameters. A setter is a
write of the layout, each of the four ways to read a parameter reads the layout, and
so a run of setters is a run of updates of nine numbers, in any order as far as the
parameters differ. -/

namespace Moola

open Guard

namespace ReserveConfigurationMap

inductive Setter
  | ltv (ltv : ℕ)
  | liquidationThreshold (threshold : ℕ)
  | liquidationBonus (bonus : ℕ)
  | decimals (decimals : ℕ)
  | active (active : Bool)
  | frozen (frozen : Bool)
  | borrowingEnabled (enabled : Bool)
  | stableRateBorrowingEnabled (enabled : Bool)
  | reserveFactor (reserveFactor : ℕ)

namespace Setter

def apply (self : ReserveConfigurationMap) : Setter → Tx ReserveConfigurationMap
  | ltv n => self.setLtv n
  | liquidationThreshold n => self.setLiquidationThreshold n
  | liquidationBonus n => self.setLiquidationBonus n
  | decimals n => self.setDecimals n
  | active b => .ok (self.setActive b)
  | frozen b => .ok (self.setFrozen b)
  | borrowingEnabled b => .ok (self.setBorrowingEnabled b)
  | stableRateBorrowingEnabled b => .ok (self.setStableRateBorrowingEnabled b)
  | reserveFactor n => self.setReserveFactor n

def field : Setter → Field
  | ltv _ => .ltv
  | liquidationThreshold _ => .liquidationThreshold
  | liquidationBonus _ => .liquidationBonus
  | decimals _ => .decimals
  | active _ => .active
  | frozen _ => .frozen
  | borrowingEnabled _ => .borrowingEnabled
  | stableRateBorrowingEnabled _ => .stableRateBorrowingEnabled
  | reserveFactor _ => .reserveFactor

def value : Setter → ℕ
  | ltv n | liquidationThreshold n | liquidationBonus n | decimals n | reserveFactor n => n
  | active b | frozen b | borrowingEnabled b | stableRateBorrowingEnabled b => b.toNat

def Accepted : Setter → Prop
  | ltv n | liquidationThreshold n | liquidationBonus n | reserveFactor n => n ≤ 65535
  | decimals n => n ≤ 255
  | active _ | frozen _ | borrowingEnabled _ | stableRateBorrowingEnabled _ => True

instance (s : Setter) : Decidable s.Accepted := by cases s <;> unfold Accepted <;> infer_instance

end Setter

def applyAll (self : ReserveConfigurationMap) : List Setter → Tx ReserveConfigurationMap
  | [] => .ok self
  | s :: ss => do
    let self ← s.apply self
    self.applyAll ss

def get (self : ReserveConfigurationMap) : Field → ℕ
  | .ltv => self.getLtv
  | .liquidationThreshold => self.getLiquidationThreshold
  | .liquidationBonus => self.getLiquidationBonus
  | .decimals => self.getDecimals
  | .active => self.getActive.toNat
  | .frozen => self.getFrozen.toNat
  | .borrowingEnabled => self.getBorrowingEnabled.toNat
  | .stableRateBorrowingEnabled => self.getStableRateBorrowingEnabled.toNat
  | .reserveFactor => self.getReserveFactor

def component (params : ℕ × ℕ × ℕ × ℕ × ℕ) (flags : Bool × Bool × Bool × Bool) : Field → ℕ
  | .ltv => params.1
  | .liquidationThreshold => params.2.1
  | .liquidationBonus => params.2.2.1
  | .decimals => params.2.2.2.1
  | .reserveFactor => params.2.2.2.2
  | .active => flags.1.toNat
  | .frozen => flags.2.1.toNat
  | .borrowingEnabled => flags.2.2.1.toNat
  | .stableRateBorrowingEnabled => flags.2.2.2.toNat

/-- The bits that no parameter owns. -/
def Reserved (k : ℕ) : Prop := 60 ≤ k ∧ k < 64 ∨ 80 ≤ k ∧ k < 256

structure Reads (self : ReserveConfigurationMap) (f : Field) (n : ℕ) : Prop where
  get : self.get f = n
  stored : component self.getParams self.getFlags f = n
  memory : component self.getParamsMemory self.getFlagsMemory f = n

structure Setter.Independent (s : Setter) (self c : ReserveConfigurationMap) : Prop where
  own : c.Reads s.field s.value
  others : ∀ f, f ≠ s.field → c.Reads f (self.get f)
  reserved : ∀ k, Reserved k → c.data.getLsbD k = self.data.getLsbD k

variable {self c : ReserveConfigurationMap} {f : Field} {s t : Setter} {ss : List Setter}

theorem Setter.apply_ok : s.apply self = .ok c ↔
    s.Accepted ∧ self.setField s.field.mask s.field.start s.value = c := by
  cases s <;>
    simp [apply, Accepted, field, value, Field.mask, Field.start, setLtv, setLiquidationThreshold,
      setLiquidationBonus, setDecimals, setActive, setFrozen, setBorrowingEnabled,
      setStableRateBorrowingEnabled, setReserveFactor]

theorem Setter.exists_apply (self : ReserveConfigurationMap) (h : s.Accepted) :
    ∃ c, s.apply self = .ok c := ⟨_, apply_ok.mpr ⟨h, rfl⟩⟩

theorem Setter.value_lt (h : s.Accepted) : s.value < 2 ^ s.field.width := by
  cases s
  case ltv | liquidationThreshold | liquidationBonus | decimals | reserveFactor =>
    exact Nat.lt_succ_of_le h
  case active b | frozen b | borrowingEnabled b | stableRateBorrowingEnabled b =>
    exact Bool.toNat_lt b

theorem flag_toNat (self : ReserveConfigurationMap) (f : Field) (hwidth : f.width = 1) :
    (self.flag f.mask).toNat = layout.view self.data f :=
  BitField.and_not_ne_zero self.data (hwidth ▸ f.mask_clears) (hwidth ▸ f.fits)

theorem get_eq (self : ReserveConfigurationMap) (f : Field) :
    self.get f = layout.view self.data f := by
  cases f with
  | active => exact self.flag_toNat .active rfl
  | frozen => exact self.flag_toNat .frozen rfl
  | borrowingEnabled => exact self.flag_toNat .borrowingEnabled rfl
  | stableRateBorrowingEnabled => exact self.flag_toNat .stableRateBorrowingEnabled rfl
  | _ => rfl

theorem reads_get (self : ReserveConfigurationMap) (f : Field) : self.Reads f (self.get f) where
  get := rfl
  stored := by cases f <;> rfl
  memory := by cases f <;> rfl

theorem not_covers_of_reserved {k : ℕ} (h : Reserved k) : ¬layout.Covers k := by
  rintro ⟨f, hlow, hhigh⟩
  change f.start ≤ k at hlow
  change k < f.start + f.width at hhigh
  unfold Reserved at h
  cases f <;> simp only [Field.start, Field.width] at hlow hhigh <;> omega

theorem Setter.get_apply (h : s.apply self = .ok c) :
    c.get = Function.update self.get s.field s.value := by
  obtain ⟨haccepted, rfl⟩ := apply_ok.mp h
  rw [funext (get_eq _), funext (get_eq self), view_setField self s.field (value_lt haccepted)]

theorem Setter.reserved_apply (h : s.apply self = .ok c) {k : ℕ} (hk : Reserved k) :
    c.data.getLsbD k = self.data.getLsbD k := by
  obtain ⟨haccepted, rfl⟩ := apply_ok.mp h
  exact layout.write_getLsbD_of_not_covers self.data (value_lt haccepted)
    (by unfold Reserved at hk; omega) (not_covers_of_reserved hk)

theorem Setter.independent_apply (h : s.apply self = .ok c) : s.Independent self c where
  own := by
    have hown : c.get s.field = s.value := by rw [get_apply h, Function.update_self]
    exact hown ▸ c.reads_get s.field
  others f hne := by
    have hother : c.get f = self.get f := by rw [get_apply h, Function.update_of_ne hne]
    exact hother ▸ c.reads_get f
  reserved _ hk := reserved_apply h hk

theorem Setter.apply_comm (self : ReserveConfigurationMap) (hs : s.Accepted) (ht : t.Accepted)
    (hne : s.field ≠ t.field) :
    (do let c ← s.apply self; t.apply c) = (do let c ← t.apply self; s.apply c) := by
  have hcomm := layout.write_comm self.data hne (value_lt hs) (value_lt ht)
  rw [apply_ok.mpr ⟨hs, rfl⟩, apply_ok.mpr ⟨ht, rfl⟩, ok_bind, ok_bind, apply_ok.mpr ⟨ht, rfl⟩,
    apply_ok.mpr ⟨hs, rfl⟩]
  exact congrArg (fun x => (.ok ⟨x⟩ : Tx ReserveConfigurationMap)) hcomm

theorem applyAll_eq_run (self : ReserveConfigurationMap) (ss : List Setter) :
    self.applyAll ss = Trace.run Setter.apply self ss := by
  induction ss generalizing self with
  | nil => rfl
  | cons s ss ih => exact bind_congr ih

theorem applyAll_append {d : ReserveConfigurationMap} {ts : List Setter}
    (h : self.applyAll ss = .ok c) (h' : c.applyAll ts = .ok d) :
    self.applyAll (ss ++ ts) = .ok d := by
  induction ss generalizing self with
  | nil => rwa [List.nil_append, Except.ok.inj h]
  | cons s ss ih =>
    obtain ⟨self', hs, h⟩ := bind_ok.mp h
    exact bind_ok.mpr ⟨self', hs, ih h⟩

theorem exists_applyAll (self : ReserveConfigurationMap) (h : ∀ s ∈ ss, s.Accepted) :
    ∃ c, self.applyAll ss = .ok c := by
  rw [applyAll_eq_run]
  exact Trace.exists_run Setter.Accepted (fun _ self hs => Setter.exists_apply self hs) h self

/-- A run of setters is the run of the updates of nine numbers. -/
theorem get_applyAll (h : self.applyAll ss = .ok c) :
    c.get = ss.foldl (fun p s => Function.update p s.field s.value) self.get := by
  rw [applyAll_eq_run] at h
  exact Trace.view_run get _ (fun _ _ _ => Setter.get_apply) h

theorem reserved_applyAll (h : self.applyAll ss = .ok c) {k : ℕ} (hk : Reserved k) :
    c.data.getLsbD k = self.data.getLsbD k := by
  rw [applyAll_eq_run] at h
  exact Trace.view_run_eq (fun c : ReserveConfigurationMap => c.data.getLsbD k)
    (fun _ _ _ hs => Setter.reserved_apply hs hk) h

/-- Whatever the word and whatever accepted setters ran on it, each parameter reads what was
written to it last, by every getter, the reserved bits are those of the start, and the next
setters are independent of one another. -/
theorem configuration_writes_independent (self : ReserveConfigurationMap) (ss : List Setter)
    (h : ∀ s ∈ ss, s.Accepted) :
    ∃ c, self.applyAll ss = .ok c ∧
      (∀ f, c.Reads f (ss.foldl (fun p s => Function.update p s.field s.value) self.get f)) ∧
      (∀ k, Reserved k → c.data.getLsbD k = self.data.getLsbD k) ∧
      (∀ s : Setter, s.Accepted → ∃ c', s.apply c = .ok c' ∧ s.Independent c c') ∧
      ∀ s t : Setter, s.Accepted → t.Accepted → s.field ≠ t.field →
        (do let c' ← s.apply c; t.apply c') = (do let c' ← t.apply c; s.apply c') := by
  obtain ⟨c, hc⟩ := exists_applyAll self h
  refine ⟨c, hc, fun f => ?_, fun _ => reserved_applyAll hc, fun s hs => ?_,
    fun s t => Setter.apply_comm c⟩
  · rw [← get_applyAll hc]
    exact c.reads_get f
  · obtain ⟨c', hc'⟩ := Setter.exists_apply c hs
    exact ⟨c', hc', Setter.independent_apply hc'⟩

theorem configuration_writes_independent_full : ∃ c,
    (⟨BitVec.allOnes 256⟩ : ReserveConfigurationMap).applyAll
      [.decimals 18, .frozen false, .decimals 6] = .ok c ∧ c.Reads .decimals 6 := by
  obtain ⟨c, hc, hreads, -⟩ := configuration_writes_independent ⟨BitVec.allOnes 256⟩
    [.decimals 18, .frozen false, .decimals 6] (by decide)
  exact ⟨c, hc, hreads .decimals⟩

end ReserveConfigurationMap

end Moola
