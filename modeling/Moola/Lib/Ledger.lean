import Mathlib.Algebra.BigOperators.Group.Finset.Piecewise
import Mathlib.Algebra.Order.BigOperators.Group.Finset

/-! A ledger of balances whose total supply covers every finite set of holders.
The bound is a field, so that no sequence of credits, debits and moves can lose
it and no client has to prove it again. -/

open scoped BigOperators

structure Ledger (α : Type*) where
  balances : α → ℕ
  totalSupply : ℕ
  backed : ∀ s : Finset α, ∑ a ∈ s, balances a ≤ totalSupply

namespace Ledger

variable {α : Type*}

def empty : Ledger α := ⟨fun _ => 0, 0, by simp⟩

theorem balance_le (l : Ledger α) (a : α) : l.balances a ≤ l.totalSupply := by
  simpa using l.backed {a}

variable [DecidableEq α]

theorem sum_credited (f : α → ℕ) (a : α) (n : ℕ) (s : Finset α) :
    ∑ x ∈ s, (if x = a then f x + n else f x) = ∑ x ∈ s, f x + if a ∈ s then n else 0 := by
  have h : ∀ x, (if x = a then f x + n else f x) = f x + if x = a then n else 0 := by
    intro x
    split <;> simp
  simp only [h, Finset.sum_add_distrib, Finset.sum_ite_eq']

def credit (l : Ledger α) (a : α) (n : ℕ) : Ledger α where
  balances x := if x = a then l.balances x + n else l.balances x
  totalSupply := l.totalSupply + n
  backed s := by
    have := l.backed s
    rw [sum_credited]
    split <;> omega

theorem sum_debited (l : Ledger α) (a : α) {n : ℕ} (h : n ≤ l.balances a) (s : Finset α) :
    ∑ x ∈ s, (if x = a then l.balances x - n else l.balances x) + n ≤ l.totalSupply := by
  have hi := l.backed (insert a s)
  have hs : ∑ x ∈ insert a s, (if x = a then l.balances x - n else l.balances x) + n =
      ∑ x ∈ insert a s, l.balances x := by
    have he : ∑ x ∈ (insert a s).erase a, (if x = a then l.balances x - n else l.balances x) =
        ∑ x ∈ (insert a s).erase a, l.balances x :=
      Finset.sum_congr rfl fun x hx => if_neg (Finset.ne_of_mem_erase hx)
    rw [← Finset.add_sum_erase _ _ (Finset.mem_insert_self a s),
      ← Finset.add_sum_erase _ l.balances (Finset.mem_insert_self a s), he, if_pos rfl]
    omega
  have hm : ∑ x ∈ s, (if x = a then l.balances x - n else l.balances x) ≤
      ∑ x ∈ insert a s, (if x = a then l.balances x - n else l.balances x) :=
    Finset.sum_le_sum_of_subset (Finset.subset_insert a s)
  omega

def debit (l : Ledger α) (a : α) (n : ℕ) (h : n ≤ l.balances a) : Ledger α where
  balances x := if x = a then l.balances x - n else l.balances x
  totalSupply := l.totalSupply - n
  backed s := by
    have := sum_debited l a h s
    omega

/-- A debit of the sender followed by a credit of the recipient, who may be the same. -/
def move (l : Ledger α) (a b : α) (n : ℕ) (h : n ≤ l.balances a) : Ledger α :=
  (l.debit a n h).credit b n

@[simp] theorem credit_totalSupply (l : Ledger α) (a : α) (n : ℕ) :
    (l.credit a n).totalSupply = l.totalSupply + n := rfl

@[simp] theorem credit_balances (l : Ledger α) (a : α) (n : ℕ) (x : α) :
    (l.credit a n).balances x = if x = a then l.balances x + n else l.balances x := rfl

@[simp] theorem debit_totalSupply (l : Ledger α) (a : α) (n : ℕ) (h : n ≤ l.balances a) :
    (l.debit a n h).totalSupply = l.totalSupply - n := rfl

@[simp] theorem debit_balances (l : Ledger α) (a : α) (n : ℕ) (h : n ≤ l.balances a) (x : α) :
    (l.debit a n h).balances x = if x = a then l.balances x - n else l.balances x := rfl

@[simp] theorem move_totalSupply (l : Ledger α) (a b : α) (n : ℕ) (h : n ≤ l.balances a) :
    (l.move a b n h).totalSupply = l.totalSupply := by
  have := l.balance_le a
  simp only [move, credit_totalSupply, debit_totalSupply]
  omega

@[simp] theorem credit_zero (l : Ledger α) (a : α) : l.credit a 0 = l := by
  cases l
  simp [credit]

theorem move_balances (l : Ledger α) (a b : α) (n : ℕ) (h : n ≤ l.balances a) (x : α) :
    (l.move a b n h).balances x =
      (if x = a then l.balances x - n else l.balances x) + if x = b then n else 0 := by
  simp only [move, credit_balances, debit_balances]
  split_ifs <;> rfl

theorem le_credit_balances (l : Ledger α) (a : α) (n : ℕ) (x : α) :
    l.balances x ≤ (l.credit a n).balances x := by
  rw [credit_balances]
  split <;> omega

theorem debit_balances_le (l : Ledger α) (a : α) (n : ℕ) (h : n ≤ l.balances a) (x : α) :
    (l.debit a n h).balances x ≤ l.balances x := by
  rw [debit_balances]
  split <;> omega

theorem le_move_balances (l : Ledger α) (a b : α) (n : ℕ) (h : n ≤ l.balances a) {x : α}
    (hx : x ≠ a) : l.balances x ≤ (l.move a b n h).balances x := by
  rw [move_balances, if_neg hx]
  omega

def Owned (l : Ledger α) (holders : Finset α) : Prop :=
  ∑ a ∈ holders, l.balances a = l.totalSupply

namespace Owned

variable {l : Ledger α} {s t : Finset α} {a b : α} {n : ℕ}

omit [DecidableEq α] in
theorem empty : (Ledger.empty : Ledger α).Owned ∅ := Finset.sum_empty

omit [DecidableEq α] in
theorem mono (h : l.Owned s) (hs : s ⊆ t) : l.Owned t :=
  (l.backed t).antisymm (h.symm.le.trans (Finset.sum_le_sum_of_subset hs))

theorem credit (h : l.Owned s) : (l.credit a n).Owned (insert a s) := by
  have hall := h.mono (Finset.subset_insert a s)
  rw [Owned] at hall ⊢
  simp only [credit_balances, credit_totalSupply]
  rw [sum_credited, if_pos (Finset.mem_insert_self a s), hall]

theorem debit (h : l.Owned s) (hn : n ≤ l.balances a) : (l.debit a n hn).Owned (insert a s) := by
  have hall := h.mono (Finset.subset_insert a s)
  -- what is taken from the account is missing in the sum and in the supply
  have hback : ∀ x, l.balances x = if x = a then (l.debit a n hn).balances x + n
      else (l.debit a n hn).balances x := by
    intro x
    rw [debit_balances]
    split
    case isTrue hx =>
      subst hx
      omega
    case isFalse => rfl
  rw [Owned, Finset.sum_congr rfl fun x _ => hback x, sum_credited,
    if_pos (Finset.mem_insert_self a s)] at hall
  rw [Owned, debit_totalSupply]
  omega

theorem move (h : l.Owned s) (hn : n ≤ l.balances a) :
    (l.move a b n hn).Owned (insert b (insert a s)) :=
  (h.debit hn).credit

end Owned

end Ledger
