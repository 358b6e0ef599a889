import Mathlib.Algebra.BigOperators.Group.List.Basic
import Mathlib.Algebra.GroupWithZero.Nat
import Mathlib.Tactic.TypeStar

/-! Runs of two kinds of steps: those with a label, and silent ones. A run shows the list of its
labels, in order. What the silent steps leave alone is decided by that list. -/

variable {σ α β : Type*}

/-- A run that shows a list of labels. -/
inductive WeakRun (silent : σ → σ → Prop) (labelled : α → σ → σ → Prop) : List α → σ → σ → Prop
  | done (s : σ) : WeakRun silent labelled [] s s
  | silent {l : List α} {s s₁ s' : σ} : silent s s₁ → WeakRun silent labelled l s₁ s' →
      WeakRun silent labelled l s s'
  | labelled {a : α} {l : List α} {s s₁ s' : σ} : labelled a s s₁ →
      WeakRun silent labelled l s₁ s' → WeakRun silent labelled (a :: l) s s'

namespace WeakRun

variable {silent : σ → σ → Prop} {labelled : α → σ → σ → Prop} {l l' : List α} {a : α}
  {s s₁ s' : σ}

theorem quietly (h : silent s s') : WeakRun silent labelled [] s s' := .silent h (.done s')

theorem single (h : labelled a s s') : WeakRun silent labelled [a] s s' := .labelled h (.done s')

theorem append (h : WeakRun silent labelled l s s₁) (h' : WeakRun silent labelled l' s₁ s') :
    WeakRun silent labelled (l ++ l') s s' := by
  induction h with
  | done => exact h'
  | silent hs _ ih => exact .silent hs (ih h')
  | labelled ha _ ih => exact .labelled ha (ih h')

theorem view (view : σ → β) (change : β → α → β) (hsilent : ∀ s s', silent s s' → view s' = view s)
    (hlabelled : ∀ a s s', labelled a s s' → view s' = change (view s) a)
    (h : WeakRun silent labelled l s s') : view s' = l.foldl change (view s) := by
  induction h with
  | done => rfl
  | silent hs _ ih => rw [ih, hsilent _ _ hs]
  | labelled ha _ ih => rw [ih, hlabelled _ _ _ ha, List.foldl_cons]

theorem relates (r : σ → σ → Prop) (hrefl : ∀ s, r s s)
    (htrans : ∀ s s₁ s', r s s₁ → r s₁ s' → r s s') (hsilent : ∀ s s', silent s s' → r s s')
    (h : WeakRun silent labelled l s s')
    (hlabelled : ∀ a ∈ l, ∀ s s', labelled a s s' → r s s') : r s s' := by
  induction h with
  | done s => exact hrefl s
  | silent hs _ ih => exact htrans _ _ _ (hsilent _ _ hs) (ih hlabelled)
  | @labelled a l s s₁ s' ha _ ih =>
    have hfirst := hlabelled a List.mem_cons_self _ _ ha
    exact htrans _ _ _ hfirst (ih fun a' ha' => hlabelled a' (List.mem_cons_of_mem a ha'))

/-- What the labels of a run spend comes out of what there was and what they granted. -/
theorem within_budget (remaining : σ → ℕ) (granted spent : α → ℕ)
    (hsilent : ∀ s s', silent s s' → remaining s' = remaining s)
    (hlabelled : ∀ a s s', labelled a s s' → spent a + remaining s' ≤ remaining s + granted a)
    (h : WeakRun silent labelled l s s') :
    (l.map spent).sum + remaining s' ≤ remaining s + (l.map granted).sum := by
  induction h with
  | done s => simp
  | silent hs _ ih => rwa [hsilent _ _ hs] at ih
  | labelled ha _ ih =>
    have hfirst := hlabelled _ _ _ ha
    simp only [List.map_cons, List.sum_cons]
    omega

theorem in_order (counter : σ → ℕ) (given : α → Option ℕ)
    (hsilent : ∀ s s', silent s s' → counter s' = counter s)
    (hlabelled : ∀ a s s', labelled a s s' → given a = none ∧ counter s' = counter s ∨
      given a = some (counter s) ∧ counter s' = counter s + 1)
    (h : WeakRun silent labelled l s s') : ∃ n, counter s' = counter s + n ∧
      l.filterMap given = List.range' (counter s) n := by
  induction h with
  | done s => exact ⟨0, rfl, rfl⟩
  | silent hs _ ih => rwa [hsilent _ _ hs] at ih
  | labelled ha _ ih =>
    obtain ⟨n, hcounter, hgiven⟩ := ih
    obtain ⟨hnone, hsame⟩ | ⟨hsome, hnext⟩ := hlabelled _ _ _ ha
    · rw [hsame] at hcounter hgiven
      exact ⟨n, hcounter, by rw [List.filterMap_cons_none hnone, hgiven]⟩
    · rw [hnext] at hcounter hgiven
      refine ⟨n + 1, by omega, ?_⟩
      rw [List.filterMap_cons_some hsome, hgiven, List.range'_succ]

/-- What can be used only once, and never again after that, appears at most once. -/
theorem once (usable : σ → β → Prop) (used : α → Option β)
    (hsilent : ∀ s s', silent s s' → ∀ b, usable s' b → usable s b)
    (hkept : ∀ a s s', labelled a s s' → ∀ b, usable s' b → usable s b)
    (hused : ∀ a s s', labelled a s s' → ∀ b, used a = some b → usable s b ∧ ¬usable s' b)
    (h : WeakRun silent labelled l s s') :
    (l.filterMap used).Nodup ∧ ∀ b ∈ l.filterMap used, usable s b := by
  induction h with
  | done s => simp
  | silent hs _ ih => exact ⟨ih.1, fun b hb => hsilent _ _ hs b (ih.2 b hb)⟩
  | @labelled a l s s₁ s' ha _ ih =>
    have hrest : ∀ b ∈ l.filterMap used, usable s b := fun b hb => hkept _ _ _ ha b (ih.2 b hb)
    cases hb : used a with
    | none =>
      rw [List.filterMap_cons_none hb]
      exact ⟨ih.1, hrest⟩
    | some b =>
      obtain ⟨hbefore, hafter⟩ := hused _ _ _ ha b hb
      rw [List.filterMap_cons_some hb]
      exact ⟨List.nodup_cons.mpr ⟨fun hmem => hafter (ih.2 b hmem), ih.1⟩,
        List.forall_mem_cons.mpr ⟨hbefore, hrest⟩⟩

end WeakRun
