import Mathlib.Data.List.Basic
import Mathlib.Data.Nat.Notation
import Mathlib.Tactic.TypeStar
import Moola.Lib.Guard

/-! Runs of a fallible step function over a list of events. What holds of every step, from
all states or from those of an invariant, holds along every run. -/

namespace Trace

universe u

variable {ε : Type*} {α : Type*} {σ : Type u} {step : σ → α → Except ε σ}
  {p q : α → σ → σ → Prop}

/-- The state after all steps of a list, if none fails. -/
def run (step : σ → α → Except ε σ) : σ → List α → Except ε σ
  | s, [] => .ok s
  | s, a :: l => step s a >>= fun s' => run step s' l

theorem exists_run (ok : α → Prop) (h : ∀ a s, ok a → ∃ s', step s a = .ok s') {l : List α}
    (hl : ∀ a ∈ l, ok a) (s : σ) : ∃ s', run step s l = .ok s' := by
  induction l generalizing s with
  | nil => exact ⟨s, rfl⟩
  | cons a l ih =>
    obtain ⟨s₁, h₁⟩ := h a s (hl a List.mem_cons_self)
    obtain ⟨s', hs'⟩ := ih (fun a' ha' => hl a' (List.mem_cons_of_mem a ha')) s₁
    exact ⟨s', Guard.bind_ok.mpr ⟨s₁, h₁, hs'⟩⟩

theorem view_run {β : Type*} (view : σ → β) (change : β → α → β)
    (h : ∀ a s s', step s a = .ok s' → view s' = change (view s) a) {l : List α} {s s' : σ}
    (hrun : run step s l = .ok s') : view s' = l.foldl change (view s) := by
  induction l generalizing s with
  | nil => rw [← Except.ok.inj hrun, List.foldl_nil]
  | cons a l ih =>
    obtain ⟨s₁, h₁, hrest⟩ := Guard.bind_ok.mp hrun
    rw [ih hrest, h a s s₁ h₁, List.foldl_cons]

theorem view_run_eq {β : Type*} (view : σ → β)
    (h : ∀ a s s', step s a = .ok s' → view s' = view s) {l : List α} {s s' : σ}
    (hrun : run step s l = .ok s') : view s' = view s := by
  rw [view_run view (fun b _ => b) h hrun, List.foldl_fixed]

/-- As far as a run succeeds, each of its steps has the property. -/
def Along (step : σ → α → Except ε σ) (p : α → σ → σ → Prop) : σ → List α → Prop
  | _, [] => True
  | s, a :: l => ∀ s', step s a = .ok s' → p a s s' ∧ Along step p s' l

theorem Along.of_invariant (inv : σ → Prop) (ok : α → Prop)
    (hinv : ∀ a s s', ok a → inv s → step s a = .ok s' → inv s')
    (hp : ∀ a s s', ok a → inv s → step s a = .ok s' → p a s s') {l : List α}
    (hl : ∀ a ∈ l, ok a) {s : σ} (hs : inv s) : Along step p s l := by
  induction l generalizing s with
  | nil => trivial
  | cons a l ih =>
    intro s' h
    have ha := hl a List.mem_cons_self
    exact ⟨hp a s s' ha hs h,
      ih (fun a' ha' => hl a' (List.mem_cons_of_mem a ha')) (hinv a s s' ha hs h)⟩

theorem Along.of_step (hp : ∀ a s s', step s a = .ok s' → p a s s') (s : σ) (l : List α) :
    Along step p s l :=
  of_invariant (fun _ => True) (fun _ => True) (fun _ _ _ _ _ _ => trivial)
    (fun a s s' _ _ => hp a s s') (fun _ _ => trivial) trivial

/-- Steps one after the other, with the sum of what they count. -/
inductive Tally (count : σ → ℕ → σ → Prop) : σ → ℕ → σ → Prop
  | done (s : σ) : Tally count s 0 s
  | step {s s₁ s' : σ} {n m : ℕ} : count s n s₁ → Tally count s₁ m s' → Tally count s (n + m) s'

variable {count : σ → ℕ → σ → Prop} {s s₁ s' : σ} {n m : ℕ}

theorem Tally.single (h : count s n s') : Tally count s n s' := .step h (.done s')

theorem Tally.trans (h : Tally count s n s₁) (h' : Tally count s₁ m s') :
    Tally count s (n + m) s' := by
  induction h with
  | done s => rwa [Nat.zero_add]
  | step hstep _ ih =>
    rw [Nat.add_assoc]
    exact .step hstep (ih h')

theorem Tally.view_eq {β : Type*} (view : σ → β)
    (h : ∀ s n s', count s n s' → view s' = view s) (htally : Tally count s n s') :
    view s' = view s := by
  induction htally with
  | done s => rfl
  | step hstep _ ih => exact ih.trans (h _ _ _ hstep)

end Trace
