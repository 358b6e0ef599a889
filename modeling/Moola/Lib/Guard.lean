import Mathlib.Tactic.TypeStar

/-! Guarded computations in `Except`: what the success of a sequence of checks
and calls says about its parts. A proof peels a computation apart with these
lemmas and never unfolds the monad. -/

namespace Guard

universe u

variable {ε : Type*} {α β : Type u}

def require (p : Prop) [Decidable p] (e : ε) : Except ε Unit := if p then .ok () else .error e

@[simp] theorem require_ok {p : Prop} [Decidable p] {e : ε} {u : Unit} :
    require p e = .ok u ↔ p := by
  unfold require
  split <;> simp [*]

theorem require_pos {p : Prop} [Decidable p] (e : ε) (h : p) : require p e = .ok () := if_pos h

@[simp] theorem bind_ok {x : Except ε α} {f : α → Except ε β} {b : β} :
    x >>= f = .ok b ↔ ∃ a, x = .ok a ∧ f a = .ok b := by
  cases x <;> simp [bind, Except.bind]

@[simp] theorem bind_unit_ok {γ : Type} {x : Except ε Unit} {f : Unit → Except ε γ} {b : γ} :
    x >>= f = .ok b ↔ x = .ok () ∧ f () = .ok b := by
  cases x <;> simp [bind, Except.bind]

@[simp] theorem ok_bind (a : α) (f : α → Except ε β) : Except.ok a >>= f = f a := rfl

@[simp] theorem error_bind (e : ε) (f : α → Except ε β) :
    (Except.error e : Except ε α) >>= f = .error e := rfl

@[simp] theorem pure_ok {a b : α} : (pure a : Except ε α) = .ok b ↔ a = b := by
  simp [pure, Except.pure]

@[simp] theorem exists_unit {p : Unit → Prop} : (∃ u, p u) ↔ p () :=
  ⟨fun ⟨(), h⟩ => h, fun h => ⟨(), h⟩⟩

@[simp] theorem map_ok {x : Except ε α} {f : α → β} {b : β} :
    f <$> x = .ok b ↔ ∃ a, x = .ok a ∧ f a = b := by
  cases x <;> simp [Functor.map, Except.map]

@[simp] theorem map_unit_ok {γ : Type} {x : Except ε Unit} {f : Unit → γ} {b : γ} :
    f <$> x = .ok b ↔ x = .ok () ∧ f () = b := by
  cases x <;> simp [Functor.map, Except.map]

theorem bind_error {x : Except ε α} {f : α → Except ε β} {e : ε} :
    x >>= f = .error e ↔ x = .error e ∨ ∃ a, x = .ok a ∧ f a = .error e := by
  cases x <;> simp [bind, Except.bind]

theorem bind_unit_error {γ : Type} {x : Except ε Unit} {f : Unit → Except ε γ} {e : ε} :
    x >>= f = .error e ↔ x = .error e ∨ x = .ok () ∧ f () = .error e := by
  cases x <;> simp [bind, Except.bind]

theorem require_error {p : Prop} [Decidable p] {e e' : ε} :
    require p e' = .error e ↔ ¬p ∧ e' = e := by
  unfold require
  split <;> simp [*]

theorem exists_error_iff {x : Except ε α} : (∃ e, x = .error e) ↔ ∀ a, x ≠ .ok a := by
  cases x <;> simp

theorem map_error {x : Except ε α} {f : α → β} {e : ε} :
    x.map f = .error e ↔ x = .error e := by
  cases x <;> simp [Except.map]

def FailsOnly (p : ε → Prop) (x : Except ε α) : Prop := ∀ e, x = .error e → p e

namespace FailsOnly

variable {p q : ε → Prop}

theorem ok (a : α) : FailsOnly p (.ok a : Except ε α) := fun _ h => by cases h

theorem pure (a : α) : FailsOnly p (Pure.pure a : Except ε α) := ok a

theorem require {c : Prop} [Decidable c] {e : ε} (h : ¬c → p e) :
    FailsOnly p (Guard.require c e) := by
  intro e' he
  obtain ⟨hc, rfl⟩ := require_error.mp he
  exact h hc

theorem bind {x : Except ε α} {f : α → Except ε β} (hx : FailsOnly p x)
    (hf : ∀ a, x = .ok a → FailsOnly p (f a)) : FailsOnly p (x >>= f) := by
  intro e he
  rcases bind_error.mp he with he | ⟨a, ha, he⟩
  · exact hx e he
  · exact hf a ha e he

theorem bind_unit {γ : Type} {x : Except ε Unit} {f : Unit → Except ε γ} (hx : FailsOnly p x)
    (hf : x = .ok () → FailsOnly p (f ())) : FailsOnly p (x >>= f) := by
  intro e he
  rcases bind_unit_error.mp he with he | ⟨ha, he⟩
  · exact hx e he
  · exact hf ha e he

theorem mono {x : Except ε α} (h : FailsOnly p x) (hpq : ∀ e, p e → q e) : FailsOnly q x :=
  fun e he => hpq e (h e he)

theorem exists_ok {x : Except ε α} (h : FailsOnly p x) (hnot : ∀ e, x = .error e → ¬p e) :
    ∃ a, x = .ok a := by
  cases hx : x with
  | ok a => exact ⟨a, rfl⟩
  | error e => exact absurd (h e hx) (hnot e hx)

end FailsOnly

def applyIf (p : Prop) [Decidable p] (change : α → Except ε α) (a : α) : Except ε α :=
  if p then change a else .ok a

theorem applyIf_ok {p : Prop} [Decidable p] {change : α → Except ε α} {a b : α} :
    applyIf p change a = .ok b ↔ p ∧ change a = .ok b ∨ ¬p ∧ a = b := by
  unfold applyIf
  split
  case isTrue hp => simp [hp]
  case isFalse hp => simp [hp]

/-- What fails in a part fails in the whole under the name that the whole has for it. -/
theorem mapError_ok {ε' : Type*} {x : Except ε α} {f : ε → ε'} {a : α} :
    x.mapError f = .ok a ↔ x = .ok a := by
  cases x with
  | ok b =>
    change (Except.ok b : Except ε' α) = .ok a ↔ _
    simp only [Except.ok.injEq]
  | error e =>
    change (Except.error (f e) : Except ε' α) = .ok a ↔ _
    simp only [reduceCtorEq]

end Guard
