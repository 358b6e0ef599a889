import Moola.Tokens

/-! The two conversions of the tokens, an amount to scaled units and back at an index.
From one ray upwards the scaled units survive both, up to one ray the amount does:
the conversion that is taken first is the finer one, and the second rounds its error
away. -/

namespace Moola

open Guard

namespace WadRayMath

/-- Scaled units shown as an amount, and the amount handed back to a burn. -/
def throughAmount (scaled index : ℕ) : Tx ℕ := do
  let amount ← rayMul scaled index
  rayDiv amount index

/-- An amount minted as scaled units, and the units shown as an amount. -/
def throughScaled (amount index : ℕ) : Tx ℕ := do
  let scaled ← rayDiv amount index
  rayMul scaled index

/-- The amount is the one in units of the index here, so the roles of the two scales in
the round trip are exchanged. -/
theorem rayProduct_rayQuotient (amount : ℕ) {index : ℕ} (hpos : 0 < index) (h : index ≤ ray) :
    rayProduct (rayQuotient amount index) index = amount :=
  (HalfUp.round_trip_iff amount hpos ray_pos).mpr (HalfUp.roundTrips_of_le amount hpos h)

variable {scaled amount index : ℕ}

theorem throughAmount_ok {c : ℕ} (h : throughAmount scaled index = .ok c) :
    rayQuotient (rayProduct scaled index) index = c := by
  simp only [throughAmount, bind_ok, rayMul_ok, rayDiv_ok] at h
  obtain ⟨_, ⟨-, rfl⟩, -, -, hc⟩ := h
  exact hc

theorem throughScaled_ok {c : ℕ} (h : throughScaled amount index = .ok c) :
    rayProduct (rayQuotient amount index) index = c := by
  simp only [throughScaled, bind_ok, rayMul_ok, rayDiv_ok] at h
  obtain ⟨_, ⟨-, -, rfl⟩, -, hc⟩ := h
  exact hc

theorem throughAmount_error {e : Revert} (hpos : 0 < index)
    (h : throughAmount scaled index = .error e) : e = .mathMultiplicationOverflow := by
  rcases bind_error.mp h with h | ⟨amount, -, h⟩
  · exact rayMul_error h
  · rcases rayDiv_error h with ⟨h0, -⟩ | he
    · omega
    · exact he

theorem throughScaled_error {e : Revert} (hpos : 0 < index)
    (h : throughScaled amount index = .error e) : e = .mathMultiplicationOverflow := by
  rcases bind_error.mp h with h | ⟨scaled, -, h⟩
  · rcases rayDiv_error h with ⟨h0, -⟩ | he
    · omega
    · exact he
  · exact rayMul_error h

/-- Unless an overflow guard trips, scaled units survive at an index of at least one ray,
and an amount at an index of at most one ray. -/
theorem conversions_inverse (index : ℕ) :
    (ray ≤ index → index < 2 ^ 128 → ∀ scaled,
      throughAmount scaled index ≠ .error .mathMultiplicationOverflow →
        throughAmount scaled index = .ok scaled) ∧
    (0 < index → index ≤ ray → ∀ amount,
      throughScaled amount index ≠ .error .mathMultiplicationOverflow →
        throughScaled amount index = .ok amount) := by
  constructor
  · intro hindex _ scaled hguard
    cases h : throughAmount scaled index with
    | error e => exact absurd (throughAmount_error (ray_pos.trans_le hindex) h ▸ h) hguard
    | ok c => rw [← throughAmount_ok h, rayQuotient_rayProduct scaled hindex]
  · intro hpos hindex amount hguard
    cases h : throughScaled amount index with
    | error e => exact absurd (throughScaled_error hpos h ▸ h) hguard
    | ok c => rw [← throughScaled_ok h, rayProduct_rayQuotient amount hpos hindex]

theorem conversions_inverse_odd :
    throughAmount 7 (3 * ray + 1) = .ok 7 ∧ throughScaled 10 (ray / 3) = .ok 10 :=
  ⟨(conversions_inverse (3 * ray + 1)).1 (by decide) (by decide) 7 (by decide),
    (conversions_inverse (ray / 3)).2 (by decide) (by decide) 10 (by decide)⟩

end WadRayMath

open WadRayMath

variable {impl : PoolImpl} {now : ℕ} {r r' : Reserve} {user receiver onBehalfOf : Address}
  {amount index : ℕ} {first : Bool}

theorem VariableDebtToken.burn_shown (hindex : ray ≤ index)
    (hview : LendingPool.getReserveNormalizedVariableDebt impl r.data now = .ok index)
    (hshown : balanceOf impl now r user = .ok amount)
    (h : burn r user amount index = .ok r') :
    r'.variableDebtToken.ledger.balances user = 0 := by
  obtain ⟨-, -, -, hq, hs, rfl⟩ := burn_ok h
  obtain ⟨-, ⟨-, rfl⟩ | ⟨-, index', hview', rfl⟩⟩ := balanceOf_ok hshown
  · exact absurd (by simp [rayQuotient]) hq
  · obtain rfl := Except.ok.inj (hview.symm.trans hview')
    have hround := rayQuotient_rayProduct (r.variableDebtToken.ledger.balances user) hindex
    simp [hround]

theorem AToken.burn_shown (hindex : ray ≤ index)
    (hview : LendingPool.getReserveNormalizedIncome impl r.data now = .ok index)
    (hshown : balanceOf impl now r user = .ok amount)
    (h : burn r user receiver amount index = .ok r') :
    r'.aToken.ledger.balances user = 0 := by
  obtain ⟨-, -, -, hs, _, rfl⟩ := burn_ok h
  obtain ⟨-, index', hview', -, rfl⟩ := balanceOf_ok.mp hshown
  obtain rfl := Except.ok.inj (hview.symm.trans hview')
  have hround := rayQuotient_rayProduct (r.aToken.ledger.balances user) hindex
  simp [hround]

theorem VariableDebtToken.mint_shown (hindex : index ≤ ray)
    (h : mint r user onBehalfOf amount index = .ok (r', true)) :
    rayProduct (r'.variableDebtToken.ledger.balances onBehalfOf) index = amount := by
  obtain ⟨-, -, hi, -, hfirst, al, -, rfl⟩ := mint_ok h
  have h0 : r.variableDebtToken.ledger.balances onBehalfOf = 0 := by simpa using hfirst.symm
  simpa [h0] using rayProduct_rayQuotient amount (Nat.pos_of_ne_zero hi) hindex

end Moola
