import Moola.Evolution

/-! The stored times of a reserve against the clock. No operation stores a time that is
later than the block, and time does not go back. -/

namespace Moola

open Guard WadRayMath

namespace Reserve

structure ClockBelow (now : ℕ) (r : Reserve) : Prop where
  lastUpdateTimestamp : r.data.lastUpdateTimestamp ≤ now
  totalSupplyTimestamp : r.stableDebtToken.totalSupplyTimestamp ≤ now
  timestamps : ∀ u, r.stableDebtToken.timestamps u ≤ now

variable {env : Env} {asset : Address} {now later : ℕ} {r r' : Reserve} {a : Action}
  {actions : List Action}

theorem ClockBelow.mono (h : r.ClockBelow now) (hle : now ≤ later) : r.ClockBelow later :=
  ⟨h.lastUpdateTimestamp.trans hle, h.totalSupplyTimestamp.trans hle,
    fun u => (h.timestamps u).trans hle⟩

theorem ClockBelow.of_eq (h : r.ClockBelow now) (hev : Evolves now r r')
    (hs : r'.stableDebtToken.totalSupplyTimestamp = r.stableDebtToken.totalSupplyTimestamp)
    (ht : r'.stableDebtToken.timestamps = r.stableDebtToken.timestamps) : r'.ClockBelow now where
  lastUpdateTimestamp := by
    rcases hev.lastUpdateTimestamp with he | he
    · exact he ▸ h.lastUpdateTimestamp
    · exact he ▸ uint40_le now
  totalSupplyTimestamp := hs ▸ h.totalSupplyTimestamp
  timestamps := ht ▸ h.timestamps

theorem write_timestamp_le {timestamps : Address → ℕ} {user : Address} {t : ℕ}
    (h : ∀ u, timestamps u ≤ now) (ht : t ≤ now) (u : Address) :
    write timestamps user t u ≤ now := by
  rw [write_apply]
  split
  case isTrue => exact ht
  case isFalse => exact h u

theorem mintDebt_clock {mode : InterestRateMode} {user onBehalfOf : Address} {amount : ℕ}
    {first : Bool} (h : LendingPool.mintDebt env r mode user onBehalfOf amount = .ok (r', first))
    (hr : r.ClockBelow env.timestamp) : r'.ClockBelow env.timestamp := by
  have hev : Evolves env.timestamp r r' := mintDebt_evolves h
  unfold LendingPool.mintDebt at h
  split at h
  case isTrue =>
    obtain ⟨current, supply, newRate, avgRate, al, -, -, -, -, rfl⟩ :=
      StableDebtToken.mint_state h
    exact ⟨hr.lastUpdateTimestamp, uint40_le _,
      write_timestamp_le hr.timestamps (uint40_le _)⟩
  case isFalse =>
    obtain ⟨-, -, -, -, -, al, -, rfl⟩ := VariableDebtToken.mint_ok h
    exact hr.of_eq hev rfl rfl

theorem burnDebt_clock {mode : InterestRateMode} {user : Address} {amount : ℕ}
    (h : LendingPool.burnDebt env r mode user amount = .ok r') (hr : r.ClockBelow env.timestamp) :
    r'.ClockBelow env.timestamp := by
  have hev : Evolves env.timestamp r r' := burnDebt_evolves h
  unfold LendingPool.burnDebt at h
  split at h
  case isTrue =>
    obtain ⟨current, supply, total, avgRate, -, -, -, -, rfl⟩ := StableDebtToken.burn_state h
    refine ⟨hr.lastUpdateTimestamp, uint40_le _, write_timestamp_le hr.timestamps ?_⟩
    split
    case isTrue => exact Nat.zero_le _
    case isFalse => exact uint40_le _
  case isFalse =>
    obtain ⟨-, -, -, -, hs, rfl⟩ := VariableDebtToken.burn_ok h
    exact hr.of_eq hev rfl rfl

def LeavesStableDebt : Action → Prop
  | .mintDebt .. | .burnDebt .. => False
  | _ => True

theorem apply_stableDebtToken (h : r.apply env asset a = .ok r') (ha : LeavesStableDebt a) :
    r'.stableDebtToken.totalSupplyTimestamp = r.stableDebtToken.totalSupplyTimestamp ∧
      r'.stableDebtToken.timestamps = r.stableDebtToken.timestamps := by
  by_cases hreaches : ReachesDebtTokens a
  · cases a with
    | approveStableDelegation delegator delegatee amount =>
      rw [← Except.ok.inj h]
      exact ⟨rfl, rfl⟩
    | approveVariableDelegation delegator delegatee amount =>
      rw [← Except.ok.inj h]
      exact ⟨rfl, rfl⟩
    | mintDebt mode user onBehalfOf amount => exact absurd ha id
    | burnDebt mode user amount => exact absurd ha id
    | _ => exact absurd hreaches id
  · rw [(apply_debtTokens h hreaches).1]
    exact ⟨rfl, rfl⟩

theorem apply_clock (h : r.apply env asset a = .ok r') (hr : r.ClockBelow env.timestamp) :
    r'.ClockBelow env.timestamp := by
  by_cases ha : LeavesStableDebt a
  · obtain ⟨hs, ht⟩ := apply_stableDebtToken h ha
    exact hr.of_eq (apply_evolves h) hs ht
  · cases a with
    | mintDebt mode user onBehalfOf amount =>
      obtain ⟨⟨r₁, first⟩, h₁, rfl⟩ := map_ok.mp h
      exact mintDebt_clock h₁ hr
    | burnDebt mode user amount => exact burnDebt_clock h hr
    | _ => exact absurd trivial ha

theorem run_clock (h : r.run env asset actions = .ok r') (hr : r.ClockBelow env.timestamp) :
    r'.ClockBelow env.timestamp := by
  induction actions generalizing r with
  | nil =>
    rw [run, Except.ok.injEq] at h
    exact h ▸ hr
  | cons a l ih =>
    obtain ⟨r₁, h₁, h⟩ := bind_ok.mp h
    exact ih h (apply_clock h₁ hr)

end Reserve

def Machine.ClockBelow (m : Machine) : Prop := ∀ a, (m.world.reserves a).ClockBelow m.time

theorem Effect.clock {env : Env} {l : Address → List Action} {w w' : World}
    (h : Effect env l w w') (hw : ∀ a, (w.reserves a).ClockBelow env.timestamp) :
    ∀ a, (w'.reserves a).ClockBelow env.timestamp :=
  fun a => Reserve.run_clock (h.run a) (hw a)

theorem initReserve_clock {env : Env} {w w' : World} {sender asset strategy : Address} {now : ℕ}
    {p : LendingPool.Proxies} (hw : w.WellFormed)
    (hclock : ∀ a, (w.reserves a).ClockBelow now)
    (h : LendingPool.initReserve env w sender asset p strategy = .ok w') :
    ∀ a, (w'.reserves a).ClockBelow now := by
  obtain ⟨-, -, -, rfl⟩ := hw.initReserve_ok h
  intro a
  by_cases ha : a = asset
  · subst ha
    simp only [write_self]
    exact ⟨(hclock a).lastUpdateTimestamp, Nat.zero_le _, fun u => Nat.zero_le _⟩
  · simp only [write_of_ne _ _ ha]
    exact hclock a

theorem Step.clock {m m' : Machine} (hw : m.world.WellFormed) (hm : m.ClockBelow)
    (h : Step m m') : m'.ClockBelow := by
  obtain ⟨-, hfires⟩ | ⟨later, hle, -⟩ := h
  · unfold Machine.ClockBelow
    rw [hfires.time]
    obtain ⟨env, l, htime, -, heffect⟩ | ⟨env, sender, asset, p, strategy, -, hnew⟩ |
      ⟨env, sender, impl, -, himpl⟩ := hfires.makes
    · exact htime ▸ heffect.clock (htime ▸ hm)
    · exact initReserve_clock hw hm hnew
    · rw [himpl]
      exact hm
  · exact fun a => (hm a).mono hle

theorem Reachable.clock {m : Machine} (h : Reachable m) : m.ClockBelow := by
  induction h with
  | initial underlying impl self time =>
    exact fun a => ⟨Nat.zero_le _, Nat.zero_le _, fun u => Nat.zero_le _⟩
  | step hm hs ih => exact hs.clock hm.wellFormed ih

end Moola
