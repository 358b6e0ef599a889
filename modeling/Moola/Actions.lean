import Moola.Machine

/-! What an operation does, as the calls it makes on the reserves one after the other.
Every operation of the pool is such a sequence, and leaves the list of the reserves
alone; what each single call preserves is then preserved by all operations. -/

namespace Moola

open Guard WadRayMath

/-- A call on one reserve or its tokens, of those that operations are made of. -/
inductive Action
  | updateState (impl : PoolImpl)
  | updateInterestRates (liquidityAdded liquidityTaken : ℕ)
  | pull (spender sender : Address) (amount : ℕ)
  | mint (user : Address) (amount : ℕ)
  | burn (user receiver : Address) (amount : ℕ)
  | move (impl : PoolImpl) (sender recipient : Address) (amount : ℕ)
  | transferUnderlyingTo (receiver : Address) (amount : ℕ)
  | mintDebt (mode : InterestRateMode) (user onBehalfOf : Address) (amount : ℕ)
  | burnDebt (mode : InterestRateMode) (user : Address) (amount : ℕ)
  | cumulateToLiquidityIndex (totalLiquidity premium : ℕ)
  | setLiquidityIndex (index : ℕ)
  | approve (owner spender : Address) (amount : ℕ)
  | approveStableDelegation (delegator delegatee : Address) (amount : ℕ)
  | approveVariableDelegation (delegator delegatee : Address) (amount : ℕ)
  | setUnderlying (t : ERC20)
  | setConfiguration (configuration : ReserveConfigurationMap)
  | setStrategy (strategy : Address)

namespace Reserve

def apply (env : Env) (asset : Address) (r : Reserve) : Action → Tx Reserve
  | .updateState impl => LendingPool.updateState impl env.timestamp r
  | .updateInterestRates added taken => ReserveLogic.updateInterestRates env asset added taken r
  | .pull spender sender amount =>
    r.withUnderlying <$> r.underlying.transferFrom spender sender r.data.aTokenAddress amount
  | .mint user amount => Prod.fst <$> AToken.mint r user amount r.data.liquidityIndex
  | .burn user receiver amount => AToken.burn r user receiver amount r.data.liquidityIndex
  | .move impl sender recipient amount =>
    Prod.fst <$> AToken.move impl env.timestamp r sender recipient amount
  | .transferUnderlyingTo receiver amount => AToken.transferUnderlyingTo r receiver amount
  | .mintDebt mode user onBehalfOf amount =>
    Prod.fst <$> LendingPool.mintDebt env r mode user onBehalfOf amount
  | .burnDebt mode user amount => LendingPool.burnDebt env r mode user amount
  | .cumulateToLiquidityIndex total premium =>
    ReserveLogic.cumulateToLiquidityIndex r total premium
  | .setLiquidityIndex index => .ok (r.withData { r.data with liquidityIndex := index })
  | .approve owner spender amount => AToken.approve r owner spender amount
  | .approveStableDelegation delegator delegatee amount =>
    .ok (Moola.approveStableDelegation r delegator delegatee amount)
  | .approveVariableDelegation delegator delegatee amount =>
    .ok (Moola.approveVariableDelegation r delegator delegatee amount)
  | .setUnderlying t => .ok (r.withUnderlying t)
  | .setConfiguration configuration =>
    .ok (r.withData { r.data with configuration := configuration })
  | .setStrategy strategy =>
    .ok (r.withData { r.data with interestRateStrategyAddress := strategy })

def run (env : Env) (asset : Address) (r : Reserve) : List Action → Tx Reserve
  | [] => .ok r
  | a :: actions => do
    let r ← r.apply env asset a
    run env asset r actions

variable {env : Env} {asset : Address} {r r' : Reserve}

theorem run_cons {r₁ : Reserve} {a : Action} {actions : List Action}
    (ha : r.apply env asset a = .ok r₁) (h : r₁.run env asset actions = .ok r') :
    r.run env asset (a :: actions) = .ok r' := by
  rw [run, ha, ok_bind, h]

theorem run_append (l₁ l₂ : List Action) (r : Reserve) : r.run env asset (l₁ ++ l₂) =
    r.run env asset l₁ >>= fun r => r.run env asset l₂ := by
  induction l₁ generalizing r with
  | nil => rfl
  | cons a l ih =>
    simp only [List.cons_append, run]
    cases r.apply env asset a with
    | error e => rfl
    | ok r₁ => exact ih r₁

theorem run_trans {r₁ : Reserve} {l₁ l₂ : List Action} (h₁ : r.run env asset l₁ = .ok r₁)
    (h₂ : r₁.run env asset l₂ = .ok r') : r.run env asset (l₁ ++ l₂) = .ok r' := by
  rw [run_append, h₁, ok_bind, h₂]

theorem run_induction {rel : Reserve → Reserve → Prop} {actions : List Action}
    (h : r.run env asset actions = .ok r') (refl : ∀ r, rel r r)
    (trans : ∀ r₁ r₂ r₃, rel r₁ r₂ → rel r₂ r₃ → rel r₁ r₃)
    (call : ∀ a ∈ actions, ∀ r r', r.apply env asset a = .ok r' → rel r r') : rel r r' := by
  induction actions generalizing r with
  | nil =>
    rw [run, Except.ok.injEq] at h
    exact h ▸ refl r
  | cons a l ih =>
    obtain ⟨r₁, h₁, h⟩ := bind_ok.mp h
    exact trans _ _ _ (call a List.mem_cons_self r r₁ h₁)
      (ih h fun a' ha' => call a' (List.mem_cons_of_mem a ha'))

end Reserve

def onAsset (asset : Address) (actions : List Action) (x : Address) : List Action :=
  if x = asset then actions else []

@[simp] theorem onAsset_nil (asset : Address) : onAsset asset [] = fun _ => [] := by
  funext x
  simp [onAsset]

@[simp] theorem mem_onAsset {asset x : Address} {actions : List Action} {a : Action} :
    a ∈ onAsset asset actions x ↔ x = asset ∧ a ∈ actions := by
  unfold onAsset
  split <;> simp [*]

/-- From `w` to `w'` the reserves change by the calls given for each of them, and
otherwise at most flags of users do. -/
structure Effect (env : Env) (actions : Address → List Action) (w w' : World) : Prop where
  run : ∀ x, (w.reserves x).run env x (actions x) = .ok (w'.reserves x)
  reservesList : w'.reservesList = w.reservesList
  reservesCount : w'.reservesCount = w.reservesCount
  impl : w'.impl = w.impl
  self : w'.self = w.self

namespace Effect

variable {env : Env} {w w₁ w' : World} {asset : Address} {l l₁ : Address → List Action}
  {actions : List Action}

theorem ofFlags (h : LendingPool.OnlyFlags w w') : Effect env (fun _ => []) w w' where
  run x := by rw [Reserve.run, h.reserves]
  reservesList := h.reservesList
  reservesCount := h.reservesCount
  impl := h.impl
  self := h.self

theorem trans (h₁ : Effect env l w w₁) (h₂ : Effect env l₁ w₁ w') :
    Effect env (fun x => l x ++ l₁ x) w w' where
  run x := by rw [Reserve.run_append, h₁.run x, ok_bind, h₂.run x]
  reservesList := h₂.reservesList.trans h₁.reservesList
  reservesCount := h₂.reservesCount.trans h₁.reservesCount
  impl := h₂.impl.trans h₁.impl
  self := h₂.self.trans h₁.self

theorem setReserve {r : Reserve} (h : (w.reserves asset).run env asset actions = .ok r) :
    Effect env (onAsset asset actions) w (w.setReserve asset r) where
  run x := by
    by_cases hx : x = asset
    · subst hx
      simpa [onAsset] using h
    · rw [onAsset, if_neg hx, World.setReserve_reserves_of_ne hx]
      rfl
  reservesList := rfl
  reservesCount := rfl
  impl := rfl
  self := rfl

theorem single (a : Action) {r : Reserve} (h : (w.reserves asset).apply env asset a = .ok r) :
    Effect env (onAsset asset [a]) w (w.setReserve asset r) :=
  setReserve (Reserve.run_cons h rfl)

theorem thenFlags (h : Effect env l w w₁) (hf : LendingPool.OnlyFlags w₁ w') :
    Effect env l w w' := by
  simpa using h.trans (ofFlags hf)

theorem afterFlags (hf : LendingPool.OnlyFlags w w₁) (h : Effect env l w₁ w') :
    Effect env l w w' := by
  simpa using (ofFlags hf).trans h

end Effect

end Moola
