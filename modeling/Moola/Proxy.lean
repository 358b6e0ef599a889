import Mathlib.Logic.Relation
import Moola.Lib.Guard
import Moola.Types

/-! The proxies in front of the pool, the configurator and the tokens, and the versioned
initialization of what runs behind them. Once a proxy is initialized for its implementation, nobody
initializes it again before its admin installs an implementation of a higher revision. -/

namespace Moola

open Guard

inductive ProxyRevert
  | requirementFailed
  | notAContract
  | fallbackFromAdmin
  | alreadyInitialized
  | callerIsNotTheOwner
  | newOwnerIsTheZeroAddress
  deriving DecidableEq, Repr

def ProxyRevert.message : ProxyRevert → String
  | .requirementFailed => ""
  | .notAContract => "Cannot set a proxy implementation to a non-contract address"
  | .fallbackFromAdmin => "Cannot call fallback function from the proxy admin"
  | .alreadyInitialized => "Contract instance has already been initialized"
  | .callerIsNotTheOwner => "Ownable: caller is not the owner"
  | .newOwnerIsTheZeroAddress => "Ownable: new owner is the zero address"

/-- An implementation whose `initialize` carries the modifier `initializer`. What its body writes
into the storage of the proxy is recorded with it. -/
structure Implementation (σ ι : Type) (records : ι → σ → Prop) where
  getRevision : ℕ
  body : ι → σ → Except ProxyRevert σ
  body_records : ∀ args s s', body args s = .ok s' → records args s'

/-- The code at an address; `other` has no function `initialize`. -/
inductive Code (σ ι : Type) (records : ι → σ → Prop)
  | versioned (implementation : Implementation σ ι records)
  | other

/-- A proxy with the storage of its implementation. `ADMIN` is immutable. -/
structure Proxy (σ : Type) where
  admin : Address
  implementation : Address
  lastInitializedRevision : ℕ
  initializing : Bool
  storage : σ

namespace Proxy

variable {σ ι : Type} {records : ι → σ → Prop}

def deployed (admin : Address) (storage : σ) : Proxy σ := ⟨admin, 0, 0, false, storage⟩

/-- The modifier of VersionedInitializable, around the body of a function. A proxy is never under
construction when it delegates. -/
def initializer (revision : ℕ) (body : σ → Except ProxyRevert σ) (p : Proxy σ) :
    Except ProxyRevert (Proxy σ) := do
  require (p.initializing = true ∨ p.lastInitializedRevision < revision) .alreadyInitialized
  if p.initializing then
    let storage ← body p.storage
    return { p with storage }
  else
    let p := { p with initializing := true, lastInitializedRevision := revision }
    let storage ← body p.storage
    return { p with storage, initializing := false }

variable (codes : Address → Option (Code σ ι records)) (p : Proxy σ)

/-- A delegatecall of `initialize`, which succeeds without effect where there is no code. -/
def delegateInitialize (target : Address) (args : ι) : Except ProxyRevert (Proxy σ) :=
  match codes target with
  | some (.versioned i) => initializer i.getRevision (i.body args) p
  | some .other => .error .requirementFailed
  | none => .ok p

def initializeBehind (target : Address) (args : ι) : Except ProxyRevert (Proxy σ) :=
  match p.delegateInitialize codes target args with
  | .ok p => .ok p
  | .error _ => .error .requirementFailed

def setImplementation (newImplementation : Address) : Except ProxyRevert (Proxy σ) := do
  require ((codes newImplementation).isSome = true) .notAContract
  return { p with implementation := newImplementation }

/-- `initialize` of InitializableUpgradeabilityProxy, which anybody may call. -/
def initializeProxy (logic : Address) (data : Option ι) : Except ProxyRevert (Proxy σ) := do
  require (p.implementation = 0) .requirementFailed
  let p ← p.setImplementation codes logic
  match data with
  | none => return p
  | some args => p.initializeBehind codes logic args

/-- A call that the proxy hands on, of a function that the implementation does not have. -/
def unknownFunction (sender : Address) : Except ProxyRevert (Proxy σ) := do
  require (sender ≠ p.admin) .fallbackFromAdmin
  require ((codes p.implementation).isNone = true) .requirementFailed
  return p

def upgradeTo (sender newImplementation : Address) : Except ProxyRevert (Proxy σ) :=
  if sender = p.admin then p.setImplementation codes newImplementation
  else p.unknownFunction codes sender

def upgradeToAndCall (sender newImplementation : Address) (args : ι) :
    Except ProxyRevert (Proxy σ) :=
  if sender = p.admin then do
    let p ← p.setImplementation codes newImplementation
    p.initializeBehind codes newImplementation args
  else p.unknownFunction codes sender

def callInitialize (sender : Address) (args : ι) : Except ProxyRevert (Proxy σ) := do
  require (sender ≠ p.admin) .fallbackFromAdmin
  p.delegateInitialize codes p.implementation args

inductive Call (ι : Type)
  | initializeProxy (logic : Address) (data : Option ι)
  | upgradeTo (newImplementation : Address)
  | upgradeToAndCall (newImplementation : Address) (args : ι)
  | callInitialize (args : ι)

def Call.execute (sender : Address) : Call ι → Except ProxyRevert (Proxy σ)
  | .initializeProxy logic data => p.initializeProxy codes logic data
  | .upgradeTo newImplementation => p.upgradeTo codes sender newImplementation
  | .upgradeToAndCall newImplementation args =>
    p.upgradeToAndCall codes sender newImplementation args
  | .callInitialize args => p.callInitialize codes sender args

/-- The storage was initialized by the implementation that runs behind the proxy, for `args`. -/
structure Settled (args : ι) : Prop where
  implementation : p.implementation ≠ 0
  revision : ∃ i, codes p.implementation = some (.versioned i) ∧
    p.lastInitializedRevision = i.getRevision
  initializing : p.initializing = false
  records : records args p.storage

variable {codes p} {p' : Proxy σ} {args : ι} {sender target : Address}

theorem initializer_ok {revision : ℕ} {body : σ → Except ProxyRevert σ}
    (h : initializer revision body p = .ok p') (hp : p.initializing = false) :
    p.lastInitializedRevision < revision ∧ ∃ s, body p.storage = .ok s ∧
      p' = { p with storage := s, lastInitializedRevision := revision } := by
  simp only [initializer, hp, require_ok, Bool.false_eq_true, false_or, if_false, bind_ok,
    exists_unit, pure_ok] at h
  obtain ⟨hlt, s, hs, rfl⟩ := h
  exact ⟨hlt, s, hs, by rw [hp]⟩

theorem setImplementation_ok (h : p.setImplementation codes target = .ok p') :
    (codes target).isSome ∧ p' = { p with implementation := target } := by
  simp only [setImplementation, bind_unit_ok, require_ok, pure_ok] at h
  exact ⟨h.1, h.2.symm⟩

theorem install_settles (hcode : codes 0 = none) (hp : p.initializing = false)
    (h : (do let p ← p.setImplementation codes target
             p.initializeBehind codes target args) = .ok p') :
    p'.Settled codes args ∧ p'.admin = p.admin ∧
      p.lastInitializedRevision < p'.lastInitializedRevision := by
  obtain ⟨p₁, h₁, h⟩ := bind_ok.mp h
  obtain ⟨hsome, rfl⟩ := setImplementation_ok h₁
  have htarget : target ≠ 0 := by
    rintro rfl
    rw [hcode] at hsome
    cases hsome
  unfold initializeBehind at h
  split at h
  case h_2 => cases h
  case h_1 hdelegate =>
    rw [Except.ok.inj h] at hdelegate
    unfold delegateInitialize at hdelegate
    split at hdelegate
    case h_1 i hi =>
      obtain ⟨hlt, s, hs, rfl⟩ := initializer_ok hdelegate hp
      exact ⟨⟨htarget, ⟨i, hi, rfl⟩, hp, i.body_records _ _ _ hs⟩, rfl, hlt⟩
    case h_2 => cases hdelegate
    case h_3 hnone =>
      rw [hnone] at hsome
      cases hsome

theorem Settled.callInitialize_refused (h : p.Settled codes args) (sender : Address) (args' : ι) :
    p.callInitialize codes sender args' = .error .fallbackFromAdmin ∨
      p.callInitialize codes sender args' = .error .alreadyInitialized := by
  obtain ⟨i, hi, hrevision⟩ := h.revision
  by_cases hs : sender = p.admin
  · exact .inl (by simp [callInitialize, require, hs])
  · refine .inr ?_
    simp [callInitialize, require, hs, delegateInitialize, hi, initializer, h.initializing,
      hrevision]

theorem Settled.stranger (h : p.Settled codes args) {call : Call ι} (hs : sender ≠ p.admin)
    (hcall : call.execute codes p sender = .ok p') : p' = p := by
  cases call with
  | initializeProxy logic data =>
    exact absurd (require_ok.mp (bind_unit_ok.mp hcall).1) h.implementation
  | upgradeTo target =>
    simp only [Call.execute, upgradeTo, if_neg hs, unknownFunction, bind_unit_ok, pure_ok] at hcall
    exact hcall.2.2.symm
  | upgradeToAndCall target args =>
    simp only [Call.execute, upgradeToAndCall, if_neg hs, unknownFunction, bind_unit_ok,
      pure_ok] at hcall
    exact hcall.2.2.symm
  | callInitialize args' =>
    rcases h.callInitialize_refused sender args' with hr | hr <;>
      rw [Call.execute, hr] at hcall <;> cases hcall

theorem Settled.upgradeToAndCall_ok_iff (h : p.Settled codes args) (args' : ι)
    {i : Implementation σ ι records} (hi : codes target = some (.versioned i))
    (hbody : ∀ s, ∃ s', i.body args' s = .ok s') :
    (∃ p', p.upgradeToAndCall codes p.admin target args' = .ok p') ↔
      p.lastInitializedRevision < i.getRevision := by
  obtain ⟨s', hs'⟩ := hbody p.storage
  by_cases hlt : p.lastInitializedRevision < i.getRevision
  · simp [upgradeToAndCall, setImplementation, require, hi, initializeBehind, delegateInitialize,
      initializer, h.initializing, hlt, hs', pure, Except.pure]
  · simp [upgradeToAndCall, setImplementation, require, hi, initializeBehind, delegateInitialize,
      initializer, h.initializing, hlt, pure, Except.pure]

end Proxy

end Moola
