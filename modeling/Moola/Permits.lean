import Moola.Lib.WeakRun
import Moola.Spending

/-! Allowances of the aTokens: `approve` and its two relatives, and `permit`, by which anybody hands
in an approval that the owner has signed. Nonces put the signed approvals of an owner in an order.
Everything that these functions add is an approval by the owner, so the states with them are states
of the pool's machine. -/

namespace Moola

open Guard

structure Signature where
  v : ℕ
  r : ℕ
  s : ℕ
  deriving DecidableEq

structure Permit where
  asset : Address
  owner : Address
  spender : Address
  value : ℕ
  deadline : ℕ
  signature : Signature
  deriving DecidableEq

/-- What `ecrecover` returns for a permit at a nonce. -/
abbrev Recover := Permit → ℕ → Address

/-- A signature is of one message: it gives an address for no other permit and no other nonce. -/
def Recover.Binds (recover : Recover) : Prop :=
  ∀ p p' n n', p.signature = p'.signature → recover p n ≠ 0 → recover p n = recover p' n' →
    p = p' ∧ n = n'

/-- The one function of the aToken whose text of a revert no other has. -/
inductive DecreaseRevert
  | token (e : Revert)
  | decreasedAllowanceBelowZero

def DecreaseRevert.message : DecreaseRevert → String
  | .token e => e.message
  | .decreasedAllowanceBelowZero => "ERC20: decreased allowance below zero"

namespace AToken

def increaseAllowance (r : Reserve) (sender spender : Address) (addedValue : ℕ) : Tx Reserve := do
  let allowance ← SafeMath.add (r.aToken.allowances sender spender) addedValue
  approve r sender spender allowance

def decreaseAllowance (r : Reserve) (sender spender : Address) (subtractedValue : ℕ) :
    Except DecreaseRevert Reserve := do
  require (subtractedValue ≤ r.aToken.allowances sender spender) .decreasedAllowanceBelowZero
  (approve r sender spender (r.aToken.allowances sender spender - subtractedValue)).mapError .token

def permit (recover : Recover) (env : Env) (w : World) (nonces : Address → Address → ℕ)
    (p : Permit) : Tx (World × (Address → Address → ℕ)) := do
  require (p.owner ≠ 0) .invalidOwner
  require (env.timestamp ≤ p.deadline) .invalidExpiration
  let currentValidNonce := nonces p.asset p.owner
  require (p.owner = recover p currentValidNonce) .invalidSignature
  let nonce ← SafeMath.add currentValidNonce 1
  let w ← w.onReserve p.asset fun r => approve r p.owner p.spender p.value
  return (w, write₂ nonces p.asset p.owner nonce)

end AToken

/-- The pool and its tokens, with the nonces of the aTokens. -/
structure PermitMachine extends Machine where
  nonces : Address → Address → ℕ

/-- What happens to them: the events of the machine, and the functions of the aTokens that it
leaves out. A permit is shown with the nonce that it was accepted at. -/
inductive Event
  | pool (e : Machine.Event)
  | increaseAllowance (env : Env) (sender asset spender : Address) (addedValue : ℕ)
  | decreaseAllowance (env : Env) (sender asset spender : Address) (subtractedValue : ℕ)
  | permit (env : Env) (p : Permit) (nonce : ℕ)

namespace Event

def nonceOf (asset owner : Address) : Event → Option ℕ
  | .permit _ p nonce => if p.asset = asset ∧ p.owner = owner then some nonce else none
  | _ => none

def signatureOf (owner : Address) : Event → Option Signature
  | .permit _ p _ => if p.owner = owner then some p.signature else none
  | _ => none

end Event

namespace PermitMachine

def Tick (s s' : PermitMachine) : Prop :=
  ∃ later, s.time ≤ later ∧ s.loans = [] ∧ s' = { s with time := later }

inductive Fires (recover : Recover) : Event → PermitMachine → PermitMachine → Prop
  | pool {s : PermitMachine} {e : Machine.Event} {m : Machine} : s.toMachine.Fires e m →
      Fires recover (.pool e) s { s with toMachine := m }
  | increaseAllowance {s : PermitMachine} {env : Env} {sender asset spender : Address}
      {addedValue : ℕ} {r : Reserve} : env.timestamp = s.time →
      AToken.increaseAllowance (s.world.reserves asset) sender spender addedValue = .ok r →
      Fires recover (.increaseAllowance env sender asset spender addedValue) s
        { s with world := s.world.setReserve asset r }
  | decreaseAllowance {s : PermitMachine} {env : Env} {sender asset spender : Address}
      {subtractedValue : ℕ} {r : Reserve} : env.timestamp = s.time →
      AToken.decreaseAllowance (s.world.reserves asset) sender spender subtractedValue = .ok r →
      Fires recover (.decreaseAllowance env sender asset spender subtractedValue) s
        { s with world := s.world.setReserve asset r }
  | permit {s : PermitMachine} {env : Env} {p : Permit} {w : World}
      {nonces : Address → Address → ℕ} : env.timestamp = s.time →
      AToken.permit recover env s.world s.nonces p = .ok (w, nonces) →
      Fires recover (.permit env p (s.nonces p.asset p.owner)) s { s with world := w, nonces }

/-- A run shows its events; time passes silently. -/
abbrev Runs (recover : Recover) : List Event → PermitMachine → PermitMachine → Prop :=
  WeakRun Tick (Fires recover)

variable {recover : Recover} {s s' : PermitMachine} {e : Event} {events : List Event}

theorem increaseAllowance_approves {w : World} {r : Reserve} {sender asset spender : Address}
    {addedValue : ℕ}
    (h : AToken.increaseAllowance (w.reserves asset) sender spender addedValue = .ok r) :
    w.onReserve asset (fun r' => AToken.approve r' sender spender
      ((w.reserves asset).aToken.allowances sender spender + addedValue)) =
        .ok (w.setReserve asset r) := by
  simp only [AToken.increaseAllowance, bind_ok, SafeMath.add_ok] at h
  obtain ⟨_, ⟨-, rfl⟩, h⟩ := h
  exact World.onReserve_ok.mpr ⟨r, h, rfl⟩

theorem decreaseAllowance_approves {w : World} {r : Reserve} {sender asset spender : Address}
    {subtractedValue : ℕ}
    (h : AToken.decreaseAllowance (w.reserves asset) sender spender subtractedValue = .ok r) :
    w.onReserve asset (fun r' => AToken.approve r' sender spender
      ((w.reserves asset).aToken.allowances sender spender - subtractedValue)) =
        .ok (w.setReserve asset r) := by
  simp only [AToken.decreaseAllowance, bind_unit_ok, require_ok, mapError_ok] at h
  exact World.onReserve_ok.mpr ⟨r, h.2, rfl⟩

theorem permit_ok {env : Env} {w w' : World} {nonces nonces' : Address → Address → ℕ} {p : Permit}
    (h : AToken.permit recover env w nonces p = .ok (w', nonces')) :
    p.owner ≠ 0 ∧ p.owner = recover p (nonces p.asset p.owner) ∧
      w.onReserve p.asset (fun r => AToken.approve r p.owner p.spender p.value) = .ok w' ∧
      nonces' = write₂ nonces p.asset p.owner (nonces p.asset p.owner + 1) := by
  simp only [AToken.permit, bind_ok, exists_unit, require_ok, SafeMath.add_ok, pure_ok,
    Prod.mk.injEq] at h
  obtain ⟨howner, -, hsigned, _, ⟨-, rfl⟩, w₁, hw, rfl, rfl⟩ := h
  exact ⟨howner, hsigned, hw, rfl⟩

theorem Fires.step (h : Fires recover e s s') : Step s.toMachine s'.toMachine := by
  cases h with
  | pool h => exact .fires trivial h
  | increaseAllowance htime h =>
    exact .call _ (.approve _ _ _) htime (by rw [exec, increaseAllowance_approves h])
  | decreaseAllowance htime h =>
    exact .call _ (.approve _ _ _) htime (by rw [exec, decreaseAllowance_approves h])
  | @permit s env p w nonces htime h =>
    exact .call p.owner (.approve p.asset p.spender p.value) htime (permit_ok h).2.2.1

theorem Runs.steps (h : Runs recover events s s') :
    Relation.ReflTransGen Step s.toMachine s'.toMachine := by
  refine WeakRun.relates (fun s s' : PermitMachine =>
    Relation.ReflTransGen Step s.toMachine s'.toMachine) (fun _ => .refl) (fun _ _ _ => .trans)
    ?_ h fun _ _ _ _ hfires => .single hfires.step
  rintro s _ ⟨later, hle, hloans, rfl⟩
  exact .single (.tick later hle hloans)

theorem Fires.permit_nonces {env : Env} {p : Permit} {n : ℕ}
    (h : Fires recover (.permit env p n) s s') : p.owner ≠ 0 ∧ recover p n = p.owner ∧
      s.nonces p.asset p.owner = n ∧ s'.nonces = write₂ s.nonces p.asset p.owner (n + 1) := by
  cases h with
  | permit htime h =>
    obtain ⟨howner, hsigned, -, rfl⟩ := permit_ok h
    exact ⟨howner, hsigned.symm, rfl, rfl⟩

theorem Fires.nonceOf (h : Fires recover e s s') (asset owner : Address) :
    e.nonceOf asset owner = none ∧ s'.nonces asset owner = s.nonces asset owner ∨
      e.nonceOf asset owner = some (s.nonces asset owner) ∧
        s'.nonces asset owner = s.nonces asset owner + 1 := by
  cases e with
  | permit env p n =>
    obtain ⟨-, -, hn, hnonces⟩ := h.permit_nonces
    by_cases hp : p.asset = asset ∧ p.owner = owner
    · obtain ⟨rfl, rfl⟩ := hp
      exact .inr ⟨by simp [Event.nonceOf, hn], by simp [hnonces, write₂_apply, hn]⟩
    · have hsame : ¬(asset = p.asset ∧ owner = p.owner) := fun he => hp ⟨he.1.symm, he.2.symm⟩
      exact .inl ⟨if_neg hp, by rw [hnonces, write₂_apply, if_neg hsame]⟩
  | _ =>
    cases h
    exact .inl ⟨rfl, rfl⟩

theorem Tick.nonces (h : Tick s s') : s'.nonces = s.nonces := by
  obtain ⟨later, -, -, rfl⟩ := h
  rfl

theorem Fires.nonces_le (h : Fires recover e s s') (asset owner : Address) :
    s.nonces asset owner ≤ s'.nonces asset owner := by
  obtain ⟨-, hsame⟩ | ⟨-, hnext⟩ := h.nonceOf asset owner
  · exact hsame.ge
  · omega

/-- A signature of the owner for a nonce that is not used up. -/
def Usable (recover : Recover) (owner : Address) (s : PermitMachine) (signature : Signature) :
    Prop :=
  ∃ p n, p.signature = signature ∧ recover p n = owner ∧ s.nonces p.asset owner ≤ n

theorem Usable.mono {owner : Address} {signature : Signature}
    (hle : ∀ asset, s.nonces asset owner ≤ s'.nonces asset owner)
    (h : Usable recover owner s' signature) : Usable recover owner s signature := by
  obtain ⟨p, n, hsignature, hsigned, hn⟩ := h
  exact ⟨p, n, hsignature, hsigned, (hle _).trans hn⟩

theorem Fires.uses (hbinds : recover.Binds) (h : Fires recover e s s') {owner : Address}
    {signature : Signature} (he : e.signatureOf owner = some signature) :
    Usable recover owner s signature ∧ ¬Usable recover owner s' signature := by
  cases e with
  | permit env p n =>
    obtain ⟨howner, hsigned, hn, hnonces⟩ := h.permit_nonces
    rw [Event.signatureOf] at he
    split at he
    case isFalse => cases he
    case isTrue ho =>
      subst ho
      obtain rfl := Option.some.inj he
      refine ⟨⟨p, n, rfl, hsigned, hn.le⟩, ?_⟩
      rintro ⟨p', n', hsame, hsigned', hle⟩
      obtain ⟨rfl, rfl⟩ := hbinds p p' n n' hsame.symm (hsigned ▸ howner)
        (hsigned.trans hsigned'.symm)
      rw [hnonces, write₂_apply, if_pos ⟨rfl, rfl⟩] at hle
      omega
  | _ => cases he

/-- A run with permits is one of the pool's machine; the permits of an owner are accepted in the
order of his nonces, and none of his signatures is accepted twice, whoever hands them in. -/
theorem permits_accepted_once (hbinds : recover.Binds) (h : Runs recover events s s')
    (owner : Address) :
    Relation.ReflTransGen Step s.toMachine s'.toMachine ∧
    (∀ asset, ∃ n, s'.nonces asset owner = s.nonces asset owner + n ∧
      events.filterMap (Event.nonceOf asset owner) = List.range' (s.nonces asset owner) n) ∧
    (events.filterMap (Event.signatureOf owner)).Nodup := by
  refine ⟨h.steps, ?_, ?_⟩
  · intro asset
    exact h.in_order (fun s => s.nonces asset owner) (Event.nonceOf asset owner)
      (fun _ _ htick => congrFun₂ htick.nonces asset owner)
      fun _ _ _ hfires => hfires.nonceOf asset owner
  · refine (h.once (Usable recover owner) (Event.signatureOf owner) ?_ ?_ ?_).1
    · exact fun _ _ htick _ => Usable.mono fun asset => (congrFun₂ htick.nonces asset owner).ge
    · exact fun _ _ _ hfires _ => Usable.mono fun asset => hfires.nonces_le asset owner
    · exact fun _ _ _ hfires _ => hfires.uses hbinds

def firstPermit : Permit := ⟨1, 12, 11, 100, 50, ⟨27, 5, 6⟩⟩

def secondPermit : Permit := ⟨1, 12, 11, 70, 50, ⟨28, 7, 8⟩⟩

def sampleRecover : Recover := fun p n =>
  if p = firstPermit ∧ n = 0 ∨ p = secondPermit ∧ n = 1 then 12 else 0

theorem sampleRecover_binds : sampleRecover.Binds := by
  intro p p' n n' hsame hne heq
  have hp : p = firstPermit ∧ n = 0 ∨ p = secondPermit ∧ n = 1 := by
    by_contra hnot
    exact hne (if_neg hnot)
  have hp' : p' = firstPermit ∧ n' = 0 ∨ p' = secondPermit ∧ n' = 1 := by
    by_contra hnot
    exact hne (heq.trans (if_neg hnot))
  rcases hp with ⟨rfl, rfl⟩ | ⟨rfl, rfl⟩ <;> rcases hp' with ⟨rfl, rfl⟩ | ⟨rfl, rfl⟩
  · exact ⟨rfl, rfl⟩
  · exact absurd hsame (by decide)
  · exact absurd hsame (by decide)
  · exact ⟨rfl, rfl⟩

theorem permits_sample_runs : (do
    let w ← runAll sampleStart (sampleListing 40 1 9)
    let (w₁, nonces) ← AToken.permit sampleRecover (sampleEnv 40) w (fun _ _ => 0) firstPermit
    let (w₂, nonces) ← AToken.permit sampleRecover (sampleEnv 40) w₁ nonces secondPermit
    return ((w₂.reserves 1).aToken.allowances 12 11, nonces 1 12)) = .ok (70, 2) := by
  decide +kernel

theorem permits_accepted_once_sample : ∃ s s' events, Runs sampleRecover events s s' ∧
    events.length = 2 ∧ s'.nonces 1 12 = 2 ∧
    Relation.ReflTransGen Step s.toMachine s'.toMachine ∧
    (∀ asset, ∃ n, s'.nonces asset 12 = s.nonces asset 12 + n ∧
      events.filterMap (Event.nonceOf asset 12) = List.range' (s.nonces asset 12) n) ∧
    (events.filterMap (Event.signatureOf 12)).Nodup := by
  obtain ⟨w, -, hrest⟩ := bind_ok.mp permits_sample_runs
  obtain ⟨⟨w₁, nonces₁⟩, h₁, hrest⟩ := bind_ok.mp hrest
  obtain ⟨⟨w₂, nonces₂⟩, h₂, hrest⟩ := bind_ok.mp hrest
  simp only [pure_ok, Prod.mk.injEq] at hrest
  have hfirst := Fires.permit (s := ⟨⟨w, 40, []⟩, fun _ _ => 0⟩) rfl h₁
  have hsecond := Fires.permit (s := ⟨⟨w₁, 40, []⟩, nonces₁⟩) rfl h₂
  have hruns : Runs sampleRecover _ _ _ := .labelled hfirst (.single hsecond)
  exact ⟨_, _, _, hruns, rfl, hrest.2, permits_accepted_once sampleRecover_binds hruns 12⟩

end PermitMachine

end Moola
